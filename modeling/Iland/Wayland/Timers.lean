import Iland.Data.Registry
import Iland.Wayland.Signals

namespace Iland.Wayland.Timers

open Iland.Data

/-! Timers of the event loop.

Each timer has a kqueue with a one-shot timer of the kernel, a source of the
real library that watches a duplicate of its descriptor, and a place in a
table.  Descriptors and sources are told apart by identity.
-/

def maxTimers : ℕ := 32

/-- `struct timer_source`; each has a kqueue of its own. -/
structure TimerSource where
  kq : ℕ
  fdSource : Source
  func : ℕ
  data : UInt64
deriving DecidableEq

/-- The timer of a kqueue.  Reading its event or deleting it turns it off. -/
inductive KernelTimer where
  | off
  | armed
  | expired
deriving DecidableEq

structure Loop where
  timers : List TimerSource
  /-- The kqueues that are open. -/
  opened : List ℕ
  kernel : ℕ → KernelTimer
  nextKq : ℕ
  nextSource : Source
  /-- The sources that the real library watches, with the pointers it passes on. -/
  live : List TimerSource
  /-- The calls of `timer_dispatch` that have not returned, the innermost first. -/
  dispatching : List TimerSource

def Loop.initial : Loop := ⟨[], [], fun _ => .off, 0, 0, [], []⟩

/-- How the system answers to `wl_event_loop_add_timer`. -/
structure AddAnswers where
  calloc : Bool
  kqueue : Bool
  /-- Whether `dlsym` finds `wl_event_loop_add_fd`. -/
  symbol : Bool
  addFd : Bool

def addsWell : AddAnswers := ⟨true, true, true, true⟩

namespace Loop

variable (loop : Loop)

def findTimerBySource (source : Source) : Option TimerSource := loop.timers.find? (fun ts => ts.fdSource = source)

def untrackTimer (ts : TimerSource) : Loop := { loop with timers := unregister TimerSource.kq ts.kq loop.timers }

def kqueue : ℕ × Loop :=
  (loop.nextKq, { loop with
    nextKq := loop.nextKq + 1
    opened := loop.opened ++ [loop.nextKq]
    kernel := Function.update loop.kernel loop.nextKq .off })

def close (kq : ℕ) : Loop := { loop with opened := loop.opened.filter (· ≠ kq) }

def addFd (kq func : ℕ) (data : UInt64) : TimerSource × Loop :=
  (⟨kq, loop.nextSource, func, data⟩, { loop with
    nextSource := loop.nextSource + 1
    live := loop.live ++ [⟨kq, loop.nextSource, func, data⟩] })

def addTimer (answers : AddAnswers) (func : ℕ) (data : UInt64) : Option Source × Loop :=
  if loop.timers.length ≥ maxTimers then (none, loop)
  else if answers.calloc = false then (none, loop)
  else if answers.kqueue = false then (none, loop)
  else
    let (kq, loop) := loop.kqueue
    if answers.symbol = false then (none, loop.close kq)
    else if answers.addFd = false then (none, loop.close kq)
    else
      let (ts, loop) := loop.addFd kq func data
      (some ts.fdSource, { loop with timers := loop.timers ++ [ts] })

def setKernel (kq : ℕ) (timer : KernelTimer) : Loop := { loop with kernel := Function.update loop.kernel kq timer }

/-- `wl_event_source_timer_update`; `kevent` says whether the kernel arms the
timer. -/
def timerUpdate (source : Source) (msDelay : Int) (kevent : Bool) : Int × Loop :=
  match loop.findTimerBySource source with
  | none => (-1, loop)
  | some ts =>
      let loop := loop.setKernel ts.kq .off
      if msDelay ≥ 0 then
        if kevent then (0, loop.setKernel ts.kq .armed) else (-1, loop)
      else (0, loop)

/-- The real `wl_event_source_remove`, which is taken to be there: the library
stops watching the source and closes its duplicate. -/
def realRemove (source : Source) : Loop := { loop with live := loop.live.filter (fun ts => ts.fdSource ≠ source) }

/-- `wl_event_source_remove` for a source that is no signal source. -/
def sourceRemove (source : Source) : Loop :=
  match loop.findTimerBySource source with
  | none => loop.realRemove source
  | some ts => (loop.untrackTimer ts).realRemove source

end Loop

inductive Action where
  | addTimer (answers : AddAnswers) (func : ℕ) (data : UInt64)
  | update (source : Source) (msDelay : Int) (kevent : Bool)
  | remove (source : Source)
  /-- The delay of a kernel timer passes. -/
  | expire (kq : ℕ)
  /-- The real library calls `timer_dispatch` for a source. -/
  | dispatch (source : Source)
  /-- The innermost `timer_dispatch` looks for an event; it returns if there is
  none, and else calls back. -/
  | poll

inductive Stop where
  /-- This cannot happen now. -/
  | impossible
  | useAfterFree

inductive Output where
  | made (source : Option Source)
  | returned (value : Int)
  | called (ts : TimerSource)
  | nothing

/-- The actions of a callback come after the poll that called it and before the
next poll of its dispatch. -/
def step (loop : Loop) : Action → Except Stop (Loop × Output)
  | .addTimer answers func data => .ok ((loop.addTimer answers func data).2, .made (loop.addTimer answers func data).1)
  | .update source msDelay kevent =>
      .ok ((loop.timerUpdate source msDelay kevent).2, .returned (loop.timerUpdate source msDelay kevent).1)
  | .remove source => .ok (loop.sourceRemove source, .nothing)
  | .expire kq => if loop.kernel kq = .armed then .ok (loop.setKernel kq .expired, .nothing) else .error .impossible
  | .dispatch source =>
      match loop.live.find? (fun ts => ts.fdSource = source) with
      | none => .error .impossible
      | some ts => .ok ({ loop with dispatching := ts :: loop.dispatching }, .nothing)
  | .poll =>
      match loop.dispatching with
      | [] => .error .impossible
      | ts :: rest =>
          if loop.kernel ts.kq = .expired then
            if ts ∈ loop.timers then .ok (loop.setKernel ts.kq .off, .called ts) else .error .useAfterFree
          else .ok ({ loop with dispatching := rest }, .nothing)

/-! What a step can do. -/

/-- A step, described by what it changes. -/
inductive Step (loop : Loop) : Action → Loop → Output → Prop
  | refused {answers func data} : Step loop (.addTimer answers func data) loop (.made none)
  | failed {answers func data} :
      Step loop (.addTimer answers func data) (loop.kqueue.2.close loop.nextKq) (.made none)
  | added {answers func data} : Step loop (.addTimer answers func data)
      { loop with
        timers := loop.timers ++ [⟨loop.nextKq, loop.nextSource, func, data⟩]
        opened := loop.opened ++ [loop.nextKq]
        kernel := Function.update loop.kernel loop.nextKq .off
        nextKq := loop.nextKq + 1
        nextSource := loop.nextSource + 1
        live := loop.live ++ [⟨loop.nextKq, loop.nextSource, func, data⟩] } (.made (some loop.nextSource))
  | unknown {source msDelay kevent} : loop.findTimerBySource source = none →
      Step loop (.update source msDelay kevent) loop (.returned (-1))
  | armed {source msDelay ts} : loop.findTimerBySource source = some ts → 0 ≤ msDelay →
      Step loop (.update source msDelay true) (loop.setKernel ts.kq .armed) (.returned 0)
  | disarmed {source msDelay kevent ts value} : loop.findTimerBySource source = some ts →
      (0 ≤ msDelay → kevent = false) →
      Step loop (.update source msDelay kevent) (loop.setKernel ts.kq .off) (.returned value)
  | removedOther {source} : loop.findTimerBySource source = none →
      Step loop (.remove source) (loop.realRemove source) .nothing
  | removed {source ts} : loop.findTimerBySource source = some ts →
      Step loop (.remove source) ((loop.untrackTimer ts).realRemove source) .nothing
  | expired {kq} : loop.kernel kq = .armed → Step loop (.expire kq) (loop.setKernel kq .expired) .nothing
  | dispatched {source ts} : ts ∈ loop.live → ts.fdSource = source →
      Step loop (.dispatch source) { loop with dispatching := ts :: loop.dispatching } .nothing
  | called {ts rest} : loop.dispatching = ts :: rest → loop.kernel ts.kq = .expired → ts ∈ loop.timers →
      Step loop .poll (loop.setKernel ts.kq .off) (.called ts)
  | finished {ts rest} : loop.dispatching = ts :: rest → loop.kernel ts.kq ≠ .expired →
      Step loop .poll { loop with dispatching := rest } .nothing

variable {loop after : Loop} {a : Action} {out : Output} {source : Source} {ts : TimerSource}

theorem setKernel_setKernel (kq : ℕ) (first second : KernelTimer) :
    (loop.setKernel kq first).setKernel kq second = loop.setKernel kq second := by
  simp only [Loop.setKernel, Function.update_idem]

theorem step_addTimer (answers : AddAnswers) (func : ℕ) (data : UInt64) :
    Step loop (.addTimer answers func data) (loop.addTimer answers func data).2
      (.made (loop.addTimer answers func data).1) := by
  simp only [Loop.addTimer]
  split
  · exact .refused
  · split
    · exact .refused
    · split
      · exact .refused
      · split
        · exact .failed
        · split
          · exact .failed
          · exact .added

theorem step_update (source : Source) (msDelay : Int) (kevent : Bool) :
    Step loop (.update source msDelay kevent) (loop.timerUpdate source msDelay kevent).2
      (.returned (loop.timerUpdate source msDelay kevent).1) := by
  simp only [Loop.timerUpdate]
  cases found : loop.findTimerBySource source with
  | none => exact .unknown found
  | some ts =>
      simp only
      split
      · rename_i delayed
        cases kevent with
        | true =>
            simp only [if_true, setKernel_setKernel]
            exact .armed found delayed
        | false => exact .disarmed found (fun _ => rfl)
      · rename_i negative
        exact .disarmed found (fun delayed => absurd delayed negative)

theorem step_cases (stepped : step loop a = .ok (after, out)) : Step loop a after out := by
  cases a with
  | addTimer answers func data =>
      cases stepped
      exact step_addTimer answers func data
  | update source msDelay kevent =>
      cases stepped
      exact step_update source msDelay kevent
  | remove source =>
      cases stepped
      rw [Loop.sourceRemove]
      cases found : loop.findTimerBySource source with
      | none => exact .removedOther found
      | some ts => exact .removed found
  | expire kq =>
      simp only [step] at stepped
      split at stepped
      · rename_i armed
        cases stepped
        exact .expired armed
      · contradiction
  | dispatch source =>
      simp only [step] at stepped
      split at stepped
      · contradiction
      · rename_i ts found
        cases stepped
        exact .dispatched (List.mem_of_find?_eq_some found) (by simpa using List.find?_some found)
  | poll =>
      simp only [step] at stepped
      split at stepped
      · contradiction
      · rename_i ts rest inside
        split at stepped
        · rename_i expired
          split at stepped
          · rename_i tracked
            cases stepped
            exact .called inside expired tracked
          · contradiction
        · rename_i quiet
          cases stepped
          exact .finished inside quiet

/-! What holds throughout. -/

/-- Timers have different kqueues, open ones, and different sources, which are those
that the real library watches. -/
structure WellFormed (loop : Loop) : Prop where
  kqs : (loop.timers.map TimerSource.kq).Nodup
  sources : (loop.timers.map TimerSource.fdSource).Nodup
  kqsMade : ∀ ts ∈ loop.timers, ts.kq < loop.nextKq
  sourcesMade : ∀ ts ∈ loop.timers, ts.fdSource < loop.nextSource
  live : ∀ ts, ts ∈ loop.live ↔ ts ∈ loop.timers

theorem wellFormed_initial : WellFormed .initial where
  kqs := .nil
  sources := .nil
  kqsMade _ member := by cases member
  sourcesMade _ member := by cases member
  live _ := Iff.rfl

theorem mem_of_find (found : loop.findTimerBySource source = some ts) : ts ∈ loop.timers ∧ ts.fdSource = source :=
  ⟨List.mem_of_find?_eq_some found, by simpa using List.find?_some found⟩

theorem not_mem_of_find (missing : loop.findTimerBySource source = none) : ∀ ts ∈ loop.timers, ts.fdSource ≠ source := by
  simpa [Loop.findTimerBySource] using missing

namespace WellFormed

variable {one other : TimerSource}

theorem eq_of_kq (wf : WellFormed loop) (member : one ∈ loop.timers) (member' : other ∈ loop.timers)
    (same : one.kq = other.kq) : one = other :=
  List.inj_on_of_nodup_map wf.kqs member member' same

theorem eq_of_source (wf : WellFormed loop) (member : one ∈ loop.timers) (member' : other ∈ loop.timers)
    (same : one.fdSource = other.fdSource) : one = other :=
  List.inj_on_of_nodup_map wf.sources member member' same

theorem mem_untrack (wf : WellFormed loop) (tracked : one ∈ loop.timers) :
    other ∈ (loop.untrackTimer one).timers ↔ other ∈ loop.timers ∧ other ≠ one := by
  rw [Loop.untrackTimer, mem_unregister wf.kqs]
  refine and_congr_right fun member => not_congr ⟨wf.eq_of_kq member tracked, ?_⟩
  rintro rfl
  rfl

theorem setKernel (wf : WellFormed loop) (kq : ℕ) (timer : KernelTimer) : WellFormed (loop.setKernel kq timer) :=
  ⟨wf.kqs, wf.sources, wf.kqsMade, wf.sourcesMade, wf.live⟩

theorem fresh_kq (wf : WellFormed loop) : loop.nextKq ∉ loop.timers.map TimerSource.kq := by
  intro member
  obtain ⟨ts, tracked, same⟩ := List.mem_map.mp member
  exact absurd same (wf.kqsMade ts tracked).ne

theorem fresh_source (wf : WellFormed loop) : loop.nextSource ∉ loop.timers.map TimerSource.fdSource := by
  intro member
  obtain ⟨ts, tracked, same⟩ := List.mem_map.mp member
  exact absurd same (wf.sourcesMade ts tracked).ne

theorem step (wf : WellFormed loop) (stepped : Step loop a after out) : WellFormed after := by
  cases stepped with
  | refused => exact wf
  | failed =>
      exact ⟨wf.kqs, wf.sources, fun ts member => Nat.lt_succ_of_lt (wf.kqsMade ts member), wf.sourcesMade, wf.live⟩
  | @added _ func data =>
      refine ⟨?_, ?_, ?_, ?_, ?_⟩
      · rw [List.map_append]
        exact wf.kqs.append (List.nodup_singleton _) (by simpa using wf.fresh_kq)
      · rw [List.map_append]
        exact wf.sources.append (List.nodup_singleton _) (by simpa using wf.fresh_source)
      · intro ts member
        rcases List.mem_append.mp member with old | new
        · exact Nat.lt_succ_of_lt (wf.kqsMade ts old)
        · rw [List.mem_singleton.mp new]
          exact Nat.lt_succ_self _
      · intro ts member
        rcases List.mem_append.mp member with old | new
        · exact Nat.lt_succ_of_lt (wf.sourcesMade ts old)
        · rw [List.mem_singleton.mp new]
          exact Nat.lt_succ_self _
      · intro ts
        simp only [List.mem_append, wf.live]
  | unknown _ => exact wf
  | armed found _ => exact wf.setKernel _ _
  | disarmed found _ => exact wf.setKernel _ _
  | removedOther missing =>
      refine ⟨wf.kqs, wf.sources, wf.kqsMade, wf.sourcesMade, fun ts => ?_⟩
      simp only [Loop.realRemove, List.mem_filter, decide_eq_true_iff, wf.live]
      exact and_iff_left_of_imp (not_mem_of_find missing ts)
  | @removed source ts found =>
      obtain ⟨tracked, rfl⟩ := mem_of_find found
      refine ⟨nodup_unregister wf.kqs, ?_, ?_, ?_, fun other => ?_⟩
      · have hit : loop.timers.find? (fun y => y.kq = ts.kq) = some ts := find?_key_of_mem wf.kqs tracked
        have apart := ((unregister_perm hit).map TimerSource.fdSource).nodup_iff.mp wf.sources
        exact (List.nodup_cons.mp apart).2
      · exact fun other member => wf.kqsMade other ((wf.mem_untrack tracked).mp member).1
      · exact fun other member => wf.sourcesMade other ((wf.mem_untrack tracked).mp member).1
      · have same : (loop.untrackTimer ts).live = loop.live := rfl
        simp only [Loop.realRemove, List.mem_filter, decide_eq_true_iff, same, wf.live, wf.mem_untrack tracked]
        refine and_congr_right fun member => not_congr ⟨wf.eq_of_source member tracked, ?_⟩
        rintro rfl
        rfl
  | expired _ => exact wf.setKernel _ _
  | dispatched _ _ => exact ⟨wf.kqs, wf.sources, wf.kqsMade, wf.sourcesMade, wf.live⟩
  | called _ _ _ => exact wf.setKernel _ _
  | finished _ _ => exact ⟨wf.kqs, wf.sources, wf.kqsMade, wf.sourcesMade, wf.live⟩

end WellFormed

end Iland.Wayland.Timers

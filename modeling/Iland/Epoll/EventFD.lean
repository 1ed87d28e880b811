import Iland.Epoll.Kqueue

namespace Iland.Epoll

open Iland.Data

/-! An event counter and the threads that read it.

The threads take the mutex of the descriptor for each attempt to read and give
it back before they poll, so writes and other readers come in between.
-/

structure EventFDCtx where
  semaphore : Bool
  event : KQueueEvent
  counter : UInt64
deriving DecidableEq, Repr

def addOverflow (left right : UInt64) : Option UInt64 :=
  if left.toNat + right.toNat < 2 ^ 64 then some (left + right) else none

def uint64Max : UInt64 := 0xffffffffffffffff

def eventfdCtxInit (counter : UInt32) (semaphore : Bool) : EventFDCtx × Kqueue :=
  let (event, kq) := KQueueEvent.kqueueEventInit (0 < counter)
  (⟨semaphore, event, counter.toUInt64⟩, kq)

namespace EventFDCtx

variable (eventfd : EventFDCtx) (kq : Kqueue)

/-- The counter has its new value also where the queue refuses the event. -/
def eventfdCtxWrite (value : UInt64) (kevent : Option Error) : (EventFDCtx × Kqueue) × Option Error :=
  if value = uint64Max then ((eventfd, kq), some .EINVAL)
  else match addOverflow eventfd.counter value with
    | none => ((eventfd, kq), some .EAGAIN)
    | some newValue =>
        if uint64Max - 1 < newValue then ((eventfd, kq), some .EAGAIN)
        else match eventfd.event.kqueueEventTrigger kq kevent with
          | .error ec => (({ eventfd with counter := newValue }, kq), some ec)
          | .ok (event, kq) => (({ eventfd with counter := newValue, event := event }, kq), none)

def eventfdCtxRead : Except Error ((EventFDCtx × Kqueue) × UInt64) :=
  if eventfd.counter = 0 then .error .EAGAIN
  else
    let newValue := if eventfd.semaphore then eventfd.counter - 1 else 0
    let (event, kq) :=
      if newValue = 0 ∧ eventfd.event.isTriggered then KQueueEvent.kqueueEventClear else (eventfd.event, kq)
    .ok (({ eventfd with counter := newValue, event := event }, kq), if eventfd.semaphore then 1 else eventfd.counter)

end EventFDCtx

/-- Where a thread stands in `eventfd_ctx_read_or_block`. -/
inductive Reader
  | away
  | reading
  | polling
deriving DecidableEq, Repr

structure EventFD (n : ℕ) where
  ctx : EventFDCtx
  kq : Kqueue
  nonblock : Bool
  reader : Fin n → Reader

namespace EventFD

variable {n : ℕ}

inductive Action (n : ℕ)
  | write (value : UInt64) (kevent : Option Error)
  | setNonblock (nonblock : Bool)
  | call (i : Fin n)
  | attempt (i : Fin n)
  | wake (i : Fin n)
  /-- `poll` fails. -/
  | interrupt (i : Fin n) (ec : Error)

inductive Out
  | none
  | wrote (value : UInt64)
  | refused (ec : Error)
  /-- The counter was raised, but the queue did not take the event. -/
  | unannounced (value : UInt64) (ec : Error)
  | got (value : UInt64)
deriving DecidableEq, Repr

/-- Why a thread cannot go on. -/
inductive Stuck
  | blocked
  | misuse
deriving DecidableEq, Repr

def start (initval : UInt32) (semaphore nonblock : Bool) : EventFD n :=
  let (ctx, kq) := eventfdCtxInit initval semaphore
  ⟨ctx, kq, nonblock, fun _ => .away⟩

def step (s : EventFD n) : Action n → Except Stuck (EventFD n × Out)
  | .write value kevent =>
      let ((ctx, kq), result) := s.ctx.eventfdCtxWrite s.kq value kevent
      let out := match result with
        | .none => .wrote value
        | .some ec => if ctx = s.ctx then .refused ec else .unannounced value ec
      .ok ({ s with ctx := ctx, kq := kq }, out)
  | .setNonblock nonblock => .ok ({ s with nonblock := nonblock }, .none)
  | .call i =>
      if s.reader i = .away then .ok ({ s with reader := Function.update s.reader i .reading }, .none)
      else .error .misuse
  | .attempt i =>
      if s.reader i = .reading then
        match s.ctx.eventfdCtxRead s.kq with
        | .ok ((ctx, kq), value) =>
            .ok ({ s with ctx := ctx, kq := kq, reader := Function.update s.reader i .away }, .got value)
        | .error ec =>
            if s.nonblock then .ok ({ s with reader := Function.update s.reader i .away }, .refused ec)
            else .ok ({ s with reader := Function.update s.reader i .polling }, .none)
      else .error .misuse
  | .wake i =>
      if s.reader i = .polling then
        if s.kq.readable then .ok ({ s with reader := Function.update s.reader i .reading }, .none)
        else .error .blocked
      else .error .misuse
  | .interrupt i ec =>
      if s.reader i = .polling then .ok ({ s with reader := Function.update s.reader i .away }, .refused ec)
      else .error .misuse

end EventFD

theorem addOverflow_eq_some {left right sum : UInt64} (fits : addOverflow left right = some sum) :
    sum.toNat = left.toNat + right.toNat := by
  simp only [addOverflow] at fits
  split at fits
  · cases fits
    rw [UInt64.toNat_add]
    exact Nat.mod_eq_of_lt ‹_›
  · cases fits

namespace EventFDCtx

variable {eventfd after : EventFDCtx} {kq kq' : Kqueue}

theorem eventfdCtxWrite_cases (kq : Kqueue) (value : UInt64) (kevent : Option Error) :
    (∃ ec, eventfd.eventfdCtxWrite kq value kevent = ((eventfd, kq), some ec)) ∨
      ∃ newValue : UInt64, newValue.toNat = eventfd.counter.toNat + value.toNat ∧ newValue.toNat < 2 ^ 64 - 1 ∧
        ((∃ ec, eventfd.event.kqueueEventTrigger kq kevent = .error ec ∧
            eventfd.eventfdCtxWrite kq value kevent = (({ eventfd with counter := newValue }, kq), some ec)) ∨
          ∃ event kq', eventfd.event.kqueueEventTrigger kq kevent = .ok (event, kq') ∧
            eventfd.eventfdCtxWrite kq value kevent =
              (({ eventfd with counter := newValue, event := event }, kq'), none)) := by
  simp only [eventfdCtxWrite]
  split
  · exact .inl ⟨_, rfl⟩
  · cases sum : addOverflow eventfd.counter value with
    | none => exact .inl ⟨_, rfl⟩
    | some newValue =>
        dsimp only
        split
        · exact .inl ⟨_, rfl⟩
        · rename_i within
          have small : newValue.toNat < 2 ^ 64 - 1 := by
            have least := UInt64.not_lt.mp within
            rw [UInt64.le_iff_toNat_le] at least
            have largest : (uint64Max - 1).toNat = 2 ^ 64 - 2 := rfl
            omega
          refine .inr ⟨newValue, addOverflow_eq_some sum, small, ?_⟩
          cases triggered : eventfd.event.kqueueEventTrigger kq kevent with
          | error ec => exact .inl ⟨ec, rfl, rfl⟩
          | ok result => exact .inr ⟨result.1, result.2, rfl, rfl⟩

/-- What a read leaves. -/
theorem eventfdCtxRead_eq_ok {value : UInt64} (read : eventfd.eventfdCtxRead kq = .ok ((after, kq'), value)) :
    after.counter.toNat + value.toNat = eventfd.counter.toNat ∧ value ≠ 0 ∧
      (after.counter = 0 ∧ after.event = ⟨false⟩ ∧ kq' = ⟨false, false⟩ ∨
        (after.counter ≠ 0 ∨ eventfd.event.isTriggered = false) ∧ after.event = eventfd.event ∧ kq' = kq) := by
  simp only [eventfdCtxRead] at read
  split at read
  · cases read
  · rename_i raised
    have positive : 0 < eventfd.counter.toNat := by
      rcases Nat.eq_zero_or_pos eventfd.counter.toNat with zero | positive
      · exact absurd (UInt64.toNat_inj.mp zero) raised
      · exact positive
    cases mode : eventfd.semaphore with
    | true =>
        simp only [mode, if_true] at read
        have less : (eventfd.counter - 1).toNat + 1 = eventfd.counter.toNat := by
          have one : (1 : UInt64) ≤ eventfd.counter := by
            rw [UInt64.le_iff_toNat_le]
            exact positive
          rw [UInt64.toNat_sub_of_le _ _ one]
          have unit : (1 : UInt64).toNat = 1 := rfl
          omega
        split at read <;> cases read
        · exact ⟨less, by decide, .inl ⟨‹_ ∧ _›.1, rfl, rfl⟩⟩
        · rename_i quiet
          exact ⟨less, by decide, .inr ⟨by simpa only [not_and_or, Bool.not_eq_true] using quiet, rfl, rfl⟩⟩
    | false =>
        simp only [mode, Bool.false_eq_true, if_false] at read
        split at read <;> cases read
        · exact ⟨by simp, raised, .inl ⟨rfl, rfl, rfl⟩⟩
        · rename_i quiet
          exact ⟨by simp, raised, .inr ⟨.inr (Bool.not_eq_true _ ▸ fun lit => quiet ⟨trivial, lit⟩), rfl, rfl⟩⟩

end EventFDCtx

namespace EventFD

variable {n : ℕ} {s after : EventFD n}

/-! What a step of the descriptor comes to. -/

inductive Stepped (s : EventFD n) : Action n → EventFD n → Out → Prop
  | refused {action ec} {reader : Fin n → Reader} : Stepped s action { s with reader := reader } (.refused ec)
  | quiet {action nonblock} {reader : Fin n → Reader} :
      Stepped s action { s with nonblock := nonblock, reader := reader } .none
  | unannounced {value kevent newValue ec} :
      newValue.toNat = s.ctx.counter.toNat + value.toNat → newValue.toNat < 2 ^ 64 - 1 →
      s.ctx.event.kqueueEventTrigger s.kq kevent = .error ec →
      Stepped s (.write value kevent) { s with ctx := { s.ctx with counter := newValue } } (.unannounced value ec)
  | wrote {value kevent newValue event kq} :
      newValue.toNat = s.ctx.counter.toNat + value.toNat → newValue.toNat < 2 ^ 64 - 1 →
      s.ctx.event.kqueueEventTrigger s.kq kevent = .ok (event, kq) →
      Stepped s (.write value kevent) { s with ctx := { s.ctx with counter := newValue, event := event }, kq := kq }
        (.wrote value)
  | got {i ctx kq value} : s.ctx.eventfdCtxRead s.kq = .ok ((ctx, kq), value) →
      Stepped s (.attempt i) { s with ctx := ctx, kq := kq, reader := Function.update s.reader i .away } (.got value)

theorem step_stepped {action : Action n} {out : Out} (stepped : s.step action = .ok (after, out)) :
    Stepped s action after out := by
  cases action with
  | write value kevent =>
      rcases s.ctx.eventfdCtxWrite_cases s.kq value kevent with
        ⟨ec, wrote⟩ | ⟨newValue, sum, small, ⟨ec, triggered, wrote⟩ | ⟨event, kq, triggered, wrote⟩⟩
      · simp only [step, wrote, if_true, Except.ok.injEq, Prod.mk.injEq] at stepped
        obtain ⟨rfl, rfl⟩ := stepped
        exact .refused
      · simp only [step, wrote, Except.ok.injEq, Prod.mk.injEq] at stepped
        obtain ⟨rfl, rfl⟩ := stepped
        split
        · rename_i same
          rw [same]
          exact .refused
        · exact .unannounced sum small triggered
      · simp only [step, wrote, Except.ok.injEq, Prod.mk.injEq] at stepped
        obtain ⟨rfl, rfl⟩ := stepped
        exact .wrote sum small triggered
  | setNonblock nonblock =>
      cases stepped
      exact .quiet
  | call i =>
      simp only [step] at stepped
      split at stepped <;> cases stepped
      exact .quiet
  | attempt i =>
      simp only [step] at stepped
      split at stepped
      · cases read : s.ctx.eventfdCtxRead s.kq with
        | ok result =>
            simp only [read, Except.ok.injEq, Prod.mk.injEq] at stepped
            obtain ⟨rfl, rfl⟩ := stepped
            exact .got read
        | error ec =>
            simp only [read] at stepped
            split at stepped <;> cases stepped
            · exact .refused
            · exact .quiet
      · cases stepped
  | wake i =>
      simp only [step] at stepped
      split at stepped
      · split at stepped <;> cases stepped
        exact .quiet
      · cases stepped
  | interrupt i ec =>
      simp only [step] at stepped
      split at stepped <;> cases stepped
      exact .refused

/-! Nothing that is written gets lost or is read twice. -/

def Out.added : Out → ℕ
  | .wrote value => value.toNat
  | .unannounced value _ => value.toNat
  | _ => 0

def Out.taken : Out → ℕ
  | .got value => value.toNat
  | _ => 0

def Bounded (s : EventFD n) : Prop := s.ctx.counter.toNat < 2 ^ 64 - 1

theorem Stepped.balance {action : Action n} {out : Out} (stepped : Stepped s action after out) (bounded : s.Bounded) :
    after.Bounded ∧ after.ctx.counter.toNat + out.taken = s.ctx.counter.toNat + out.added := by
  cases stepped with
  | refused => exact ⟨bounded, rfl⟩
  | quiet => exact ⟨bounded, rfl⟩
  | unannounced sum small => exact ⟨small, sum⟩
  | wrote sum small => exact ⟨small, sum⟩
  | got read =>
      obtain ⟨sum, _, _⟩ := EventFDCtx.eventfdCtxRead_eq_ok read
      simp only [Bounded] at bounded ⊢
      simp only [Out.taken, Out.added]
      omega

theorem start_bounded (initval : UInt32) (semaphore nonblock : Bool) :
    (start initval semaphore nonblock : EventFD n).Bounded := by
  have small := initval.toNat_lt
  show initval.toUInt64.toNat < _
  rw [UInt32.toNat_toUInt64]
  omega

/-- Over a run, what the reads got and the counter holds in the end is what it
held at first and what the writes added, with or without announcing it. -/
theorem reads_add_up {initval : UInt32} {semaphore nonblock : Bool} {actions : List (Action n)} {last : EventFD n}
    {outs : List Out} (run : runActions step (start initval semaphore nonblock) actions = .ok (last, outs)) :
    last.ctx.counter.toNat < 2 ^ 64 - 1 ∧
      last.ctx.counter.toNat + (outs.map Out.taken).sum = initval.toNat + (outs.map Out.added).sum := by
  have bounded := start_bounded (n := n) initval semaphore nonblock
  have kept : ∀ (state : EventFD n) (action : Action n) (next : EventFD n) (out : Out), state.Bounded →
      step state action = .ok (next, out) →
      next.Bounded ∧ next.ctx.counter.toNat + out.taken = state.ctx.counter.toNat + out.added :=
    fun _ _ _ _ holds stepped => (step_stepped stepped).balance holds
  refine ⟨?_, ?_⟩
  · exact (runActions_reachable .start run).invariant bounded
      fun _ _ _ _ holds stepped => (kept _ _ _ _ holds stepped).1
  · have total := runActions_balance (fun s : EventFD n => s.ctx.counter.toNat) Out.added Out.taken kept bounded run
    rw [total]
    show initval.toUInt64.toNat + _ = _
    rw [UInt32.toNat_toUInt64]

/-- The queue does not take the event of the first write, and a read gets both. -/
theorem reads_add_up_two :
    ∃ last : EventFD 1, runActions step (start 0 false true)
        [.write 3 (some (.kernel 4)), .write 4 none, .call 0, .attempt 0, .write uint64Max none] =
          .ok (last, [.unannounced 3 (.kernel 4), .wrote 4, .none, .got 7, .refused .EINVAL]) ∧
      last.ctx.counter.toNat < 2 ^ 64 - 1 ∧
      last.ctx.counter.toNat + ([.unannounced 3 (.kernel 4), .wrote 4, .none, .got 7, .refused .EINVAL].map Out.taken).sum =
        (0 : UInt32).toNat + ([.unannounced 3 (.kernel 4), .wrote 4, .none, .got 7, .refused .EINVAL].map Out.added).sum :=
  ⟨_, rfl, reads_add_up (show runActions step (start 0 false true)
    [.write 3 (some (.kernel 4)), .write 4 none, .call 0, .attempt 0, .write uint64Max none] = .ok (_, _) from rfl)⟩

/-! The queue tells the readers when to come back. -/

def Served : Action n → Prop
  | .write _ kevent => kevent = none
  | _ => True

def Adds : Action n → Prop
  | .write value _ => value ≠ 0
  | _ => True

structure Inv (s : EventFD n) : Prop where
  shows : s.ctx.event.Shows s.kq
  silent : s.kq.signal = false
  lit : s.ctx.counter ≠ 0 → s.ctx.event.isTriggered = true

def Tight (s : EventFD n) : Prop := s.ctx.event.isTriggered = true → s.ctx.counter ≠ 0

theorem Inv.readable (inv : s.Inv) : s.kq.readable = s.ctx.event.isTriggered := by
  simp only [Kqueue.readable, inv.silent, Bool.or_false]
  exact inv.shows

theorem Stepped.inv {action : Action n} {out : Out} (stepped : Stepped s action after out) (served : Served action)
    (inv : s.Inv) : after.Inv := by
  cases stepped with
  | refused => exact ⟨inv.shows, inv.silent, inv.lit⟩
  | quiet => exact ⟨inv.shows, inv.silent, inv.lit⟩
  | unannounced _ _ triggered =>
      rw [show _ = none from served] at triggered
      obtain ⟨_, trigger⟩ := KQueueEvent.trigger_served s.ctx.event s.kq
      rw [triggered] at trigger
      cases trigger
  | wrote _ _ triggered =>
      obtain ⟨shows, lit, same⟩ := inv.shows.trigger triggered
      exact ⟨shows, same.trans inv.silent, fun _ => lit⟩
  | got read =>
      obtain ⟨sum, _, ⟨empty, event, kq⟩ | ⟨_, event, kq⟩⟩ := EventFDCtx.eventfdCtxRead_eq_ok read
      · refine ⟨?_, ?_, fun raised => absurd empty raised⟩
        · simp only [KQueueEvent.Shows, event, kq]
        · simp only [kq]
      · refine ⟨?_, ?_, fun raised => ?_⟩
        · simpa only [event, kq] using inv.shows
        · simpa only [kq] using inv.silent
        · rw [event]
          refine inv.lit fun zero => raised ?_
          rw [zero, UInt64.toNat_zero] at sum
          exact UInt64.toNat_inj.mp (Nat.eq_zero_of_add_eq_zero_right sum)

theorem Stepped.tight {action : Action n} {out : Out} (stepped : Stepped s action after out) (served : Served action)
    (adds : Adds action) (tight : s.Tight) : after.Tight := by
  cases stepped with
  | refused => exact tight
  | quiet => exact tight
  | unannounced _ _ triggered =>
      rw [show _ = none from served] at triggered
      obtain ⟨_, trigger⟩ := KQueueEvent.trigger_served s.ctx.event s.kq
      rw [triggered] at trigger
      cases trigger
  | @wrote value _ newValue _ _ sum _ _ =>
      rintro - (zero : newValue = 0)
      rw [zero, UInt64.toNat_zero] at sum
      exact adds (UInt64.toNat_inj.mp (show _ = 0 by omega))
  | got read =>
      obtain ⟨_, _, ⟨_, event, _⟩ | ⟨raised | quiet, event, _⟩⟩ := EventFDCtx.eventfdCtxRead_eq_ok read
      · intro lit
        rw [event] at lit
        cases lit
      · exact fun _ => raised
      · intro lit
        rw [event, quiet] at lit
        cases lit

theorem start_inv (initval : UInt32) (semaphore nonblock : Bool) :
    (start initval semaphore nonblock : EventFD n).Inv ∧ (start initval semaphore nonblock : EventFD n).Tight := by
  have widened : initval.toUInt64 = 0 ↔ initval = 0 := by
    rw [← UInt64.toNat_inj, UInt32.toNat_toUInt64, ← UInt32.toNat_inj]
    rfl
  have sign : decide (0 < initval) = true ↔ initval ≠ 0 := by
    rw [decide_eq_true_eq, UInt32.lt_iff_toNat_lt, UInt32.toNat_zero, Nat.pos_iff_ne_zero]
    exact not_congr (UInt32.toNat_inj (a := initval) (b := 0))
  refine ⟨⟨rfl, rfl, fun raised => ?_⟩, fun lit zero => ?_⟩
  · exact sign.mpr fun zero => raised (widened.mpr zero)
  · exact sign.mp lit (widened.mp zero)

/-- However writers and readers interleave, the queue polls readable while the
counter is not zero, so that no reader sleeps on it; it polls readable only
then, unless somebody writes zero. -/
theorem readable_of_counter {initval : UInt32} {semaphore nonblock : Bool} {actions : List (Action n)}
    {last : EventFD n} {outs : List Out} (served : ∀ action ∈ actions, Served action)
    (run : runActions step (start initval semaphore nonblock) actions = .ok (last, outs)) :
    (last.ctx.counter ≠ 0 → last.kq.readable = true ∧
        ∀ i, last.reader i = .polling → ∃ after, last.step (.wake i) = .ok (after, .none)) ∧
      ((∀ action ∈ actions, Adds action) → (last.kq.readable = true ↔ last.ctx.counter ≠ 0)) := by
  obtain ⟨inv, tight⟩ := start_inv (n := n) initval semaphore nonblock
  have later : last.Inv :=
    (along_of_forall _ served).invariant (fun _ _ _ _ meets holds stepped => (step_stepped stepped).inv meets holds)
      inv run
  have lit : last.ctx.counter ≠ 0 → last.kq.readable = true := fun raised => later.readable.trans (later.lit raised)
  refine ⟨fun raised => ⟨lit raised, fun i polls => ?_⟩, fun adds => ⟨fun readable => ?_, lit⟩⟩
  · simp only [step, polls, lit raised, if_true]
    exact ⟨_, rfl⟩
  · have both : ∀ action ∈ actions, Served action ∧ Adds action := fun a member => ⟨served a member, adds a member⟩
    have tightly : last.Tight :=
      (along_of_forall _ both).invariant
        (fun _ _ _ _ meets holds stepped => (step_stepped stepped).tight meets.1 meets.2 holds) tight run
    exact tightly (later.readable ▸ readable)

/-- A reader goes to sleep, and a write lets it go on. -/
theorem readable_of_counter_one :
    ∃ last : EventFD 1, runActions step (start 0 false false) [.call 0, .attempt 0, .write 3 none] =
        .ok (last, [.none, .none, .wrote 3]) ∧
      (last.ctx.counter ≠ 0 → last.kq.readable = true ∧
          ∀ i, last.reader i = .polling → ∃ after, last.step (.wake i) = .ok (after, .none)) ∧
        ((∀ action ∈ [Action.call (0 : Fin 1), .attempt 0, .write 3 none], Adds action) →
          (last.kq.readable = true ↔ last.ctx.counter ≠ 0)) :=
  ⟨_, rfl, readable_of_counter (by simp [Served]) (show runActions step (start 0 false false)
    [.call 0, .attempt 0, .write 3 none] = .ok (_, _) from rfl)⟩

end EventFD

end Iland.Epoll

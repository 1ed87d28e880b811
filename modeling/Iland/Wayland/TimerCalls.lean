import Iland.Wayland.Timers

namespace Iland.Wayland.Timers

open Iland.Data

/-! When the timers call back.

An update with the delay 0 arms the timer, where libwayland disarms it.
-/

/-- For each source, whether its last update had a delay and it has not been
called since. -/
abbrev Due := Source → Bool

def note (loop : Loop) : Action → Output → Due → Due
  | .update source msDelay _, _, due =>
      if (loop.findTimerBySource source).isSome then Function.update due source (decide (0 < msDelay)) else due
  | .poll, .called ts, due => Function.update due ts.fdSource false
  | _, _, due => due

def noted : Loop × Due → Action → Except Stop ((Loop × Due) × Output) := recorded step note

def notedInitial : Loop × Due := (.initial, fun _ => false)

/-- Whether an action is an operation on a timer's source. -/
def Action.Concerns (loop : Loop) (ts : TimerSource) : Action → Prop
  | .addTimer .. => False
  | .update source .. | .remove source | .dispatch source => source = ts.fdSource
  | .expire kq => kq = ts.kq
  | .poll => ∃ rest, loop.dispatching = ts :: rest

/-- What a client relies on: a callback is due, an update with the delay 0
disarms, and the other timers are left alone. -/
structure Contract (pair : Loop × Due) (a : Action) : Prop where
  memory : step pair.1 a ≠ .error .useAfterFree
  calls : ∀ next ts, noted pair a = .ok (next, .called ts) → ts ∈ pair.1.timers ∧ pair.2 ts.fdSource = true
  disarms : ∀ next out source kevent, a = .update source 0 kevent → noted pair a = .ok (next, out) →
    ∀ ts ∈ next.1.timers, ts.fdSource = source → next.1.kernel ts.kq = .off
  others : ∀ next out, noted pair a = .ok (next, out) → ∀ ts ∈ pair.1.timers, ¬ a.Concerns pair.1 ts →
    ts ∈ next.1.timers ∧ ts ∈ next.1.live ∧ next.1.kernel ts.kq = pair.1.kernel ts.kq ∧ out ≠ .called ts

/-- No update arms a timer with the delay 0, and no `timer_dispatch` whose own
source has been removed finds another event. -/
def Meets (pair : Loop × Due) : Action → Prop
  | .update source msDelay kevent => msDelay = 0 → kevent = true → pair.1.findTimerBySource source = none
  | .poll => ∀ ts rest, pair.1.dispatching = ts :: rest → pair.1.kernel ts.kq = .expired → ts ∈ pair.1.timers
  | _ => True

structure Sound (pair : Loop × Due) : Prop where
  wellFormed : WellFormed pair.1
  due : ∀ ts ∈ pair.1.timers, pair.1.kernel ts.kq ≠ .off → pair.2 ts.fdSource = true

variable {pair next : Loop × Due} {loop after : Loop} {a : Action} {out : Output} {ts : TimerSource} {source : Source}

theorem noted_cases (stepped : noted pair a = .ok (next, out)) :
    Step pair.1 a next.1 out ∧ next.2 = note pair.1 a out pair.2 := by
  obtain ⟨taken, same⟩ := recorded_eq_ok.mp stepped
  exact ⟨step_cases taken, same.symm⟩

theorem memory_iff : step loop a ≠ .error .useAfterFree ↔
    ∀ ts rest, a = .poll → loop.dispatching = ts :: rest → loop.kernel ts.kq = .expired → ts ∈ loop.timers := by
  cases a with
  | addTimer answers func data => simp [step]
  | update source msDelay kevent => simp [step]
  | remove source => simp [step]
  | expire kq =>
      simp only [step]
      split <;> simp
  | dispatch source =>
      simp only [step]
      split <;> simp
  | poll =>
      cases inside : loop.dispatching with
      | nil => simp [step, inside]
      | cons ts rest =>
          simp only [step, inside]
          split
          · rename_i expired
            split <;> simp_all
          · rename_i quiet
            simp [quiet]

/-- A step leaves alone the timers it is not about. -/
theorem others_step (wf : WellFormed loop) (stepped : Step loop a after out) (tracked : ts ∈ loop.timers)
    (apart : ¬ a.Concerns loop ts) :
    ts ∈ after.timers ∧ after.kernel ts.kq = loop.kernel ts.kq ∧ out ≠ .called ts := by
  have elsewhere {other : TimerSource} (member : other ∈ loop.timers) (distinct : other ≠ ts) (timer : KernelTimer) :
      (loop.setKernel other.kq timer).kernel ts.kq = loop.kernel ts.kq :=
    Function.update_of_ne (fun same => distinct (wf.eq_of_kq member tracked same.symm)) _ _
  have unlike {source : Source} {other : TimerSource} (found : loop.findTimerBySource source = some other)
      (apart : source ≠ ts.fdSource) : other ∈ loop.timers ∧ other ≠ ts := by
    obtain ⟨member, rfl⟩ := mem_of_find found
    exact ⟨member, fun same => apart (same ▸ rfl)⟩
  have made : loop.nextKq ≠ ts.kq := (wf.kqsMade ts tracked).ne'
  cases stepped with
  | refused => exact ⟨tracked, rfl, by simp⟩
  | failed => exact ⟨tracked, Function.update_of_ne made.symm _ _, by simp⟩
  | added => exact ⟨List.mem_append_left _ tracked, Function.update_of_ne made.symm _ _, by simp⟩
  | unknown _ => exact ⟨tracked, rfl, by simp⟩
  | armed found _ =>
      obtain ⟨member, distinct⟩ := unlike found apart
      exact ⟨tracked, elsewhere member distinct _, by simp⟩
  | disarmed found _ =>
      obtain ⟨member, distinct⟩ := unlike found apart
      exact ⟨tracked, elsewhere member distinct _, by simp⟩
  | removedOther _ => exact ⟨tracked, rfl, by simp⟩
  | removed found =>
      obtain ⟨member, distinct⟩ := unlike found apart
      exact ⟨(wf.mem_untrack member).mpr ⟨tracked, distinct.symm⟩, rfl, by simp⟩
  | expired _ => exact ⟨tracked, Function.update_of_ne (Ne.symm apart) _ _, by simp⟩
  | dispatched _ _ => exact ⟨tracked, rfl, by simp⟩
  | @called other rest inside _ member =>
      have distinct : other ≠ ts := fun same => apart ⟨rest, same ▸ inside⟩
      exact ⟨tracked, elsewhere member distinct _, by simpa using distinct⟩
  | finished _ _ => exact ⟨tracked, rfl, by simp⟩

theorem contract_iff (sound : Sound pair) : Contract pair a ↔ Meets pair a := by
  constructor
  · intro contract
    cases a with
    | update source msDelay kevent =>
        rintro rfl rfl
        cases found : pair.1.findTimerBySource source with
        | none => rfl
        | some ts =>
            obtain ⟨tracked, rfl⟩ := mem_of_find found
            have taken : noted pair (.update ts.fdSource 0 true) =
                .ok ((pair.1.setKernel ts.kq .armed, note pair.1 (.update ts.fdSource 0 true) (.returned 0) pair.2),
                  .returned 0) := by
              refine recorded_eq_ok.mpr ⟨?_, rfl⟩
              simp [step, Loop.timerUpdate, found, setKernel_setKernel]
            have off := contract.disarms _ _ _ _ rfl taken ts tracked rfl
            simp [Loop.setKernel] at off
    | poll => exact fun ts rest => memory_iff.mp contract.memory ts rest rfl
    | addTimer answers func data => trivial
    | remove source => trivial
    | expire kq => trivial
    | dispatch source => trivial
  · intro meets
    refine ⟨memory_iff.mpr ?_, ?_, ?_, ?_⟩
    · rintro ts rest rfl
      exact meets ts rest
    · intro next ts stepped
      obtain ⟨taken, _⟩ := noted_cases stepped
      generalize next.1 = after at taken
      cases taken with
      | called inside expired tracked => exact ⟨tracked, sound.due ts tracked (by simp [expired])⟩
    · rintro next out source kevent rfl stepped ts tracked rfl
      obtain ⟨taken, _⟩ := noted_cases stepped
      generalize next.1 = after at taken tracked ⊢
      cases taken with
      | unknown missing => exact absurd rfl (not_mem_of_find missing ts tracked)
      | armed found _ => simp [meets rfl rfl] at found
      | disarmed found _ =>
          obtain ⟨member, same⟩ := mem_of_find found
          rw [sound.wellFormed.eq_of_source member tracked same]
          exact Function.update_self _ _ _
    · intro next out stepped ts tracked apart
      obtain ⟨taken, _⟩ := noted_cases stepped
      obtain ⟨stays, kernel, quiet⟩ := others_step sound.wellFormed taken tracked apart
      exact ⟨stays, ((sound.wellFormed.step taken).live ts).mpr stays, kernel, quiet⟩

theorem note_of_apart (stepped : Step loop a after out) (tracked : ts ∈ loop.timers) (wf : WellFormed loop)
    (apart : ¬ a.Concerns loop ts) (due : Due) : note loop a out due ts.fdSource = due ts.fdSource := by
  cases stepped with
  | armed _ _ | disarmed _ _ | unknown _ =>
      simp only [note]
      split
      · exact Function.update_of_ne (Ne.symm apart) _ _
      · rfl
  | @called other rest inside _ member =>
      refine Function.update_of_ne (fun same => apart ⟨rest, ?_⟩) _ _
      rw [wf.eq_of_source tracked member same]
      exact inside
  | refused | failed | added | removedOther _ | removed _ | expired _ | dispatched _ _ | finished _ _ => rfl

/-- What becomes of the timer that a step is about, if it stays. -/
theorem due_of_concerned (sound : Sound pair) (meets : Meets pair a) (stepped : Step pair.1 a after out)
    (tracked : ts ∈ pair.1.timers) (concerned : a.Concerns pair.1 ts) (on : after.kernel ts.kq ≠ .off) :
    note pair.1 a out pair.2 ts.fdSource = true := by
  have old := sound.due ts tracked
  cases stepped with
  | refused | failed | added => cases concerned
  | unknown missing => exact absurd concerned.symm (not_mem_of_find missing ts tracked)
  | @armed _ msDelay _ found delayed =>
      have positive : 0 < msDelay := by
        refine lt_of_le_of_ne delayed fun zero => ?_
        simp [meets zero.symm rfl] at found
      subst concerned
      simp [note, found, positive]
  | disarmed found _ =>
      obtain ⟨member, same⟩ := mem_of_find found
      rw [sound.wellFormed.eq_of_source member tracked (same.trans concerned)] at on
      exact absurd (Function.update_self _ _ _) on
  | removedOther _ => exact old on
  | removed _ => exact old on
  | expired armed =>
      subst concerned
      exact old (by simp [armed])
  | dispatched _ _ => exact old on
  | called inside _ _ =>
      obtain ⟨rest, own⟩ := concerned
      rw [inside, List.cons.injEq] at own
      rw [own.1] at on
      exact absurd (Function.update_self _ _ _) on
  | finished _ _ => exact old on

theorem Sound.step (sound : Sound pair) (meets : Meets pair a) (stepped : noted pair a = .ok (next, out)) :
    Sound next := by
  obtain ⟨taken, ledger⟩ := noted_cases stepped
  refine ⟨sound.wellFormed.step taken, fun ts tracked on => ?_⟩
  rw [ledger]
  have kept (old : ts ∈ pair.1.timers) : note pair.1 a out pair.2 ts.fdSource = true := by
    by_cases concerned : a.Concerns pair.1 ts
    · exact due_of_concerned sound meets taken old concerned on
    · rw [note_of_apart taken old sound.wellFormed concerned]
      rw [(others_step sound.wellFormed taken old concerned).2.1] at on
      exact sound.due ts old on
  generalize next.1 = after at taken tracked on
  cases taken with
  | added =>
      rcases List.mem_append.mp tracked with old | new
      · exact kept old
      · rw [List.mem_singleton.mp new] at on
        exact absurd (Function.update_self _ _ _) on
  | removed found => exact kept ((sound.wellFormed.mem_untrack (mem_of_find found).1).mp tracked).1
  | refused | failed | unknown _ | armed _ _ | disarmed _ _ | removedOther _ | expired _ | dispatched _ _ | called _ _ _
  | finished _ _ => exact kept tracked

theorem sound_initial : Sound notedInitial where
  wellFormed := wellFormed_initial
  due _ member := by cases member

/-- The contract is kept in every run exactly as far as no update has the delay
0 and no callback loses its own source while its timer has expired again. -/
theorem timer_contract_iff (actions : List Action) :
    Along noted Contract notedInitial actions ↔ Along noted Meets notedInitial actions :=
  along_iff_along (fun _ _ => contract_iff) (fun _ _ _ _ sound meets stepped => sound.step meets stepped) sound_initial
    actions

/-- A timer updated with the delay 0 calls back. -/
theorem zero_delay_calls :
    ∃ last outs, runActions noted notedInitial
        [.addTimer addsWell 7 0, .update 0 0 true, .expire 0, .dispatch 0, .poll] = .ok (last, outs) ∧
      outs.getLast? = some (.called ⟨0, 0, 7, 0⟩) ∧
      ¬ Along noted Contract notedInitial [.addTimer addsWell 7 0, .update 0 0 true] := by
  refine ⟨_, _, rfl, rfl, fun along => ?_⟩
  have contract := (along.2 _ _ rfl).1
  have off := contract.disarms _ _ _ _ rfl rfl ⟨0, 0, 7, 0⟩ (by decide) rfl
  contradiction

end Iland.Wayland.Timers

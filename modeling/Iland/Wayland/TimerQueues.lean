import Iland.Wayland.Timers

namespace Iland.Wayland.Timers

open Iland.Data

/-! Which kqueues of timers are open.

Nobody closes the kqueue of a timer that is removed.
-/

/-- The open kqueues are those of the timers. -/
def Conserved (loop : Loop) : Prop := ∀ kq, kq ∈ loop.opened ↔ kq ∈ loop.timers.map TimerSource.kq

def KeepsTimers (loop : Loop) : Action → Prop
  | .remove source => loop.findTimerBySource source = none
  | _ => True

variable {loop after : Loop} {a : Action} {out : Output}

theorem conserved_step (wf : WellFormed loop) (conserved : Conserved loop) (stepped : Step loop a after out) :
    Conserved after ↔ KeepsTimers loop a := by
  have fresh : loop.nextKq ∉ loop.opened := fun opened => wf.fresh_kq ((conserved _).mp opened)
  cases stepped with
  | failed =>
      refine iff_of_true (fun kq => ?_) trivial
      have same : kq ∈ (loop.kqueue.2.close loop.nextKq).opened ↔ kq ∈ loop.opened := by
        simp only [Loop.close, Loop.kqueue, List.mem_filter, List.mem_append, List.mem_singleton, decide_eq_true_iff]
        constructor
        · intro both
          exact both.1.resolve_right both.2
        · intro opened
          exact ⟨.inl opened, fun new => fresh (new ▸ opened)⟩
      exact same.trans (conserved kq)
  | added =>
      refine iff_of_true (fun kq => ?_) trivial
      simp only [List.map_append, List.mem_append, conserved kq, List.map_cons, List.map_nil]
  | removed found =>
      have tracked := (mem_of_find found).1
      refine iff_of_false (fun still => ?_) (by simp [KeepsTimers, found])
      have opened := (conserved _).mpr (List.mem_map_of_mem tracked)
      obtain ⟨other, member, same⟩ := List.mem_map.mp ((still _).mp opened)
      obtain ⟨stays, distinct⟩ := (wf.mem_untrack tracked).mp member
      exact distinct (wf.eq_of_kq stays tracked same)
  | removedOther missing => exact iff_of_true conserved missing
  | refused | unknown _ | armed _ _ | disarmed _ _ | expired _ | dispatched _ _ | called _ _ _ | finished _ _ =>
      exact iff_of_true conserved trivial

/-- The kqueues of timers are conserved throughout a run exactly when it removes
no timer. -/
theorem timer_kqueues_conserved_iff {actions : List Action} {last : Loop} {outs : List Output}
    (run : runActions step .initial actions = .ok (last, outs)) :
    Throughout step Conserved .initial actions ↔ Along step KeepsTimers .initial actions := by
  have good (loop : Loop) (inv : WellFormed loop ∧ Conserved loop) : Conserved loop := inv.2
  refine throughout_iff_along good ?_ ⟨wellFormed_initial, fun kq => Iff.rfl⟩ run
  intro loop a after out inv stepped
  have taken := step_cases stepped
  have exactly := conserved_step inv.1 inv.2 taken
  exact ⟨exactly, fun keeps => ⟨inv.1.step taken, exactly.mpr keeps⟩⟩

/-- Each of the calls of an add fails once, two adds succeed, and one timer runs
and is called back before the other is removed. -/
def addsAndFails : List Action := [.addTimer { addsWell with calloc := false } 7 0, .addTimer addsWell 7 0,
  .addTimer { addsWell with kqueue := false } 7 0, .addTimer { addsWell with symbol := false } 7 0,
  .addTimer { addsWell with addFd := false } 7 0, .addTimer addsWell 8 1, .update 0 20 true, .expire 0,
  .dispatch 0, .poll, .remove 1]

theorem timer_kqueues_conserved_iff_failing :
    Throughout step Conserved .initial addsAndFails ↔ Along step KeepsTimers .initial addsAndFails :=
  timer_kqueues_conserved_iff rfl

/-- The kqueue of a removed timer stays open. -/
theorem removed_timer_leaks :
    ∃ last outs, runActions step .initial [.addTimer addsWell 7 0, .remove 0] = .ok (last, outs) ∧
      last.opened = [0] ∧ last.timers = [] ∧ ¬ Conserved last := by
  refine ⟨_, _, rfl, rfl, rfl, fun conserved => ?_⟩
  have tracked := (conserved 0).mp (by decide)
  contradiction

end Iland.Wayland.Timers

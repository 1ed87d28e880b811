import Iland.Invariant

namespace Iland

open Iland.Data
open Iland.Drm

/-! Memory safety of whole runs.

Both results say exactly which runs go wrong: those with a call that misses a
condition on the state it is made in.
-/

variable {host : Host}

/-- A call finds every record that it dereferences. -/
def Action.FindsRecords (host : Host) (session : Session) : Action → Prop
  | .call c => Iland.FindsRecords host session.world c
  | _ => True

/-- A call commits no position of an object 0 that has a record. -/
def Action.StaysInside (session : Session) : Action → Prop
  | .call c => Iland.StaysInside session.world c
  | _ => True

theorem step_null_iff {session : Session} (inv : SessionInv host session) (action : Action) :
    (∀ fault, fault = Fault.nullDeref → step host session action ≠ .error fault) ↔
      action.FindsRecords host session := by
  cases action <;> simp [step_fault inv, Action.FindsRecords]

theorem step_bounds_iff {session : Session} (inv : SessionInv host session) (action : Action) :
    (∀ fault, (∃ array index, fault = Fault.outOfBounds array index) → step host session action ≠ .error fault) ↔
      action.StaysInside session := by
  cases action with
  | call c =>
      simp only [ne_eq, step_fault inv, Action.StaysInside, Action.call.injEq, exists_eq_left']
      constructor
      · intro inside
        by_contra strays
        exact inside _ ⟨.gState, -1, rfl⟩ (.inr ⟨rfl, strays⟩)
      · rintro inside fault ⟨array, index, rfl⟩ (⟨null, _⟩ | ⟨_, strays⟩)
        · contradiction
        · exact strays inside
  | _ => simp [step_fault inv, Action.StaysInside]

/-- A run dereferences no missing record exactly when each of its calls finds
the records it looks for. -/
theorem no_missing_record_iff (host : Host) (actions : List Action) :
    runActions (step host) .initial actions ≠ .error .nullDeref ↔
      Along (step host) (Action.FindsRecords host) .initial actions := by
  rw [← no_bad_error_iff_along sessionInv_step (fun _ action inv => step_null_iff inv action) sessionInv_initial]
  simp

/-- Six displays need eighteen records. -/
theorem sixth_display_has_no_record :
    runActions (step (.uniform 6)) .initial [.call (.objectGetProperties 42 1 drmModeObjectCrtc)] =
      .error .nullDeref := rfl

/-- A run stays inside the arrays exactly when none of its calls commits a
position of an object 0 with a record. -/
theorem no_index_out_of_bounds_iff (host : Host) (actions : List Action) :
    (∀ array index, runActions (step host) .initial actions ≠ .error (.outOfBounds array index)) ↔
      Along (step host) Action.StaysInside .initial actions := by
  rw [← no_bad_error_iff_along sessionInv_step (fun _ action inv => step_bounds_iff inv action) sessionInv_initial]
  constructor
  · rintro inside fault ⟨array, index, rfl⟩
    exact inside array index
  · exact fun inside array index => inside _ ⟨array, index, rfl⟩

/-- Object 0 gets a record when its properties are asked for, and its
position then goes to `g_state[-1]`. -/
theorem object_zero_moves_out_of_bounds :
    runActions (step (.uniform 1)) .initial
      [.call (.objectGetProperties 42 0 drmModeObjectPlane),
        .call (.atomicCommit 42 (some ⟨[⟨0, PropId.crtcX, 5⟩], by decide⟩) 0 0)] =
      .error (.outOfBounds .gState (-1)) := rfl

end Iland

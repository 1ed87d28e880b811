import Iland.Data.Run
import Iland.Data.References

namespace Iland.Data

/-! What a readers-writer lock is for.

Parties hold the lock for reading, for writing or not at all.  A transition
grants a request that the other holders admit, gives a hold up, or turns a
hold for writing into one for reading.
-/

inductive Hold
  | none
  | read
  | write
deriving DecidableEq, Repr

variable {ι : Type*}

/-- The others leave room for a hold. -/
def Admits (holds : ι → Hold) (i : ι) : Hold → Prop
  | .none => True
  | .read => ∀ j, j ≠ i → holds j ≠ .write
  | .write => ∀ j, j ≠ i → holds j = .none

/-- Who writes is alone. -/
def Exclusive (holds : ι → Hold) : Prop := ∀ ⦃i j⦄, holds i = .write → j ≠ i → holds j = .none

theorem exclusive_none : Exclusive fun _ : ι => Hold.none := fun _ _ writes => nomatch writes

theorem Admits.eq_none {holds : ι → Hold} {i j : ι} {hold : Hold} (admits : Admits holds i hold)
    (writes : holds j = .write) (other : j ≠ i) : hold = .none := by
  cases hold with
  | none => rfl
  | read => exact absurd writes (admits j other)
  | write => simp [admits j other] at writes

variable [DecidableEq ι]

inductive LockStep (holds : ι → Hold) : (ι → Hold) → Prop
  | stay : LockStep holds holds
  | acquire (i : ι) (hold : Hold) : holds i = .none → Admits holds i hold →
      LockStep holds (Function.update holds i hold)
  | release (i : ι) : LockStep holds (Function.update holds i .none)
  | downgrade (i : ι) : holds i = .write → LockStep holds (Function.update holds i .read)

theorem Exclusive.lockStep {holds after : ι → Hold} (exclusive : Exclusive holds) (stepped : LockStep holds after) :
    Exclusive after := by
  cases stepped with
  | stay => exact exclusive
  | acquire i hold free admits =>
      intro a b writes apart
      rcases eq_or_ne a i with rfl | away
      · rw [Function.update_self] at writes
        subst writes
        rw [Function.update_of_ne apart]
        exact admits b apart
      · rw [Function.update_of_ne away] at writes
        have silent := admits.eq_none writes away
        rcases eq_or_ne b i with rfl | beside
        · rw [Function.update_self, silent]
        · rw [Function.update_of_ne beside]
          exact exclusive writes apart
  | release i =>
      intro a b writes apart
      rcases eq_or_ne b i with rfl | beside
      · exact Function.update_self ..
      · rw [Function.update_of_ne beside]
        refine exclusive (i := a) ?_ apart
        rcases eq_or_ne a i with rfl | away
        · simp at writes
        · rwa [Function.update_of_ne away] at writes
  | downgrade i writing =>
      intro a b writes apart
      rcases eq_or_ne a i with rfl | away
      · simp at writes
      · rw [Function.update_of_ne away] at writes
        simp [exclusive writing away] at writes

end Iland.Data

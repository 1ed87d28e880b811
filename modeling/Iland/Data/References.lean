import Iland.Data.KeyedTable
import Mathlib.Algebra.BigOperators.Group.Finset.Piecewise
import Mathlib.Algebra.Order.BigOperators.Group.Finset
import Mathlib.Data.Int.Interval
import Mathlib.Tactic.Ring

namespace Iland.Data

/-! How often an object is referred to.

The references come from single holders, from the places of an array and from
the entries of a list.  A holder refers to one object or to none.
-/

variable {α β : Type*} [DecidableEq α] {n : ℕ}

def held (holder : Option α) (x : α) : ℤ := if holder = some x then 1 else 0

@[simp] theorem held_none (x : α) : held none x = 0 := rfl

theorem held_some (y x : α) : held (some y) x = if y = x then 1 else 0 := by
  simp [held]

theorem held_nonneg (holder : Option α) (x : α) : 0 ≤ held holder x := by
  simp only [held]
  split <;> decide

variable (holder : β → Option α)

def heldAt (places : Fin n → β) (x : α) : ℤ := ∑ i, held (holder (places i)) x

theorem heldAt_nonneg (places : Fin n → β) (x : α) : 0 ≤ heldAt holder places x :=
  Finset.sum_nonneg fun _ _ => held_nonneg _ x

theorem heldAt_update (places : Fin n → β) (i : Fin n) (b : β) (x : α) :
    heldAt holder (Function.update places i b) x =
      heldAt holder places x - held (holder (places i)) x + held (holder b) x := by
  have others : ∀ j ∈ Finset.univ.erase i,
      held (holder (Function.update places i b j)) x = held (holder (places j)) x := by
    intro j member
    rw [Function.update_of_ne (Finset.ne_of_mem_erase member)]
  simp only [heldAt]
  rw [← Finset.add_sum_erase _ _ (Finset.mem_univ i),
    ← Finset.add_sum_erase _ (fun j => held (holder (places j)) x) (Finset.mem_univ i), Finset.sum_congr rfl others,
    Function.update_self]
  ring

theorem heldAt_eq_card (places : Fin n → β) (x : α) :
    heldAt holder places x = (Finset.univ.filter fun i => holder (places i) = some x).card := by
  simp only [heldAt, held, Finset.sum_boole]

theorem heldAt_pos {places : Fin n → β} {i : Fin n} {x : α} (refers : holder (places i) = some x) :
    0 < heldAt holder places x := by
  rw [heldAt_eq_card, Nat.cast_pos, Finset.card_pos]
  exact ⟨i, by simpa using refers⟩

/-- No place is counted twice. -/
theorem sum_heldAt_le (objects : Finset α) (places : Fin n → β) : ∑ x ∈ objects, heldAt holder places x ≤ n := by
  have each : ∀ i, ∑ x ∈ objects, held (holder (places i)) x ≤ 1 := by
    intro i
    cases holder (places i) with
    | none => simp
    | some y =>
        simp only [held_some, Finset.sum_ite_eq]
        split <;> decide
  simp only [heldAt]
  rw [Finset.sum_comm]
  have bound := Finset.sum_le_sum fun i (_ : i ∈ (Finset.univ : Finset (Fin n))) => each i
  simpa only [Finset.sum_const, Finset.card_univ, Fintype.card_fin, nsmul_eq_mul, mul_one] using bound

theorem heldAt_eq_ite {places : Fin n → β} {x : α} (once : heldAt holder places x ≤ 1) :
    heldAt holder places x = if ∃ i, holder (places i) = some x then 1 else 0 := by
  split
  · rename_i some
    obtain ⟨i, refers⟩ := some
    exact le_antisymm once (heldAt_pos holder refers)
  · rename_i none
    exact Finset.sum_eq_zero fun i _ => if_neg fun refers => none ⟨i, refers⟩

def heldIn (entries : List β) (x : α) : ℤ := (entries.map fun b => held (holder b) x).sum

@[simp] theorem heldIn_nil (x : α) : heldIn holder [] x = 0 := rfl

@[simp] theorem heldIn_cons (b : β) (rest : List β) (x : α) :
    heldIn holder (b :: rest) x = held (holder b) x + heldIn holder rest x := by
  simp [heldIn]

@[simp] theorem heldIn_append (left right : List β) (x : α) :
    heldIn holder (left ++ right) x = heldIn holder left x + heldIn holder right x := by
  simp [heldIn]

theorem heldIn_perm {left right : List β} (perm : left.Perm right) (x : α) :
    heldIn holder left x = heldIn holder right x :=
  (perm.map _).sum_eq

theorem heldIn_nonneg (entries : List β) (x : α) : 0 ≤ heldIn holder entries x := by
  induction entries with
  | nil => exact le_rfl
  | cons b rest ih =>
      rw [heldIn_cons]
      exact add_nonneg (held_nonneg _ x) ih

theorem heldIn_erase [DecidableEq β] {entries : List β} {b : β} (member : b ∈ entries) (x : α) :
    heldIn holder (entries.erase b) x = heldIn holder entries x - held (holder b) x := by
  rw [heldIn_perm holder (List.perm_cons_erase member), heldIn_cons]
  ring

theorem heldIn_modifyFirst {p : β → Bool} {f : β → β} {entries : List β} {b : β} (found : entries.find? p = some b)
    (x : α) :
    heldIn holder (modifyFirst p f entries) x = heldIn holder entries x - held (holder b) x + held (holder (f b)) x := by
  induction entries with
  | nil => contradiction
  | cons first rest ih =>
      cases hit : p first with
      | true =>
          rw [List.find?_cons_of_pos hit, Option.some.injEq] at found
          subst found
          simp only [modifyFirst, hit, if_true, heldIn_cons]
          ring
      | false =>
          rw [List.find?_cons_of_neg (by simp [hit])] at found
          simp only [modifyFirst, hit, Bool.false_eq_true, if_false, heldIn_cons, ih found]
          ring

theorem heldIn_eq_countP (entries : List β) (x : α) :
    heldIn holder entries x = entries.countP fun b => decide (holder b = some x) := by
  induction entries with
  | nil => rfl
  | cons b rest ih =>
      rw [heldIn_cons, ih, List.countP_cons, held]
      by_cases refers : holder b = some x <;> simp [refers, add_comm]

theorem heldIn_pos {entries : List β} {b : β} {x : α} (member : b ∈ entries) (refers : holder b = some x) :
    0 < heldIn holder entries x := by
  rw [heldIn_eq_countP, Nat.cast_pos, List.countP_pos_iff]
  exact ⟨b, member, by simpa using refers⟩

theorem heldIn_eq_ite {entries : List β} {x : α} (once : heldIn holder entries x ≤ 1) :
    heldIn holder entries x = if ∃ b ∈ entries, holder b = some x then 1 else 0 := by
  split
  · rename_i some
    obtain ⟨b, member, refers⟩ := some
    exact le_antisymm once (heldIn_pos holder member refers)
  · rename_i none
    rw [heldIn_eq_countP, Nat.cast_eq_zero, List.countP_eq_zero]
    intro b member refers
    exact none ⟨b, member, of_decide_eq_true refers⟩

end Iland.Data

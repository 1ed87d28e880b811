import Mathlib.Data.Nat.Basic
import Mathlib.Tactic.Ring

namespace Iland.Data

/-! Memory by offset, and copies into it row by row.

The rows of the target are `pitch` apart, and `n` elements of each are written.
-/

variable {β : Type*} {pitch n : ℕ} {offset : ℕ → ℕ} {src dst : ℕ → β}

def copyRange (dst src : ℕ → β) (d s n : ℕ) : ℕ → β :=
  fun i => if d ≤ i ∧ i < d + n then src (s + (i - d)) else dst i

/-- A copy between memories of these sizes, if it stays inside. -/
def copyWithin (dstSize srcSize : ℕ) (dst src : ℕ → β) (d s n : ℕ) : Option (ℕ → β) :=
  if d + n ≤ dstSize ∧ s + n ≤ srcSize then some (copyRange dst src d s n) else none

/-- The target with its first `k` rows written, each from its own offset. -/
def rowsCopied (pitch n : ℕ) (offset : ℕ → ℕ) (src dst : ℕ → β) (k : ℕ) : ℕ → β :=
  fun i => if i / pitch < k ∧ i % pitch < n then src (offset (i / pitch) + i % pitch) else dst i

theorem mem_row_iff (short : n ≤ pitch) {y i : ℕ} :
    y * pitch ≤ i ∧ i < y * pitch + n ↔ i / pitch = y ∧ i % pitch < n := by
  rcases Nat.eq_zero_or_pos pitch with rfl | positive
  · have none : n = 0 := Nat.le_zero.mp short
    subst none
    simp
  · have split := Nat.div_add_mod' i pitch
    have inside := Nat.mod_lt i positive
    constructor
    · rintro ⟨lower, upper⟩
      have row : i / pitch = y := by
        refine Nat.div_eq_of_lt_le lower ?_
        rw [Nat.succ_mul]
        omega
      subst row
      exact ⟨rfl, by omega⟩
    · rintro ⟨rfl, near⟩
      omega

theorem div_mod_row {o : ℕ} (inside : o < pitch) (y : ℕ) : (y * pitch + o) / pitch = y ∧ (y * pitch + o) % pitch = o := by
  have positive : 0 < pitch := Nat.lt_of_le_of_lt (Nat.zero_le o) inside
  rw [Nat.add_comm, Nat.add_mul_div_right _ _ positive, Nat.add_mul_mod_self_right, Nat.div_eq_of_lt inside,
    Nat.mod_eq_of_lt inside, Nat.zero_add]
  exact ⟨rfl, rfl⟩

theorem rowsCopied_at {k y o : ℕ} (row : y < k) (near : o < n) (short : n ≤ pitch) :
    rowsCopied pitch n offset src dst k (y * pitch + o) = src (offset y + o) := by
  obtain ⟨sameRow, sameColumn⟩ := div_mod_row (near.trans_le short) y
  rw [rowsCopied, sameRow, sameColumn, if_pos ⟨row, near⟩]

theorem rowsCopied_succ (short : n ≤ pitch) (k : ℕ) :
    copyRange (rowsCopied pitch n offset src dst k) src (k * pitch) (offset k) n =
      rowsCopied pitch n offset src dst (k + 1) := by
  funext i
  rw [copyRange]
  by_cases here : i / pitch = k ∧ i % pitch < n
  · obtain ⟨rfl, near⟩ := here
    have column : i - i / pitch * pitch = i % pitch := by
      have split := Nat.div_add_mod' i pitch
      omega
    rw [if_pos ((mem_row_iff short).mpr ⟨rfl, near⟩), rowsCopied, if_pos ⟨Nat.lt_succ_self _, near⟩, column]
  · rw [if_neg fun inside => here ((mem_row_iff short).mp inside), rowsCopied, rowsCopied]
    have same : i / pitch < k + 1 ∧ i % pitch < n ↔ i / pitch < k ∧ i % pitch < n := by omega
    simp only [same]

/-- A loop whose rounds copy a row each copies all rows. -/
theorem foldlM_rows {round : (ℕ → β) → ℕ → Option (ℕ → β)} {h : ℕ} (short : n ≤ pitch)
    (rounds : ∀ y < h, ∀ mem, round mem y = some (copyRange mem src (y * pitch) (offset y) n)) (dst : ℕ → β) :
    (List.range h).foldlM round dst = some (rowsCopied pitch n offset src dst h) := by
  induction h with
  | zero =>
      have untouched : rowsCopied pitch n offset src dst 0 = dst := by
        funext i
        simp [rowsCopied]
      rw [untouched]
      rfl
  | succ k ih =>
      rw [List.range_succ, List.foldlM_append, ih fun y before => rounds y (Nat.lt_succ_of_lt before)]
      simp only [bind, Option.bind_some, List.foldlM_cons, List.foldlM_nil, rounds k (Nat.lt_succ_self k),
        rowsCopied_succ short]
      rfl

end Iland.Data

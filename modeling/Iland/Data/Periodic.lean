import Mathlib.Algebra.Order.Ring.Int
import Mathlib.Data.Int.Basic
import Mathlib.Tactic.Linarith
import Mathlib.Tactic.Ring

namespace Iland.Data

/-! Deadlines that come round.

The deadlines are `first`, `first + period`, `first + 2 * period` and so on.
-/

/-- How many deadlines have passed. -/
def passed (first period now : ℤ) : ℤ := if now < first then 0 else (now - first) / period + 1

/-- The first deadline that has not passed. -/
def nextDeadline (first period now : ℤ) : ℤ := first + passed first period now * period

variable {first period now later : ℤ}

theorem passed_of_lt (early : now < first) : passed first period now = 0 := if_pos early

theorem passed_of_le (due : first ≤ now) : passed first period now = (now - first) / period + 1 :=
  if_neg (by omega)

theorem nextDeadline_of_lt (early : now < first) : nextDeadline first period now = first := by
  rw [nextDeadline, passed_of_lt early, zero_mul, add_zero]

theorem passed_nonneg (first now : ℤ) (positive : 0 < period) : 0 ≤ passed first period now := by
  rcases lt_or_ge now first with early | due
  · rw [passed_of_lt early]
  · rw [passed_of_le due]
    have quotient := Int.ediv_nonneg (show 0 ≤ now - first by omega) positive.le
    omega

theorem passed_pos (positive : 0 < period) (due : first ≤ now) : 0 < passed first period now := by
  rw [passed_of_le due]
  have quotient := Int.ediv_nonneg (show 0 ≤ now - first by omega) positive.le
  omega

/-- The deadlines that have passed are the first ones. -/
theorem lt_passed_iff (first now : ℤ) (positive : 0 < period) {k : ℤ} (nonneg : 0 ≤ k) :
    k < passed first period now ↔ first + k * period ≤ now := by
  have ahead : 0 ≤ k * period := mul_nonneg nonneg positive.le
  rcases lt_or_ge now first with early | due
  · rw [passed_of_lt early]
    omega
  · rw [passed_of_le due, Int.lt_add_one_iff, Int.le_ediv_iff_mul_le positive]
    omega

theorem lt_nextDeadline (first now : ℤ) (positive : 0 < period) : now < nextDeadline first period now := by
  have count : 0 ≤ passed first period now := passed_nonneg _ _ positive
  have next := (lt_passed_iff first now positive count).not
  exact not_le.mp (next.mp (lt_irrefl _))

theorem nextDeadline_le (positive : 0 < period) (due : first ≤ now) :
    nextDeadline first period now ≤ now + period := by
  have last := (lt_passed_iff first now positive
    (k := passed first period now - 1) (by have := passed_pos positive due; omega)).mp (by omega)
  rw [nextDeadline]
  linarith

theorem le_nextDeadline (first now : ℤ) (positive : 0 < period) : first ≤ nextDeadline first period now :=
  le_add_of_nonneg_right (mul_nonneg (passed_nonneg _ _ positive) positive.le)

/-- A number is the one of the deadlines that have passed, if it parts them
from the others. -/
theorem passed_eq (positive : 0 < period) {k : ℤ} (nonneg : 0 ≤ k) (before : k = 0 ∨ first + (k - 1) * period ≤ now)
    (after : now < first + k * period) : passed first period now = k := by
  apply le_antisymm
  · by_contra more
    have within := (lt_passed_iff _ _ positive nonneg).mp (not_le.mp more)
    omega
  · rcases before with rfl | due
    · exact passed_nonneg _ _ positive
    · rcases nonneg.eq_or_lt with zero | some
      · exact zero ▸ passed_nonneg _ _ positive
      · have within := (lt_passed_iff _ _ positive (k := k - 1) (by omega)).mpr due
        omega

/-- Looking in between does not change the count. -/
theorem passed_add (first : ℤ) (positive : 0 < period) (onward : now ≤ later) :
    passed first period later =
      passed first period now + passed (nextDeadline first period now) period later := by
  have early := passed_nonneg first now positive
  have late := passed_nonneg (nextDeadline first period now) later positive
  refine passed_eq positive (add_nonneg early late) ?_ ?_
  · rcases late.eq_or_lt with none | some
    · rcases early.eq_or_lt with nothing | something
      · exact .inl (by omega)
      · right
        have due := (lt_passed_iff first now positive
          (k := passed first period now - 1) (by omega)).mp (by omega)
        rw [← none, add_zero]
        omega
    · right
      have due := (lt_passed_iff (nextDeadline first period now) later positive
        (k := passed (nextDeadline first period now) period later - 1) (by omega)).mp (by omega)
      calc first + (passed first period now + passed (nextDeadline first period now) period later - 1) * period
          = nextDeadline first period now + (passed (nextDeadline first period now) period later - 1) * period := by
            rw [nextDeadline]
            ring
        _ ≤ later := due
  · have beyond := lt_nextDeadline (nextDeadline first period now) later positive
    calc later < nextDeadline first period now + passed (nextDeadline first period now) period later * period := beyond
      _ = first + (passed first period now + passed (nextDeadline first period now) period later) * period := by
          rw [nextDeadline]
          ring

theorem passed_mono (first : ℤ) (positive : 0 < period) (onward : now ≤ later) :
    passed first period now ≤ passed first period later := by
  rw [passed_add _ positive onward]
  exact le_add_of_nonneg_right (passed_nonneg _ _ positive)

theorem nextDeadline_nextDeadline (first : ℤ) (positive : 0 < period) (onward : now ≤ later) :
    nextDeadline (nextDeadline first period now) period later = nextDeadline first period later := by
  calc nextDeadline first period now + passed (nextDeadline first period now) period later * period
      = first + (passed first period now + passed (nextDeadline first period now) period later) * period := by
        rw [nextDeadline]
        ring
    _ = nextDeadline first period later := by rw [← passed_add _ positive onward, nextDeadline]

end Iland.Data

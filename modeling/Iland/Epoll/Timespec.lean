import Mathlib.Data.Int.Basic
import Mathlib.Algebra.Order.Ring.Int
import Mathlib.Tactic.Linarith
import Mathlib.Tactic.Ring

namespace Iland.Epoll

/-! Times as seconds and nanoseconds. -/

structure Timespec where
  sec : ℤ
  nsec : ℤ
deriving DecidableEq, Repr

/-- What `__builtin_*_overflow` leaves of a result of 64 bits. -/
def int64 (z : ℤ) : Option ℤ := if -2 ^ 63 ≤ z ∧ z < 2 ^ 63 then some z else none

namespace Timespec

def zero : Timespec := ⟨0, 0⟩

def timespecIsValid (ts : Timespec) : Bool := 0 ≤ ts.sec && 0 ≤ ts.nsec && decide (ts.nsec < 1000000000)

def timespecaddSafe (tsp usp : Timespec) : Option Timespec := do
  let sec ← int64 (tsp.sec + usp.sec)
  let nsec := tsp.nsec + usp.nsec
  if 1000000000 ≤ nsec then do
    let sec ← int64 (sec + 1)
    return ⟨sec, nsec - 1000000000⟩
  else return ⟨sec, nsec⟩

def timespecsubSafe (tsp usp : Timespec) : Option Timespec := do
  let sec ← int64 (tsp.sec - usp.sec)
  let nsec := tsp.nsec - usp.nsec
  if nsec < 0 then do
    let sec ← int64 (sec - 1)
    return ⟨sec, nsec + 1000000000⟩
  else return ⟨sec, nsec⟩

/-- `timespeccmp(tsp, usp, <)` -/
def before (tsp usp : Timespec) : Bool := if tsp.sec = usp.sec then tsp.nsec < usp.nsec else tsp.sec < usp.sec

def tsToNanos (ts : Timespec) : Option ℤ := do
  let nanos ← int64 (ts.sec * 1000000000)
  int64 (nanos + ts.nsec)

def nanosToTs (nanos : ℤ) : Timespec := ⟨nanos.tdiv 1000000000, nanos.tmod 1000000000⟩

/-- The exact time. -/
def nanos (ts : Timespec) : ℤ := ts.sec * 1000000000 + ts.nsec

/-- The nanoseconds are less than a second, and the seconds fit their type. -/
structure Normal (ts : Timespec) : Prop where
  low : 0 ≤ ts.nsec
  high : ts.nsec < 1000000000
  fits : -2 ^ 63 ≤ ts.sec ∧ ts.sec < 2 ^ 63

/-- What the assertions of the source ask for. -/
structure Valid (ts : Timespec) : Prop extends Normal ts where
  nonneg : 0 ≤ ts.sec

theorem int64_of_fits {z : ℤ} (low : -2 ^ 63 ≤ z) (high : z < 2 ^ 63) : int64 z = some z := if_pos ⟨low, high⟩

theorem int64_of_large {z : ℤ} (large : 2 ^ 63 ≤ z) : int64 z = none := if_neg (by omega)

variable {ts tsp usp : Timespec}

theorem Valid.nanos_nonneg (valid : ts.Valid) : 0 ≤ ts.nanos := by
  have seconds := valid.nonneg
  have rest := valid.low
  simp only [nanos]
  omega

theorem Valid.nanos_lt (valid : ts.Valid) : ts.nanos < 2 ^ 63 * 1000000000 := by
  have high := valid.high
  have fits := valid.fits.2
  simp only [nanos]
  omega

theorem before_iff (normal : tsp.Normal) (other : usp.Normal) : tsp.before usp = true ↔ tsp.nanos < usp.nanos := by
  obtain ⟨low, high, _⟩ := normal
  obtain ⟨low', high', _⟩ := other
  simp only [before, nanos] at *
  split <;> simp only [decide_eq_true_eq] <;> omega

theorem sec_nonneg_iff (normal : ts.Normal) : 0 ≤ ts.sec ↔ 0 ≤ ts.nanos := by
  obtain ⟨low, high, _⟩ := normal
  simp only [nanos] at *
  omega

/-- A number of nanoseconds with its seconds apart. -/
def ofNanos (n : ℤ) : Timespec := ⟨n / 1000000000, n % 1000000000⟩

@[simp] theorem nanos_ofNanos (n : ℤ) : (ofNanos n).nanos = n := by
  simp only [nanos, ofNanos]
  omega

theorem ofNanos_nanos (normal : ts.Normal) : ofNanos ts.nanos = ts := by
  obtain ⟨low, high, _⟩ := normal
  obtain ⟨sec, nsec⟩ := ts
  simp only [ofNanos, nanos, Timespec.mk.injEq] at *
  omega

theorem normal_ofNanos {n : ℤ} (fits : -2 ^ 63 * 1000000000 ≤ n ∧ n < 2 ^ 63 * 1000000000) : (ofNanos n).Normal := by
  constructor <;> simp only [ofNanos] <;> omega

theorem valid_ofNanos {n : ℤ} (nonneg : 0 ≤ n) (fits : n < 2 ^ 63 * 1000000000) : (ofNanos n).Valid := by
  refine ⟨normal_ofNanos ⟨by omega, fits⟩, ?_⟩
  simp only [ofNanos]
  omega

/-- The sum is exact, if its seconds fit. -/
theorem timespecaddSafe_eq (valid : tsp.Valid) (other : usp.Valid) :
    tsp.timespecaddSafe usp =
      if tsp.nanos + usp.nanos < 2 ^ 63 * 1000000000 then some (ofNanos (tsp.nanos + usp.nanos)) else none := by
  obtain ⟨⟨low, high, _⟩, nonneg⟩ := valid
  obtain ⟨⟨low', high', _⟩, nonneg'⟩ := other
  have total : tsp.nanos + usp.nanos = (tsp.sec + usp.sec) * 1000000000 + (tsp.nsec + usp.nsec) := by
    simp only [nanos]
    ring
  rw [total]
  simp only [timespecaddSafe, ofNanos]
  rcases lt_or_ge (tsp.sec + usp.sec) (2 ^ 63) with fits | large
  · simp only [int64_of_fits (show -2 ^ 63 ≤ tsp.sec + usp.sec by omega) fits, bind, Option.bind_some]
    split
    · rcases lt_or_ge (tsp.sec + usp.sec + 1) (2 ^ 63) with fits' | large'
      · rw [int64_of_fits (by omega) fits', if_pos (by omega)]
        simp only [Option.bind_some, pure, Option.some.injEq, Timespec.mk.injEq]
        omega
      · rw [int64_of_large large', if_neg (by omega)]
        rfl
    · rw [if_pos (by omega)]
      simp only [pure, Option.some.injEq, Timespec.mk.injEq]
      omega
  · rw [int64_of_large large, if_neg (by omega)]
    rfl

/-- A difference of valid times always fits. -/
theorem timespecsubSafe_eq (valid : tsp.Valid) (other : usp.Valid) :
    tsp.timespecsubSafe usp = some (ofNanos (tsp.nanos - usp.nanos)) := by
  obtain ⟨⟨low, high, _, fits⟩, nonneg⟩ := valid
  obtain ⟨⟨low', high', _, fits'⟩, nonneg'⟩ := other
  have total : tsp.nanos - usp.nanos = (tsp.sec - usp.sec) * 1000000000 + (tsp.nsec - usp.nsec) := by
    simp only [nanos]
    ring
  rw [total]
  simp only [timespecsubSafe, ofNanos]
  rw [int64_of_fits (by omega) (by omega)]
  simp only [bind, Option.bind_some]
  split
  · rw [int64_of_fits (by omega) (by omega)]
    simp only [Option.bind_some, pure, Option.some.injEq, Timespec.mk.injEq]
    omega
  · simp only [pure, Option.some.injEq, Timespec.mk.injEq]
    omega

theorem tsToNanos_eq (nonneg : 0 ≤ ts.sec) (low : 0 ≤ ts.nsec) :
    ts.tsToNanos = if ts.nanos < 2 ^ 63 then some ts.nanos else none := by
  have total : ts.nanos = ts.sec * 1000000000 + ts.nsec := rfl
  rw [total]
  simp only [tsToNanos]
  rcases lt_or_ge (ts.sec * 1000000000) (2 ^ 63) with fits | large
  · rw [int64_of_fits (by omega) fits]
    simp only [bind, Option.bind_some]
    split
    · rw [int64_of_fits (by omega) ‹_›]
    · rw [int64_of_large (by omega)]
  · rw [int64_of_large large, if_neg (by omega)]
    rfl

theorem nanosToTs_eq {n : ℤ} (nonneg : 0 ≤ n) : nanosToTs n = ofNanos n := by
  simp only [nanosToTs, ofNanos, Int.tdiv_eq_ediv_of_nonneg nonneg, Int.tmod_eq_emod_of_nonneg nonneg]

end Timespec

end Iland.Epoll

import Iland.Epoll.TimerFD

namespace Iland.Epoll.TimerFDCtx

open Iland.Data Timespec

/-! What an observation of a timer comes to.

The source counts in seconds and nanoseconds and gives up when a number gets
too large for 64 bits; the count it then has is the exact one.
-/

variable {t : TimerFDCtx} {currentTime : Timespec}

def period (t : TimerFDCtx) : ℤ := t.current.interval.nanos

def deadline (t : TimerFDCtx) : ℤ := t.current.value.nanos

structure WellTimed (t : TimerFDCtx) : Prop where
  interval : t.current.interval.Valid
  value : t.current.value.Valid

theorem eq_zero_iff {ts : Timespec} (valid : ts.Valid) : ts = .zero ↔ ts.nanos = 0 := by
  constructor
  · rintro rfl
    rfl
  · intro none
    have low := valid.low
    have nonneg := valid.nonneg
    obtain ⟨sec, nsec⟩ := ts
    simp only [nanos, Timespec.zero, Timespec.mk.injEq] at *
    omega

theorem WellTimed.disarmed_iff (timed : t.WellTimed) : t.timerfdCtxIsDisarmed = true ↔ t.deadline = 0 := by
  simp only [timerfdCtxIsDisarmed, decide_eq_true_eq]
  exact eq_zero_iff timed.value

theorem WellTimed.interval_iff (timed : t.WellTimed) : t.timerfdCtxIsIntervalTimer = true ↔ 0 < t.period := by
  have nonneg := timed.interval.nanos_nonneg
  simp only [timerfdCtxIsIntervalTimer, decide_eq_true_eq, ne_eq, eq_zero_iff timed.interval, period]
  omega

/-- The numbers that the observation computes with fit their types. -/
def Fits (t : TimerFDCtx) (now : ℤ) : Prop :=
  passed t.deadline t.period now * t.period < 2 ^ 63 ∧ nextDeadline t.deadline t.period now < 2 ^ 63 * 1000000000

instance (now : ℤ) : Decidable (t.Fits now) := inferInstanceAs (Decidable (_ ∧ _))

/-- The timer with the expirations until some time counted. -/
def counted (t : TimerFDCtx) (now : ℤ) : TimerFDCtx :=
  { t with
    nrExpirations := (t.nrExpirations + (passed t.deadline t.period now).toNat) % 2 ^ 64
    current := { t.current with value := ofNanos (nextDeadline t.deadline t.period now) } }

theorem advance_of_lt (timed : t.WellTimed) (valid : currentTime.Valid) (early : currentTime.nanos < t.deadline) :
    t.advance currentTime = some t := by
  have bound : (ofNanos (currentTime.nanos - t.deadline)).Normal := by
    have high := timed.value.nanos_lt
    have low := valid.nanos_nonneg
    have nonneg := timed.value.nanos_nonneg
    have less := valid.nanos_lt
    exact normal_ofNanos (by simp only [deadline]; omega)
  have negative : ¬ 0 ≤ (ofNanos (currentTime.nanos - t.deadline)).sec := by
    rw [sec_nonneg_iff bound, nanos_ofNanos]
    omega
  simp only [advance, timespecsubSafe_eq valid timed.value, bind, Option.bind_some]
  exact if_neg negative

/-- The source finds the expirations exactly, and gives up exactly if a number
does not fit. -/
theorem advance_of_le (timed : t.WellTimed) (valid : currentTime.Valid) (positive : 0 < t.period)
    (due : t.deadline ≤ currentTime.nanos) :
    t.advance currentTime = if t.Fits currentTime.nanos then some (t.counted currentTime.nanos) else none := by
  have high := valid.nanos_lt
  have nonneg : 0 ≤ t.deadline := timed.value.nanos_nonneg
  have ahead : 0 ≤ currentTime.nanos - t.deadline := by omega
  have diff : (ofNanos (currentTime.nanos - t.deadline)).Valid := valid_ofNanos ahead (by omega)
  have difference : currentTime.timespecsubSafe t.current.value = some (ofNanos (currentTime.nanos - t.deadline)) :=
    timespecsubSafe_eq valid timed.value
  have period : t.current.interval.tsToNanos = if t.period < 2 ^ 63 then some t.period else none :=
    tsToNanos_eq timed.interval.nonneg timed.interval.low
  have beyond := lt_nextDeadline t.deadline currentTime.nanos positive
  have one := passed_pos positive due
  obtain ⟨f, total⟩ : ∃ f, passed t.deadline t.period currentTime.nanos = f := ⟨_, rfl⟩
  have count : (currentTime.nanos - t.deadline).tdiv t.period = f - 1 := by
    rw [← total, passed_of_le due, Int.tdiv_eq_ediv_of_nonneg ahead]
    omega
  have fits_iff : t.Fits currentTime.nanos ↔ f * t.period < 2 ^ 63 ∧ t.deadline + f * t.period < 2 ^ 63 * 1000000000 := by
    rw [Fits, nextDeadline, total]
  rw [nextDeadline, total] at beyond
  rw [total] at one
  have least : t.period ≤ f * t.period := by nlinarith
  have few : f ≤ f * t.period := by nlinarith
  simp only [advance, difference, period, bind, Option.bind_some, tsToNanos_eq diff.nonneg diff.low, nanos_ofNanos]
  rw [if_pos diff.nonneg]
  by_cases small : f * t.period < 2 ^ 63
  · have product : (ofNanos (f * t.period)).Valid := valid_ofNanos (by omega) (by omega)
    rw [if_pos (show currentTime.nanos - t.deadline < 2 ^ 63 by omega), if_pos (show t.period < 2 ^ 63 by omega)]
    simp only [Option.bind_some, count]
    rw [if_neg (by omega), show f - 1 + 1 = f by omega, int64_of_fits (by omega) small]
    have sum := timespecaddSafe_eq product timed.value
    rw [nanos_ofNanos, add_comm] at sum
    simp only [Option.bind_some, nanosToTs_eq (show 0 ≤ f * t.period by omega), sum]
    by_cases fits : t.Fits currentTime.nanos
    · have within : t.current.value.nanos + f * t.period < 2 ^ 63 * 1000000000 := (fits_iff.mp fits).2
      rw [if_pos within, if_pos fits]
      simp only [Option.bind_some, pure, counted, nextDeadline, total]
      rfl
    · have late : ¬ t.current.value.nanos + f * t.period < 2 ^ 63 * 1000000000 :=
        fun within => fits (fits_iff.mpr ⟨small, within⟩)
      rw [if_neg fits, if_neg late]
      rfl
  · rw [if_neg fun fits => small (fits_iff.mp fits).1]
    by_cases diffFits : currentTime.nanos - t.deadline < 2 ^ 63
    · by_cases periodFits : t.period < 2 ^ 63
      · rw [if_pos diffFits, if_pos periodFits]
        simp only [Option.bind_some, count, show f - 1 + 1 = f by omega, int64_of_large (not_lt.mp small),
          Option.bind_none, ite_self]
      · rw [if_pos diffFits, if_neg periodFits]
        rfl
    · rw [if_neg diffFits]
      rfl

theorem counted_of_lt (timed : t.WellTimed) {now : ℤ} (early : now < t.deadline) (few : t.nrExpirations < 2 ^ 64) :
    t.counted now = t := by
  have same : ofNanos t.deadline = t.current.value := ofNanos_nanos timed.value.toNormal
  simp only [counted, passed_of_lt early, nextDeadline_of_lt early, same, Int.toNat_zero, add_zero,
    Nat.mod_eq_of_lt few]

/-- What an observation makes of an armed timer that is due. -/
def expired (t : TimerFDCtx) (now : ℤ) : TimerFDCtx :=
  if 0 < t.period then (if t.Fits now then t.counted now else t.timerfdCtxDisarm)
  else { t with nrExpirations := (t.nrExpirations + 1) % 2 ^ 64 }.timerfdCtxDisarm

/-- An observation changes a timer only if it is armed and due. -/
theorem update_eq (timed : t.WellTimed) (valid : currentTime.Valid) :
    t.timerfdCtxUpdateToCurrentTime currentTime =
      if t.deadline = 0 ∨ currentTime.nanos < t.deadline then t else t.expired currentTime.nanos := by
  simp only [timerfdCtxUpdateToCurrentTime]
  by_cases disarmed : t.deadline = 0
  · rw [if_pos (timed.disarmed_iff.mpr disarmed), if_pos (.inl disarmed)]
  · rw [if_neg (timed.disarmed_iff.not.mpr disarmed)]
    have early_iff : currentTime.before t.current.value = true ↔ currentTime.nanos < t.deadline :=
      before_iff valid.toNormal timed.value.toNormal
    by_cases interval : 0 < t.period
    · rw [if_pos (timed.interval_iff.mpr interval)]
      by_cases early : currentTime.nanos < t.deadline
      · rw [advance_of_lt timed valid early, if_pos (.inr early), Option.getD_some]
      · rw [advance_of_le timed valid interval (not_lt.mp early), if_neg (not_or.mpr ⟨disarmed, early⟩), expired,
          if_pos interval]
        split <;> rfl
    · rw [if_neg (timed.interval_iff.not.mpr interval)]
      by_cases early : currentTime.nanos < t.deadline
      · rw [if_pos (early_iff.mpr early), if_pos (.inr early)]
      · rw [if_neg (early_iff.not.mpr early), if_neg (not_or.mpr ⟨disarmed, early⟩), expired, if_neg interval]

@[simp] theorem deadline_disarm : t.timerfdCtxDisarm.deadline = 0 := rfl

@[simp] theorem deadline_counted (now : ℤ) : (t.counted now).deadline = nextDeadline t.deadline t.period now :=
  nanos_ofNanos _

@[simp] theorem period_counted (now : ℤ) : (t.counted now).period = t.period := rfl

theorem Fits.mono {now later : ℤ} (positive : 0 < t.period) (onward : now ≤ later) (fits : t.Fits later) : t.Fits now := by
  have count := Int.mul_le_mul_of_nonneg_right (passed_mono t.deadline positive onward) positive.le
  obtain ⟨product, sum⟩ := fits
  simp only [nextDeadline] at sum
  exact ⟨by omega, by rw [nextDeadline]; omega⟩

theorem WellTimed.counted (timed : t.WellTimed) {now : ℤ} (positive : 0 < t.period) (fits : t.Fits now) :
    (t.counted now).WellTimed where
  interval := timed.interval
  value := by
    have ahead := le_nextDeadline t.deadline now positive
    exact valid_ofNanos (timed.value.nanos_nonneg.trans ahead) fits.2

theorem counted_counted {now later : ℤ} (positive : 0 < t.period) (onward : now ≤ later) :
    (t.counted now).counted later = t.counted later := by
  have early : 0 ≤ passed t.deadline t.period now := passed_nonneg _ _ positive
  have late : 0 ≤ passed (nextDeadline t.deadline t.period now) t.period later := passed_nonneg _ _ positive
  have deadline := nextDeadline_nextDeadline t.deadline positive onward
  have total : (passed t.deadline t.period later).toNat =
      (passed t.deadline t.period now).toNat + (passed (nextDeadline t.deadline t.period now) t.period later).toNat := by
    rw [passed_add _ positive onward, Int.toNat_add early late]
  show TimerFDCtx.mk _ _ _ _ _ _ _ _ = TimerFDCtx.mk _ _ _ _ _ _ _ _
  congr 1
  · show Itimerspec.mk _ (ofNanos (nextDeadline (t.counted now).deadline (t.counted now).period later)) = Itimerspec.mk _ _
    rw [deadline_counted, period_counted, deadline]
    rfl
  · show ((t.nrExpirations + _) % 2 ^ 64 + (passed (t.counted now).deadline (t.counted now).period later).toNat) % 2 ^ 64 = _
    rw [deadline_counted, period_counted, total, Nat.mod_add_mod, add_assoc]

theorem WellTimed.disarm (timed : t.WellTimed) : t.timerfdCtxDisarm.WellTimed where
  interval := timed.interval
  value := by
    constructor
    · constructor <;> simp [timerfdCtxDisarm, Timespec.zero]
    · simp [timerfdCtxDisarm, Timespec.zero]

/-- An observation in between changes nothing. -/
theorem update_update {later : Timespec} (timed : t.WellTimed) (valid : currentTime.Valid) (valid' : later.Valid)
    (onward : currentTime.nanos ≤ later.nanos) (fits : 0 < t.period → t.Fits later.nanos) :
    (t.timerfdCtxUpdateToCurrentTime currentTime).timerfdCtxUpdateToCurrentTime later =
      t.timerfdCtxUpdateToCurrentTime later := by
  rw [update_eq timed valid]
  by_cases idle : t.deadline = 0 ∨ currentTime.nanos < t.deadline
  · rw [if_pos idle]
  · obtain ⟨armed, due⟩ := not_or.mp idle
    have due' : ¬ later.nanos < t.deadline := by omega
    rw [if_neg idle, update_eq timed valid', if_neg (not_or.mpr ⟨armed, due'⟩)]
    by_cases interval : 0 < t.period
    · have fitsLater := fits interval
      have fitsNow := fitsLater.mono interval onward
      have counts : t.expired currentTime.nanos = t.counted currentTime.nanos := by
        rw [expired, if_pos interval, if_pos fitsNow]
      have beyond := lt_nextDeadline t.deadline currentTime.nanos interval
      have next : ¬ (t.counted currentTime.nanos).deadline = 0 := by
        have nonneg := valid.nanos_nonneg
        rw [deadline_counted]
        omega
      have again := counted_counted (t := t) interval onward
      have fitsAgain : (t.counted currentTime.nanos).Fits later.nanos := by
        have late := passed_nonneg t.deadline currentTime.nanos interval
        have count := passed_add t.deadline interval onward
        have product := Int.mul_le_mul_of_nonneg_right
          (show passed (nextDeadline t.deadline t.period currentTime.nanos) t.period later.nanos ≤
            passed t.deadline t.period later.nanos by omega) interval.le
        rw [Fits, deadline_counted, period_counted, nextDeadline_nextDeadline _ interval onward]
        exact ⟨product.trans_lt fitsLater.1, fitsLater.2⟩
      rw [counts, update_eq (timed.counted interval fitsNow) valid']
      have expiredLater : t.expired later.nanos = t.counted later.nanos := by
        rw [expired, if_pos interval, if_pos fitsLater]
      rw [expiredLater]
      split
      · have early := ‹_ ∨ _›.resolve_left next
        rw [← again, counted_of_lt (timed.counted interval fitsNow) early (Nat.mod_lt _ (by decide))]
      · rw [expired, period_counted, if_pos interval, if_pos fitsAgain, again]
    · have disarms : ∀ now, t.expired now =
          { t with nrExpirations := (t.nrExpirations + 1) % 2 ^ 64 }.timerfdCtxDisarm := by
        intro now
        rw [expired, if_neg interval]
      have timed' : { t with nrExpirations := (t.nrExpirations + 1) % 2 ^ 64 }.timerfdCtxDisarm.WellTimed :=
        WellTimed.disarm ⟨timed.interval, timed.value⟩
      rw [disarms, disarms, update_eq timed' valid', if_pos (.inl rfl)]

theorem update_update_interval :
    let t : TimerFDCtx := ⟨false, .monotonic, .relative, false, false, .zero, ⟨⟨0, 1000⟩, ⟨0, 500⟩⟩, 0⟩
    (t.timerfdCtxUpdateToCurrentTime ⟨0, 600⟩).timerfdCtxUpdateToCurrentTime ⟨3, 0⟩ =
      t.timerfdCtxUpdateToCurrentTime ⟨3, 0⟩ := by
  intro t
  have valid : ∀ ts ∈ [(⟨0, 1000⟩ : Timespec), ⟨0, 500⟩, ⟨0, 600⟩, ⟨3, 0⟩], ts.Valid := by
    intro ts member
    simp only [List.mem_cons, List.not_mem_nil, or_false] at member
    rcases member with rfl | rfl | rfl | rfl <;> exact ⟨⟨by decide, by decide, by decide⟩, by decide⟩
  exact update_update ⟨valid _ (by simp [t]), valid _ (by simp [t])⟩ (valid _ (by simp)) (valid _ (by simp)) (by decide)
    (by decide)

end Iland.Epoll.TimerFDCtx

import Iland.Epoll.TimerCounts
import Iland.Data.Run

namespace Iland.Epoll

open Iland.Data Timespec TimerFDCtx

/-! Timers over time.

Time passes and the real-time clock is set between the calls; each call takes
no time.  What a timer that cannot jump owes its readers is that the kernel
wakes them neither before an expiration nor much later.
-/

/-- The clocks stay below this many nanoseconds. -/
def clockLimit : ℤ := 2 ^ 62

def tenYears : ℤ := 315360000 * 1000000000

structure Kernel.Ticking (k : Kernel) : Prop where
  monotonic : 0 ≤ k.now ∧ k.now < clockLimit
  realtime : 0 ≤ k.now + k.offset ∧ k.now + k.offset < clockLimit

/-- The queue that tells of no change of the clock. -/
def Kernel.calmed (k : Kernel) : Kernel := { k with timer1 := none }

/-- The time on the clock that a timer goes by. -/
def TimerFDCtx.clock (t : TimerFDCtx) (k : Kernel) : ℤ :=
  if t.clockid = .realtime ∧ t.timerType ≠ .relative then k.now + k.offset else k.now

variable {t : TimerFDCtx} {k : Kernel}

theorem Kernel.Ticking.clock (ticking : k.Ticking) : 0 ≤ t.clock k ∧ t.clock k < clockLimit := by
  simp only [TimerFDCtx.clock]
  split
  · exact ticking.realtime
  · exact ticking.monotonic

theorem getClocktime_eq : k.getClocktime t.clockid t.timerType = ofNanos (t.clock k) := by
  simp only [Kernel.getClocktime, TimerFDCtx.clock]
  split <;> rfl

theorem Kernel.Ticking.valid (ticking : k.Ticking) : (k.getClocktime t.clockid t.timerType).Valid := by
  rw [getClocktime_eq]
  obtain ⟨low, high⟩ := ticking.clock (t := t)
  have limit : clockLimit = 2 ^ 62 := rfl
  exact valid_ofNanos low (by omega)

theorem micros_bounds (diff : Timespec) :
    diff.nanos ≤ Kernel.micros diff * 1000 ∧ Kernel.micros diff * 1000 < diff.nanos + 1000 := by
  simp only [Kernel.micros, nanos]
  by_cases odd : diff.nsec % 1000 ≠ 0
  · rw [if_pos odd]
    omega
  · rw [if_neg odd]
    omega

/-- A timer that is set rings no earlier than asked and less than a microsecond
later; one that is not set is more than ten years away. -/
theorem registerEvent_spec {new current : Timespec} (valid : new.Valid) (valid' : current.Valid) :
    ∃ timer, k.timerfdCtxRegisterEvent new current none = ({ k with timer0 := timer }, none) ∧
      (timer = none ∧ tenYears ≤ new.nanos - current.nanos ∨
        ∃ d, timer = some d ∧ k.now ≤ d ∧ k.now + (new.nanos - current.nanos) ≤ d ∧
          (d ≤ k.now ∨ d < k.now + (new.nanos - current.nanos) + 1000)) := by
  have low := valid.nanos_nonneg
  have low' := valid'.nanos_nonneg
  have high := valid.nanos_lt
  have high' := valid'.nanos_lt
  have normal : (ofNanos (new.nanos - current.nanos)).Normal := normal_ofNanos (by omega)
  have sign := sec_nonneg_iff normal
  rw [nanos_ofNanos] at sign
  have years : tenYears = 315360000 * 1000000000 := rfl
  simp only [Kernel.timerfdCtxRegisterEvent, Kernel.diffTime, timespecsubSafe_eq valid valid']
  by_cases past : (ofNanos (new.nanos - current.nanos)).sec < 0
  · rw [if_pos past]
    refine ⟨some (k.now + Kernel.micros .zero * 1000), rfl, .inr ⟨_, rfl, ?_⟩⟩
    have zero : Kernel.micros .zero = 0 := rfl
    rw [zero]
    omega
  · rw [if_neg past]
    by_cases far : 315360000 ≤ (ofNanos (new.nanos - current.nanos)).sec
    · rw [if_pos far]
      refine ⟨none, rfl, .inl ⟨rfl, ?_⟩⟩
      simp only [ofNanos] at far
      omega
    · rw [if_neg far]
      have ahead : 0 ≤ new.nanos - current.nanos := sign.mp (not_lt.mp past)
      have bounds := micros_bounds (ofNanos (new.nanos - current.nanos))
      rw [nanos_ofNanos] at bounds
      exact ⟨_, rfl, .inr ⟨_, rfl, by omega, by omega, .inr (by omega)⟩⟩

/-- The kernel can refuse only a timer that is set. -/
theorem registerEvent_refused (k : Kernel) (new current : Timespec) (ec : Error) :
    k.timerfdCtxRegisterEvent new current (some ec) = k.timerfdCtxRegisterEvent new current none ∨
      k.timerfdCtxRegisterEvent new current (some ec) = ({ k with timer0 := none }, some ec) := by
  simp only [Kernel.timerfdCtxRegisterEvent]
  by_cases far : 315360000 ≤ (Kernel.diffTime new current).sec
  · exact .inl (by rw [if_pos far, if_pos far])
  · exact .inr (if_neg far)

structure TimerFDCtx.Core (t : TimerFDCtx) (k : Kernel) : Prop where
  ticking : k.Ticking
  timed : t.WellTimed
  period : t.period < clockLimit
  typed : t.timerType = .unspecified ↔ t.deadline = 0
  cancel : t.isCancelOnSet = true → t.clockid = .realtime ∧ t.timerType ≠ .relative
  forced : t.forceCancel = true → t.clockid = .realtime
  signalled : k.timer1 ≠ none → t.forceCancel = true
  once : t.period = 0 → t.deadline ≠ 0 → t.nrExpirations = 0
  few : t.nrExpirations ≠ 0 → t.deadline ≠ 0 → t.nrExpirations ≤ t.deadline ∧ t.deadline < 2 ^ 63

/-- What holds of a timer and its kernel queue between the calls: the kernel
does not ring too early for a timer that cannot jump. -/
structure TimerFDCtx.Inv (t : TimerFDCtx) (k : Kernel) : Prop extends Core t k where
  early : t.timerfdCtxCanJump = false → t.deadline ≠ 0 → t.nrExpirations = 0 →
    ∀ d, k.timer0 = some d → t.deadline ≤ d

/-- The kernel will ring for an armed timer that cannot jump. -/
def TimerFDCtx.Owed (t : TimerFDCtx) (k : Kernel) : Prop :=
  t.timerfdCtxCanJump = false → t.deadline ≠ 0 →
    (∃ d, k.timer0 = some d ∧ (d ≤ k.now ∨ d < t.deadline + 1000)) ∨ tenYears ≤ t.deadline

namespace TimerFDCtx

theorem WellTimed.deadline_nonneg (timed : t.WellTimed) : 0 ≤ t.deadline := timed.value.nanos_nonneg

theorem clock_of_not_jump (armed : t.timerType ≠ .unspecified) (fixed : t.timerfdCtxCanJump = false) :
    t.clock k = k.now := by
  simp only [clock]
  refine if_neg fun ⟨realtime, absolute⟩ => ?_
  simp only [timerfdCtxCanJump, realtime, decide_true, Bool.true_and, decide_eq_false_iff_not] at fixed
  cases type : t.timerType with
  | unspecified => exact armed type
  | relative => exact absolute type
  | absolute => exact fixed type

/-- A short period leaves room for the numbers of an observation. -/
theorem Inv.fits (inv : t.Inv k) (positive : 0 < t.period) (due : t.deadline ≤ t.clock k) : t.Fits (t.clock k) := by
  obtain ⟨low, high⟩ := inv.ticking.clock (t := t)
  have short := inv.period
  have next := nextDeadline_le positive due
  have nonneg := inv.timed.deadline_nonneg
  have limit : clockLimit = 2 ^ 62 := rfl
  constructor
  · rw [nextDeadline] at next
    omega
  · omega

/-- A one-shot timer that has expired. -/
def spent (t : TimerFDCtx) : TimerFDCtx := { t with nrExpirations := (t.nrExpirations + 1) % 2 ^ 64 }.timerfdCtxDisarm

def observed (t : TimerFDCtx) (k : Kernel) : TimerFDCtx :=
  t.timerfdCtxUpdateToCurrentTime (k.getClocktime t.clockid t.timerType)

theorem Inv.observed_cases (inv : t.Inv k) :
    (t.deadline = 0 ∨ t.clock k < t.deadline) ∧ t.observed k = t ∨
      t.deadline ≠ 0 ∧ t.deadline ≤ t.clock k ∧
        (0 < t.period ∧ t.observed k = t.counted (t.clock k) ∨ t.period = 0 ∧ t.observed k = t.spent) := by
  have shown := update_eq inv.timed (inv.ticking.valid (t := t))
  rw [getClocktime_eq, nanos_ofNanos, ← getClocktime_eq] at shown
  by_cases idle : t.deadline = 0 ∨ t.clock k < t.deadline
  · exact .inl ⟨idle, by rw [observed, shown, if_pos idle]⟩
  · obtain ⟨armed, due⟩ := not_or.mp idle
    refine .inr ⟨armed, not_lt.mp due, ?_⟩
    rw [observed, shown, if_neg idle, expired]
    rcases inv.timed.interval.nanos_nonneg.eq_or_lt with once | interval
    · exact .inr ⟨once.symm, if_neg (not_lt.mpr once.symm.le)⟩
    · have positive : 0 < t.period := interval
      refine .inl ⟨positive, ?_⟩
      rw [if_pos positive, if_pos (inv.fits positive (not_lt.mp due))]

/-- The kernel owes nothing to a timer that is not armed. -/
theorem Core.idle (core : t.Core k) (disarmed : t.deadline = 0) : t.Inv k ∧ t.Owed k :=
  ⟨⟨core, fun _ armed => absurd disarmed armed⟩, fun _ armed => absurd disarmed armed⟩

theorem Core.disarm (core : t.Core k) (nrExpirations : ℕ) :
    { t with nrExpirations := nrExpirations }.timerfdCtxDisarm.Core k :=
  ⟨core.ticking, WellTimed.disarm ⟨core.timed.interval, core.timed.value⟩, core.period, iff_of_true rfl rfl,
    fun cancels => ⟨(core.cancel cancels).1, nofun⟩, core.forced, core.signalled, fun _ armed => absurd rfl armed,
    fun _ armed => absurd rfl armed⟩

/-- An observation counts at least one expiration of an interval timer that is due. -/
theorem Inv.counted_few (inv : t.Inv k) (positive : 0 < t.period) (armed : t.deadline ≠ 0)
    (due : t.deadline ≤ t.clock k) :
    ((t.counted (t.clock k)).nrExpirations : ℤ) = t.nrExpirations + passed t.deadline t.period (t.clock k) ∧
      t.nrExpirations + passed t.deadline t.period (t.clock k) ≤ nextDeadline t.deadline t.period (t.clock k) ∧
      nextDeadline t.deadline t.period (t.clock k) < 2 ^ 63 := by
  obtain ⟨low, high⟩ := inv.ticking.clock (t := t)
  have limit : clockLimit = 2 ^ 62 := rfl
  have short := inv.period
  have next := nextDeadline_le positive due
  have some := passed_pos positive due
  have nonneg := inv.timed.deadline_nonneg
  have product : passed t.deadline t.period (t.clock k) ≤ passed t.deadline t.period (t.clock k) * t.period := by
    nlinarith
  have sum : nextDeadline t.deadline t.period (t.clock k) =
      t.deadline + passed t.deadline t.period (t.clock k) * t.period := rfl
  have few : (t.nrExpirations : ℤ) ≤ t.deadline := by
    by_cases none : t.nrExpirations = 0
    · rw [none]
      exact nonneg
    · exact (inv.few none armed).1
  refine ⟨?_, by omega, by omega⟩
  simp only [counted]
  omega

theorem Inv.observe (inv : t.Inv k) : (t.observed k).Inv k ∧ (t.Owed k → (t.observed k).Owed k) := by
  obtain ⟨low, high⟩ := inv.ticking.clock (t := t)
  rcases inv.observed_cases with ⟨_, same⟩ | ⟨armed, due, ⟨positive, same⟩ | ⟨zero, same⟩⟩
  · rw [same]
    exact ⟨inv, id⟩
  · have fits := inv.fits positive due
    have ahead := le_nextDeadline t.deadline (t.clock k) positive
    have nonneg := inv.timed.deadline_nonneg
    obtain ⟨count, few, small⟩ := inv.counted_few positive armed due
    have some := passed_pos positive due
    rw [same]
    refine ⟨⟨⟨inv.ticking, inv.timed.counted positive fits, inv.period, ?_, inv.cancel, inv.forced, inv.signalled, ?_,
      ?_⟩, ?_⟩, ?_⟩
    · refine iff_of_false (fun type => armed (inv.typed.mp type)) ?_
      rw [deadline_counted]
      omega
    · intro none
      rw [period_counted] at none
      omega
    · intro _ _
      rw [count, deadline_counted]
      exact ⟨few, small⟩
    · intro _ _ none
      omega
    · intro owed fixed _
      rw [deadline_counted]
      rcases owed fixed armed with ⟨d, set, rings⟩ | far
      · exact .inl ⟨d, set, by omega⟩
      · exact .inr (by omega)
  · rw [same]
    have core : t.spent.Core k := (Core.mk inv.ticking inv.timed inv.period inv.typed inv.cancel inv.forced
      inv.signalled inv.once inv.few).disarm _
    obtain ⟨idle, owed⟩ := core.idle rfl
    exact ⟨idle, fun _ => owed⟩

/-- The timer with other marks of a change of the clock. -/
def mark (t : TimerFDCtx) (monotonicOffset : Timespec) (forceCancel : Bool) : TimerFDCtx :=
  { t with monotonicOffset := monotonicOffset, forceCancel := forceCancel }

theorem Core.marked (core : t.Core k) (monotonicOffset : Timespec) {force : Bool} {timer1 : Option ℤ}
    (forced : force = true → t.clockid = .realtime) (signalled : timer1 ≠ none → force = true) :
    (t.mark monotonicOffset force).Core { k with timer1 := timer1 } :=
  ⟨⟨core.ticking.monotonic, core.ticking.realtime⟩, ⟨core.timed.interval, core.timed.value⟩, core.period, core.typed,
    core.cancel, forced, signalled, core.once, core.few⟩

theorem Inv.marked (inv : t.Inv k) (monotonicOffset : Timespec) {force : Bool} {timer1 : Option ℤ}
    (forced : force = true → t.clockid = .realtime) (signalled : timer1 ≠ none → force = true) :
    (t.mark monotonicOffset force).Inv { k with timer1 := timer1 } :=
  ⟨inv.toCore.marked monotonicOffset forced signalled, inv.early⟩

/-- The marks do not matter to the count. -/
theorem update_mark {currentTime : Timespec} (timed : t.WellTimed) (valid : currentTime.Valid)
    (monotonicOffset : Timespec) (force : Bool) :
    (t.mark monotonicOffset force).timerfdCtxUpdateToCurrentTime currentTime =
      (t.timerfdCtxUpdateToCurrentTime currentTime).mark monotonicOffset force := by
  have marked : (t.mark monotonicOffset force).WellTimed := ⟨timed.interval, timed.value⟩
  have sameDeadline : (t.mark monotonicOffset force).deadline = t.deadline := rfl
  have samePeriod : (t.mark monotonicOffset force).period = t.period := rfl
  have sameFits : ∀ now, (t.mark monotonicOffset force).Fits now ↔ t.Fits now := fun _ => Iff.rfl
  rw [update_eq marked valid, update_eq timed valid]
  simp only [expired, sameDeadline, samePeriod, sameFits]
  split_ifs <;> rfl

theorem Core.retimed (core : t.Core k) (timer0 : Option ℤ) : t.Core { k with timer0 := timer0 } :=
  ⟨⟨core.ticking.monotonic, core.ticking.realtime⟩, core.timed, core.period, core.typed, core.cancel, core.forced,
    core.signalled, core.once, core.few⟩

/-- The kernel queue is set for an armed timer, unless the kernel refuses. -/
theorem Core.registered (core : t.Core k) (kevent : Option Error) :
    ∃ timer0 ec, k.timerfdCtxRegisterEvent t.current.value (k.getClocktime t.clockid t.timerType) kevent =
        ({ k with timer0 := timer0 }, ec) ∧ t.Inv { k with timer0 := timer0 } ∧
      (ec = none → t.Owed { k with timer0 := timer0 }) ∧ (kevent = none → ec = none) ∧ (ec ≠ none → timer0 = none) := by
  obtain ⟨timer0, registered, rings⟩ := registerEvent_spec (k := k) core.timed.value (core.ticking.valid (t := t))
  rw [getClocktime_eq, nanos_ofNanos] at rings
  have onClock : t.timerfdCtxCanJump = false → t.deadline ≠ 0 → t.clock k = k.now := fun fixed armed =>
    clock_of_not_jump (fun type => armed (core.typed.mp type)) fixed
  have early : t.timerfdCtxCanJump = false → t.deadline ≠ 0 → ∀ d, timer0 = some d → t.deadline ≤ d := by
    rintro fixed armed d rfl
    have same := onClock fixed armed
    rcases rings with ⟨none, _⟩ | ⟨d', set, _, least, _⟩
    · cases none
    · cases set
      simp only [deadline]
      omega
  have owed : t.Owed { k with timer0 := timer0 } := by
    intro fixed armed
    have same := onClock fixed armed
    have low := core.ticking.monotonic.1
    rcases rings with ⟨_, far⟩ | ⟨d, set, _, _, most⟩
    · right
      simp only [deadline]
      omega
    · left
      refine ⟨d, set, ?_⟩
      simp only [deadline]
      omega
  have inv : t.Inv { k with timer0 := timer0 } := ⟨core.retimed timer0, fun fixed armed _ => early fixed armed⟩
  cases kevent with
  | none => exact ⟨timer0, none, registered, inv, fun _ => owed, fun _ => rfl, fun failed => absurd rfl failed⟩
  | some ec =>
      rcases registerEvent_refused k t.current.value (k.getClocktime t.clockid t.timerType) ec with same | refused
      · exact ⟨timer0, none, same.trans registered, inv, fun _ => owed, fun _ => rfl, fun failed => absurd rfl failed⟩
      · refine ⟨none, some ec, refused, ⟨core.retimed none, fun _ _ _ d set => ?_⟩, fun failed => ?_, fun accepted => ?_,
          fun _ => rfl⟩
        · cases set
        · cases failed
        · cases accepted

/-- No mark of a change of the clock is left that nobody asked for. -/
def Settled (t : TimerFDCtx) : Prop := t.forceCancel = true → t.isCancelOnSet = true

/-- What the check for a change of the clock leaves. -/
theorem checkForCancel_cases (core : t.Core k) :
    ∃ monotonicOffset,
      (t.timerfdCtxCheckForCancel k).1 = (t.mark monotonicOffset false, k.calmed) := by
  have quiet : t.forceCancel = false → k.timer1 = none := by
    intro calm
    by_contra set
    rw [core.signalled set] at calm
    cases calm
  have kernel : (if t.forceCancel = true then { k with timer1 := none } else k) = k.calmed := by
    by_cases force : t.forceCancel = true
    · rw [if_pos force, Kernel.calmed]
    · rw [if_neg force, Kernel.calmed, ← quiet (by simpa using force)]
  simp only [timerfdCtxCheckForCancel]
  by_cases realtime : t.clockid ≠ .realtime
  · have calm : t.forceCancel = false := by
      by_contra force
      exact realtime (core.forced (by simpa using force))
    rw [if_pos realtime, Kernel.calmed, ← quiet calm]
    exact ⟨t.monotonicOffset, by rw [mark, ← calm]⟩
  · rw [if_neg realtime]
    split
    · exact ⟨k.boottime, by simp only [timerfdCtxClearForceCancel, kernel, mark]⟩
    · exact ⟨t.monotonicOffset, by simp only [timerfdCtxClearForceCancel, kernel, mark]⟩

theorem Inv.checked (inv : t.Inv k) (monotonicOffset : Timespec) :
    (t.mark monotonicOffset false).Inv k.calmed ∧ (t.mark monotonicOffset false).Settled :=
  ⟨inv.marked monotonicOffset nofun (fun set => absurd rfl set), nofun⟩

theorem Core.rearm (core : t.Core k) {currentTime : Timespec} (need : Bool) (kevent : Option Error)
    (onTime : t.deadline ≠ 0 → currentTime = k.getClocktime t.clockid t.timerType) :
    ∃ timer0 left, t.timerfdCtxRearmKevent k currentTime need kevent = (left, { k with timer0 := timer0 }) ∧
      (left = t ∨ kevent ≠ none ∧ left = t.timerfdCtxDisarm) ∧
      left.Inv { k with timer0 := timer0 } ∧ left.Owed { k with timer0 := timer0 } := by
  simp only [timerfdCtxRearmKevent]
  by_cases armed : t.deadline = 0
  · rw [if_pos (core.timed.disarmed_iff.mpr armed)]
    cases need with
    | false => exact ⟨k.timer0, t, rfl, .inl rfl, core.idle armed⟩
    | true => exact ⟨none, t, rfl, .inl rfl, (core.retimed none).idle armed⟩
  · rw [if_neg (core.timed.disarmed_iff.not.mpr armed), onTime armed]
    obtain ⟨timer0, ec, registered, inv, owed, accepted, _⟩ := core.registered kevent
    rw [registered]
    cases ec with
    | none => exact ⟨timer0, t, rfl, .inl rfl, inv, owed rfl⟩
    | some ec =>
        have refused : kevent ≠ none := fun fine => nomatch accepted fine
        exact ⟨timer0, _, rfl, .inr ⟨refused, rfl⟩, ((core.retimed timer0).disarm t.nrExpirations).idle rfl⟩

end TimerFDCtx

end Iland.Epoll

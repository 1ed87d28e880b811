import Iland.Epoll.TimerInvariant

namespace Iland.Epoll.TimerFDCtx

open Iland.Data Timespec

/-! What one call leaves of a timer.
-/

variable {t : TimerFDCtx} {k : Kernel}

theorem Inv.observed_kept (inv : t.Inv k) :
    (t.observed k).forceCancel = t.forceCancel ∧ (t.observed k).clockid = t.clockid ∧
      (t.observed k).period = t.period := by
  rcases inv.observed_cases with ⟨_, same⟩ | ⟨_, _, ⟨_, same⟩ | ⟨_, same⟩⟩
  · rw [same]
    exact ⟨rfl, rfl, rfl⟩
  · rw [same]
    exact ⟨rfl, rfl, rfl⟩
  · rw [same]
    exact ⟨rfl, rfl, rfl⟩

/-- Nothing is counted only of a timer that is not due. -/
theorem Inv.observed_of_none (inv : t.Inv k) (armed : t.deadline ≠ 0) (none : (t.observed k).nrExpirations = 0) :
    t.observed k = t ∧ t.clock k < t.deadline := by
  rcases inv.observed_cases with ⟨idle, same⟩ | ⟨_, due, ⟨positive, same⟩ | ⟨zero, same⟩⟩
  · exact ⟨same, idle.resolve_left armed⟩
  · have count := (inv.counted_few positive armed due).1
    have some := passed_pos positive due
    rw [same] at none
    omega
  · rw [same] at none
    simp only [spent, timerfdCtxDisarm, inv.once zero armed] at none
    omega

theorem Inv.drain (inv : t.Inv k) : t.Inv k.drain := by
  refine ⟨⟨⟨inv.ticking.monotonic, inv.ticking.realtime⟩, inv.timed, inv.period, inv.typed, inv.cancel, inv.forced, ?_,
    inv.once, inv.few⟩, ?_⟩
  · intro set
    refine inv.signalled fun nothing => set ?_
    simp only [Kernel.drain, nothing, ite_self]
  · intro fixed armed none d set
    refine inv.early fixed armed none d ?_
    simp only [Kernel.drain] at set
    split at set
    · cases set
    · exact set

/-- What the check for a change of the clock tells a timer that is set. -/
theorem Inv.checkForCancel_answer (inv : t.Inv k) (settled : t.Settled) (typed : t.timerType ≠ .unspecified) :
    ((t.timerfdCtxCheckForCancel k).2 = true → t.timerfdCtxCanJump = true) ∧
      ((t.timerfdCtxCheckForCancel k).2 = false → t.forceCancel = false) := by
  simp only [timerfdCtxCheckForCancel]
  by_cases realtime : t.clockid ≠ .realtime
  · rw [if_pos realtime]
    refine ⟨fun cancelled => absurd cancelled Bool.false_ne_true, fun _ => ?_⟩
    by_contra force
    exact realtime (inv.forced (by simpa using force))
  · rw [if_neg realtime]
    constructor
    · intro cancelled
      simp only [Bool.and_eq_true] at cancelled
      exact cancelled.1.1
    · intro calm
      by_contra forced
      have force : t.forceCancel = true := by simpa using forced
      have cancels := settled force
      have absolute := (inv.cancel cancels).2
      have jumps : t.timerfdCtxCanJump = true := by
        simp only [timerfdCtxCanJump, (inv.cancel cancels).1, decide_true, Bool.true_and, decide_eq_true_eq]
        cases type : t.timerType with
        | unspecified => exact absurd type typed
        | relative => exact absurd type absolute
        | absolute => rfl
      simp only [jumps, force, Bool.true_or, Bool.and_self, if_true, cancels] at calm
      cases calm

theorem Core.emptied (core : t.Core k) : { t with nrExpirations := 0 }.Core k :=
  ⟨core.ticking, ⟨core.timed.interval, core.timed.value⟩, core.period, core.typed, core.cancel, core.forced,
    core.signalled, fun _ _ => rfl, fun some => absurd rfl some⟩

theorem Inv.timerType_observed (inv : t.Inv k) (armed : (t.observed k).deadline ≠ 0) :
    (t.observed k).timerType = t.timerType := by
  rcases inv.observed_cases with ⟨_, same⟩ | ⟨_, _, ⟨_, same⟩ | ⟨_, same⟩⟩
  · rw [same]
  · rw [same]
    rfl
  · rw [same] at armed
    exact absurd rfl armed

theorem Core.finishRead (core : t.Core k) {currentTime : Timespec} (need : Bool) (kevent : Option Error)
    (onTime : t.deadline ≠ 0 → currentTime = k.getClocktime t.clockid t.timerType) (cancelled : Bool) (count : ℕ)
    (fine : (cancelled || count ≠ 0 ||
      t.timerfdCtxCanJump && t.timerfdCtxIsIntervalTimer && !t.isCancelOnSet) = true) :
    ∃ timer0 left, t.finishRead k currentTime need kevent cancelled count =
        ((left, { k with timer0 := timer0 }), if cancelled then .error (.ec .ECANCELED) else .ok count) ∧
      (left = t ∨ kevent ≠ none ∧ left = t.timerfdCtxDisarm) ∧
      left.Inv { k with timer0 := timer0 } ∧ left.Owed { k with timer0 := timer0 } := by
  obtain ⟨timer0, left, rearmed, kept, inv, owed⟩ := core.rearm need kevent onTime
  refine ⟨timer0, left, ?_, kept, inv, owed⟩
  rw [TimerFDCtx.finishRead, if_neg (by rw [fine]; exact Bool.noConfusion), rearmed]

/-- What a read leaves, and what it finds of a timer that cannot jump. -/
structure ReadSpec (t : TimerFDCtx) (k : Kernel) (kevent : Option Error) (left : TimerFDCtx) (kernel : Kernel)
    (result : Except Failure ℕ) : Prop where
  inv : left.Inv kernel
  settled : left.Settled
  owed : t.Owed k → left.Owed kernel
  checked : result ≠ .error .assertion
  now : kernel.now = k.now
  found : t.timerfdCtxCanJump = false → result =
    if (t.observed k).nrExpirations = 0 then .error (.ec .EAGAIN) else .ok (t.observed k).nrExpirations
  emptied : t.timerfdCtxCanJump = false → kevent = none → ∃ monotonicOffset,
    left = { t.observed k with nrExpirations := 0 }.mark monotonicOffset false

/-- A fired timer that cannot jump has something to report. -/
theorem Inv.jumps_of_fired (inv : t.Inv k) (armed : t.deadline ≠ 0) (calm : t.forceCancel = false)
    (readable : k.readable = true) :
    k.fired k.timer0 = true ∧ ((t.observed k).nrExpirations = 0 → t.timerfdCtxCanJump = true) := by
  have quiet : k.timer1 = none := by
    by_contra set
    rw [inv.signalled set] at calm
    cases calm
  have fired : k.fired k.timer0 = true := by
    simpa only [Kernel.readable, quiet, Kernel.fired, Option.any_none, Bool.or_false] using readable
  refine ⟨fired, fun none => ?_⟩
  obtain ⟨same, early⟩ := inv.observed_of_none armed none
  by_contra fixed
  have stays : t.timerfdCtxCanJump = false := by simpa using fixed
  rw [same] at none
  rw [clock_of_not_jump (fun type => armed (inv.typed.mp type)) stays] at early
  cases set : k.timer0 with
  | none => simp [set, Kernel.fired] at fired
  | some d =>
      have rung : d ≤ k.now := by simpa [set, Kernel.fired] using fired
      have least := inv.early stays armed none d set
      omega

/-- A count is reported and starts again. -/
theorem Core.readCounted_of_some (core : t.Core k) (some : t.nrExpirations ≠ 0) {currentTime : Timespec}
    (gotKevent : Bool) (eventIdent : ℕ) (need : Bool) (kevent : Option Error)
    (onTime : t.deadline ≠ 0 → currentTime = k.getClocktime t.clockid t.timerType) :
    ∃ timer0 left, t.readCounted k currentTime gotKevent eventIdent need kevent =
        ((left, { k with timer0 := timer0 }), .ok t.nrExpirations) ∧
      (left = { t with nrExpirations := 0 } ∨ kevent ≠ none ∧ left = { t with nrExpirations := 0 }.timerfdCtxDisarm) ∧
      left.Inv { k with timer0 := timer0 } ∧ left.Owed { k with timer0 := timer0 } := by
  have counted : t.countExpirations gotKevent eventIdent =
      .ok ({ t with nrExpirations := 0 }, false, t.nrExpirations) := if_pos some
  obtain ⟨timer0, left, finished, kept, inv, owed⟩ := core.emptied.finishRead need kevent onTime
    false t.nrExpirations (by simp [some])
  simp only [readCounted, counted]
  exact ⟨timer0, left, finished, kept, inv, owed⟩

theorem readCounted_of_none (none : t.nrExpirations = 0) (currentTime : Timespec) (eventIdent : ℕ) (need : Bool)
    (kevent : Option Error) :
    t.readCounted k currentTime false eventIdent need kevent = ((t, k), .error (.ec .EAGAIN)) := by
  have same : { t with nrExpirations := 0 } = t := by rw [← none]
  simp only [readCounted, countExpirations, none, ne_eq, not_true_eq_false, if_false, if_true, same]

/-- Without a count a read goes by the timer that fired. -/
theorem Core.readCounted_of_fired (core : t.Core k) (none : t.nrExpirations = 0) (jumps : t.timerfdCtxCanJump = true)
    {currentTime : Timespec} (need : Bool) (kevent : Option Error)
    (onTime : t.deadline ≠ 0 → currentTime = k.getClocktime t.clockid t.timerType) :
    ∃ timer0 left result, t.readCounted k currentTime true 0 need kevent =
        ((left, { k with timer0 := timer0 }), result) ∧ result ≠ .error .assertion ∧
      left.forceCancel = t.forceCancel ∧ left.Inv { k with timer0 := timer0 } ∧ left.Owed { k with timer0 := timer0 } := by
  have same : { t with nrExpirations := 0 } = t := by rw [← none]
  have goesOn : ∀ {left : TimerFDCtx} {cancelled : Bool} {count : ℕ}, t.countExpirations true 0 =
        .ok (left, cancelled, count) → (left = t ∨ left = t.timerfdCtxDisarm) →
      (cancelled || count ≠ 0 ||
        left.timerfdCtxCanJump && left.timerfdCtxIsIntervalTimer && !left.isCancelOnSet) = true →
      ∃ timer0 final result, t.readCounted k currentTime true 0 need kevent =
          ((final, { k with timer0 := timer0 }), result) ∧ result ≠ .error .assertion ∧
        final.forceCancel = t.forceCancel ∧ final.Inv { k with timer0 := timer0 } ∧
        final.Owed { k with timer0 := timer0 } := by
    intro left cancelled count counted which fine
    have core' : left.Core k ∧ left.forceCancel = t.forceCancel ∧
        (left.deadline ≠ 0 → currentTime = k.getClocktime left.clockid left.timerType) := by
      rcases which with rfl | rfl
      · exact ⟨core, rfl, onTime⟩
      · exact ⟨core.disarm _, rfl, fun some => absurd rfl some⟩
    obtain ⟨timer0, final, finished, kept, inv, owed⟩ := core'.1.finishRead need kevent core'.2.2 cancelled count fine
    simp only [readCounted, counted]
    refine ⟨timer0, final, _, finished, ?_, ?_, inv, owed⟩
    · cases cancelled <;> exact nofun
    · rcases kept with rfl | ⟨_, rfl⟩
      · exact core'.2.1
      · exact core'.2.1
  have counts : t.countExpirations true 0 = if t.isCancelOnSet then .ok (t, true, 0)
      else if t.timerfdCtxIsIntervalTimer then .ok (t, false, 0) else .ok (t.timerfdCtxDisarm, false, 1) := by
    simp only [countExpirations, none, ne_eq, not_true_eq_false, if_false, Bool.true_eq_false, jumps, or_self, same]
  by_cases cancels : t.isCancelOnSet = true
  · exact goesOn (by rw [counts, if_pos cancels]) (.inl rfl) rfl
  · rw [if_neg cancels] at counts
    by_cases interval : t.timerfdCtxIsIntervalTimer = true
    · have kept : t.isCancelOnSet = false := by simpa using cancels
      exact goesOn (by rw [counts, if_pos interval]) (.inl rfl) (by simp [jumps, interval, kept])
    · exact goesOn (by rw [counts, if_neg interval]) (.inr rfl) rfl

theorem Inv.read (inv : t.Inv k) (settled : t.Settled) (typed : t.timerType ≠ .unspecified) (kevent : Option Error) :
    ∃ left kernel result, t.timerfdCtxRead k kevent = ((left, kernel), result) ∧
      ReadSpec t k kevent left kernel result := by
  have drained := inv.drain
  have armed : t.deadline ≠ 0 := fun disarmed => typed (inv.typed.mpr disarmed)
  obtain ⟨monotonicOffset, left⟩ := checkForCancel_cases drained.toCore
  obtain ⟨jumps, calm⟩ := drained.checkForCancel_answer settled typed
  obtain ⟨cancelled, answer⟩ : ∃ cancelled, (t.timerfdCtxCheckForCancel k.drain).2 = cancelled := ⟨_, rfl⟩
  have checked : t.timerfdCtxCheckForCancel k.drain =
      ((t.mark monotonicOffset false, k.drain.calmed), cancelled) := Prod.ext left answer
  obtain ⟨marked, settled'⟩ := drained.checked monotonicOffset
  have clock : k.drain.calmed.getClocktime (t.mark monotonicOffset false).clockid
      (t.mark monotonicOffset false).timerType = k.getClocktime t.clockid t.timerType := rfl
  have jumping : ∀ {P : Prop}, t.timerfdCtxCanJump = true → t.timerfdCtxCanJump = false → P := fun jumps fixed =>
    nomatch jumps.symm.trans fixed
  simp only [timerfdCtxRead, if_neg typed, checked, clock]
  rw [answer] at jumps calm
  generalize ident : (if k.fired k.timer0 = true then 0 else 1) = eventIdent
  generalize (!k.readable || eventIdent != 0) = needDelete
  cases cancelled with
  | true =>
      have jumps := jumps rfl
      rw [if_pos rfl]
      split
      · exact ⟨_, _, _, rfl, marked, settled', fun _ => jumping jumps, nofun, rfl, jumping jumps, jumping jumps⟩
      · obtain ⟨timer0, final, finished, kept, inv', owed⟩ :=
          marked.toCore.finishRead needDelete kevent (fun _ => clock.symm) true 0 rfl
        refine ⟨final, _, _, finished, inv', ?_, fun _ => owed, nofun, rfl, jumping jumps, jumping jumps⟩
        rcases kept with rfl | ⟨_, rfl⟩
        · exact settled'
        · exact settled'
  | false =>
      have updated : (t.mark monotonicOffset false).timerfdCtxUpdateToCurrentTime (k.getClocktime t.clockid t.timerType) =
          (t.observed k).mark monotonicOffset false :=
        update_mark inv.timed (inv.ticking.valid (t := t)) monotonicOffset false
      have after : ((t.observed k).mark monotonicOffset false).Inv k.drain.calmed := updated ▸ marked.observe.1
      have onTime : (t.observed k).deadline ≠ 0 → k.getClocktime t.clockid t.timerType =
          k.drain.calmed.getClocktime (t.observed k).clockid (t.observed k).timerType := fun some => by
        rw [inv.timerType_observed some, inv.observed_kept.2.1]
        rfl
      rw [if_neg Bool.false_ne_true, updated]
      by_cases none : (t.observed k).nrExpirations = 0
      · by_cases got : k.readable = true
        · obtain ⟨fired, jumps⟩ := inv.jumps_of_fired armed (calm rfl) got
          have same := (inv.observed_of_none armed none).1
          have jumps := jumps none
          rw [same] at after onTime none ⊢
          rw [got, ← ident, if_pos fired]
          obtain ⟨timer0, final, result, counted, fine, kept, inv', owed⟩ :=
            after.toCore.readCounted_of_fired none jumps needDelete kevent onTime
          have settled' : final.Settled := fun force => nomatch kept.symm.trans force
          exact ⟨final, _, result, counted, inv', settled', fun _ => owed, fine, rfl, jumping jumps, jumping jumps⟩
        · have quiet : k.readable = false := by simpa using got
          have unfired : k.fired k.timer0 = false := (Bool.or_eq_false_iff.mp quiet).1
          rw [quiet, readCounted_of_none (t := (t.observed k).mark monotonicOffset false) none]
          refine ⟨_, _, _, rfl, after, nofun, fun owed fixed some => ?_, nofun, rfl, fun _ => (if_pos none).symm,
            fun _ _ => ⟨monotonicOffset, by rw [← none]⟩⟩
          have left := inv.observe.2 owed fixed some
          have drains : k.drain.timer0 = k.timer0 := by simp only [Kernel.drain, unfired, Bool.false_eq_true, if_false]
          rw [show k.drain.calmed.timer0 = k.timer0 from drains]
          exact left
      · obtain ⟨timer0, final, counted, kept, inv', owed⟩ :=
          after.toCore.readCounted_of_some none k.readable eventIdent needDelete kevent onTime
        refine ⟨final, _, _, counted, inv', ?_, fun _ => owed, nofun, rfl, fun _ => (if_neg none).symm, ?_⟩
        · rcases kept with rfl | ⟨_, rfl⟩ <;> exact nofun
        · intro _ accepted
          exact ⟨monotonicOffset, kept.resolve_right fun refused => refused.1 accepted⟩

theorem Inv.gettimeImpl (inv : t.Inv k) : (t.timerfdCtxGettimeImpl (t.clocktime k)).1 = t.observed k := by
  by_cases typed : t.timerType = .unspecified
  · have idle := inv.observed_cases
    rcases idle with ⟨_, same⟩ | ⟨armed, _⟩
    · rw [same, clocktime, if_pos typed]
      rfl
    · exact absurd (inv.typed.mp typed) armed
  · rw [clocktime, if_neg typed]
    simp only [timerfdCtxGettimeImpl, observed]
    split <;> rfl

/-- What a caller may pass as a new setting. -/
structure Settable (new : Itimerspec) : Prop where
  interval : new.interval.Valid
  value : new.value.Valid
  period : new.interval.nanos < clockLimit

/-- The timer as it is set anew. -/
structure Renewed (t : TimerFDCtx) (k : Kernel) (isAbstime : Bool) (new : Itimerspec) (left : TimerFDCtx) : Prop where
  period : left.period = new.interval.nanos
  deadline : left.deadline =
    if isAbstime then new.value.nanos else k.now + new.value.nanos
  timerType : left.timerType = if isAbstime then .absolute else .relative
  clockid : left.clockid = t.clockid

theorem Inv.newValue (inv : t.Inv k) {value : Timespec} (valid : value.Valid) (positive : 0 < value.nanos)
    (isAbstime : Bool) :
    let shown := if isAbstime then some value
      else (k.getClocktime t.clockid (if isAbstime then .absolute else .relative)).timespecaddSafe value
    shown = none ∨ ∃ newValue : Timespec, shown = some newValue ∧ newValue.Valid ∧ 0 < newValue.nanos ∧
      newValue.nanos = if isAbstime then value.nanos else k.now + value.nanos := by
  obtain ⟨low, high⟩ := inv.ticking.monotonic
  have limit : clockLimit = 2 ^ 62 := rfl
  cases isAbstime with
  | true => exact .inr ⟨value, rfl, valid, positive, rfl⟩
  | false =>
      have clock : k.getClocktime t.clockid .relative = ofNanos k.now := if_neg fun absolute => absolute.2 rfl
      have sum := timespecaddSafe_eq (valid_ofNanos low (by omega)) valid
      rw [nanos_ofNanos] at sum
      simp only [Bool.false_eq_true, if_false, clock, sum]
      by_cases fits : k.now + value.nanos < 2 ^ 63 * 1000000000
      · rw [if_pos fits]
        exact .inr ⟨_, rfl, valid_ofNanos (by omega) fits, by rw [nanos_ofNanos]; omega, nanos_ofNanos _⟩
      · exact .inl (if_neg fits)

theorem Inv.settimeNew (inv : t.Inv k) {new : Itimerspec} (settable : Settable new) (isAbstime isCancelOnSet : Bool)
    {currentTime : Option Timespec} (kevent : Option Error)
    (onTime : ∀ c newType, currentTime = some c → t.timerType = newType → newType ≠ .unspecified →
      c = k.getClocktime t.clockid newType) :
    ∃ left timer0 ec,
      t.timerfdCtxSettimeNew k isAbstime isCancelOnSet new currentTime kevent =
          ((left, { k with timer0 := timer0 }), ec) ∧
        (ec ≠ none → left.Inv { k with timer0 := timer0 } ∧ left = t ∧
          (kevent = none → timer0 = k.timer0 ∧ ec = some .EINVAL)) ∧
        (ec = none → { left with nrExpirations := 0 }.Inv { k with timer0 := timer0 } ∧
          left.Owed { k with timer0 := timer0 } ∧ (new.value ≠ .zero → Renewed t k isAbstime new left)) := by
  have low := settable.value.nanos_nonneg
  simp only [timerfdCtxSettimeNew]
  by_cases disarms : new.value = .zero
  · rw [if_pos disarms]
    have core : ({ t.timerfdCtxDisarm with
        isCancelOnSet := false, isAbstime := false, nrExpirations := 0 }).Core { k with timer0 := none } :=
      ⟨⟨inv.ticking.monotonic, inv.ticking.realtime⟩, ⟨inv.timed.interval, (WellTimed.disarm inv.timed).value⟩, inv.period,
        iff_of_true rfl rfl, nofun, inv.forced, inv.signalled, fun _ _ => rfl, fun some => absurd rfl some⟩
    obtain ⟨idle, owed⟩ := core.idle rfl
    exact ⟨_, none, none, rfl, fun failed => absurd rfl failed, fun _ => ⟨idle, owed, fun arms => absurd disarms arms⟩⟩
  · rw [if_neg disarms]
    have arms : 0 < new.value.nanos :=
      low.lt_of_ne fun nothing => disarms ((eq_zero_iff settable.value).mpr nothing.symm)
    obtain ⟨newType, type⟩ : ∃ newType, (if isAbstime then TimerType.absolute else .relative) = newType := ⟨_, rfl⟩
    have set : newType ≠ .unspecified := by
      rw [← type]
      cases isAbstime <;> exact nofun
    have time : t.newClocktime k newType currentTime = k.getClocktime t.clockid newType := by
      cases currentTime with
      | none => rfl
      | some c =>
          by_cases same : t.timerType = newType
          · exact (if_pos same).trans (onTime c newType rfl same set)
          · exact if_neg same
    simp only [type, time]
    have core : ∀ value : Timespec, value.Valid → 0 < value.nanos →
        ({ t with
          current := ⟨new.interval, value⟩
          timerType := newType
          isCancelOnSet := isCancelOnSet && t.clockid = .realtime && newType = .absolute
          isAbstime := newType = .absolute
          nrExpirations := 0 } : TimerFDCtx).Core k := fun value valid positive =>
      ⟨inv.ticking, ⟨settable.interval, valid⟩, settable.period, iff_of_false set positive.ne',
        fun cancels => by
          simp only [Bool.and_eq_true, decide_eq_true_eq] at cancels
          exact ⟨cancels.1.2, fun relative => nomatch cancels.2.symm.trans relative⟩,
        inv.forced, inv.signalled, fun _ _ => rfl, fun some => absurd rfl some⟩
    rcases inv.newValue settable.value arms isAbstime with none | ⟨value, shown, valid, positive, exact⟩
    · simp only [type] at none
      rw [none]
      exact ⟨t, k.timer0, _, rfl, fun _ => ⟨inv, rfl, fun _ => ⟨rfl, rfl⟩⟩, nofun⟩
    · simp only [type] at shown
      rw [shown]
      obtain ⟨timer0, ec, registered, inv', owed, accepted, gone⟩ := (core value valid positive).registered kevent
      simp only [registered]
      cases ec with
      | none =>
          exact ⟨_, timer0, none, rfl, fun failed => absurd rfl failed, fun _ => ⟨inv', owed rfl, fun _ =>
            ⟨rfl, exact, type.symm, rfl⟩⟩⟩
      | some ec =>
          have lost : timer0 = none := gone nofun
          refine ⟨t, timer0, some ec, rfl, fun _ => ⟨⟨inv.toCore.retimed _, ?_⟩, rfl, ?_⟩, nofun⟩
          · intro _ _ _ d set
            rw [lost] at set
            cases set
          · intro fine
            exact nomatch accepted fine

theorem Inv.settled_observed (inv : t.Inv k) (settled : t.Settled) : (t.observed k).Settled := by
  rcases inv.observed_cases with ⟨_, same⟩ | ⟨_, _, ⟨_, same⟩ | ⟨_, same⟩⟩
  · rw [same]
    exact settled
  · rw [same]
    exact settled
  · rw [same]
    exact settled

/-- The call that sets a timer, whatever the old setting was. -/
structure SettimeSpec (t : TimerFDCtx) (k : Kernel) (isAbstime : Bool) (new : Itimerspec) (kevent : Option Error)
    (left : TimerFDCtx) (kernel : Kernel) (result : Except Error (Option Itimerspec)) : Prop where
  inv : left.Inv kernel
  settled : left.Settled
  now : kernel.now = k.now
  owed : kevent = none → t.Owed k → left.Owed kernel
  renewed : kevent = none → result ≠ .error .EINVAL → new.value ≠ .zero →
    Renewed t k isAbstime new left ∧ left.nrExpirations = 0

/-- The end of the call, from the timer with the old setting read. -/
theorem Inv.settimeFrom (inv : t.Inv k) (settled : t.Settled) {new : Itimerspec} (settable : Settable new)
    (isAbstime isCancelOnSet wasCancelOnSet : Bool) {currentTime : Option Timespec} (oldSetting : Option Itimerspec)
    (kevent : Option Error)
    (onTime : ∀ c newType, currentTime = some c → t.timerType = newType → newType ≠ .unspecified →
      c = k.getClocktime t.clockid newType) :
    ∃ left kernel result,
      (match t.timerfdCtxSettimeNew k isAbstime isCancelOnSet new currentTime kevent with
        | ((t, k), some ec) => ((t, k), Except.error ec)
        | ((t, k), none) =>
            let ((t, k), cancelled) := { t with nrExpirations := 0 }.timerfdCtxCheckForCancel k
            ((t, k), if cancelled && wasCancelOnSet then .error .ECANCELED else .ok oldSetting)) =
          ((left, kernel), result) ∧
        SettimeSpec t k isAbstime new kevent left kernel result := by
  obtain ⟨left, timer0, ec, called, failed, set⟩ := inv.settimeNew settable isAbstime isCancelOnSet kevent onTime
  rw [called]
  cases ec with
  | some ec =>
      obtain ⟨inv', rfl, kept⟩ := failed nofun
      refine ⟨left, _, _, rfl, inv', settled, rfl, fun accepted owed => ?_, fun accepted refused => ?_⟩
      · rw [(kept accepted).1]
        exact owed
      · cases (kept accepted).2
        exact absurd rfl refused
  | none =>
      obtain ⟨inv', owed, renewed⟩ := set rfl
      obtain ⟨monotonicOffset, checked⟩ := checkForCancel_cases inv'.toCore
      obtain ⟨after, settled'⟩ := inv'.checked monotonicOffset
      obtain ⟨answer, whole⟩ : ∃ answer, { left with nrExpirations := 0 }.timerfdCtxCheckForCancel
          { k with timer0 := timer0 } = (_, answer) := ⟨_, Prod.ext checked rfl⟩
      simp only [whole]
      refine ⟨_, _, _, rfl, after, settled', rfl, fun _ _ => owed, fun _ _ arms => ?_⟩
      obtain ⟨period, deadline, type, clockid⟩ := renewed arms
      exact ⟨⟨period, deadline, type, clockid⟩, rfl⟩

theorem Inv.settime (inv : t.Inv k) (settled : t.Settled) {new : Itimerspec} (settable : Settable new)
    (isAbstime isCancelOnSet old : Bool) (kevent : Option Error) :
    ∃ left kernel result,
      t.timerfdCtxSettime k isAbstime isCancelOnSet new old kevent = ((left, kernel), result) ∧
        SettimeSpec t k isAbstime new kevent left kernel result := by
  simp only [timerfdCtxSettime]
  by_cases wrong : (new.value.timespecIsValid && new.interval.timespecIsValid) = false
  · rw [if_pos wrong]
    exact ⟨t, k, _, rfl, inv, settled, rfl, fun _ => id, fun _ refused => absurd rfl refused⟩
  · rw [if_neg wrong]
    cases old with
    | false => exact inv.settimeFrom settled settable isAbstime isCancelOnSet _ none kevent nofun
    | true =>
        obtain ⟨observed, owed⟩ := inv.observe
        have onTime : ∀ c newType, t.clocktime k = some c → (t.observed k).timerType = newType →
            newType ≠ .unspecified → c = k.getClocktime (t.observed k).clockid newType := by
          rintro c newType time rfl typed
          have same := inv.timerType_observed fun disarmed => typed (observed.typed.mpr disarmed)
          rw [same] at typed ⊢
          rw [clocktime, if_neg typed] at time
          rw [inv.observed_kept.2.1]
          exact (Option.some.inj time).symm
        obtain ⟨left, kernel, result, called, spec⟩ := observed.settimeFrom (inv.settled_observed settled) settable
          isAbstime isCancelOnSet t.isCancelOnSet (some (t.timerfdCtxGettimeImpl (t.clocktime k)).2) kevent onTime
        rw [← inv.gettimeImpl] at called
        refine ⟨left, kernel, result, called, spec.inv, spec.settled, spec.now, fun accepted owes =>
          spec.owed accepted (owed owes), fun accepted fine arms => ?_⟩
        obtain ⟨⟨period, deadline, type, clockid⟩, empty⟩ := spec.renewed accepted fine arms
        exact ⟨⟨period, deadline, type, clockid.trans inv.observed_kept.2.1⟩, empty⟩

theorem Inv.realtimeChange (inv : t.Inv k) (settled : t.Settled) (kevent : Option Error) :
    ∃ left kernel, t.timerfdCtxRealtimeChange k kevent = (left, kernel) ∧ left.Inv kernel ∧ left.Settled ∧
      (t.Owed k → left.Owed kernel) ∧ kernel.now = k.now ∧
      (t.timerfdCtxCanJump = false → left = t) := by
  simp only [timerfdCtxRealtimeChange]
  by_cases same : t.timerfdCtxCanJump = false ∨ t.monotonicOffset = k.boottime
  · rw [if_pos same]
    exact ⟨t, k, rfl, inv, settled, id, rfl, fun _ => rfl⟩
  · rw [if_neg same]
    obtain ⟨jump, changed⟩ := not_or.mp same
    have realtime : t.clockid = .realtime := by
      simp only [timerfdCtxCanJump, Bool.and_eq_false_iff, not_or, decide_eq_false_iff_not, not_not] at jump
      exact jump.1
    have plain : (t.mark k.boottime t.forceCancel).Inv k := inv.marked k.boottime inv.forced inv.signalled
    by_cases cancels : t.isCancelOnSet = true
    · rw [if_pos cancels]
      refine ⟨_, _, rfl, inv.marked k.boottime (fun _ => realtime) (fun _ => rfl), fun _ => cancels, ?_, rfl, ?_⟩
      · exact fun _ fixed => absurd fixed jump
      · exact fun fixed => absurd fixed jump
    · rw [if_neg cancels]
      by_cases readable : k.readable = true
      · rw [if_pos readable]
        exact ⟨_, _, rfl, plain, settled, id, rfl, fun fixed => absurd fixed jump⟩
      · rw [if_neg readable]
        obtain ⟨timer0, left, rearmed, kept, inv', owed⟩ := plain.toCore.rearm true kevent (fun _ => rfl)
        refine ⟨left, _, rearmed, inv', ?_, fun _ => owed, rfl, fun fixed => absurd fixed jump⟩
        rcases kept with rfl | ⟨_, rfl⟩
        · exact settled
        · exact settled

end Iland.Epoll.TimerFDCtx

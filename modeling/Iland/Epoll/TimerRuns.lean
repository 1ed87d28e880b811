import Iland.Epoll.TimerSteps
import Iland.Data.Run

namespace Iland.Epoll

open Iland.Data Timespec TimerFDCtx

/-! Runs of a timer.

Time passes and the real-time clock is set between the calls; each call takes
no time.
-/

structure TimerFD where
  ctx : TimerFDCtx
  kernel : Kernel
deriving DecidableEq

namespace TimerFD

inductive Action
  | pass (nanos : ℕ)
  | setClock (offset : ℤ) (boottime : Timespec)
  /-- Each call that sets a timer of the kernel comes with the kernel's answer. -/
  | settime (isAbstime isCancelOnSet : Bool) (new : Itimerspec) (old : Bool) (kevent : Option Error)
  | gettime
  | read (kevent : Option Error)
  | realtimeChange (kevent : Option Error)
deriving DecidableEq

inductive Out
  | none
  | settime (result : Except Error (Option Itimerspec))
  | gettime (cur : Itimerspec)
  | read (result : Except Error ℕ)
deriving DecidableEq

inductive Stuck
  | assertion
deriving DecidableEq, Repr

def start (clockid : Clock) (now offset : ℤ) (boottime : Timespec) : TimerFD :=
  ⟨timerfdCtxInit clockid, ⟨now, offset, boottime, none, none⟩⟩

def step (s : TimerFD) : Action → Except Stuck (TimerFD × Out)
  | .pass nanos => .ok (⟨s.ctx, { s.kernel with now := s.kernel.now + nanos }⟩, .none)
  | .setClock offset boottime => .ok (⟨s.ctx, { s.kernel with offset := offset, boottime := boottime }⟩, .none)
  | .settime isAbstime isCancelOnSet new old kevent =>
      let ((ctx, kernel), result) := s.ctx.timerfdCtxSettime s.kernel isAbstime isCancelOnSet new old kevent
      .ok (⟨ctx, kernel⟩, .settime result)
  | .gettime =>
      let (ctx, cur) := s.ctx.timerfdCtxGettime s.kernel
      .ok (⟨ctx, s.kernel⟩, .gettime cur)
  | .read kevent =>
      match s.ctx.timerfdCtxRead s.kernel kevent with
      | ((ctx, kernel), .ok value) => .ok (⟨ctx, kernel⟩, .read (.ok value))
      | ((ctx, kernel), .error (.ec ec)) => .ok (⟨ctx, kernel⟩, .read (.error ec))
      | (_, .error .assertion) => .error .assertion
  | .realtimeChange kevent =>
      let (ctx, kernel) := s.ctx.timerfdCtxRealtimeChange s.kernel kevent
      .ok (⟨ctx, kernel⟩, .none)

/-- The clocks stay in range, and so does a new setting. -/
def Ordinary (s : TimerFD) : Action → Prop
  | .pass nanos => Kernel.Ticking { s.kernel with now := s.kernel.now + nanos }
  | .setClock offset boottime => Kernel.Ticking { s.kernel with offset := offset, boottime := boottime }
  | .settime _ _ new _ _ => Settable new
  | .gettime | .read _ | .realtimeChange _ => True

structure Inv (s : TimerFD) : Prop where
  timer : s.ctx.Inv s.kernel
  settled : s.ctx.Settled

def Owed (s : TimerFD) : Prop := s.ctx.Owed s.kernel

variable {s after : TimerFD} {out : Out}

theorem inv_start {clockid : Clock} {now offset : ℤ} {boottime : Timespec}
    (ticking : Kernel.Ticking ⟨now, offset, boottime, none, none⟩) : (start clockid now offset boottime).Inv where
  timer := by
    have zero : Timespec.zero.Valid := ⟨⟨by decide, by decide, by decide⟩, by decide⟩
    have core : (timerfdCtxInit clockid).Core ⟨now, offset, boottime, none, none⟩ :=
      ⟨ticking, ⟨zero, zero⟩, show (0 : ℤ) < clockLimit by decide, iff_of_true rfl rfl, nofun, nofun,
        fun set => absurd rfl set, fun _ _ => rfl, fun some => absurd rfl some⟩
    exact (core.idle rfl).1
  settled := nofun

theorem read_eq (s : TimerFD) (kevent : Option Error) (inv : s.Inv) :
    (s.ctx.timerType = .unspecified ∧ s.step (.read kevent) = .ok (s, .read (.error .EAGAIN))) ∨
      s.ctx.timerType ≠ .unspecified ∧ ∃ left kernel result found,
        s.step (.read kevent) = .ok (⟨left, kernel⟩, .read found) ∧
          ReadSpec s.ctx s.kernel kevent left kernel result ∧ result = found.mapError .ec := by
  by_cases typed : s.ctx.timerType = .unspecified
  · left
    refine ⟨typed, ?_⟩
    simp only [step, timerfdCtxRead, if_pos typed]
  · right
    obtain ⟨left, kernel, result, called, spec⟩ := inv.timer.read inv.settled typed kevent
    simp only [step, called]
    refine ⟨typed, left, kernel, result, ?_⟩
    cases result with
    | ok value => exact ⟨.ok value, rfl, spec, rfl⟩
    | error failure =>
        cases failure with
        | ec ec => exact ⟨.error ec, rfl, spec, rfl⟩
        | assertion => exact absurd rfl spec.checked

/-- The kernel takes the timer of a new setting. -/
def Accepts (_ : TimerFD) : Action → Prop
  | .settime _ _ _ _ kevent => kevent = none
  | _ => True

/-- No call stops at an assertion, and each keeps the invariant. -/
theorem Inv.step (inv : s.Inv) {action : Action} (ordinary : s.Ordinary action) :
    ∃ after out, s.step action = .ok (after, out) ∧ after.Inv ∧ (s.Accepts action → s.Owed → after.Owed) := by
  cases action with
  | pass nanos =>
      have kept : s.ctx.Core { s.kernel with now := s.kernel.now + nanos } :=
        ⟨ordinary, inv.timer.timed, inv.timer.period, inv.timer.typed, inv.timer.cancel, inv.timer.forced,
          inv.timer.signalled, inv.timer.once, inv.timer.few⟩
      refine ⟨_, _, rfl, ⟨⟨kept, inv.timer.early⟩, inv.settled⟩, fun _ owed fixed armed => ?_⟩
      rcases owed fixed armed with ⟨d, set, rings⟩ | far
      · refine .inl ⟨d, set, rings.imp_left fun rung => ?_⟩
        show d ≤ s.kernel.now + nanos
        omega
      · exact .inr far
  | setClock offset boottime =>
      have kept : s.ctx.Core { s.kernel with offset := offset, boottime := boottime } :=
        ⟨ordinary, inv.timer.timed, inv.timer.period, inv.timer.typed, inv.timer.cancel, inv.timer.forced,
          inv.timer.signalled, inv.timer.once, inv.timer.few⟩
      exact ⟨_, _, rfl, ⟨⟨kept, inv.timer.early⟩, inv.settled⟩, fun _ owed => owed⟩
  | settime isAbstime isCancelOnSet new old kevent =>
      obtain ⟨left, kernel, result, called, spec⟩ :=
        inv.timer.settime inv.settled ordinary isAbstime isCancelOnSet old kevent
      simp only [TimerFD.step, called]
      exact ⟨_, _, rfl, ⟨spec.inv, spec.settled⟩, spec.owed⟩
  | gettime =>
      obtain ⟨observed, owed⟩ := inv.timer.observe
      have left := inv.timer.gettimeImpl
      simp only [TimerFD.step, timerfdCtxGettime, left]
      exact ⟨_, _, rfl, ⟨observed, inv.timer.settled_observed inv.settled⟩, fun _ => owed⟩
  | read kevent =>
      rcases s.read_eq kevent inv with ⟨_, same⟩ | ⟨_, left, kernel, result, found, called, spec, _⟩
      · exact ⟨s, _, same, inv, fun _ => id⟩
      · exact ⟨_, _, called, ⟨spec.inv, spec.settled⟩, fun _ => spec.owed⟩
  | realtimeChange kevent =>
      obtain ⟨left, kernel, called, timer, settled, owed, _⟩ := inv.timer.realtimeChange inv.settled kevent
      simp only [TimerFD.step, called]
      exact ⟨_, _, rfl, ⟨timer, settled⟩, fun _ => owed⟩

theorem runs_keep {clockid : Clock} {now offset : ℤ} {boottime : Timespec}
    (ticking : Kernel.Ticking ⟨now, offset, boottime, none, none⟩) {actions : List Action}
    (ordinary : Along step Ordinary (start clockid now offset boottime) actions) {last : TimerFD} {outs : List Out}
    (run : runActions step (start clockid now offset boottime) actions = .ok (last, outs)) : last.Inv := by
  refine ordinary.invariant (fun s action after out fine inv stepped => ?_) (inv_start ticking) run
  obtain ⟨_, _, called, kept, _⟩ := inv.step fine
  cases called.symm.trans stepped
  exact kept

/-- No run stops at an assertion of `timerfd_ctx_read`, whether or not the kernel
takes the timers. -/
theorem assertions_hold {clockid : Clock} {now offset : ℤ} {boottime : Timespec}
    (ticking : Kernel.Ticking ⟨now, offset, boottime, none, none⟩) {actions : List Action}
    (ordinary : Along step Ordinary (start clockid now offset boottime) actions) :
    ∃ last outs, runActions step (start clockid now offset boottime) actions = .ok (last, outs) := by
  refine ordinary.goesOn (fun s action fine inv => ?_) (inv_start ticking)
  obtain ⟨after, out, called, kept, _⟩ := inv.step fine
  exact ⟨after, out, called, kept⟩

def shortSetting : Itimerspec := ⟨.zero, ⟨0, 500⟩⟩

theorem settable_shortSetting : Settable shortSetting := by
  refine ⟨⟨⟨?_, ?_, ?_⟩, ?_⟩, ⟨⟨?_, ?_, ?_⟩, ?_⟩, ?_⟩ <;> decide

def shortRun : List Action := [.settime false false shortSetting true none, .pass 2000]

theorem ordinary_shortRun : Along step Ordinary (start .monotonic 0 7 .zero) shortRun :=
  .cons rfl settable_shortSetting (.cons rfl ⟨by decide, by decide⟩ trivial)

def realSetting : Itimerspec := ⟨⟨0, 1000⟩, ⟨2, 0⟩⟩

theorem settable_realSetting : Settable realSetting := by
  refine ⟨⟨⟨?_, ?_, ?_⟩, ?_⟩, ⟨⟨?_, ?_, ?_⟩, ?_⟩, ?_⟩ <;> decide

/-- Reads before the timer rings, after the clock was set, when expirations have
to be counted and the kernel refuses the timer, and of the disarmed timer. -/
def readingRun : List Action :=
  [.settime true true realSetting true none, .read none, .setClock 5000000000 ⟨5, 0⟩, .realtimeChange none, .read none,
    .pass 500, .read (some (.kernel 12)), .read none]

theorem ordinary_readingRun : Along step Ordinary (start .realtime 0 1000000000 ⟨1, 0⟩) readingRun :=
  .cons rfl settable_realSetting (.cons rfl trivial (.cons rfl ⟨by decide, by decide⟩ (.cons rfl trivial
    (.cons rfl trivial (.cons rfl ⟨by decide, by decide⟩ (.cons rfl trivial (.cons rfl trivial trivial)))))))

theorem assertions_hold_reading :
    (∃ last outs, runActions step (start .realtime 0 1000000000 ⟨1, 0⟩) readingRun = .ok (last, outs)) ∧
      (runActions step (start .realtime 0 1000000000 ⟨1, 0⟩) readingRun).map Prod.snd =
        .ok [.settime (.ok (some ⟨.zero, .zero⟩)), .read (.error .EAGAIN), .none, .none, .read (.error .ECANCELED), .none,
          .read (.ok 3000001), .read (.error .EAGAIN)] :=
  ⟨assertions_hold ⟨by decide, by decide⟩ ordinary_readingRun, rfl⟩

/-- What is due in a readable timer that cannot jump. -/
theorem Inv.read_of_readable (inv : s.Inv) (armed : s.ctx.deadline ≠ 0) (fixed : s.ctx.timerfdCtxCanJump = false)
    (readable : s.kernel.readable = true) (kevent : Option Error) :
    ∃ value after, 0 < value ∧ s.step (.read kevent) = .ok (after, .read (.ok value)) := by
  have typed : s.ctx.timerType ≠ .unspecified := fun type => armed (inv.timer.typed.mp type)
  have calm : s.ctx.forceCancel = false := by
    by_contra marked
    have force : s.ctx.forceCancel = true := by simpa using marked
    have cancels := inv.timer.cancel (inv.settled force)
    have absolute : s.ctx.timerType = .absolute := by
      cases type : s.ctx.timerType with
      | unspecified => exact absurd type typed
      | relative => exact absurd type cancels.2
      | absolute => rfl
    simp [timerfdCtxCanJump, cancels.1, absolute] at fixed
  have some : (s.ctx.observed s.kernel).nrExpirations ≠ 0 := by
    intro none
    have jumps := (inv.timer.jumps_of_fired armed calm readable).2 none
    rw [fixed] at jumps
    cases jumps
  obtain ⟨left, kernel, result, called, spec⟩ := inv.timer.read inv.settled typed kevent
  have found := spec.found fixed
  rw [if_neg some] at found
  subst found
  exact ⟨_, ⟨left, kernel⟩, Nat.pos_of_ne_zero some, by simp only [TimerFD.step, called]⟩

/-- A timer that cannot jump wakes its readers within a microsecond, and never
for nothing. -/
theorem wakes_in_time {clockid : Clock} {now offset : ℤ} {boottime : Timespec}
    (ticking : Kernel.Ticking ⟨now, offset, boottime, none, none⟩) {actions : List Action}
    (ordinary : Along step Ordinary (start clockid now offset boottime) actions)
    (accepted : Along step Accepts (start clockid now offset boottime) actions) {last : TimerFD} {outs : List Out}
    (run : runActions step (start clockid now offset boottime) actions = .ok (last, outs))
    (armed : last.ctx.timerfdCtxIsDisarmed = false) (fixed : last.ctx.timerfdCtxCanJump = false) :
    (last.ctx.deadline + 999 ≤ last.kernel.now → last.ctx.deadline < tenYears → last.kernel.readable = true) ∧
      (last.kernel.readable = true → ∀ kevent, ∃ value after, 0 < value ∧
        last.step (.read kevent) = .ok (after, .read (.ok value))) := by
  have inv := runs_keep ticking ordinary run
  have set : last.ctx.deadline ≠ 0 := fun disarmed => by
    rw [inv.timer.timed.disarmed_iff.mpr disarmed] at armed
    cases armed
  have starts : (start clockid now offset boottime).Inv ∧ (start clockid now offset boottime).Owed :=
    ⟨inv_start ticking, fun _ some => absurd rfl some⟩
  have kept : ∀ (s : TimerFD) action after out, s.Ordinary action ∧ s.Accepts action → s.Inv ∧ s.Owed →
      s.step action = .ok (after, out) → after.Inv ∧ after.Owed := by
    rintro s action after out ⟨fine, accepts⟩ ⟨inv, owed⟩ stepped
    obtain ⟨_, _, called, kept, owes⟩ := inv.step fine
    cases called.symm.trans stepped
    exact ⟨kept, owes accepts owed⟩
  obtain ⟨_, owed⟩ := (ordinary.and accepted).invariant kept starts run
  refine ⟨fun due soon => ?_, fun readable kevent => inv.read_of_readable set fixed readable kevent⟩
  rcases owed fixed set with ⟨d, rings, rung⟩ | far
  · have fired : last.kernel.fired last.kernel.timer0 = true := by
      rw [rings]
      simp only [Kernel.fired, Option.any_some, decide_eq_true_eq]
      omega
    simp only [Kernel.readable, fired, Bool.true_or]
  · omega

theorem wakes_in_time_short :
    ∃ last outs, runActions step (start .monotonic 0 7 .zero) shortRun = .ok (last, outs) ∧
      last.kernel.readable = true ∧
      ∃ value after, 0 < value ∧ last.step (.read none) = .ok (after, .read (.ok value)) := by
  have accepted : Along step Accepts (start .monotonic 0 7 .zero) shortRun := .cons rfl rfl (.cons rfl trivial trivial)
  obtain ⟨rings, reads⟩ := wakes_in_time ⟨by decide, by decide⟩ ordinary_shortRun accepted rfl rfl rfl
  have readable := rings (by decide) (by decide)
  exact ⟨_, _, rfl, readable, reads readable none⟩

/-- Nothing sets the timer, and the kernel takes the timers it is given. -/
def Undisturbed (_ : TimerFD) : Action → Prop
  | .settime .. => False
  | .read kevent => kevent = none
  | _ => True

/-- The expirations that a call reports. -/
def Out.count : Out → ℕ
  | .read (.ok value) => value
  | _ => 0

/-- The account of an interval timer that was set for some time. -/
structure Account (first period : ℤ) (s : TimerFD) (total : ℕ) : Prop where
  inv : s.Inv
  positive : 0 < period
  fixed : s.ctx.timerfdCtxCanJump = false
  armed : s.ctx.deadline ≠ 0
  same : s.ctx.period = period
  next : s.ctx.deadline = first + (total + s.ctx.nrExpirations : ℕ) * period
  due : total + s.ctx.nrExpirations = 0 ∨ s.ctx.deadline - period ≤ s.kernel.now

variable {first period : ℤ} {total : ℕ}

theorem Account.passed_eq (account : Account first period s total) :
    passed first period s.kernel.now =
      (total + s.ctx.nrExpirations : ℕ) + passed s.ctx.deadline period s.kernel.now := by
  have positive := account.positive
  have later := passed_nonneg s.ctx.deadline s.kernel.now positive
  have next := account.next
  refine Iland.Data.passed_eq positive (by omega) ?_ ?_
  · rcases later.eq_or_lt with none | some
    · rcases account.due with nothing | due
      · exact .inl (by omega)
      · right
        rw [← none, add_zero]
        linarith
    · right
      have due := (lt_passed_iff s.ctx.deadline s.kernel.now positive
        (k := passed s.ctx.deadline period s.kernel.now - 1) (by omega)).mp (by omega)
      linarith
  · have beyond := lt_nextDeadline s.ctx.deadline s.kernel.now positive
    rw [nextDeadline] at beyond
    linarith

theorem Account.observed (account : Account first period s total) :
    Account first period ⟨s.ctx.observed s.kernel, s.kernel⟩ total ∧
      ((total + (s.ctx.observed s.kernel).nrExpirations : ℕ) : ℤ) = passed first period s.kernel.now ∧
      (s.ctx.observed s.kernel).deadline = nextDeadline first period s.kernel.now := by
  have positive := account.positive
  have exact := account.passed_eq
  have timer := account.inv.timer
  have clock := clock_of_not_jump (k := s.kernel) (fun type => account.armed (timer.typed.mp type)) account.fixed
  have kept : (⟨s.ctx.observed s.kernel, s.kernel⟩ : TimerFD).Inv :=
    ⟨timer.observe.1, timer.settled_observed account.inv.settled⟩
  have next := account.next
  rcases timer.observed_cases with ⟨idle, same⟩ | ⟨armed, due, ⟨interval, same⟩ | ⟨zero, same⟩⟩
  · have early := idle.resolve_left account.armed
    rw [clock] at early
    rw [passed_of_lt early, add_zero] at exact
    rw [same] at kept ⊢
    exact ⟨{ account with inv := kept }, exact.symm, by rw [nextDeadline, exact, next]⟩
  · obtain ⟨count, _, _⟩ := timer.counted_few interval armed due
    rw [clock, account.same] at count
    rw [same, clock] at kept ⊢
    have later := passed_pos positive (clock ▸ due)
    have ahead := lt_nextDeadline s.ctx.deadline s.kernel.now positive
    have near := nextDeadline_le positive (clock ▸ due)
    have deadline : (s.ctx.counted s.kernel.now).deadline = nextDeadline s.ctx.deadline period s.kernel.now := by
      rw [deadline_counted, account.same]
    have total' : ((total + (s.ctx.counted s.kernel.now).nrExpirations : ℕ) : ℤ) = passed first period s.kernel.now := by
      push_cast at exact ⊢
      omega
    have low := account.inv.timer.ticking.monotonic.1
    have onward : nextDeadline s.ctx.deadline period s.kernel.now = nextDeadline first period s.kernel.now := by
      rw [nextDeadline, nextDeadline, exact, next]
      ring
    refine ⟨⟨kept, positive, account.fixed, ?_, account.same, ?_, .inr ?_⟩, total', ?_⟩
    · rw [deadline]
      omega
    · rw [deadline, onward, nextDeadline, total']
    · rw [deadline]
      show _ - period ≤ s.kernel.now
      omega
    · rw [deadline, onward]
  · have interval := account.same
    omega

/-- A read reports what is not yet accounted for. -/
theorem Account.read (account : Account first period s total) :
    ∃ after found, s.step (.read none) = .ok (after, .read found) ∧
      found = (if passed first period s.kernel.now ≤ total then .error .EAGAIN
        else .ok ((passed first period s.kernel.now).toNat - total)) ∧
      Account first period after (total + (Out.read found).count) := by
  obtain ⟨observed, exact, _⟩ := account.observed
  have typed : s.ctx.timerType ≠ .unspecified := fun type => account.armed (account.inv.timer.typed.mp type)
  rcases s.read_eq none account.inv with ⟨type, _⟩ | ⟨_, left, kernel, result, found, called, spec, rfl⟩
  · exact absurd type typed
  · obtain ⟨monotonicOffset, rfl⟩ := spec.emptied account.fixed rfl
    have shown := spec.found account.fixed
    have kept : TimerFD.Inv ⟨_, kernel⟩ := ⟨spec.inv, spec.settled⟩
    have now := spec.now
    have answer : found = if passed first period s.kernel.now ≤ total then .error .EAGAIN
        else .ok ((passed first period s.kernel.now).toNat - total) := by
      by_cases none : (s.ctx.observed s.kernel).nrExpirations = 0
      · rw [if_pos (by omega)]
        rw [if_pos none] at shown
        cases found with
        | ok value => cases shown
        | error ec =>
            cases shown
            rfl
      · rw [if_neg (by omega)]
        rw [if_neg none] at shown
        cases found with
        | ok value =>
            cases shown
            congr 1
            omega
        | error ec => cases shown
    have count : (Out.read found).count = (s.ctx.observed s.kernel).nrExpirations := by
      rw [answer]
      split <;> simp only [Out.count] <;> omega
    refine ⟨_, found, called, answer, ⟨kept, account.positive, observed.fixed, observed.armed, observed.same, ?_, ?_⟩⟩
    · rw [count]
      exact observed.next
    · rw [count]
      show _ ∨ _ ≤ kernel.now
      rw [now]
      exact observed.due

theorem Account.step (account : Account first period s total) {action : Action} (ordinary : s.Ordinary action)
    (undisturbed : s.Undisturbed action) (stepped : s.step action = .ok (after, out)) :
    Account first period after (total + out.count) := by
  obtain ⟨_, _, called, inv, _⟩ := account.inv.step ordinary
  cases called.symm.trans stepped
  cases action with
  | pass nanos =>
      cases stepped
      have due := account.due
      refine { account with inv := inv, due := due.imp_right fun due => ?_ }
      show s.ctx.deadline - period ≤ s.kernel.now + nanos
      omega
  | setClock offset boottime =>
      cases stepped
      exact { account with inv := inv }
  | settime isAbstime isCancelOnSet new old kevent => cases undisturbed
  | gettime =>
      have left := account.inv.timer.gettimeImpl
      simp only [TimerFD.step, timerfdCtxGettime, left, Except.ok.injEq, Prod.mk.injEq] at stepped
      obtain ⟨rfl, rfl⟩ := stepped
      exact account.observed.1
  | read kevent =>
      cases undisturbed
      obtain ⟨_, _, read, _, kept⟩ := account.read
      cases read.symm.trans stepped
      exact kept
  | realtimeChange kevent =>
      obtain ⟨left, kernel, changed, _, _, _, now, same⟩ := account.inv.timer.realtimeChange account.inv.settled kevent
      simp only [TimerFD.step, changed, Except.ok.injEq, Prod.mk.injEq] at stepped
      obtain ⟨rfl, rfl⟩ := stepped
      cases same account.fixed
      refine { account with inv := inv, due := ?_ }
      show _ ∨ _ ≤ kernel.now
      rw [now]
      exact account.due

/-- The account begins when the timer is set. -/
theorem Inv.account (inv : s.Inv) {isAbstime isCancelOnSet old : Bool} {new : Itimerspec} (settable : Settable new)
    (arms : new.value ≠ .zero) (repeats : new.interval ≠ .zero)
    (fixed : isAbstime = true → s.ctx.clockid = .monotonic) {result : Except Error (Option Itimerspec)}
    (setting : s.step (.settime isAbstime isCancelOnSet new old none) = .ok (after, .settime result))
    (accepted : result ≠ .error .EINVAL) :
    Account (if isAbstime then new.value.nanos else s.kernel.now + new.value.nanos) new.interval.nanos after 0 := by
  obtain ⟨left, kernel, result', called, spec⟩ :=
    inv.timer.settime inv.settled settable isAbstime isCancelOnSet old none
  simp only [TimerFD.step, called, Except.ok.injEq, Prod.mk.injEq, Out.settime.injEq] at setting
  obtain ⟨rfl, rfl⟩ := setting
  obtain ⟨renewed, empty⟩ := spec.renewed rfl accepted arms
  have some : 0 < new.value.nanos :=
    settable.value.nanos_nonneg.lt_of_ne fun none => arms ((eq_zero_iff settable.value).mpr none.symm)
  have positive : 0 < new.interval.nanos :=
    settable.interval.nanos_nonneg.lt_of_ne fun none => repeats ((eq_zero_iff settable.interval).mpr none.symm)
  have low := inv.timer.ticking.monotonic.1
  refine ⟨⟨spec.inv, spec.settled⟩, positive, ?_, ?_, renewed.period, ?_, .inl (by rw [empty])⟩
  · simp only [timerfdCtxCanJump, renewed.clockid, renewed.timerType]
    cases isAbstime with
    | false => simp
    | true => simp [fixed rfl]
  · show left.deadline ≠ 0
    rw [renewed.deadline]
    split <;> omega
  · show left.deadline = _
    rw [renewed.deadline, empty]
    simp

/-- What a reader gets of an interval timer that cannot jump are the expirations
that nobody got before, and what is shown of it is the time to the next one. -/
theorem reads_count_expirations {clockid : Clock} {now offset : ℤ} {boottime : Timespec}
    (ticking : Kernel.Ticking ⟨now, offset, boottime, none, none⟩) {before actions : List Action}
    (ordinary : Along step Ordinary (start clockid now offset boottime) before) {middle set last : TimerFD}
    {earlier outs : List Out} (ran : runActions step (start clockid now offset boottime) before = .ok (middle, earlier))
    {isAbstime isCancelOnSet old : Bool} {new : Itimerspec} {result : Except Error (Option Itimerspec)}
    (settable : Settable new) (arms : new.value ≠ .zero) (repeats : new.interval ≠ .zero)
    (fixed : isAbstime = true → middle.ctx.clockid = .monotonic)
    (setting : middle.step (.settime isAbstime isCancelOnSet new old none) = .ok (set, .settime result))
    (accepted : result ≠ .error .EINVAL) (ordinary' : Along step Ordinary set actions)
    (undisturbed : Along step Undisturbed set actions) (run : runActions step set actions = .ok (last, outs)) :
    let first := if isAbstime then new.value.nanos else middle.kernel.now + new.value.nanos
    let count := passed first new.interval.nanos last.kernel.now
    let total := (outs.map Out.count).sum
    (∃ after, last.step (.read none) = .ok (after, .read
      (if count ≤ total then .error .EAGAIN else .ok (count.toNat - total)))) ∧
    ∃ after cur, last.step .gettime = .ok (after, .gettime cur) ∧
      cur.value.nanos = nextDeadline first new.interval.nanos last.kernel.now - last.kernel.now := by
  intro first count total
  have start := (runs_keep ticking ordinary ran).account settable arms repeats fixed setting accepted
  have account : Account first new.interval.nanos last total := by
    have whole := (ordinary'.and undisturbed).accumulate Out.count
      (fun s action after out total calm account stepped => account.step calm.1 calm.2 stepped) start run
    rwa [zero_add] at whole
  constructor
  · obtain ⟨after, found, read, rfl, _⟩ := account.read
    exact ⟨after, read⟩
  · obtain ⟨observed, _, next⟩ := account.observed
    have typed : last.ctx.timerType ≠ .unspecified := fun type => account.armed (account.inv.timer.typed.mp type)
    have clock := clock_of_not_jump (k := last.kernel) typed account.fixed
    have armed : (last.ctx.observed last.kernel).timerfdCtxIsDisarmed = false := by
      by_contra disarmed
      exact observed.armed (observed.inv.timer.timed.disarmed_iff.mp (by simpa using disarmed))
    refine ⟨_, _, rfl, ?_⟩
    simp only [clocktime, if_neg typed]
    rw [← TimerFDCtx.observed, armed]
    simp only [Bool.false_eq_true, if_false, nanos_ofNanos, getClocktime_eq, clock]
    rw [← next]
    rfl

def everyMicrosecond : Itimerspec := ⟨⟨0, 1000⟩, ⟨0, 500⟩⟩

def everyMicrosecondSet : TimerFD :=
  ⟨⟨false, .monotonic, .relative, false, false, .zero, ⟨⟨0, 1000⟩, ⟨0, 600⟩⟩, 0⟩, ⟨100, 7, .zero, some 1100, none⟩⟩

theorem reads_count_expirations_twice :
    ∃ last outs, runActions step everyMicrosecondSet [.pass 1500, .read none, .gettime, .pass 2000, .gettime] =
        .ok (last, outs) ∧
      ∃ after, last.step (.read none) = .ok (after, .read (.ok 2)) := by
  have settable : Settable everyMicrosecond := by
    refine ⟨⟨⟨?_, ?_, ?_⟩, ?_⟩, ⟨⟨?_, ?_, ?_⟩, ?_⟩, ?_⟩ <;> decide
  have before : Along step Ordinary (start .monotonic 0 7 .zero) [.pass 100] := .cons rfl ⟨by decide, by decide⟩ trivial
  have ran : runActions step (start .monotonic 0 7 .zero) [.pass 100] =
      .ok (⟨timerfdCtxInit .monotonic, ⟨100, 7, .zero, none, none⟩⟩, [.none]) := rfl
  have setting : step ⟨timerfdCtxInit .monotonic, ⟨100, 7, .zero, none, none⟩⟩
      (.settime false false everyMicrosecond false none) = .ok (everyMicrosecondSet, .settime (.ok none)) := rfl
  have ordinary : Along step Ordinary everyMicrosecondSet [.pass 1500, .read none, .gettime, .pass 2000, .gettime] :=
    .cons rfl ⟨by decide, by decide⟩ (.cons rfl trivial (.cons rfl trivial (.cons rfl ⟨by decide, by decide⟩
      (.cons rfl trivial trivial))))
  have undisturbed : Along step Undisturbed everyMicrosecondSet
      [.pass 1500, .read none, .gettime, .pass 2000, .gettime] :=
    .cons rfl trivial (.cons rfl rfl (.cons rfl trivial (.cons rfl trivial (.cons rfl trivial trivial))))
  have fixed : false = true → Clock.monotonic = .monotonic := fun _ => rfl
  have accepted : (Except.ok none : Except Error (Option Itimerspec)) ≠ .error .EINVAL := nofun
  have found := (reads_count_expirations ⟨by decide, by decide⟩ before ran settable (by decide) (by decide) fixed setting
    accepted ordinary undisturbed rfl).1
  exact ⟨_, _, rfl, found⟩

end TimerFD

end Iland.Epoll

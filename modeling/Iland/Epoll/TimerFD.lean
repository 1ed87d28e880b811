import Iland.Epoll.Kqueue
import Iland.Epoll.Timespec
import Iland.Data.Periodic

namespace Iland.Epoll

/-! Timer descriptors over the timers of a kernel queue.

The queue has two one-shot timers: the one with identifier 0 is set for the
next expiration, the one with identifier 1 tells that the clock was set.  Both
are kept as the times of the monotonic clock at which they fire.  The kernel may
refuse to set the first; it sets the second, deletes the timers that it is told
to delete, and tells the time.
-/

structure Kernel where
  /-- Nanoseconds of the monotonic clock. -/
  now : ℤ
  /-- How far the real-time clock is ahead of it. -/
  offset : ℤ
  /-- What `timerfd_ctx_get_monotonic_offset` reads. -/
  boottime : Timespec
  timer0 : Option ℤ
  timer1 : Option ℤ
deriving DecidableEq, Repr

inductive Clock
  | monotonic
  | realtime
deriving DecidableEq, Repr

inductive TimerType
  | unspecified
  | relative
  | absolute
deriving DecidableEq, Repr

structure Itimerspec where
  interval : Timespec
  value : Timespec
deriving DecidableEq, Repr

structure TimerFDCtx where
  isAbstime : Bool
  clockid : Clock
  timerType : TimerType
  isCancelOnSet : Bool
  forceCancel : Bool
  monotonicOffset : Timespec
  current : Itimerspec
  nrExpirations : ℕ
deriving DecidableEq, Repr

namespace Kernel

def fired (k : Kernel) (timer : Option ℤ) : Bool := timer.any (· ≤ k.now)

def readable (k : Kernel) : Bool := k.fired k.timer0 || k.fired k.timer1

/-- `timerfd_ctx_get_clocktime` -/
def getClocktime (k : Kernel) (clockid : Clock) (timerType : TimerType) : Timespec :=
  if clockid = .realtime ∧ timerType ≠ .relative then .ofNanos (k.now + k.offset) else .ofNanos k.now

/-- The fired timers are taken out of the queue. -/
def drain (k : Kernel) : Kernel :=
  { k with
    timer0 := if k.fired k.timer0 then none else k.timer0
    timer1 := if k.fired k.timer1 then none else k.timer1 }

/-- The microseconds for which the timer is set, rounded up. -/
def micros (diff : Timespec) : ℤ := diff.sec * 1000000 + diff.nsec / 1000 + if diff.nsec % 1000 ≠ 0 then 1 else 0

/-- The time to wait for. -/
def diffTime (new current : Timespec) : Timespec :=
  match new.timespecsubSafe current with
  | none => .zero
  | some diff => if diff.sec < 0 then .zero else diff

/-- A timer for more than ten years is not set.  `kevent` is what the kernel
answers to the timer it is given. -/
def timerfdCtxRegisterEvent (k : Kernel) (new current : Timespec) (kevent : Option Error) : Kernel × Option Error :=
  let diff := diffTime new current
  if 315360000 ≤ diff.sec then ({ k with timer0 := none }, none)
  else match kevent with
    | none => ({ k with timer0 := some (k.now + micros diff * 1000) }, none)
    | some ec => ({ k with timer0 := none }, some ec)

end Kernel

def timerfdCtxInit (clockid : Clock) : TimerFDCtx :=
  ⟨false, clockid, .unspecified, false, false, .zero, ⟨.zero, .zero⟩, 0⟩

namespace TimerFDCtx

variable (t : TimerFDCtx) (k : Kernel)

def timerfdCtxIsDisarmed : Bool := t.current.value = .zero

def timerfdCtxIsIntervalTimer : Bool := t.current.interval ≠ .zero

def timerfdCtxDisarm : TimerFDCtx :=
  { t with current := { t.current with value := .zero }, timerType := .unspecified }

def timerfdCtxCanJump : Bool := t.clockid = .realtime && t.timerType = .absolute

/-- The next expiration of an interval timer, unless a number gets too large. -/
def advance (currentTime : Timespec) : Option TimerFDCtx := do
  let diffTime ← currentTime.timespecsubSafe t.current.value
  if 0 ≤ diffTime.sec then do
    let diffNanos ← diffTime.tsToNanos
    let intervalNanos ← t.current.interval.tsToNanos
    let expirations := diffNanos.tdiv intervalNanos
    if expirations = 2 ^ 63 - 1 then none
    else do
      let nanosToAdd ← int64 ((expirations + 1) * intervalNanos)
      let nextTs ← (Timespec.nanosToTs nanosToAdd).timespecaddSafe t.current.value
      return { t with
        nrExpirations := (t.nrExpirations + (expirations + 1).toNat) % 2 ^ 64
        current := { t.current with value := nextTs } }
  else return t

def timerfdCtxUpdateToCurrentTime (currentTime : Timespec) : TimerFDCtx :=
  if t.timerfdCtxIsDisarmed then t
  else if t.timerfdCtxIsIntervalTimer then (t.advance currentTime).getD t.timerfdCtxDisarm
  else if currentTime.before t.current.value then t
  else { t with nrExpirations := (t.nrExpirations + 1) % 2 ^ 64 }.timerfdCtxDisarm

/-- Without a time the setting is returned as it is. -/
def timerfdCtxGettimeImpl (currentTime : Option Timespec) : TimerFDCtx × Itimerspec :=
  match currentTime with
  | none => (t, t.current)
  | some currentTime =>
      let t := t.timerfdCtxUpdateToCurrentTime currentTime
      if t.timerfdCtxIsDisarmed then (t, t.current)
      else (t, { t.current with value := .ofNanos (t.current.value.nanos - currentTime.nanos) })

/-- The time that `timerfd_ctx_gettime_impl` is called with. -/
def clocktime : Option Timespec :=
  if t.timerType = .unspecified then none else some (k.getClocktime t.clockid t.timerType)

def timerfdCtxGettime : TimerFDCtx × Itimerspec := t.timerfdCtxGettimeImpl (t.clocktime k)

def timerfdCtxRearmKevent (currentTime : Timespec) (needDelete : Bool) (kevent : Option Error) : TimerFDCtx × Kernel :=
  if t.timerfdCtxIsDisarmed then (t, if needDelete then { k with timer0 := none } else k)
  else match k.timerfdCtxRegisterEvent t.current.value currentTime kevent with
    | (k, none) => (t, k)
    | (k, some _) => (t.timerfdCtxDisarm, k)

def timerfdCtxRealtimeChange (kevent : Option Error) : TimerFDCtx × Kernel :=
  if t.timerfdCtxCanJump = false ∨ t.monotonicOffset = k.boottime then (t, k)
  else
    let t := { t with monotonicOffset := k.boottime }
    if t.isCancelOnSet then ({ t with forceCancel := true }, { k with timer1 := some k.now })
    else if k.readable then (t, k)
    else t.timerfdCtxRearmKevent k (k.getClocktime t.clockid t.timerType) true kevent

def timerfdCtxClearForceCancel : TimerFDCtx × Kernel :=
  ({ t with forceCancel := false }, if t.forceCancel then { k with timer1 := none } else k)

def timerfdCtxCheckForCancel : (TimerFDCtx × Kernel) × Bool :=
  if t.clockid ≠ .realtime then ((t, k), false)
  else
    let isStepped := t.timerfdCtxCanJump && (t.forceCancel || decide (t.monotonicOffset ≠ k.boottime))
    let t := if t.timerfdCtxCanJump then { t with monotonicOffset := k.boottime } else t
    (t.timerfdCtxClearForceCancel k, isStepped && t.isCancelOnSet)

/-- How a call ends that does not return a value. -/
inductive Failure
  | ec (ec : Error)
  | assertion
deriving DecidableEq, Repr

/-- The time on the clock that a new setting goes by. -/
def newClocktime (newTimerType : TimerType) (currentTime : Option Timespec) : Timespec :=
  match currentTime with
  | none => k.getClocktime t.clockid newTimerType
  | some currentTime => if t.timerType = newTimerType then currentTime else k.getClocktime t.clockid newTimerType

/-- What `timerfd_ctx_settime` leaves of the timer when it has read the old
setting. -/
def timerfdCtxSettimeNew (isAbstime isCancelOnSet : Bool) (new : Itimerspec) (currentTime : Option Timespec)
    (kevent : Option Error) : (TimerFDCtx × Kernel) × Option Error :=
  if new.value = .zero then
    (({ t.timerfdCtxDisarm with isCancelOnSet := false, isAbstime := false }, { k with timer0 := none }), none)
  else
    let newTimerType := if isAbstime then TimerType.absolute else .relative
    let currentTime := t.newClocktime k newTimerType currentTime
    match if isAbstime then some new.value else currentTime.timespecaddSafe new.value with
    | none => ((t, k), some .EINVAL)
    | some value =>
        match k.timerfdCtxRegisterEvent value currentTime kevent with
        | (k, some ec) => ((t, k), some ec)
        | (k, none) =>
            (({ t with
                current := ⟨new.interval, value⟩
                timerType := newTimerType
                isCancelOnSet := isCancelOnSet && t.clockid = .realtime && newTimerType = .absolute
                isAbstime := newTimerType = .absolute }, k), none)

def timerfdCtxSettime (isAbstime isCancelOnSet : Bool) (new : Itimerspec) (old : Bool) (kevent : Option Error) :
    (TimerFDCtx × Kernel) × Except Error (Option Itimerspec) :=
  if (new.value.timespecIsValid && new.interval.timespecIsValid) = false then ((t, k), .error .EINVAL)
  else
    let oldIsCancelOnSet := t.isCancelOnSet
    let currentTime := if old then t.clocktime k else none
    let (t, oldSetting) := if old then let (t, cur) := t.timerfdCtxGettimeImpl currentTime; (t, some cur) else (t, none)
    match t.timerfdCtxSettimeNew k isAbstime isCancelOnSet new currentTime kevent with
    | ((t, k), some ec) => ((t, k), .error ec)
    | ((t, k), none) =>
        let ((t, k), cancelled) := { t with nrExpirations := 0 }.timerfdCtxCheckForCancel k
        ((t, k), if cancelled && oldIsCancelOnSet then .error .ECANCELED else .ok oldSetting)

/-- What `timerfd_ctx_read` does with the expirations it counts, when the clock
was not seen to be set: whether the read counts as cancelled, and its value. -/
def countExpirations (gotKevent : Bool) (eventIdent : ℕ) : Except Failure (TimerFDCtx × Bool × ℕ) :=
  let nrExpirations := t.nrExpirations
  let t := { t with nrExpirations := 0 }
  if nrExpirations ≠ 0 then .ok (t, false, nrExpirations)
  else if gotKevent = false then .error (.ec .EAGAIN)
  else if eventIdent ≠ 0 ∨ t.timerfdCtxCanJump = false then .error .assertion
  else if t.isCancelOnSet then .ok (t, true, 0)
  else if t.timerfdCtxIsIntervalTimer then .ok (t, false, 0)
  else .ok (t.timerfdCtxDisarm, false, 1)

/-- How `timerfd_ctx_read` ends when it has expirations to report or was
cancelled. -/
def finishRead (currentTime : Timespec) (needDelete : Bool) (kevent : Option Error) (isCancelled : Bool)
    (nrExpirations : ℕ) : (TimerFDCtx × Kernel) × Except Failure ℕ :=
  if (isCancelled || nrExpirations ≠ 0 ||
      t.timerfdCtxCanJump && t.timerfdCtxIsIntervalTimer && !t.isCancelOnSet) = false then
    ((t, k), .error .assertion)
  else
    (t.timerfdCtxRearmKevent k currentTime needDelete kevent,
      if isCancelled then .error (.ec .ECANCELED) else .ok nrExpirations)

/-- What `timerfd_ctx_read` does with the current count when the clock was not
seen to be set. -/
def readCounted (currentTime : Timespec) (gotKevent : Bool) (eventIdent : ℕ) (needDelete : Bool)
    (kevent : Option Error) : (TimerFDCtx × Kernel) × Except Failure ℕ :=
  match t.countExpirations gotKevent eventIdent with
  | .error failure => (({ t with nrExpirations := 0 }, k), .error failure)
  | .ok (t, isCancelled, nrExpirations) => t.finishRead k currentTime needDelete kevent isCancelled nrExpirations

def timerfdCtxRead (kevent : Option Error) : (TimerFDCtx × Kernel) × Except Failure ℕ :=
  if t.timerType = .unspecified then ((t, k), .error (.ec .EAGAIN))
  else
    let gotKevent := k.readable
    let eventIdent := if k.fired k.timer0 then 0 else 1
    let needDelete := !gotKevent || eventIdent != 0
    let ((t, k), isCancelled) := t.timerfdCtxCheckForCancel k.drain
    let currentTime := k.getClocktime t.clockid t.timerType
    if isCancelled then
      if gotKevent && eventIdent == 0 then ((t, k), .error (.ec .ECANCELED))
      else t.finishRead k currentTime needDelete kevent true 0
    else
      (t.timerfdCtxUpdateToCurrentTime currentTime).readCounted k currentTime gotKevent eventIdent needDelete kevent

end TimerFDCtx

end Iland.Epoll

import Iland.Data.ReadersWriter

namespace Iland.Epoll

open Iland.Data

/-! The readers-writer lock of the epoll shim, one atomic operation at a time.

A thread that is inside a function of the lock stands between two atomic
operations of it.  The scheduler lets any thread take its next step.
-/

def maxReaders : ℤ := 2 ^ 30

structure RWLock where
  mutex : Bool
  writerWait : ℕ
  readerWait : ℕ
  numPending : ℤ
  readersDeparting : ℤ
deriving DecidableEq, Repr

def rwlockInit : RWLock := ⟨false, 0, 0, 0, 0⟩

/-- Why a thread cannot take a step. -/
inductive Stop
  | blocked
  | overflow
  | misuse
deriving DecidableEq, Repr

/-- Where a thread stands. -/
inductive Pc
  | idle
  | readerWait
  | reading
  | departing
  | posting
  | pending
  | announced (r : ℤ)
  | writerWait
  | writing
  | releasing (i r keepReading : ℤ)
deriving DecidableEq, Repr

/-- The counters are of a type of 32 bits. -/
def int32 (z : ℤ) : Except Stop ℤ := if -2 ^ 31 ≤ z ∧ z < 2 ^ 31 then .ok z else .error .overflow

namespace RWLock

variable (lock : RWLock)

def rwlockLockRead : Except Stop (RWLock × Pc) := do
  let pending ← int32 (lock.numPending + 1)
  return ({ lock with numPending := pending }, if pending < 0 then .readerWait else .reading)

def rwlockUnlockRead : Except Stop (RWLock × Pc) := do
  let pending ← int32 (lock.numPending - 1)
  return ({ lock with numPending := pending }, if pending < 0 then .departing else .idle)

def rwlockLockWrite : Except Stop (RWLock × Pc) :=
  if lock.mutex then .error .blocked else .ok ({ lock with mutex := true }, .pending)

def rwlockUnlockCommon (keepReading : ℤ) : Except Stop (RWLock × Pc) := do
  let r ← int32 (lock.numPending + (maxReaders + keepReading))
  return ({ lock with numPending := r }, .releasing keepReading r keepReading)

def rwlockUnlockWrite : Except Stop (RWLock × Pc) := lock.rwlockUnlockCommon 0

def rwlockDowngrade : Except Stop (RWLock × Pc) := lock.rwlockUnlockCommon 1

/-- The next operation of the function that a thread is in. -/
def resume : Pc → Except Stop (RWLock × Pc)
  | .readerWait =>
      if lock.readerWait = 0 then .error .blocked
      else .ok ({ lock with readerWait := lock.readerWait - 1 }, .reading)
  | .departing => do
      let departing ← int32 (lock.readersDeparting - 1)
      return ({ lock with readersDeparting := departing }, if departing = 0 then .posting else .idle)
  | .posting => .ok ({ lock with writerWait := lock.writerWait + 1 }, .idle)
  | .pending => do
      let pending ← int32 (lock.numPending - maxReaders)
      return ({ lock with numPending := pending },
        if lock.numPending ≠ 0 then .announced lock.numPending else .writing)
  | .announced r => do
      let departing ← int32 (lock.readersDeparting + r)
      return ({ lock with readersDeparting := departing }, if departing ≠ 0 then .writerWait else .writing)
  | .writerWait =>
      if lock.writerWait = 0 then .error .blocked
      else .ok ({ lock with writerWait := lock.writerWait - 1 }, .writing)
  | .releasing i r keepReading =>
      if i < r then .ok ({ lock with readerWait := lock.readerWait + 1 }, .releasing (i + 1) r keepReading)
      else .ok ({ lock with mutex := false }, if keepReading = 0 then .idle else .reading)
  | _ => .error .misuse

end RWLock

inductive Call
  | lockRead
  | unlockRead
  | lockWrite
  | unlockWrite
  | downgrade
  | resume
deriving DecidableEq, Repr

def RWLock.move (lock : RWLock) : Pc → Call → Except Stop (RWLock × Pc)
  | .idle, .lockRead => lock.rwlockLockRead
  | .reading, .unlockRead => lock.rwlockUnlockRead
  | .idle, .lockWrite => lock.rwlockLockWrite
  | .writing, .unlockWrite => lock.rwlockUnlockWrite
  | .writing, .downgrade => lock.rwlockDowngrade
  | pc, .resume => lock.resume pc
  | _, _ => .error .misuse

/-- What a move does, where no counter leaves its type. -/
inductive Moves (lock : RWLock) : Pc → Call → RWLock → Pc → Prop
  | lockRead : Moves lock .idle .lockRead { lock with numPending := lock.numPending + 1 }
      (if lock.numPending + 1 < 0 then .readerWait else .reading)
  | unlockRead : Moves lock .reading .unlockRead { lock with numPending := lock.numPending - 1 }
      (if lock.numPending - 1 < 0 then .departing else .idle)
  | lockWrite : lock.mutex = false → Moves lock .idle .lockWrite { lock with mutex := true } .pending
  | unlockWrite : Moves lock .writing .unlockWrite { lock with numPending := lock.numPending + (maxReaders + 0) }
      (.releasing 0 (lock.numPending + (maxReaders + 0)) 0)
  | downgrade : Moves lock .writing .downgrade { lock with numPending := lock.numPending + (maxReaders + 1) }
      (.releasing 1 (lock.numPending + (maxReaders + 1)) 1)
  | admitted : lock.readerWait ≠ 0 →
      Moves lock .readerWait .resume { lock with readerWait := lock.readerWait - 1 } .reading
  | departing : Moves lock .departing .resume { lock with readersDeparting := lock.readersDeparting - 1 }
      (if lock.readersDeparting - 1 = 0 then .posting else .idle)
  | posting : Moves lock .posting .resume { lock with writerWait := lock.writerWait + 1 } .idle
  | pending : Moves lock .pending .resume { lock with numPending := lock.numPending - maxReaders }
      (if lock.numPending ≠ 0 then .announced lock.numPending else .writing)
  | announced (r : ℤ) : Moves lock (.announced r) .resume { lock with readersDeparting := lock.readersDeparting + r }
      (if lock.readersDeparting + r ≠ 0 then .writerWait else .writing)
  | woken : lock.writerWait ≠ 0 →
      Moves lock .writerWait .resume { lock with writerWait := lock.writerWait - 1 } .writing
  | post (i r keepReading : ℤ) : i < r →
      Moves lock (.releasing i r keepReading) .resume { lock with readerWait := lock.readerWait + 1 }
        (.releasing (i + 1) r keepReading)
  | unlocked (i r keepReading : ℤ) : ¬ i < r →
      Moves lock (.releasing i r keepReading) .resume { lock with mutex := false }
        (if keepReading = 0 then .idle else .reading)

theorem int32_bind_ok {β : Type} {z : ℤ} {f : ℤ → Except Stop β} {result : β}
    (run : (int32 z >>= f) = .ok result) : f z = .ok result := by
  simp only [int32] at run
  split at run
  · exact run
  · cases run

theorem int32_bind_ne_overflow {β : Type} {z : ℤ} {f : ℤ → β} (low : -2 ^ 31 ≤ z) (high : z < 2 ^ 31) :
    (int32 z >>= fun value => Except.ok (f value)) ≠ .error .overflow := by
  rw [int32, if_pos ⟨low, high⟩]
  nofun

theorem int32_bind_error {β : Type} {z : ℤ} {f : ℤ → β} {reason : Stop}
    (stopped : (int32 z >>= fun value => Except.ok (f value)) = .error reason) : reason = .overflow := by
  simp only [int32] at stopped
  split at stopped
  · cases stopped
  · cases stopped
    rfl

/-- Inside a function of the lock only the semaphores stop a thread. -/
theorem RWLock.resume_error {lock : RWLock} {pc : Pc} {reason : Stop} (stopped : lock.resume pc = .error reason) :
    reason = .overflow ∨ pc = .idle ∨ pc = .reading ∨ pc = .writing ∨ pc = .readerWait ∧ lock.readerWait = 0 ∨
      pc = .writerWait ∧ lock.writerWait = 0 := by
  cases pc <;> simp only [RWLock.resume, reduceCtorEq] at stopped
  case idle => simp
  case readerWait =>
    split at stopped
    · simp [*]
    · cases stopped
  case reading => simp
  case departing => exact .inl (int32_bind_error stopped)
  case pending => exact .inl (int32_bind_error stopped)
  case announced => exact .inl (int32_bind_error stopped)
  case writerWait =>
    split at stopped
    · simp [*]
    · cases stopped
  case writing => simp
  case releasing => split at stopped <;> cases stopped

/-- Counters that leave room for a change by a thread stay in their type. -/
theorem RWLock.move_ne_overflow {lock : RWLock} {pc : Pc} {call : Call}
    (pending : -maxReaders ≤ lock.numPending ∧ lock.numPending ≤ maxReaders)
    (writing : pc = .writing → lock.numPending ≤ 0)
    (departing : -maxReaders ≤ lock.readersDeparting ∧ lock.readersDeparting ≤ maxReaders)
    (announced : ∀ r, pc = .announced r → 0 ≤ lock.readersDeparting + r ∧ lock.readersDeparting + r ≤ maxReaders) :
    lock.move pc call ≠ .error .overflow := by
  have value : maxReaders = 2 ^ 30 := rfl
  cases pc <;> cases call <;>
    simp only [RWLock.move, RWLock.resume, ne_eq, Except.error.injEq, reduceCtorEq, not_false_eq_true]
  case idle.lockRead => exact int32_bind_ne_overflow (by omega) (by omega)
  case idle.lockWrite =>
    simp only [rwlockLockWrite]
    split <;> simp
  case readerWait.resume => split <;> simp
  case reading.unlockRead => exact int32_bind_ne_overflow (by omega) (by omega)
  case departing.resume => exact int32_bind_ne_overflow (by omega) (by omega)
  case pending.resume => exact int32_bind_ne_overflow (by omega) (by omega)
  case announced.resume r =>
    obtain ⟨low, high⟩ := announced r rfl
    exact int32_bind_ne_overflow (by omega) (by omega)
  case writerWait.resume => split <;> simp
  case writing.unlockWrite =>
    have low := writing rfl
    exact int32_bind_ne_overflow (by omega) (by omega)
  case writing.downgrade =>
    have low := writing rfl
    exact int32_bind_ne_overflow (by omega) (by omega)
  case releasing.resume => split <;> simp

theorem RWLock.move_moves {lock after : RWLock} {pc next : Pc} {call : Call}
    (moved : lock.move pc call = .ok (after, next)) : Moves lock pc call after next := by
  cases pc <;> cases call <;> simp only [RWLock.move, RWLock.resume, reduceCtorEq] at moved
  case idle.lockRead =>
    cases int32_bind_ok moved
    exact .lockRead
  case idle.lockWrite =>
    simp only [rwlockLockWrite] at moved
    split at moved
    · cases moved
    · cases moved
      exact .lockWrite (by simpa using ‹¬ lock.mutex = true›)
  case readerWait.resume =>
    split at moved
    · cases moved
    · cases moved
      exact .admitted ‹_›
  case reading.unlockRead =>
    cases int32_bind_ok moved
    exact .unlockRead
  case departing.resume =>
    cases int32_bind_ok moved
    exact .departing
  case posting.resume =>
    cases moved
    exact .posting
  case pending.resume =>
    cases int32_bind_ok moved
    exact .pending
  case announced.resume r =>
    cases int32_bind_ok moved
    exact .announced r
  case writerWait.resume =>
    split at moved
    · cases moved
    · cases moved
      exact .woken ‹_›
  case writing.unlockWrite =>
    cases int32_bind_ok moved
    exact .unlockWrite
  case writing.downgrade =>
    cases int32_bind_ok moved
    exact .downgrade
  case releasing.resume i r keepReading =>
    split at moved
    · cases moved
      exact .post i r keepReading ‹_›
    · cases moved
      exact .unlocked i r keepReading ‹_›

structure Threads (n : ℕ) where
  lock : RWLock
  pc : Fin n → Pc

namespace Threads

variable {n : ℕ}

instance : DecidableEq (Threads n) := fun s t =>
  decidable_of_iff (s.lock = t.lock ∧ s.pc = t.pc) (by cases s; cases t; simp)

def start : Threads n := ⟨rwlockInit, fun _ => .idle⟩

def step (s : Threads n) : Fin n × Call → Except Stop (Threads n × Pc)
  | (i, call) => do
      let (lock, pc) ← s.lock.move (s.pc i) call
      return (⟨lock, Function.update s.pc i pc⟩, pc)

end Threads

end Iland.Epoll

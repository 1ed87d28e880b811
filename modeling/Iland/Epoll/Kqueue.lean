import Iland.Data.Run

namespace Iland.Epoll

/-! What the descriptors of the shim keep in their kernel queue.

A queue holds a user event that the program triggers itself, and events for
signals.  All of them are cleared when they are taken out, and the queue polls
readable while one of them is active.
-/

inductive Error
  | EINVAL
  | EAGAIN
  | ECANCELED
  | EBADF
  | EEXIST
  | ENOENT
  | ENOMEM
  | kernel (code : ℕ)
deriving DecidableEq, Repr

structure Kqueue where
  user : Bool
  signal : Bool
deriving DecidableEq, Repr

def Kqueue.readable (kq : Kqueue) : Bool := kq.user || kq.signal

structure KQueueEvent where
  isTriggered : Bool
deriving DecidableEq, Repr

namespace KQueueEvent

variable (event : KQueueEvent) (kq : Kqueue)

def kqueueEventInit (shouldTrigger : Bool) : KQueueEvent × Kqueue :=
  (⟨shouldTrigger⟩, ⟨shouldTrigger, false⟩)

/-- `kevent` is what the system call answers, if it is made. -/
def kqueueEventTrigger (kevent : Option Error) : Except Error (KQueueEvent × Kqueue) :=
  if event.isTriggered then .ok (event, kq)
  else match kevent with
    | some ec => .error ec
    | none => .ok (⟨true⟩, { kq with user := true })

def kqueueEventClear : KQueueEvent × Kqueue := (⟨false⟩, ⟨false, false⟩)

/-- The flag says whether the user event is active. -/
def Shows : Prop := kq.user = event.isTriggered

variable {event kq}

theorem Shows.trigger {kevent : Option Error} {result : KQueueEvent × Kqueue} (shows : event.Shows kq)
    (triggered : event.kqueueEventTrigger kq kevent = .ok result) :
    result.1.Shows result.2 ∧ result.1.isTriggered = true ∧ result.2.signal = kq.signal := by
  simp only [kqueueEventTrigger] at triggered
  split at triggered
  · cases triggered
    exact ⟨shows, ‹_›, rfl⟩
  · cases kevent with
    | some ec => cases triggered
    | none =>
        cases triggered
        exact ⟨rfl, rfl, rfl⟩

theorem trigger_served (event : KQueueEvent) (kq : Kqueue) : ∃ result, event.kqueueEventTrigger kq none = .ok result := by
  simp only [kqueueEventTrigger]
  split <;> exact ⟨_, rfl⟩

end KQueueEvent

end Iland.Epoll

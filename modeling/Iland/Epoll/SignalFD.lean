import Iland.Epoll.Kqueue

namespace Iland.Epoll

open Iland.Data

/-! A descriptor that reads signals.

The kernel reports that a signal came, not that one is pending.  A thread with
the mutex therefore clears the queue and looks for pending signals again, while
more of them come in and others are taken elsewhere.
-/

/-- Where the thread with the mutex stands; what it will return is known before
it clears the queue. -/
inductive Signaller
  | outside
  | installing
  | reading
  | waiting
  | polling
  | clearing (result : Except Error (Option ℕ))
  | rechecking (result : Except Error (Option ℕ))
deriving DecidableEq

structure SignalFD where
  sigs : Finset ℕ
  event : KQueueEvent
  kq : Kqueue
  /-- The signals that are pending for the process. -/
  pending : Finset ℕ
  place : Signaller

namespace SignalFD

inductive Action
  | arrive (signal : ℕ)
  /-- Somebody else takes a pending signal. -/
  | taken (signal : ℕ)
  | read
  /-- `signalfd_ctx_poll`, with a place for the events or without one. -/
  | poll (revents : Bool)
  /-- The next operation of the thread with the mutex; the kernel picks a signal
  and answers `kevent`. -/
  | resume (signal : ℕ) (kevent : Option Error)
  /-- In its place `sigpending` or `sigwait` fails. -/
  | fail (ec : Error) (kevent : Option Error)
deriving DecidableEq

inductive Out
  | none
  | read (result : Except Error (Option ℕ))
  /-- The answer of `signalfd_ctx_clear_signal`. -/
  | cleared (pending : Bool)
deriving DecidableEq

inductive Stuck
  | blocked
  | misuse
  /-- `signalfd_ctx_init` fails, and there is no descriptor. -/
  | failed
deriving DecidableEq, Repr

/-- After `signalfd_ctx_init` has registered its events. -/
def start (sigs pending : Finset ℕ) : SignalFD :=
  let (event, kq) := KQueueEvent.kqueueEventInit false
  ⟨sigs, event, kq, pending, .installing⟩

variable (s : SignalFD)

def signalfdHasPending : Bool := decide ((s.pending ∩ s.sigs).Nonempty)

/-- A trigger that the kernel refuses goes unnoticed. -/
def signalfdCtxTriggerManually (kevent : Option Error) : SignalFD :=
  match s.event.kqueueEventTrigger s.kq kevent with
  | .ok (event, kq) => { s with event := event, kq := kq }
  | .error _ => s

def leave (kevent : Option Error) : SignalFD := { s.signalfdCtxTriggerManually kevent with place := .outside }

def recheck (kevent : Option Error) : SignalFD :=
  if s.signalfdHasPending then s.leave kevent else { s with place := .outside }

def resume (signal : ℕ) (kevent : Option Error) : Except Stuck (SignalFD × Out) :=
  match s.place with
  | .outside => .error .misuse
  | .installing =>
      if s.signalfdHasPending = true ∧ s.event.isTriggered = false ∧ kevent.isSome then .error .failed
      else .ok (s.recheck kevent, .none)
  | .reading =>
      if s.signalfdHasPending then .ok ({ s with place := .waiting }, .none)
      else .ok ({ s with place := .clearing (.error .EAGAIN) }, .none)
  | .waiting =>
      if signal ∈ s.pending ∩ s.sigs then
        .ok ({ s with pending := s.pending.erase signal, place := .clearing (.ok (some signal)) }, .none)
      else .error .blocked
  | .polling =>
      if s.signalfdHasPending then .ok ({ s with place := .outside }, .cleared true)
      else .ok ({ s with place := .clearing (.ok none) }, .none)
  | .clearing result =>
      let (event, kq) := KQueueEvent.kqueueEventClear
      .ok ({ s with event := event, kq := kq, place := .rechecking result }, .none)
  | .rechecking result =>
      .ok (s.recheck kevent, if result = .ok none then .cleared s.signalfdHasPending else .read result)

/-- Where it cannot be told what is pending, the queue is made readable. -/
def fail (ec : Error) (kevent : Option Error) : Except Stuck (SignalFD × Out) :=
  match s.place with
  | .outside | .clearing _ => .error .misuse
  | .installing => .error .failed
  | .reading | .waiting =>
      if ec = .EAGAIN then .ok ({ s with place := .clearing (.error .EAGAIN) }, .none)
      else .ok ({ s with place := .outside }, .read (.error ec))
  | .polling => .ok ({ s with place := .outside }, .cleared true)
  | .rechecking result => .ok (s.leave kevent, if result = .ok none then .cleared true else .read result)

def step (s : SignalFD) : Action → Except Stuck (SignalFD × Out)
  | .arrive signal =>
      .ok ({ s with pending := insert signal s.pending, kq := { s.kq with signal := s.kq.signal || signal ∈ s.sigs } },
        .none)
  | .taken signal => .ok ({ s with pending := s.pending.erase signal }, .none)
  | .read => if s.place = .outside then .ok ({ s with place := .reading }, .none) else .error .misuse
  | .poll revents =>
      if s.place = .outside then
        .ok ({ s with place := if revents then .polling else .clearing (.ok none) }, .none)
      else .error .misuse
  | .resume signal kevent => s.resume signal kevent
  | .fail ec kevent => s.fail ec kevent

/-! Whatever comes in between, a pending signal is seen. -/

def Served : Action → Prop
  | .resume _ kevent => kevent = none
  | .fail _ kevent => kevent = none
  | _ => True

/-- The thread with the mutex will look for pending signals again. -/
def Rechecks : Signaller → Prop
  | .installing => True
  | .rechecking _ => True
  | _ => False

structure Inv (s : SignalFD) : Prop where
  shows : s.event.Shows s.kq
  seen : (s.pending ∩ s.sigs).Nonempty → ¬ Rechecks s.place → s.kq.readable = true

variable {s}

theorem signalfdHasPending_iff : s.signalfdHasPending = true ↔ (s.pending ∩ s.sigs).Nonempty := decide_eq_true_iff

theorem Inv.leave (inv : s.Inv) : (s.leave none).Inv := by
  obtain ⟨⟨event, kq⟩, triggered⟩ := KQueueEvent.trigger_served s.event s.kq
  obtain ⟨shows, lit, _⟩ := inv.shows.trigger triggered
  simp only [SignalFD.leave, signalfdCtxTriggerManually, triggered]
  refine ⟨shows, fun _ _ => ?_⟩
  show (kq.user || kq.signal) = true
  rw [show kq.user = event.isTriggered from shows, show event.isTriggered = true from lit, Bool.true_or]

theorem Inv.recheck (inv : s.Inv) : (s.recheck none).Inv := by
  simp only [SignalFD.recheck]
  split
  · exact inv.leave
  · rename_i quiet
    exact ⟨inv.shows, fun waits => absurd (signalfdHasPending_iff.mpr waits) quiet⟩

theorem Inv.fewer (inv : s.Inv) (signal : ℕ) {place : Signaller} (rechecks : Rechecks s.place → Rechecks place) :
    { s with pending := s.pending.erase signal, place := place }.Inv := by
  refine ⟨inv.shows, fun waits done => inv.seen (waits.mono ?_) fun will => done (rechecks will)⟩
  exact Finset.inter_subset_inter_right (Finset.erase_subset signal s.pending)

theorem Inv.moved (inv : s.Inv) {place : Signaller} (outside : ¬ Rechecks s.place) : { s with place := place }.Inv :=
  ⟨inv.shows, fun waits _ => inv.seen waits outside⟩

theorem Inv.arrive (inv : s.Inv) (signal : ℕ) :
    { s with pending := insert signal s.pending,
             kq := { s.kq with signal := s.kq.signal || signal ∈ s.sigs } }.Inv := by
  refine ⟨inv.shows, fun waits done => ?_⟩
  by_cases ours : signal ∈ s.sigs
  · simp [Kqueue.readable, ours]
  · have before : (s.pending ∩ s.sigs).Nonempty := by
      rwa [Finset.insert_inter_of_notMem ours] at waits
    have readable := inv.seen before done
    simp only [Kqueue.readable, ours, decide_false, Bool.or_false] at readable ⊢
    exact readable

theorem Inv.resume {after : SignalFD} {signal : ℕ} {out : Out} (inv : s.Inv)
    (resumed : s.resume signal none = .ok (after, out)) : after.Inv := by
  cases place : s.place <;> simp only [SignalFD.resume, place] at resumed
  case outside => cases resumed
  case installing =>
    split at resumed <;> cases resumed
    exact inv.recheck
  case reading =>
    split at resumed <;> cases resumed <;> exact inv.moved (by simp [place, Rechecks])
  case waiting =>
    split at resumed
    · cases resumed
      exact inv.fewer signal (by simp [place, Rechecks])
    · cases resumed
  case polling =>
    split at resumed <;> cases resumed <;> exact inv.moved (by simp [place, Rechecks])
  case clearing result =>
    cases resumed
    exact ⟨rfl, fun _ done => absurd trivial done⟩
  case rechecking result =>
    cases resumed
    exact inv.recheck

theorem Inv.fail {after : SignalFD} {ec : Error} {out : Out} (inv : s.Inv) (failed : s.fail ec none = .ok (after, out)) :
    after.Inv := by
  cases place : s.place <;> simp only [SignalFD.fail, place] at failed
  case outside | installing | clearing => cases failed
  case reading | waiting => split at failed <;> cases failed <;> exact inv.moved (by simp [place, Rechecks])
  case polling =>
    cases failed
    exact inv.moved (by simp [place, Rechecks])
  case rechecking result =>
    cases failed
    exact inv.leave

theorem Inv.step {after : SignalFD} {action : Action} {out : Out} (served : Served action) (inv : s.Inv)
    (stepped : s.step action = .ok (after, out)) : after.Inv := by
  cases action with
  | arrive signal =>
      cases stepped
      exact inv.arrive signal
  | taken signal =>
      cases stepped
      exact inv.fewer signal id
  | read =>
      simp only [SignalFD.step] at stepped
      split at stepped <;> cases stepped
      exact inv.moved (by simp [*, Rechecks])
  | poll revents =>
      simp only [SignalFD.step] at stepped
      split at stepped <;> cases stepped
      exact inv.moved (by simp [*, Rechecks])
  | resume signal kevent =>
      rw [show kevent = none from served] at stepped
      exact inv.resume stepped
  | fail ec kevent =>
      rw [show kevent = none from served] at stepped
      exact inv.fail stepped

theorem start_inv (sigs pending : Finset ℕ) : (start sigs pending).Inv where
  shows := rfl
  seen := fun _ done => absurd trivial done

/-- No signal is lost: when no thread is at work on the descriptor and a signal
that it reads is pending, its queue polls readable. -/
theorem readable_of_pending {sigs pending : Finset ℕ} {actions : List Action} {last : SignalFD} {outs : List Out}
    (served : ∀ action ∈ actions, Served action)
    (run : runActions SignalFD.step (start sigs pending) actions = .ok (last, outs)) (idle : last.place = .outside)
    (waits : (last.pending ∩ last.sigs).Nonempty) : last.kq.readable = true := by
  have inv : last.Inv :=
    (along_of_forall _ served).invariant (fun _ _ _ _ meets holds stepped => holds.step meets stepped)
      (start_inv sigs pending) run
  exact inv.seen waits (by simp [idle, Rechecks])

/-- A second signal comes while the queue is cleared after the first one was read. -/
theorem readable_of_pending_two :
    ∃ last : SignalFD, runActions SignalFD.step (start {1, 2} {1})
        [.resume 0 none, .read, .resume 0 none, .resume 1 none, .resume 0 none, .arrive 2, .resume 0 none] =
          .ok (last, [.none, .none, .none, .none, .none, .none, .read (.ok (some 1))]) ∧
      last.kq.readable = true := by
  refine ⟨_, rfl, readable_of_pending (by simp [Served]) (show runActions SignalFD.step (start {1, 2} {1})
    [.resume 0 none, .read, .resume 0 none, .resume 1 none, .resume 0 none, .arrive 2, .resume 0 none] =
      .ok (_, _) from rfl) rfl ?_⟩
  decide

end SignalFD

end Iland.Epoll

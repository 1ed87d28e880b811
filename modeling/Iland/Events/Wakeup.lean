import Iland.Data.Mailbox
import Iland.Invariant

namespace Iland.Events

open Iland.Data
open Iland.Drm
open Iland.Ioctl

/-! Threads that submit flips while one thread handles their completions.

`drmModePageFlip` and `drmModeAtomicCommit` queue their completions one by one
and then write one byte; `drmHandleEvent` reads one byte and then takes
completions until the ring is empty.  Steps of different threads come in any
order.
-/

inductive Submitting where
  | idle
  /-- Between the first completion that it queues and its byte. -/
  | owing (left : List FlipEvent)

inductive Handling where
  | waiting
  | draining
deriving DecidableEq

structure Traffic (ι : Type*) where
  dev : Device
  producers : ι → Submitting
  handler : Handling

inductive Move (ι : Type*) where
  | submit (p : ι) (first : FlipEvent) (left : List FlipEvent)
  | enqueue (p : ι)
  | write (p : ι)
  | read
  | dequeue

def Submitting.isOwing : Submitting → Bool
  | .idle => false
  | .owing _ => true

namespace Traffic

variable {ι : Type*} [DecidableEq ι] (s : Traffic ι)

def enqueueFor (p : ι) (event : FlipEvent) (left : List FlipEvent) : Traffic ι :=
  { s with
    dev := s.dev.enqueueFlipEvent event.crtcId event.data
    producers := Function.update s.producers p (.owing left) }

def start (dev : Device) : Traffic ι := ⟨dev, fun _ => .idle, .waiting⟩

end Traffic

variable {ι : Type*} [DecidableEq ι]

/-- Perform one step of one thread; an error means that this thread cannot take
this step now.  The output is the completion taken from the ring. -/
def move (s : Traffic ι) : Move ι → Except Unit (Traffic ι × Option FlipEvent)
  | .submit p first left =>
      match s.producers p with
      | .idle => .ok (s.enqueueFor p first left, none)
      | .owing _ => .error ()
  | .enqueue p =>
      match s.producers p with
      | .owing (event :: left) => .ok (s.enqueueFor p event left, none)
      | _ => .error ()
  | .write p =>
      match s.producers p with
      | .owing [] =>
          .ok ({ s with dev := s.dev.signalEvent, producers := Function.update s.producers p .idle }, none)
      | _ => .error ()
  | .read =>
      match s.handler, readEvent s.dev with
      | .waiting, some (.ok dev) => .ok ({ s with dev := dev, handler := .draining }, none)
      | .waiting, some (.error _) => .ok (s, none)
      | _, _ => .error ()
  | .dequeue =>
      match s.handler, s.dev.dequeueFlipEvent with
      | .draining, some (event, dev) => .ok ({ s with dev := dev }, some event)
      | .draining, none => .ok ({ s with handler := .waiting }, none)
      | .waiting, _ => .error ()

/-- The mailbox that the ring and the pipe form. -/
def Traffic.mailbox (s : Traffic ι) : Mailbox ι FlipEvent where
  queue := s.dev.queued
  unread := s.dev.eventPipe
  owing := Submitting.isOwing ∘ s.producers
  draining := s.handler == .draining

omit [DecidableEq ι] in
theorem readEvent_ok {dev after : Device} (read : readEvent dev = some (.ok after)) :
    ∃ unread, dev.eventPipe = some (unread + 1) ∧ after = { dev with eventPipe := some unread } := by
  simp only [readEvent] at read
  split at read
  · simp at read
  · contradiction
  · rename_i unread bytes
    simp only [Option.some.injEq, Except.ok.injEq] at read
    exact ⟨unread, bytes, read.symm⟩

/-- What a step does: queue a completion, write a byte, take a byte, nothing,
take a completion, or find the ring empty. -/
theorem move_cases {s after : Traffic ι} {m : Move ι} {out : Option FlipEvent}
    (moved : move s m = .ok (after, out)) :
    (∃ p event left, after = s.enqueueFor p event left) ∨
    (∃ p, after = { s with dev := s.dev.signalEvent, producers := Function.update s.producers p .idle }) ∨
    (∃ unread, s.dev.eventPipe = some (unread + 1) ∧
      after = { s with dev := { s.dev with eventPipe := some unread }, handler := .draining }) ∨
    after = s ∨
    (∃ event dev, s.handler = .draining ∧ s.dev.dequeueFlipEvent = some (event, dev) ∧
      after = { s with dev := dev }) ∨
    (s.dev.dequeueFlipEvent = none ∧ after = { s with handler := .waiting }) := by
  cases m <;> simp only [move] at moved <;> split at moved <;> cases moved
  · exact .inl ⟨_, _, _, rfl⟩
  · exact .inl ⟨_, _, _, rfl⟩
  · exact .inr (.inl ⟨_, rfl⟩)
  · rename_i read
    obtain ⟨unread, bytes, rfl⟩ := readEvent_ok read
    exact .inr (.inr (.inl ⟨unread, bytes, rfl⟩))
  · exact .inr (.inr (.inr (.inl rfl)))
  · rename_i draining taken
    exact .inr (.inr (.inr (.inr (.inl ⟨_, _, draining, taken, rfl⟩))))
  · rename_i nothing
    exact .inr (.inr (.inr (.inr (.inr ⟨nothing, rfl⟩))))

theorem move_mailbox {s after : Traffic ι} {m : Move ι} {out : Option FlipEvent}
    (moved : move s m = .ok (after, out)) :
    Relation.ReflTransGen Mailbox.Step s.mailbox after.mailbox := by
  rcases move_cases moved with ⟨p, event, left, rfl⟩ | ⟨p, rfl⟩ | ⟨unread, bytes, rfl⟩ | rfl |
    ⟨event, dev, draining, taken, rfl⟩ | ⟨nothing, rfl⟩
  · have stepped : s.mailbox.Step _ := .append p (s.enqueueFor p event left).dev.queued
    simp only [Traffic.mailbox, Traffic.enqueueFor, Function.comp_update] at stepped ⊢
    exact .single stepped
  · have stepped : s.mailbox.Step _ := .announce p
    simp only [Traffic.mailbox, Function.comp_update] at stepped ⊢
    exact .single stepped
  · have looks : s.mailbox.Step { s.mailbox with draining := true } := .look
    have takes : Mailbox.Step { s.mailbox with draining := true } _ := .take unread bytes (Nat.lt_succ_self unread) rfl
    exact .tail (.single looks) takes
  · exact .refl
  · have stepped : s.mailbox.Step _ := .remove dev.queued (by simp [Traffic.mailbox, draining])
    rw [(dequeueFlipEvent_some taken).2.2]
    exact .single stepped
  · have stepped : s.mailbox.Step _ := .finish (queued_of_dequeue_none nothing)
    exact .single stepped

theorem piped_move {s after : Traffic ι} {m : Move ι} {out : Option FlipEvent}
    (piped : s.dev.eventPipe.isSome) (moved : move s m = .ok (after, out)) : after.dev.eventPipe.isSome := by
  rcases move_cases moved with ⟨p, event, left, rfl⟩ | ⟨p, rfl⟩ | ⟨unread, bytes, rfl⟩ | rfl |
    ⟨event, dev, draining, taken, rfl⟩ | ⟨nothing, rfl⟩
  · exact piped
  · simpa [Device.signalEvent] using piped
  · rfl
  · exact piped
  · rw [(dequeueFlipEvent_some taken).2.2]
    exact piped
  · exact piped

variable {dev : Device} {s : Traffic ι}

theorem piped_reachable (piped : dev.eventPipe.isSome) (reachable : Reachable move (Traffic.start dev) s) :
    s.dev.eventPipe.isSome := by
  induction reachable with
  | start => exact piped
  | next _ moved ih => exact piped_move ih moved

/-- In every state between calls, a completion in the ring means a byte in the
pipe. -/
theorem no_lost_wakeup (piped : dev.eventPipe.isSome) (empty : dev.queued = [])
    (reachable : Reachable move (Traffic.start dev) s) (settled : ∀ p, s.producers p = .idle)
    (asleep : s.handler = .waiting) (busy : s.dev.queued ≠ []) :
    ∃ unread, s.dev.eventPipe = some (unread + 1) := by
  obtain ⟨bytes, pipe⟩ := Option.isSome_iff_exists.mp (piped_reachable piped reachable)
  have fresh : (Traffic.start dev : Traffic ι).mailbox.Signalled := fun _ _ busy => absurd empty busy
  have run : Relation.ReflTransGen Mailbox.Step (Traffic.start dev).mailbox s.mailbox :=
    reachable.simulation (fun _ _ _ _ => move_mailbox)
  have positive : 0 < bytes := (fresh.run run).readable
    (fun p => by simp [Traffic.mailbox, settled p, Submitting.isOwing])
    (by simp [Traffic.mailbox, asleep]) pipe busy
  exact ⟨bytes - 1, by rw [pipe, Nat.sub_add_cancel positive]⟩

/-- Two threads flip, the first completion is taken, and the byte of the second
is still there. -/
theorem no_lost_wakeup_twoFlips :
    ∃ (last : Traffic Bool) (outs : List (Option FlipEvent)),
      runActions move (Traffic.start { Device.initial with eventPipe := some 0 })
        [.submit true ⟨1, 7⟩ [], .submit false ⟨2, 8⟩ [⟨3, 8⟩], .write true, .read, .dequeue, .dequeue, .dequeue,
          .enqueue false, .write false] = .ok (last, outs) ∧
      ∃ unread, last.dev.eventPipe = some (unread + 1) := by
  have run : ∃ (last : Traffic Bool) (outs : List (Option FlipEvent)),
      runActions move (Traffic.start { Device.initial with eventPipe := some 0 })
        [.submit true ⟨1, 7⟩ [], .submit false ⟨2, 8⟩ [⟨3, 8⟩], .write true, .read, .dequeue, .dequeue, .dequeue,
          .enqueue false, .write false] = .ok (last, outs) ∧
      (∀ p, last.producers p = .idle) ∧ last.handler = .waiting ∧ last.dev.queued ≠ [] :=
    ⟨_, _, rfl, fun p => by cases p <;> rfl, rfl, by decide⟩
  obtain ⟨last, outs, run, idle, waiting, busy⟩ := run
  exact ⟨last, outs, run, no_lost_wakeup rfl rfl (runActions_reachable .start run) idle waiting busy⟩

/-! The calls that submit flips take these steps. -/

def moves (p : ι) : List FlipEvent → List (Move ι)
  | [] => []
  | first :: left => .submit p first left :: (left.map (fun _ => .enqueue p) ++ [.write p])

theorem runActions_enqueue {p : ι} {left : List FlipEvent} (owing : s.producers p = .owing left) :
    ∃ last outs, runActions move s (left.map (fun _ => .enqueue p) ++ [.write p]) = .ok (last, outs) ∧
      last.dev.gFlipEvents = s.dev.gFlipEvents.enqueueAll left ∧
      last.dev.eventPipe = s.dev.eventPipe.map (· + 1) := by
  induction left generalizing s with
  | nil =>
      refine ⟨{ s with dev := s.dev.signalEvent, producers := Function.update s.producers p .idle }, [none], ?_, rfl, rfl⟩
      simp only [List.map_nil, List.nil_append, runActions, move, owing]
  | cons event left ih =>
      have owing' : (s.enqueueFor p event left).producers p = .owing left := by
        simp [Traffic.enqueueFor]
      obtain ⟨last, outs, run, ring, pipe⟩ := ih owing'
      refine ⟨last, none :: outs, ?_, ring, pipe⟩
      simp only [List.map_cons, List.cons_append, runActions, move, owing, run]

theorem exec_moves {host : Host} {world after : World} {c : Call} {reply : Reply}
    (done : exec host world c = .ok (after, reply)) (piped : world.dev.eventPipe.isSome)
    (here : s.dev = world.dev) {p : ι} (idle : s.producers p = .idle) :
    ∃ last outs, runActions move s (moves p (c.queues host world)) = .ok (last, outs) ∧
      last.dev.gFlipEvents = after.dev.gFlipEvents ∧ last.dev.eventPipe = after.dev.eventPipe := by
  rw [exec_ring done, exec_pipe done piped]
  cases c.queues host world with
  | nil => exact ⟨s, [], rfl, by rw [here]; rfl, by simp [here, bytesFor]⟩
  | cons first left =>
      have owing : (s.enqueueFor p first left).producers p = .owing left := by
        simp [Traffic.enqueueFor]
      obtain ⟨last, outs, run, ring, pipe⟩ := runActions_enqueue owing
      refine ⟨last, none :: outs, ?_, ?_, ?_⟩
      · simp only [moves, runActions, move, idle, run]
      · rw [ring, ← here]
        rfl
      · rw [pipe, ← here]
        rfl

end Iland.Events

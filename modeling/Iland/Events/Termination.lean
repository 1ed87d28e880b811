import Iland.Events.Drain

namespace Iland.Events

open Iland.Data
open Iland.Drm
open Iland.Ioctl

/-! When a `drmHandleEvent` call ends with the completions it found.

The loop runs until the ring is empty, so a completion that a handler queues
is handed over in the same call, and a client that answers each completion with
a new flip keeps the loop going.
-/

variable {host : Host} {σ : Type} {client : Client σ} {handler : Handler}

/-- The call returns, has handed over the completions that were queued on
entry and no others, and has left those queued by the handlers for later. -/
def HandlesQueued (host : Host) (client : Client σ) (evctx : EventContext) (world : World) (state : σ) : Prop :=
  ∃ fuel result drained,
    drmHandleEvent host client fuel drmVirtualFd (some evctx) world state = some (.ok (.returned result drained)) ∧
    drained.invoked = world.dev.queued ∧ drained.world.dev.queued = drained.queued ∧
    (drained.queued ≠ [] → ∃ unread, drained.world.dev.eventPipe = some (unread + 1))

def QueueNothing (host : Host) (client : Client σ) (handler : Handler) : ℕ → World → σ → Prop
  | 0, _, _ => True
  | k + 1, world, state =>
      ∃ event dev after next, world.dev.dequeueFlipEvent = some (event, dev) ∧
        (client.invoke state event (some handler)).run host (world.withDev dev) = .ok (after, next, []) ∧
        QueueNothing host client handler k after next

theorem dequeue_of_queued {dev : Device} {event : FlipEvent} {rest : List FlipEvent}
    (content : dev.queued = event :: rest) :
    ∃ after, dev.dequeueFlipEvent = some (event, after) ∧ after.queued = rest ∧ after.eventPipe = dev.eventPipe := by
  obtain ⟨ring, taken, left⟩ := Ring.dequeue_of_toList content
  exact ⟨{ dev with gFlipEvents := ring }, by rw [Device.dequeueFlipEvent, taken]; rfl, left, rfl⟩

theorem dequeue_none_of_queued {dev : Device} (content : dev.queued = []) : dev.dequeueFlipEvent = none := by
  rw [Device.dequeueFlipEvent, Option.map_eq_none_iff]
  exact Ring.dequeue_eq_none_iff.mpr content

theorem queued_of_run {world after : World} {program : Program σ} {state : σ}
    (done : program.run host world = .ok (after, state, [])) : after.dev.queued = world.dev.queued := by
  induction program generalizing world with
  | ret own =>
      simp only [Program.run, Except.ok.injEq, Prod.mk.injEq] at done
      rw [done.1]
  | call c next ih =>
      obtain ⟨middle, reply, later, called, remaining, nothing⟩ := Program.run_call_ok done
      obtain ⟨none, rfl⟩ := List.append_eq_nil_iff.mp nothing.symm
      rw [ih reply remaining, exec_queued called, none]
      rfl

theorem queued_of_drain {fuel : ℕ} {world : World} {state : σ} {drained : Drained σ}
    (done : drain host client (some handler) fuel world state = some (.ok drained)) :
    drained.world.dev.queued = [] := by
  induction fuel generalizing world state drained with
  | zero => simp [drain] at done
  | succ fuel ih =>
      rcases drain_ok done with ⟨taken, rfl⟩ | ⟨_, _, _, _, _, _, _, _, remaining, rfl⟩
      · exact queued_of_dequeue_none taken
      · have emptied := ih remaining
        exact emptied

theorem queueNothing_of_drain {fuel : ℕ} {world : World} {state : σ} {drained : Drained σ}
    (done : drain host client (some handler) fuel world state = some (.ok drained)) (nothing : drained.queued = []) :
    QueueNothing host client handler drained.invoked.length world state := by
  induction fuel generalizing world state drained with
  | zero => simp [drain] at done
  | succ fuel ih =>
      rcases drain_ok done with ⟨_, rfl⟩ | ⟨event, dev, after, next, queued, rest, taken, handled, remaining, rfl⟩
      · trivial
      · obtain ⟨rfl, later⟩ := List.append_eq_nil_iff.mp nothing
        exact ⟨event, dev, after, next, taken, handled, ih remaining later⟩

theorem drain_of_queueNothing {queue : List FlipEvent} (world : World) {state : σ}
    (content : world.dev.queued = queue) (quiet : QueueNothing host client handler queue.length world state) :
    ∃ drained, drain host client (some handler) (queue.length + 1) world state = some (.ok drained) ∧
      drained.invoked = queue ∧ drained.queued = [] := by
  induction queue generalizing world state with
  | nil => exact ⟨⟨world, state, [], []⟩, by simp only [drain, dequeue_none_of_queued content], rfl, rfl⟩
  | cons event rest ih =>
      obtain ⟨_, dev, after, next, taken, handled, later⟩ := quiet
      obtain ⟨dev', taken', left, _⟩ := dequeue_of_queued content
      rw [taken', Option.some.injEq, Prod.mk.injEq] at taken
      obtain ⟨rfl, rfl⟩ := taken
      obtain ⟨drained, remaining, invoked, none⟩ := ih after ((queued_of_run handled).trans left) later
      refine ⟨⟨drained.world, drained.state, event :: drained.invoked, drained.queued⟩, ?_, ?_, none⟩
      · rw [List.length_cons, drain]
        simp only [taken', handled, remaining]
        rfl
      · rw [invoked]

/-- There is a byte to read, and the handlers of the completions queue
nothing; or there is no pipe and no completion. -/
def QuietClient (host : Host) (client : Client σ) (handler : Handler) (world : World) (state : σ) : Prop :=
  (world.dev.eventPipe = none ∧ world.dev.queued = []) ∨
    ∃ unread, world.dev.eventPipe = some (unread + 1) ∧
      QueueNothing host client handler world.dev.queued.length
        (world.withDev { world.dev with eventPipe := some unread }) state

/-- A `drmHandleEvent` call hands over the completions it finds, and returns,
exactly when its handlers queue no completion. -/
theorem handles_queued_iff {evctx : EventContext} (selected : evctx.selected = some handler) (world : World) (state : σ) :
    HandlesQueued host client evctx world state ↔ QuietClient host client handler world state := by
  have valid : ¬ drmVirtualFd ≠ drmVirtualFd := not_not.mpr rfl
  cases pipe : world.dev.eventPipe with
  | none =>
      have refused : readEvent world.dev = some (.error .EBADF) := by simp only [readEvent, pipe]
      simp only [QuietClient, pipe, true_and, reduceCtorEq, false_and, exists_false, or_false]
      constructor
      · intro handles
        obtain ⟨fuel, result, drained, returned, invoked, _, _⟩ := handles
        simp only [drmHandleEvent, if_neg valid, refused] at returned
        cases returned
        exact invoked.symm
      · intro none
        refine ⟨0, .error .EBADF, ⟨world, state, [], []⟩, ?_, none.symm, none, fun some => absurd rfl some⟩
        simp only [drmHandleEvent, if_neg valid, refused]
  | some bytes =>
      cases bytes with
      | zero =>
          have blocked : readEvent world.dev = none := by simp only [readEvent, pipe]
          simp only [QuietClient, pipe, reduceCtorEq, false_and, false_or, Option.some.injEq, Nat.right_eq_add,
            AddLeftCancelMonoid.add_eq_zero, one_ne_zero, and_false, exists_false, iff_false]
          intro handles
          obtain ⟨fuel, result, drained, returned, _⟩ := handles
          simp only [drmHandleEvent, if_neg valid, blocked] at returned
          cases returned
      | succ unread =>
          have ready : readEvent world.dev = some (.ok { world.dev with eventPipe := some unread }) := by
            simp only [readEvent, pipe]
          simp only [QuietClient, pipe, reduceCtorEq, false_and, false_or, Option.some.injEq, Nat.add_right_cancel_iff,
            exists_eq_left']
          constructor
          · intro handles
            obtain ⟨fuel, result, drained, returned, invoked, left, _⟩ := handles
            simp only [drmHandleEvent, if_neg valid, ready, selected, Option.map_eq_some_iff] at returned
            obtain ⟨inner, drains, equal⟩ := returned
            cases inner with
            | error fault => simp [Except.map] at equal
            | ok inner =>
                cases equal
                rw [← invoked]
                exact queueNothing_of_drain drains (left.symm.trans (queued_of_drain drains))
          · intro quiet
            obtain ⟨drained, drains, invoked, none⟩ := drain_of_queueNothing
              (world.withDev { world.dev with eventPipe := some unread }) rfl quiet
            refine ⟨world.dev.queued.length + 1, .ok (), drained, ?_, invoked,
              (queued_of_drain drains).trans none.symm, fun some => absurd none some⟩
            simp only [drmHandleEvent, if_neg valid, ready, selected]
            exact congrArg (Option.map _) drains

def repaint : Client Unit where
  pageFlipHandler _ _ := .call (.pageFlip drmVirtualFd 1 0 drmModePageFlipEvent 7) fun _ => .ret ()
  pageFlipHandler2 _ _ _ := .call (.pageFlip drmVirtualFd 1 0 drmModePageFlipEvent 7) fun _ => .ret ()

def firstHandler : EventContext := ⟨2, true, false⟩

theorem handles_queued_iff_repaint :
    HandlesQueued (.uniform 1) repaint firstHandler World.initial () ↔
      QuietClient (.uniform 1) repaint .pageFlipHandler World.initial () :=
  handles_queued_iff rfl World.initial ()

theorem repaint_invoke (event : FlipEvent) (handler : Handler) :
    repaint.invoke () event (some handler) =
      .call (.pageFlip drmVirtualFd 1 0 drmModePageFlipEvent 7) fun _ => .ret () := by
  cases handler <;> rfl

theorem drain_repaint (fuel : ℕ) {world : World} (piped : world.dev.eventPipe.isSome) (busy : world.dev.queued ≠ []) :
    drain host repaint (some handler) fuel world () = none := by
  induction fuel generalizing world with
  | zero => rfl
  | succ fuel ih =>
      obtain ⟨event, rest, content⟩ := List.exists_cons_of_ne_nil busy
      obtain ⟨dev, taken, _, samePipe⟩ := dequeue_of_queued content
      have known : (crtcIndex host 1).isSome := by
        simp [crtcIndex, host.getDisplayCount_pos]
      have queues : pageFlipQueues host dev drmVirtualFd 1 7 = [⟨1, 7⟩] := if_pos ⟨rfl, known, samePipe ▸ piped⟩
      have flips : exec host (world.withDev dev) (.pageFlip drmVirtualFd 1 0 drmModePageFlipEvent 7) =
          .ok ((world.withDev dev).update (drmModePageFlip host dev drmVirtualFd 1 0 drmModePageFlipEvent 7)
            fun _ => Value.unit) := rfl
      have stillPiped : (drmModePageFlip host dev drmVirtualFd 1 0 drmModePageFlipEvent 7).2.eventPipe.isSome := by
        rw [(pageFlip_effect dev drmVirtualFd 1 0 drmModePageFlipEvent 7).2.2, Option.isSome_map, samePipe]
        exact piped
      have stillBusy : (drmModePageFlip host dev drmVirtualFd 1 0 drmModePageFlipEvent 7).2.queued ≠ [] := by
        have queued : (drmModePageFlip host dev drmVirtualFd 1 0 drmModePageFlipEvent 7).2.queued =
            pushAllBounded (maxFlipEvents - 1) dev.queued (pageFlipQueues host dev drmVirtualFd 1 7) := exec_queued flips
        rw [queued, queues]
        exact pushAllBounded_ne_nil (length_queued_le dev) (by decide) (List.cons_ne_nil _ _)
      have again : drain host repaint (some handler) fuel ((world.withDev dev).withDev
          (drmModePageFlip host dev drmVirtualFd 1 0 drmModePageFlipEvent 7).2) () = none := ih stillPiped stillBusy
      simp only [drain, taken, repaint_invoke, Program.run, flips, World.update]
      exact congrArg (Option.map _) again

theorem drmHandleEvent_repaint {world : World} {unread : ℕ} (pipe : world.dev.eventPipe = some (unread + 1))
    (busy : world.dev.queued ≠ []) (fuel : ℕ) :
    drmHandleEvent host repaint fuel drmVirtualFd (some firstHandler) world () = none := by
  have ready : readEvent world.dev = some (.ok { world.dev with eventPipe := some unread }) := by
    simp only [readEvent, pipe]
  have never : drain host repaint (some .pageFlipHandler) fuel
      (world.withDev { world.dev with eventPipe := some unread }) () = none := drain_repaint fuel rfl busy
  simp only [drmHandleEvent, if_neg (not_not.mpr (rfl : drmVirtualFd = drmVirtualFd)), ready]
  exact congrArg (Option.map _) never

theorem not_handlesQueued {evctx : EventContext} {world : World} {state : σ}
    (never : ∀ fuel, drmHandleEvent host client fuel drmVirtualFd (some evctx) world state = none) :
    ¬ HandlesQueued host client evctx world state := by
  intro handles
  obtain ⟨fuel, result, drained, returned, _⟩ := handles
  rw [never fuel] at returned
  contradiction

/-- After one flip, `drmHandleEvent` with that client never returns. -/
theorem repaint_never_returns :
    ∃ session outs, runActions (step (.uniform 1)) .initial
        [.call .openEventPipe, .call (.pageFlip drmVirtualFd 1 0 drmModePageFlipEvent 7)] = .ok (session, outs) ∧
      session.world.dev.queued = [⟨1, 7⟩] ∧
      (∀ fuel, drmHandleEvent (.uniform 1) repaint fuel drmVirtualFd (some firstHandler) session.world () = none) ∧
      ¬ HandlesQueued (.uniform 1) repaint firstHandler session.world () := by
  refine ⟨_, _, rfl, rfl, ?_, not_handlesQueued ?_⟩ <;>
    exact drmHandleEvent_repaint rfl (List.cons_ne_nil (⟨1, 7⟩ : FlipEvent) [])

end Iland.Events

import Iland.Data.Fifo
import Iland.Events.Drain

namespace Iland.Events

open Iland.Data
open Iland.Drm
open Iland.Ioctl

/-! The ring of completions is a queue of at most 63 that forgets the oldest
one.

`dequeue_flip_event` is called by the loop of `drmHandleEvent` alone, which
hands what it gets to the handler that the context selects.
-/

inductive RingOp where
  /-- `enqueue_flip_event`. -/
  | enqueue (crtcId : UInt32) (data : UInt64)
  /-- `dequeue_flip_event`, in one round of the loop of `drmHandleEvent`. -/
  | round (evctx : EventContext)

def ringStep (dev : Device) : RingOp → Except Empty (Device × Option (FlipEvent × Option Handler))
  | .enqueue crtcId data => .ok (dev.enqueueFlipEvent crtcId data, none)
  | .round evctx =>
      match dev.dequeueFlipEvent with
      | none => .ok (dev, none)
      | some (event, dev) => .ok (dev, some (event, evctx.selected))

def RingOp.onFifo (fifo : Fifo FlipEvent) : RingOp → Fifo FlipEvent
  | .enqueue crtcId data => fifo.push (maxFlipEvents - 1) ⟨crtcId, data⟩
  | .round _ => fifo.pop

def submissions (ops : List RingOp) : List FlipEvent :=
  ops.filterMap fun
    | .enqueue crtcId data => some ⟨crtcId, data⟩
    | .round _ => none

/-- A call of a page-flip handler with its arguments.  Only the second kind is
told the CRTC. -/
inductive HandlerCall where
  | pageFlipHandler (data : UInt64)
  | pageFlipHandler2 (crtcId : UInt32) (data : UInt64)

def HandlerCall.of (event : FlipEvent) : Handler → HandlerCall
  | .pageFlipHandler => .pageFlipHandler event.data
  | .pageFlipHandler2 => .pageFlipHandler2 event.crtcId event.data

/-- The context has a handler that its version lets be called. -/
def Listens (evctx : EventContext) : Prop :=
  evctx.pageFlipHandler = true ∨ evctx.version ≥ 2 ∧ evctx.pageFlipHandler2 = true

/-- How a context has to be told of a completion. -/
def toldTo (evctx : EventContext) (event : FlipEvent) : Option HandlerCall :=
  if evctx.version ≥ 2 ∧ evctx.pageFlipHandler2 = true then some (.pageFlipHandler2 event.crtcId event.data)
  else if evctx.pageFlipHandler = true then some (.pageFlipHandler event.data)
  else none

/-- The rounds that find a completion, each with the oldest one in the queue. -/
def found : Fifo FlipEvent → List RingOp → List (EventContext × FlipEvent)
  | _, [] => []
  | fifo, .enqueue crtcId data :: rest => found (fifo.push (maxFlipEvents - 1) ⟨crtcId, data⟩) rest
  | fifo, .round evctx :: rest => (fifo.queue.head?.map fun event => (evctx, event)).toList ++ found fifo.pop rest

/-- The calls of the handlers that the rounds select. -/
def handlerCalls (outs : List (Option (FlipEvent × Option Handler))) : List HandlerCall :=
  outs.filterMap fun out => out.bind fun (event, handler) => handler.map (HandlerCall.of event)

/-- The completions of which a handler is told. -/
def deliveries (outs : List (Option (FlipEvent × Option Handler))) : List FlipEvent :=
  outs.filterMap fun out => out.bind fun (event, handler) => handler.map fun _ => event

variable {dev after : Device} {op : RingOp} {out : Option (FlipEvent × Option Handler)} {fifo : Fifo FlipEvent}

theorem queued_enqueueFlipEvent (dev : Device) (crtcId : UInt32) (data : UInt64) :
    (dev.enqueueFlipEvent crtcId data).queued = pushBounded (maxFlipEvents - 1) dev.queued ⟨crtcId, data⟩ :=
  Ring.toList_enqueue (by decide) dev.gFlipEvents ⟨crtcId, data⟩

theorem ringStep_fifo (same : dev.queued = fifo.queue) (stepped : ringStep dev op = .ok (after, out)) :
    after.queued = (op.onFifo fifo).queue ∧ (op.onFifo fifo).pushed = fifo.pushed ++ submissions [op] := by
  cases op with
  | enqueue crtcId data =>
      cases stepped
      have fits : fifo.queue.length ≤ maxFlipEvents - 1 := same ▸ length_queued_le dev
      refine ⟨?_, fifo.pushed_push _⟩
      rw [queued_enqueueFlipEvent, same]
      exact (fifo.queue_push fits _).symm
  | round evctx =>
      simp only [ringStep] at stepped
      simp only [RingOp.onFifo, fifo.queue_pop, fifo.pushed_pop, ← same, submissions]
      split at stepped
      · rename_i nothing
        cases stepped
        simp [queued_of_dequeue_none nothing]
      · rename_i taken
        cases stepped
        simp [(dequeueFlipEvent_some taken).2.1]

theorem exists_ringStep (dev : Device) (op : RingOp) : ∃ after out, ringStep dev op = .ok (after, out) := by
  cases op with
  | enqueue crtcId data => exact ⟨_, _, rfl⟩
  | round evctx =>
      simp only [ringStep]
      split
      · exact ⟨_, _, rfl⟩
      · exact ⟨_, _, rfl⟩

theorem told_selected (evctx : EventContext) (event : FlipEvent) :
    evctx.selected.map (HandlerCall.of event) = toldTo evctx event := by
  simp only [EventContext.selected, toldTo]
  split
  · rfl
  · split <;> rfl

theorem selected_isSome {evctx : EventContext} (listens : Listens evctx) : evctx.selected.isSome := by
  simp only [EventContext.selected]
  split
  · rfl
  · rename_i notSecond
    have first : evctx.pageFlipHandler = true := listens.resolve_right notSecond
    rw [if_pos first]
    rfl

/-- What a round hands over is what the queue had found for its context. -/
theorem ringStep_found (same : dev.queued = fifo.queue) (stepped : ringStep dev op = .ok (after, out)) (rest : List RingOp) :
    ∃ here, found fifo (op :: rest) = here ++ found (op.onFifo fifo) rest ∧
      handlerCalls [out] = here.filterMap (fun pair => toldTo pair.1 pair.2) ∧
      ((∀ evctx, op = .round evctx → Listens evctx) → deliveries [out] = here.map Prod.snd) := by
  cases op with
  | enqueue crtcId data =>
      cases stepped
      exact ⟨[], rfl, rfl, fun _ => rfl⟩
  | round evctx =>
      refine ⟨_, rfl, ?_⟩
      simp only [ringStep] at stepped
      split at stepped
      · rename_i nothing
        cases stepped
        rw [← same, queued_of_dequeue_none nothing]
        exact ⟨rfl, fun _ => rfl⟩
      · rename_i event dev' taken
        cases stepped
        rw [← same, (dequeueFlipEvent_some taken).2.1]
        constructor
        · have told := told_selected evctx event
          simp only [List.head?_cons, Option.map_some, Option.toList_some, List.filterMap_cons, List.filterMap_nil,
            handlerCalls, Option.bind_some, told]
        · intro listens
          obtain ⟨handler, selected⟩ := Option.isSome_iff_exists.mp (selected_isSome (listens evctx rfl))
          simp [deliveries, selected]

theorem map_found (fifo : Fifo FlipEvent) (ops : List RingOp) :
    fifo.taken ++ (found fifo ops).map Prod.snd = (ops.foldl RingOp.onFifo fifo).taken := by
  induction ops generalizing fifo with
  | nil => simp [found]
  | cons op rest ih =>
      rw [List.foldl_cons, ← ih]
      cases op with
      | enqueue crtcId data => rw [RingOp.onFifo, fifo.taken_push, found]
      | round evctx =>
          rw [RingOp.onFifo, fifo.taken_pop, found]
          cases fifo.queue <;> simp

theorem exists_ringRun (same : dev.queued = fifo.queue) (ops : List RingOp) :
    ∃ last outs, runActions ringStep dev ops = .ok (last, outs) ∧
      last.queued = (ops.foldl RingOp.onFifo fifo).queue ∧
      (ops.foldl RingOp.onFifo fifo).pushed = fifo.pushed ++ submissions ops ∧
      handlerCalls outs = (found fifo ops).filterMap (fun pair => toldTo pair.1 pair.2) ∧
      ((∀ evctx, .round evctx ∈ ops → Listens evctx) → deliveries outs = (found fifo ops).map Prod.snd) := by
  induction ops generalizing dev fifo with
  | nil => exact ⟨dev, [], rfl, same, by simp [submissions], rfl, fun _ => rfl⟩
  | cons op rest ih =>
      obtain ⟨after, out, stepped⟩ := exists_ringStep dev op
      obtain ⟨queued, pushed⟩ := ringStep_fifo same stepped
      obtain ⟨here, founds, told, handed⟩ := ringStep_found same stepped rest
      obtain ⟨last, outs, run, left, submitted, calls, delivered⟩ := ih queued
      refine ⟨last, out :: outs, by simp only [runActions, stepped, run], left, ?_, ?_, ?_⟩
      · rw [List.foldl_cons, submitted, pushed, List.append_assoc]
        cases op <;> simp [submissions]
      · have first : handlerCalls (out :: outs) = handlerCalls [out] ++ handlerCalls outs :=
          List.filterMap_append (l := [out])
        rw [first, founds, List.filterMap_append, told, calls]
      · intro listens
        have first : deliveries (out :: outs) = deliveries [out] ++ deliveries outs := List.filterMap_append (l := [out])
        rw [first, founds, List.map_append, handed fun evctx round => listens evctx (by simp [round]),
          delivered fun evctx member => listens evctx (List.mem_cons_of_mem _ member)]

/-- What an operation on a queue of at most `limit` completions keeps: the new
one goes behind the others, and the oldest is lost only for want of room. -/
def DropsOldest (limit : ℕ) (dev : Device) : Prop :=
  dev.queued.length ≤ limit ∧
    ∀ crtcId data,
      (dev.queued.length < limit →
        (dev.enqueueFlipEvent crtcId data).queued = dev.queued ++ [⟨crtcId, data⟩]) ∧
      (dev.queued.length = limit →
        ∃ oldest rest, dev.queued = oldest :: rest ∧
          (dev.enqueueFlipEvent crtcId data).queued = rest ++ [⟨crtcId, data⟩])

theorem dropsOldest (dev : Device) : DropsOldest (maxFlipEvents - 1) dev := by
  refine ⟨length_queued_le dev, ?_⟩
  intro crtcId data
  rw [queued_enqueueFlipEvent]
  constructor
  · intro room
    rw [pushBounded, Nat.sub_eq_zero_of_le room, List.drop_zero]
  · intro full
    cases queue : dev.queued with
    | nil =>
        rw [queue] at full
        contradiction
    | cons oldest rest =>
        refine ⟨oldest, rest, rfl, ?_⟩
        rw [pushBounded, ← queue, full, Nat.add_sub_cancel_left, queue]
        rfl

/-- The ring refines a queue of 63 completions that discards the oldest one
on overflow, and the handlers are told of the completions that leave it. -/
theorem ring_refines_fifo (dev : Device) (ops : List RingOp) :
    ∃ last outs, runActions ringStep dev ops = .ok (last, outs) ∧
      last.gFlipEvents.head < maxFlipEvents ∧ last.gFlipEvents.tail < maxFlipEvents ∧
      last.queued = (ops.foldl RingOp.onFifo ⟨[], dev.queued⟩).queue ∧
      (found ⟨[], dev.queued⟩ ops).map Prod.snd = (ops.foldl RingOp.onFifo ⟨[], dev.queued⟩).taken ∧
      handlerCalls outs = (found ⟨[], dev.queued⟩ ops).filterMap (fun pair => toldTo pair.1 pair.2) ∧
      ((∀ evctx, .round evctx ∈ ops → Listens evctx) →
        deliveries outs = (ops.foldl RingOp.onFifo ⟨[], dev.queued⟩).taken) ∧
      (ops.foldl RingOp.onFifo ⟨[], dev.queued⟩).pushed = dev.queued ++ submissions ops ∧
      DropsOldest (maxFlipEvents - 1) last := by
  have same : dev.queued = (⟨[], dev.queued⟩ : Fifo FlipEvent).queue := rfl
  obtain ⟨last, outs, run, left, submitted, calls, delivered⟩ := exists_ringRun same ops
  have taken := map_found ⟨[], dev.queued⟩ ops
  exact ⟨last, outs, run, last.gFlipEvents.head_lt, last.gFlipEvents.tail_lt, left, taken, calls,
    fun listens => (delivered listens).trans taken, submitted, dropsOldest last⟩

/-! The library performs these operations and no others on its ring. -/

variable {host : Host} {session : Session} {evctx : EventContext} {outer : List EventContext}

theorem step_round (looping : session.loops = evctx :: outer) :
    step host session .round =
      match ringStep session.world.dev (.round evctx) with
      | .ok (dev, some (event, handler)) => .ok (session.withDev dev, .delivered event handler)
      | _ => .ok ({ session with loops := outer }, .returned (.ok ())) := by
  simp only [step, looping, ringStep]
  cases session.world.dev.dequeueFlipEvent <;> rfl

/-- What a client's handler does is what it does on the call. -/
def Client.answer {σ : Type} (client : Client σ) (state : σ) : HandlerCall → Program σ
  | .pageFlipHandler data => client.pageFlipHandler state data
  | .pageFlipHandler2 crtcId data => client.pageFlipHandler2 state crtcId data

theorem invoke_answer {σ : Type} (client : Client σ) (state : σ) (event : FlipEvent) (handler : Handler) :
    client.invoke state event (some handler) = client.answer state (.of event handler) := by
  cases handler <;> rfl

def ringOps (events : List FlipEvent) : List RingOp := events.map fun event => .enqueue event.crtcId event.data

theorem runActions_ringOps (dev : Device) (events : List FlipEvent) :
    ∃ outs, runActions ringStep dev (ringOps events) =
      .ok ({ dev with gFlipEvents := dev.gFlipEvents.enqueueAll events }, outs) := by
  induction events generalizing dev with
  | nil => exact ⟨[], rfl⟩
  | cons event rest ih =>
      obtain ⟨outs, run⟩ := ih (dev.enqueueFlipEvent event.crtcId event.data)
      refine ⟨none :: outs, ?_⟩
      simp only [ringOps, List.map_cons, runActions, ringStep] at run ⊢
      rw [run]
      rfl

theorem exec_ringOps {c : Call} {world after : World} {reply : Reply}
    (done : exec host world c = .ok (after, reply)) :
    ∃ last outs, runActions ringStep world.dev (ringOps (c.queues host world)) = .ok (last, outs) ∧
      last.gFlipEvents = after.dev.gFlipEvents := by
  obtain ⟨outs, run⟩ := runActions_ringOps world.dev (c.queues host world)
  exact ⟨_, outs, run, (exec_ring done).symm⟩

end Iland.Events

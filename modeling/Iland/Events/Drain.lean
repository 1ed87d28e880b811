import Iland.Invariant

namespace Iland.Events

open Iland.Data
open Iland.Drm
open Iland.Ioctl

/-! `drmHandleEvent` together with the client's handlers.

A handler is a program that makes calls, each depending on the replies so far,
and carries the client's own state from one completion to the next.  The drain
loop has fuel, since nothing bounds the number of its rounds.
-/

variable {host : Host} {σ : Type}

inductive Program (σ : Type) where
  | ret (state : σ)
  | call (c : Call) (next : Reply → Program σ)

def Program.run (host : Host) (world : World) : Program σ → Except Fault (World × σ × List FlipEvent)
  | .ret state => .ok (world, state, [])
  | .call c next =>
      match exec host world c with
      | .error fault => .error fault
      | .ok (after, reply) =>
          match (next reply).run host after with
          | .error fault => .error fault
          | .ok (last, state, queued) => .ok (last, state, c.queues host world ++ queued)

/-- The handlers of a client.  Only the second kind is told the CRTC. -/
structure Client (σ : Type) where
  pageFlipHandler : σ → UInt64 → Program σ
  pageFlipHandler2 : σ → UInt32 → UInt64 → Program σ

def Client.invoke (client : Client σ) (state : σ) (event : FlipEvent) : Option Handler → Program σ
  | some .pageFlipHandler => client.pageFlipHandler state event.data
  | some .pageFlipHandler2 => client.pageFlipHandler2 state event.crtcId event.data
  | none => .ret state

/-- What a `drmHandleEvent` call leaves behind: the state, the completions
handed to a handler, and those queued by the handlers. -/
structure Drained (σ : Type) where
  world : World
  state : σ
  invoked : List FlipEvent
  queued : List FlipEvent

def drain (host : Host) (client : Client σ) (handler : Option Handler) :
    ℕ → World → σ → Option (Except Fault (Drained σ))
  | 0, _, _ => none
  | fuel + 1, world, state =>
      match world.dev.dequeueFlipEvent with
      | none => some (.ok ⟨world, state, [], []⟩)
      | some (event, dev) =>
          match (client.invoke state event handler).run host (world.withDev dev) with
          | .error fault => some (.error fault)
          | .ok (after, next, queued) =>
              (drain host client handler fuel after next).map fun result => result.map fun rest =>
                { rest with
                  invoked := (if handler.isSome then [event] else []) ++ rest.invoked
                  queued := queued ++ rest.queued }

/-- How a `drmHandleEvent` call can go: `read` blocks, or the call returns. -/
inductive Outcome (σ : Type) where
  | waits
  | returned (result : Except Errno Unit) (drained : Drained σ)

def drmHandleEvent (host : Host) (client : Client σ) (fuel : ℕ) (fd : Int) (evctx : Option EventContext)
    (world : World) (state : σ) : Option (Except Fault (Outcome σ)) :=
  if fd ≠ drmVirtualFd then some (.ok (.returned (.error .EBADF) ⟨world, state, [], []⟩))
  else
    match readEvent world.dev, evctx with
    | none, _ => some (.ok .waits)
    | some (.error e), _ => some (.ok (.returned (.error e) ⟨world, state, [], []⟩))
    | some (.ok dev), none => some (.ok (.returned (.ok ()) ⟨world.withDev dev, state, [], []⟩))
    | some (.ok dev), some evctx =>
        (drain host client evctx.selected fuel (world.withDev dev) state).map fun result =>
          result.map (.returned (.ok ()))

theorem Program.run_call_ok {world last : World} {c : Call} {next : Reply → Program σ} {state : σ}
    {queued : List FlipEvent} (done : (Program.call c next).run host world = .ok (last, state, queued)) :
    ∃ after reply later, exec host world c = .ok (after, reply) ∧
      (next reply).run host after = .ok (last, state, later) ∧ queued = c.queues host world ++ later := by
  simp only [run] at done
  cases called : exec host world c with
  | error fault => simp [called] at done
  | ok result =>
      obtain ⟨after, reply⟩ := result
      simp only [called] at done
      cases remaining : (next reply).run host after with
      | error fault => simp [remaining] at done
      | ok result =>
          obtain ⟨final, own, later⟩ := result
          simp only [remaining, Except.ok.injEq, Prod.mk.injEq] at done
          obtain ⟨rfl, rfl, rfl⟩ := done
          exact ⟨after, reply, later, rfl, remaining, rfl⟩

theorem drain_ok {client : Client σ} {handler : Option Handler} {fuel : ℕ} {world : World} {state : σ}
    {drained : Drained σ} (done : drain host client handler (fuel + 1) world state = some (.ok drained)) :
    (world.dev.dequeueFlipEvent = none ∧ drained = ⟨world, state, [], []⟩) ∨
    ∃ event dev after next queued rest, world.dev.dequeueFlipEvent = some (event, dev) ∧
      (client.invoke state event handler).run host (world.withDev dev) = .ok (after, next, queued) ∧
      drain host client handler fuel after next = some (.ok rest) ∧
      drained = ⟨rest.world, rest.state, (if handler.isSome then [event] else []) ++ rest.invoked,
        queued ++ rest.queued⟩ := by
  simp only [drain] at done
  cases taken : world.dev.dequeueFlipEvent with
  | none =>
      simp only [taken, Option.some.injEq, Except.ok.injEq] at done
      exact .inl ⟨rfl, done.symm⟩
  | some pair =>
      obtain ⟨event, dev⟩ := pair
      simp only [taken] at done
      cases handled : (client.invoke state event handler).run host (world.withDev dev) with
      | error fault => simp [handled] at done
      | ok result =>
          obtain ⟨after, next, queued⟩ := result
          simp only [handled, Option.map_eq_some_iff] at done
          obtain ⟨rest, remaining, equal⟩ := done
          cases rest with
          | error fault => simp [Except.map] at equal
          | ok rest =>
              simp only [Except.map, Except.ok.injEq] at equal
              exact .inr ⟨event, dev, after, next, queued, rest, rfl, handled, remaining, equal.symm⟩

/-! The loop performs the steps of a session. -/

theorem delivered_append (first second : List Output) : delivered (first ++ second) = delivered first ++ delivered second :=
  List.filterMap_append

theorem Program.run_actions {world after : World} {program : Program σ} {state : σ} {queued : List FlipEvent}
    (loops : List EventContext) (done : program.run host world = .ok (after, state, queued)) :
    ∃ actions outs, runActions (step host) ⟨world, loops⟩ actions = .ok (⟨after, loops⟩, outs) ∧
      delivered outs = [] := by
  induction program generalizing world queued with
  | ret own =>
      simp only [run, Except.ok.injEq, Prod.mk.injEq] at done
      exact ⟨[], [], by rw [done.1]; rfl, rfl⟩
  | call c next ih =>
      obtain ⟨middle, reply, later, called, remaining, _⟩ := run_call_ok done
      obtain ⟨actions, outs, performed, nothing⟩ := ih reply remaining
      refine ⟨.call c :: actions, .replied reply :: outs, ?_, nothing⟩
      simp only [runActions, step, called, Except.map, performed]

theorem drain_actions {evctx : EventContext} {client : Client σ} {fuel : ℕ} {world : World} {state : σ}
    {drained : Drained σ} (loops : List EventContext)
    (done : drain host client evctx.selected fuel world state = some (.ok drained)) :
    ∃ actions outs, runActions (step host) ⟨world, evctx :: loops⟩ actions = .ok (⟨drained.world, loops⟩, outs) ∧
      delivered outs = drained.invoked := by
  induction fuel generalizing world state drained with
  | zero => simp [drain] at done
  | succ fuel ih =>
      rcases drain_ok done with ⟨taken, rfl⟩ | ⟨event, dev, after, next, queued, rest, taken, handled, remaining, rfl⟩
      · refine ⟨[.round], [.returned (.ok ())], ?_, rfl⟩
        simp only [runActions, step, taken]
      · obtain ⟨calls, replies, called, nothing⟩ := Program.run_actions (evctx :: loops) handled
        obtain ⟨rounds, more, performed, received⟩ := ih remaining
        have handedOver : step host ⟨world, evctx :: loops⟩ .round =
            .ok (⟨world.withDev dev, evctx :: loops⟩, .delivered event evctx.selected) := by
          simp only [step, taken]
          rfl
        refine ⟨.round :: (calls ++ rounds), .delivered event evctx.selected :: (replies ++ more), ?_, ?_⟩
        · simp only [runActions, handedOver, runActions_append_ok called performed]
        · rw [← List.singleton_append, delivered_append, delivered_append, nothing, received, List.nil_append]
          cases evctx.selected <;> rfl

theorem drmHandleEvent_actions {client : Client σ} {fuel : ℕ} {fd : Int} {evctx : Option EventContext} {world : World}
    {state : σ} {result : Except Errno Unit} {drained : Drained σ} (loops : List EventContext)
    (done : drmHandleEvent host client fuel fd evctx world state = some (.ok (.returned result drained))) :
    ∃ actions outs, runActions (step host) ⟨world, loops⟩ actions = .ok (⟨drained.world, loops⟩, outs) ∧
      delivered outs = drained.invoked := by
  simp only [drmHandleEvent] at done
  split at done
  · cases done
    exact ⟨[], [], rfl, rfl⟩
  · rename_i valid
    cases read : readEvent world.dev with
    | none =>
        simp only [read] at done
        cases done
    | some outcome =>
        cases outcome with
        | error e =>
            simp only [read] at done
            cases done
            exact ⟨[], [], rfl, rfl⟩
        | ok dev =>
            cases evctx with
            | none =>
                simp only [read] at done
                cases done
                refine ⟨[.handleEvent fd none], [.returned (.ok ())], ?_, rfl⟩
                simp only [runActions, step, if_neg valid, read]
                rfl
            | some evctx =>
                simp only [read, Option.map_eq_some_iff] at done
                obtain ⟨inner, drains, equal⟩ := done
                cases inner with
                | error fault => simp [Except.map] at equal
                | ok inner =>
                    cases equal
                    obtain ⟨actions, outs, performed, received⟩ := drain_actions loops drains
                    refine ⟨.handleEvent fd (some evctx) :: actions, .looping :: outs, ?_, received⟩
                    have entered : step host ⟨world, loops⟩ (.handleEvent fd (some evctx)) =
                        .ok (⟨world.withDev dev, evctx :: loops⟩, .looping) := by
                      simp only [step, if_neg valid, read]
                      rfl
                    simp only [runActions, entered, performed]

end Iland.Events

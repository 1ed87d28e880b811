import Iland.Api
import Iland.Data.Run

namespace Iland

open Iland.Data
open Iland.Drm
open Iland.Ioctl

/-! Runs of the library.

A client calls the library, from its main program or from the page-flip
handlers that `drmHandleEvent` invokes.  A `drmHandleEvent` call is one action
for its start and one for each round of its loop; the calls that a handler
makes come between two rounds.  Handlers may call `drmHandleEvent` themselves,
hence the stack of open loops.
-/

structure EventContext where
  version : Int
  pageFlipHandler : Bool
  pageFlipHandler2 : Bool

inductive Handler where
  | pageFlipHandler
  | pageFlipHandler2
deriving DecidableEq

def EventContext.selected (evctx : EventContext) : Option Handler :=
  if evctx.version ≥ 2 ∧ evctx.pageFlipHandler2 then some .pageFlipHandler2
  else if evctx.pageFlipHandler then some .pageFlipHandler
  else none

structure Session where
  world : World
  /-- The contexts of the `drmHandleEvent` calls in their loops, innermost first. -/
  loops : List EventContext

def Session.initial : Session := ⟨.initial, []⟩

inductive Action where
  | call (c : Call)
  /-- `drmHandleEvent` up to its loop. -/
  | handleEvent (fd : Int) (evctx : Option EventContext)
  /-- One round of the innermost loop. -/
  | round

inductive Output where
  | replied (reply : Reply)
  /-- `drmHandleEvent` returns. -/
  | returned (result : Except Errno Unit)
  /-- `read` waits for a byte. -/
  | waits
  | looping
  /-- A completion goes to a handler, or to none if the context has none. -/
  | delivered (event : FlipEvent) (handler : Option Handler)
  /-- There is no loop to continue. -/
  | idle

namespace Session

variable (session : Session)

def withDev (dev : Device) : Session := { session with world := session.world.withDev dev }

end Session

/-- Read one byte from the virtual descriptor: `none` when there is nothing to
read yet. -/
def readEvent (dev : Device) : Option (Except Errno Device) :=
  match dev.eventPipe with
  | none => some (.error .EBADF)
  | some 0 => none
  | some (unread + 1) => some (.ok { dev with eventPipe := some unread })

def step (host : Host) (session : Session) : Action → Except Fault (Session × Output)
  | .call c => (exec host session.world c).map fun (world, reply) => ({ session with world := world }, .replied reply)
  | .handleEvent fd evctx =>
      if fd ≠ drmVirtualFd then .ok (session, .returned (.error .EBADF))
      else
        match readEvent session.world.dev, evctx with
        | none, _ => .ok (session, .waits)
        | some (.error e), _ => .ok (session, .returned (.error e))
        | some (.ok dev), none => .ok (session.withDev dev, .returned (.ok ()))
        | some (.ok dev), some evctx =>
            .ok ({ session.withDev dev with loops := evctx :: session.loops }, .looping)
  | .round =>
      match session.loops with
      | [] => .ok (session, .idle)
      | evctx :: outer =>
          match session.world.dev.dequeueFlipEvent with
          | none => .ok ({ session with loops := outer }, .returned (.ok ()))
          | some (event, dev) => .ok (session.withDev dev, .delivered event evctx.selected)

def delivered (outs : List Output) : List FlipEvent :=
  outs.filterMap fun
    | .delivered event (some _) => some event
    | _ => none

abbrev ReachableSession (host : Host) : Session → Prop := Reachable (step host) .initial

end Iland

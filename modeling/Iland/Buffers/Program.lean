import Iland.Buffers.Effects
import Iland.Gbm.Buffers
import Iland.Invariant

namespace Iland.Buffers

open Iland.Data
open Iland.Drm
open Iland.Gbm
open Iland.Sdl

/-! Runs of a client that makes buffers. -/

structure LiveSurface where
  address : ℕ
  bos : List ℕ
deriving DecidableEq

structure Program where
  session : Session
  bos : List Bo
  surfaces : List LiveSurface
  /-- How many dumb buffers and framebuffers there have been; the code keeps no
  such counts. -/
  dumbsCreated : ℕ
  fbsCreated : ℕ

namespace Program

def initial : Program := ⟨.initial, [], [], 0, 0⟩

variable (p : Program)

def dev : Device := p.session.world.dev

def buffers : Gbm.Buffers := ⟨p.dev, p.bos⟩

def withBuffers (b : Gbm.Buffers) : Program := { p with session := p.session.withDev b.dev, bos := b.bos }

end Program

inductive Op where
  | act (a : Action)
  /-- `sdl_present_iosurface_for_crtc`, called by the client itself. -/
  | present (surface : IOSurface) (crtcId : UInt32) (x y : Int32)
  | boCreate (created : Option Bo)
  | boDestroy (bo : Option ℕ)
  | surfaceCreate (surface : Option ℕ) (created : Fin gbmNumBuffers → Option Bo)
  | surfaceDestroy (surface : Option ℕ)

inductive Result where
  | acted (out : Output)
  | bo (address : Option ℕ)
  | surface (address : Option ℕ)
  | done

def dumbsCreatedBy : Action → Output → ℕ
  | .call (.createDumbBuffer ..), .replied (.ok _) => 1
  | _, _ => 0

def fbsCreatedBy : Action → Output → ℕ
  | .call (.addFB ..), .replied (.ok _) => 1
  | _, _ => 0

def step (host : Host) (ioSurfaceGetID : IOSurface → UInt32) (p : Program) : Op → Except Stop (Program × Result)
  | .act a =>
      match Iland.step host p.session a with
      | .error fault => .error (.fault fault)
      | .ok (session, out) =>
          .ok ({ p with
            session
            dumbsCreated := p.dumbsCreated + dumbsCreatedBy a out
            fbsCreated := p.fbsCreated + fbsCreatedBy a out }, .acted out)
  | .present surface crtcId x y =>
      .ok ({ p with session := p.session.withDev (p.dev.present host surface crtcId x y) }, .done)
  | .boCreate created =>
      let (bo, b) := p.buffers.gbmBoCreate ioSurfaceGetID created
      .ok (p.withBuffers b, .bo (bo.map Bo.address))
  | .boDestroy bo => do
      let b ← p.buffers.gbmBoDestroy ioSurfaceGetID bo
      return (p.withBuffers b, .done)
  | .surfaceCreate address created =>
      match address, p.buffers.gbmSurfaceCreate ioSurfaceGetID address.isSome created with
      | some address, (some bos, b) =>
          .ok ({ p.withBuffers b with surfaces := p.surfaces ++ [⟨address, bos.map Bo.address⟩] }, .surface (some address))
      | _, (_, b) => .ok (p.withBuffers b, .surface none)
  | .surfaceDestroy none => do
      let b ← p.buffers.gbmSurfaceDestroy ioSurfaceGetID none
      return (p.withBuffers b, .done)
  | .surfaceDestroy (some address) =>
      match p.surfaces.find? (fun surface => surface.address == address) with
      | none => .error .destroyed
      | some surface => do
          let b ← p.buffers.gbmSurfaceDestroy ioSurfaceGetID (some surface.bos)
          return ({ p.withBuffers b with surfaces := p.surfaces.erase surface }, .done)

def Op.provided : Op → List Bo
  | .boCreate created => created.toList
  | .surfaceCreate _ created => (List.ofFn created).filterMap id
  | _ => []

def Op.newSurfaces : Op → List IOSurface
  | .act (.call (.createDumbBuffer _ created)) => (created.map SurfaceInfo.surface).toList
  | op => op.provided.map Bo.surface

/-- The table of handles is private to the library. -/
def Op.isPublic : Op → Bool
  | .act (.call (.registerGbmBuffer ..)) | .act (.call (.unregisterGbmBuffer ..)) => false
  | _ => true

/-- Clients call public functions, and `IOSurfaceCreate` makes surfaces that
nobody retains yet. -/
def Regular (p : Program) (op : Op) : Prop :=
  op.isPublic = true ∧ op.newSurfaces.Nodup ∧ ∀ surface ∈ op.newSurfaces, p.dev.sdl.retains surface = 0

end Iland.Buffers

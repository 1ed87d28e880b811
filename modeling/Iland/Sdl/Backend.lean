import Iland.Data.KeyedTable
import Iland.Host

namespace Iland.Sdl

open Iland.Data

/-! The presentation side of the SDL backend.

Rendering reads a CRTC's surface and never changes which surface it is, so the
windows and layers are left out; so are the width and height that a slot
caches, which nothing reads.
-/

/-- An `IOSurfaceRef` other than NULL. -/
abbrev IOSurface := ℕ

structure CrtcSlot where
  crtcId : UInt32
  surface : Option IOSurface
  x : Int32
  y : Int32
deriving DecidableEq

def CrtcSlot.show (slot : CrtcSlot) (surface : IOSurface) (x y : Int32) : CrtcSlot :=
  { slot with surface := some surface, x := x, y := y }

@[simp] theorem CrtcSlot.crtcId_show (slot : CrtcSlot) (surface : IOSurface) (x y : Int32) :
    (slot.show surface x y).crtcId = slot.crtcId := rfl

structure Presented where
  surface : IOSurface
  crtcId : UInt32
  x : Int32
  y : Int32
deriving DecidableEq

def maxCrtcSlots : ℕ := 16

structure Backend where
  inited : Bool
  /-- How often `SDL_Init` was called. -/
  initAttempts : ℕ
  pendingSurface : Option IOSurface
  crtcs : KeyedTable CrtcSlot.crtcId maxCrtcSlots
  /-- `CFRetain` less `CFRelease` for each surface, over all modules. -/
  retains : IOSurface → Int
  /-- Every surface handed to the backend so far; the code keeps no such list. -/
  presented : List Presented

def Backend.initial : Backend :=
  { inited := false, initAttempts := 0, pendingSurface := none, crtcs := .empty,
    retains := fun _ => 0, presented := [] }

namespace Backend

def cfRetain (backend : Backend) (surface : IOSurface) : Backend :=
  { backend with retains := Function.update backend.retains surface (backend.retains surface + 1) }

def cfRelease (backend : Backend) (surface : IOSurface) : Backend :=
  { backend with retains := Function.update backend.retains surface (backend.retains surface - 1) }

def cfReleaseOption (backend : Backend) : Option IOSurface → Backend
  | none => backend
  | some surface => backend.cfRelease surface

def sdlBackendInit (host : Host) (backend : Backend) : Backend :=
  if backend.inited then backend
  else { backend with
    initAttempts := backend.initAttempts + 1
    inited := host.sdlInit backend.initAttempts }

/-- `get_or_create_crtc`: the slot of a CRTC, unless all places are taken. -/
def getOrCreateCrtc (backend : Backend) (crtcId : UInt32) : Option CrtcSlot × Backend :=
  match backend.crtcs.lookup crtcId with
  | some slot => (some slot, backend)
  | none =>
      if backend.crtcs.full then (none, backend)
      else
        let slot := { crtcId, surface := none, x := 0, y := 0 }
        (some slot, { backend with crtcs := backend.crtcs.insertNew slot })

def setCrtc (backend : Backend) (crtcId : UInt32) (surface : IOSurface) (x y : Int32) : Backend :=
  { backend with
    crtcs := backend.crtcs.modify (fun slot => decide (slot.crtcId = crtcId))
      (fun slot => slot.show surface x y) (fun slot => slot.crtcId_show surface x y) }

/-- `sdl_present_iosurface_for_crtc`, for a surface other than NULL. -/
def sdlPresentIosurfaceForCrtc (host : Host) (backend : Backend) (surface : IOSurface)
    (crtcId : UInt32) (x y : Int32) : Backend :=
  let handed : Presented := { surface, crtcId, x, y }
  let backend := { backend with presented := backend.presented ++ [handed] }
  let backend := backend.sdlBackendInit host
  if backend.inited then
    match backend.getOrCreateCrtc crtcId with
    | (none, backend) => backend
    | (some slot, backend) =>
        let backend := backend.cfReleaseOption slot.surface
        let backend := backend.cfRetain surface
        backend.setCrtc crtcId surface x y
  else
    let backend := backend.cfReleaseOption backend.pendingSurface
    let backend := backend.cfRetain surface
    { backend with pendingSurface := some surface }

/-- `sdl_backend_pump_events`, without input and rendering. -/
def sdlBackendPumpEvents (host : Host) (backend : Backend) : Backend :=
  if backend.inited then
    match backend.pendingSurface with
    | none => backend
    | some pending =>
        let backend := { backend with pendingSurface := none }
        (backend.sdlPresentIosurfaceForCrtc host pending 1 0 0).cfRelease pending
  else backend

def sdlBackendShutdown (backend : Backend) : Backend :=
  if backend.inited then
    let backend := backend.crtcs.entries.foldl (fun backend slot => backend.cfReleaseOption slot.surface) backend
    let backend := { backend with crtcs := .empty, inited := false }
    { backend.cfReleaseOption backend.pendingSurface with pendingSurface := none }
  else backend

@[simp] theorem presented_cfRetain (backend : Backend) (surface : IOSurface) :
    (backend.cfRetain surface).presented = backend.presented := rfl

@[simp] theorem presented_cfReleaseOption (backend : Backend) (surface : Option IOSurface) :
    (backend.cfReleaseOption surface).presented = backend.presented := by
  cases surface <;> rfl

@[simp] theorem presented_sdlBackendInit (host : Host) (backend : Backend) :
    (backend.sdlBackendInit host).presented = backend.presented := by
  simp only [sdlBackendInit]; split <;> rfl

@[simp] theorem presented_getOrCreateCrtc (backend : Backend) (crtcId : UInt32) :
    (backend.getOrCreateCrtc crtcId).2.presented = backend.presented := by
  simp only [getOrCreateCrtc]
  split
  · rfl
  · split <;> rfl

@[simp] theorem presented_sdlPresentIosurfaceForCrtc (host : Host) (backend : Backend)
    (surface : IOSurface) (crtcId : UInt32) (x y : Int32) :
    (backend.sdlPresentIosurfaceForCrtc host surface crtcId x y).presented =
      backend.presented ++ [⟨surface, crtcId, x, y⟩] := by
  simp only [sdlPresentIosurfaceForCrtc]
  split
  · split
    · rename_i created
      have kept := congrArg (fun result => result.2.presented) created
      simpa using kept.symm
    · rename_i created
      have kept := congrArg (fun result => result.2.presented) created
      simpa [setCrtc] using kept.symm
  · simp

end Backend

end Iland.Sdl

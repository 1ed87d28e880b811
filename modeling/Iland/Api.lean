import Iland.Drm.Queries
import Iland.Ioctl.Atomic

namespace Iland

open Iland.Drm
open Iland.Ioctl

/-! The calls of the library that touch its state, as actions on it.

`drmHandleEvent` is not among them: it calls back into the client, and is
split into steps in `Iland.Session`.  The ioctls other than ATOMIC call these
functions and change the state exactly as they do.
-/

inductive Call where
  | createDumbBuffer (fd : Int) (created : Option SurfaceInfo)
  | destroyDumbBuffer (fd : Int) (handle : UInt32)
  | mapDumbBuffer (fd : Int) (handle : UInt32)
  | registerGbmBuffer (handle : UInt32) (surface : Option Sdl.IOSurface)
  | unregisterGbmBuffer (handle : UInt32)
  | addFB (fd : Int) (boHandle : UInt32) (hasId : Bool)
  | rmFB (fd : Int) (bufId : UInt32)
  | setCrtc (fd : Int) (crtcId fbId x y : UInt32) (mode : Option ModeInfo)
  | pageFlip (fd : Int) (crtcId fbId flags : UInt32) (userData : UInt64)
  | getCrtc (fd : Int) (crtcId : UInt32)
  | setClientCap (fd : Int) (capability value : UInt64)
  | getProperty (fd : Int) (propertyId : UInt32)
  | objectGetProperties (fd : Int) (objectId objectType : UInt32)
  | getPlaneResources (fd : Int)
  | getPlane (fd : Int) (planeId : UInt32)
  | getResources (fd : Int)
  | getConnector (fd : Int) (connectorId : UInt32)
  | createPropertyBlob (fd : Int) (data : Option (List UInt8))
  | destroyPropertyBlob (fd : Int) (blobId : UInt32)
  | getPropertyBlob (fd : Int) (blobId : UInt32)
  | atomicCommit (fd : Int) (req : Option AtomicReq) (flags : UInt32) (userData : UInt64)
  | atomicIoctl (ka : DrmModeAtomic) (memory : Memory)
  /-- `wayland-mac.c` connects a pipe to the virtual descriptor, once. -/
  | openEventPipe
  | backendInit
  | pumpEvents
  | backendShutdown

inductive Value where
  | unit
  | dumb (handle pitch : UInt32) (size : UInt64)
  | offset (map : UInt64)
  | id (id : UInt32)
  | crtc (crtc : Crtc)
  | property (property : PropertyRes)
  | properties (properties : ObjectProperties)
  | planes (planes : PlaneRes)
  | plane (plane : Plane)
  | resources (resources : Res)
  | connector (connector : Connector)
  | blob (blob : PropertyBlobRes)

abbrev Reply := Except Errno Value

namespace Ioctl.World

variable (world : World)

def withDev (dev : Device) : World := { world with dev := dev }

def query (result : Except Errno α) (value : α → Value) : World × Reply := (world, result.map value)

def update (result : Except Errno α × Device) (value : α → Value) : World × Reply :=
  (world.withDev result.2, result.1.map value)

def updateSdl (sdl : Sdl.Backend) : World × Reply := (world.withDev { world.dev with sdl := sdl }, .ok .unit)

end Ioctl.World

def exec (host : Host) (world : World) : Call → Except Fault (World × Reply)
  | .createDumbBuffer fd created =>
      .ok (world.update (drmModeCreateDumbBuffer world.dev fd created) (fun (h, p, s) => .dumb h p s))
  | .destroyDumbBuffer fd handle =>
      .ok (world.update (drmModeDestroyDumbBuffer world.dev fd handle) (fun _ => .unit))
  | .mapDumbBuffer fd handle => .ok (world.query (drmModeMapDumbBuffer world.dev fd handle) .offset)
  | .registerGbmBuffer handle surface =>
      .ok (world.withDev (drmRegisterGbmBuffer world.dev handle surface), .ok .unit)
  | .unregisterGbmBuffer handle => .ok (world.withDev (drmUnregisterGbmBuffer world.dev handle), .ok .unit)
  | .addFB fd boHandle hasId => .ok (world.update (drmModeAddFB world.dev fd boHandle hasId) .id)
  | .rmFB fd bufId => .ok (world.update (drmModeRmFB world.dev fd bufId) (fun _ => .unit))
  | .setCrtc fd crtcId fbId x y mode =>
      .ok (world.update (drmModeSetCrtc host world.dev fd crtcId fbId x y mode) (fun _ => .unit))
  | .pageFlip fd crtcId fbId flags userData =>
      .ok (world.update (drmModePageFlip host world.dev fd crtcId fbId flags userData) (fun _ => .unit))
  | .getCrtc fd crtcId => .ok (world.query (drmModeGetCrtc host world.dev fd crtcId) .crtc)
  | .setClientCap fd capability value =>
      .ok (world.update (drmSetClientCap world.dev fd capability value) (fun _ => .unit))
  | .getProperty fd propertyId => .ok (world.update (drmModeGetProperty world.dev fd propertyId) .property)
  | .objectGetProperties fd objectId objectType =>
      (drmModeObjectGetProperties host world.dev fd objectId objectType).map (world.update · .properties)
  | .getPlaneResources fd => .ok (world.query (drmModeGetPlaneResources host world.dev fd) .planes)
  | .getPlane fd planeId => (drmModeGetPlane host world.dev fd planeId).map (world.update · .plane)
  | .getResources fd => .ok (world.query (drmModeGetResources host fd) .resources)
  | .getConnector fd connectorId => .ok (world.query (drmModeGetConnector host fd connectorId) .connector)
  | .createPropertyBlob fd data => .ok (world.update (drmModeCreatePropertyBlob world.dev fd data) .id)
  | .destroyPropertyBlob fd blobId =>
      .ok (world.update (drmModeDestroyPropertyBlob world.dev fd blobId) (fun _ => .unit))
  | .getPropertyBlob fd blobId => .ok (world.query (drmModeGetPropertyBlob world.dev fd blobId) .blob)
  | .atomicCommit fd req flags userData =>
      (drmModeAtomicCommit host world.dev fd req flags userData).map (world.update · (fun _ => .unit))
  | .atomicIoctl ka memory =>
      (handleAtomic host world ka memory).map fun (ret, world) => (world, ret.map (fun _ => .unit))
  | .openEventPipe =>
      .ok (world.withDev { world.dev with eventPipe := some (world.dev.eventPipe.getD 0) }, .ok .unit)
  | .backendInit => .ok (world.updateSdl (world.dev.sdl.sdlBackendInit host))
  | .pumpEvents => .ok (world.updateSdl (world.dev.sdl.sdlBackendPumpEvents host))
  | .backendShutdown => .ok (world.updateSdl world.dev.sdl.sdlBackendShutdown)

end Iland

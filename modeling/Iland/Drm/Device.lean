import Iland.Data.Ring
import Iland.Drm.Defaults
import Iland.Drm.Modes
import Iland.Sdl.Backend

namespace Iland.Drm

open Iland.Data
open Iland.Sdl

/-! The state of the virtual device: the static variables of `drm_linux.c`,
and the SDL backend it presents to. -/

def drmVirtualFd : Int := 42

structure CrtcState where
  crtcFbId : UInt32
  crtcMode : ModeInfo
  crtcModeValid : Bool
  x : Int32
  y : Int32
deriving DecidableEq

/-- `flip_event_t`, with the user data's address. -/
structure FlipEvent where
  crtcId : UInt32
  data : UInt64
deriving DecidableEq, Repr

def maxFlipEvents : ℕ := 64

/-- The fields of `dumb_buf_t` that are read again. -/
structure DumbBuf where
  handle : UInt32
  surface : Option IOSurface
  map : UInt64

structure GbmBufEntry where
  handle : UInt32
  surface : IOSurface

/-- The fields of `fb_entry_t` that are read again. -/
structure FbEntry where
  fbId : UInt32
  surface : Option IOSurface

def maxDumbBufs : ℕ := 64
def maxGbmBufs : ℕ := 64
def maxFbs : ℕ := 64
def maxBlobs : ℕ := 32

structure Blob where
  id : UInt32
  size : UInt32
  data : List UInt8
  sized : size = UInt32.ofNat data.length

structure Device where
  gState : Fin maxCrtcs → CrtcState
  gFlipEvents : Ring FlipEvent maxFlipEvents
  /-- The unread bytes of the event pipe, once it exists.  The library writes
  only the byte 1. -/
  eventPipe : Option ℕ
  gDumb : Fin maxDumbBufs → DumbBuf
  gNextDumbHandle : UInt32
  gGbmBufs : List GbmBufEntry
  gFbs : Fin maxFbs → FbEntry
  gNextFbId : UInt32
  universalPlanes : UInt64
  atomic : UInt64
  gObjProps : ObjTable
  gBlobs : Fin maxBlobs → Option Blob
  gNextBlobId : UInt32
  gInFormatsBlobId : UInt32
  sdl : Backend

def Device.initial : Device where
  gState := fun _ => ⟨0, .zero, false, 0, 0⟩
  gFlipEvents := ⟨fun _ => ⟨0, 0⟩, 0, 0, by decide, by decide⟩
  eventPipe := none
  gDumb := fun _ => ⟨0, none, 0⟩
  gNextDumbHandle := 1
  gGbmBufs := []
  gFbs := fun _ => ⟨0, none⟩
  gNextFbId := 1
  universalPlanes := 0
  atomic := 0
  gObjProps := .empty
  gBlobs := fun _ => none
  gNextBlobId := 256
  gInFormatsBlobId := 0
  sdl := .initial

def Device.queued (dev : Device) : List FlipEvent := dev.gFlipEvents.toList

def checkFd (fd : Int) : Except Errno Unit :=
  if fd ≠ drmVirtualFd then .error .EBADF else .ok ()

def firstPlace (p : Fin n → Bool) : Option (Fin n) := (List.finRange n).find? p

def crtcIndex (host : Host) (crtcId : UInt32) : Option (Fin maxCrtcs) :=
  if inside : 1 ≤ crtcId.toNat ∧ crtcId.toNat ≤ host.getDisplayCount then
    some ⟨crtcId.toNat - 1, by have few := host.getDisplayCount_le; omega⟩
  else none

namespace Device

variable (dev : Device)

def setState (idx : Fin maxCrtcs) (state : CrtcState) : Device :=
  { dev with gState := Function.update dev.gState idx state }

def withTable (table : ObjTable) : Device := { dev with gObjProps := table }

@[simp] theorem gState_withTable (table : ObjTable) : (dev.withTable table).gState = dev.gState := rfl
@[simp] theorem eventPipe_withTable (table : ObjTable) : (dev.withTable table).eventPipe = dev.eventPipe := rfl

def present (host : Host) (surface : IOSurface) (crtcId : UInt32) (x y : Int32) : Device :=
  { dev with sdl := dev.sdl.sdlPresentIosurfaceForCrtc host surface crtcId x y }

def enqueueFlipEvent (crtcId : UInt32) (data : UInt64) : Device :=
  { dev with gFlipEvents := dev.gFlipEvents.enqueue ⟨crtcId, data⟩ }

def dequeueFlipEvent : Option (FlipEvent × Device) :=
  dev.gFlipEvents.dequeue.map fun (event, rest) => (event, { dev with gFlipEvents := rest })

def signalEvent : Device := { dev with eventPipe := dev.eventPipe.map (· + 1) }

def fbIdToSurface (fbId : UInt32) : Option IOSurface :=
  (firstPlace (fun i => (dev.gFbs i).fbId == fbId)).bind (fun i => (dev.gFbs i).surface)

end Device

/-! Buffers. -/

/-- What `DisplaySurface_create` and the calls on its surface return. -/
structure SurfaceInfo where
  surface : IOSurface
  pitch : UInt32
  size : UInt64
  base : UInt64

/-- `drmModeCreateDumbBuffer`, returning the handle, the pitch and the size.
The system decides what surface is created, if any. -/
def drmModeCreateDumbBuffer (dev : Device) (fd : Int) (created : Option SurfaceInfo) :
    Except Errno (UInt32 × UInt32 × UInt64) × Device :=
  match checkFd fd with
  | .error e => (.error e, dev)
  | .ok () =>
      match firstPlace (fun i => (dev.gDumb i).handle == 0), created with
      | none, _ => (.error .ENOMEM, dev)
      | some _, none => (.error .ENOMEM, dev)
      | some slot, some info =>
          let h := dev.gNextDumbHandle
          (.ok (h, info.pitch, info.size),
            { dev with
              gNextDumbHandle := h + 1
              gDumb := Function.update dev.gDumb slot ⟨h, some info.surface, info.base⟩
              sdl := dev.sdl.cfRetain info.surface })

def drmModeDestroyDumbBuffer (dev : Device) (fd : Int) (handle : UInt32) : Except Errno Unit × Device :=
  match checkFd fd with
  | .error e => (.error e, dev)
  | .ok () =>
      match firstPlace (fun i => (dev.gDumb i).handle == handle) with
      | none => (.error .ENOENT, dev)
      | some i =>
          (.ok (), { dev with
            sdl := dev.sdl.cfReleaseOption (dev.gDumb i).surface
            gDumb := Function.update dev.gDumb i ⟨0, none, 0⟩ })

def drmModeMapDumbBuffer (dev : Device) (fd : Int) (handle : UInt32) : Except Errno UInt64 :=
  match checkFd fd with
  | .error e => .error e
  | .ok () =>
      match firstPlace (fun i => (dev.gDumb i).handle == handle) with
      | none => .error .ENOENT
      | some i => .ok (dev.gDumb i).map

def drmRegisterGbmBuffer (dev : Device) (handle : UInt32) (surface : Option IOSurface) : Device :=
  match surface with
  | none => dev
  | some surface =>
      if handle = 0 then dev
      else if dev.gGbmBufs.any (fun buf => buf.handle == handle) then
        { dev with
          gGbmBufs := modifyFirst (fun buf => buf.handle == handle) (fun _ => ⟨handle, surface⟩) dev.gGbmBufs }
      else if dev.gGbmBufs.length ≥ maxGbmBufs then dev
      else { dev with gGbmBufs := dev.gGbmBufs ++ [⟨handle, surface⟩] }

def drmUnregisterGbmBuffer (dev : Device) (handle : UInt32) : Device :=
  match dev.gGbmBufs.findIdx? (fun buf => buf.handle == handle), dev.gGbmBufs.getLast? with
  | some i, some last => { dev with gGbmBufs := (dev.gGbmBufs.set i last).dropLast }
  | _, _ => dev

def lookupGbmBuffer (dev : Device) (handle : UInt32) : Option IOSurface :=
  (dev.gGbmBufs.find? (fun buf => buf.handle == handle)).map GbmBufEntry.surface

/-- `drmModeAddFB`; `hasId` says that `buf_id` is not NULL. -/
def drmModeAddFB (dev : Device) (fd : Int) (boHandle : UInt32) (hasId : Bool) : Except Errno UInt32 × Device :=
  match checkFd fd with
  | .error e => (.error e, dev)
  | .ok () =>
      if hasId = false then (.error .EINVAL, dev)
      else
        let dumb := (firstPlace (fun i => (dev.gDumb i).handle == boHandle)).bind (fun i => (dev.gDumb i).surface)
        match dumb.or (lookupGbmBuffer dev boHandle) with
        | none => (.error .ENOENT, dev)
        | some surf =>
            match firstPlace (fun i => (dev.gFbs i).fbId == 0) with
            | none => (.error .ENOMEM, dev)
            | some slot =>
                let fid := dev.gNextFbId
                (.ok fid, { dev with
                  gNextFbId := fid + 1
                  gFbs := Function.update dev.gFbs slot ⟨fid, some surf⟩
                  sdl := dev.sdl.cfRetain surf })

def drmModeRmFB (dev : Device) (fd : Int) (bufId : UInt32) : Except Errno Unit × Device :=
  match checkFd fd with
  | .error e => (.error e, dev)
  | .ok () =>
      match firstPlace (fun i => (dev.gFbs i).fbId == bufId) with
      | none => (.error .ENOENT, dev)
      | some i =>
          (.ok (), { dev with
            sdl := dev.sdl.cfReleaseOption (dev.gFbs i).surface
            gFbs := Function.update dev.gFbs i ⟨0, none⟩ })

/-! CRTCs. -/

/-- `drmModeSetCrtc`, without the connector list, which it ignores. -/
def drmModeSetCrtc (host : Host) (dev : Device) (fd : Int) (crtcId fbId x y : UInt32)
    (mode : Option ModeInfo) : Except Errno Unit × Device :=
  match checkFd fd, crtcIndex host crtcId with
  | .error e, _ => (.error e, dev)
  | .ok (), none => (.error .ENOENT, dev)
  | .ok (), some idx =>
      let dev := dev.setState idx
        { crtcFbId := fbId, x := x.toInt32, y := y.toInt32, crtcModeValid := mode.isSome,
          crtcMode := mode.getD (dev.gState idx).crtcMode }
      if fbId ≠ 0 then
        match dev.fbIdToSurface fbId with
        | some surf => (.ok (), dev.present host surf crtcId x.toInt32 y.toInt32)
        | none => (.ok (), dev)
      else (.ok (), dev)

/-- `drmModePageFlip`.  It never looks at the flags. -/
def drmModePageFlip (host : Host) (dev : Device) (fd : Int) (crtcId fbId _flags : UInt32)
    (userData : UInt64) : Except Errno Unit × Device :=
  match checkFd fd, crtcIndex host crtcId with
  | .error e, _ => (.error e, dev)
  | .ok (), none => (.error .ENOENT, dev)
  | .ok (), some idx =>
      let dev := dev.setState idx { dev.gState idx with crtcFbId := fbId }
      let dev := match dev.fbIdToSurface fbId with
        | some surf => dev.present host surf crtcId (dev.gState idx).x (dev.gState idx).y
        | none => dev
      match dev.eventPipe with
      | some _ => (.ok (), (dev.enqueueFlipEvent crtcId userData).signalEvent)
      | none => (.ok (), dev)

structure Crtc where
  crtcId : UInt32
  bufferId : UInt32
  x : UInt32
  y : UInt32
  width : UInt32
  height : UInt32
  modeValid : Bool
  mode : ModeInfo
  gammaSize : UInt32

def drmModeGetCrtc (host : Host) (dev : Device) (fd : Int) (crtcId : UInt32) : Except Errno Crtc :=
  match checkFd fd, crtcIndex host crtcId with
  | .error e, _ => .error e
  | .ok (), none => .error .ENOENT
  | .ok (), some idx =>
      let state := dev.gState idx
      .ok { crtcId, bufferId := state.crtcFbId, x := state.x.toUInt32, y := state.y.toUInt32,
            width := if state.crtcModeValid then state.crtcMode.hdisplay.toUInt32 else 0,
            height := if state.crtcModeValid then state.crtcMode.vdisplay.toUInt32 else 0,
            modeValid := state.crtcModeValid,
            mode := if state.crtcModeValid then state.crtcMode else .zero,
            gammaSize := 256 }

/-! Client capabilities. -/

def drmClientCapUniversalPlanes : UInt64 := 2
def drmClientCapAtomic : UInt64 := 3

def drmSetClientCap (dev : Device) (fd : Int) (capability value : UInt64) : Except Errno Unit × Device :=
  match checkFd fd with
  | .error e => (.error e, dev)
  | .ok () =>
      if capability = drmClientCapUniversalPlanes then (.ok (), { dev with universalPlanes := value })
      else if capability = drmClientCapAtomic then (.ok (), { dev with atomic := value })
      else (.error .EINVAL, dev)

end Iland.Drm

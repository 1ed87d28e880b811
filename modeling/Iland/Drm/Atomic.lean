import Iland.Drm.Device

namespace Iland.Drm

open Iland.Data
open Iland.Sdl

/-! Atomic requests and their commit. -/

def drmModePageFlipEvent : UInt32 := 0x01
def drmModeAtomicTestOnly : UInt32 := 0x0100

def maxAtomicProps : ℕ := 64

structure Triple where
  objId : UInt32
  propId : UInt32
  value : UInt64
deriving DecidableEq, Repr

structure AtomicReq where
  triples : List Triple
  fits : triples.length ≤ maxAtomicProps

def drmModeAtomicAlloc : AtomicReq := ⟨[], Nat.zero_le _⟩

def AtomicReq.add (req : AtomicReq) (t : Triple) : AtomicReq :=
  if room : req.triples.length < maxAtomicProps then
    ⟨req.triples ++ [t], by simpa using room⟩
  else req

/-- `drmModeAtomicAddProperty`, returning the number of triples. -/
def drmModeAtomicAddProperty (req : Option AtomicReq) (t : Triple) : Except Errno ℕ × Option AtomicReq :=
  match req with
  | none => (.error .EINVAL, none)
  | some req =>
      if req.triples.length ≥ maxAtomicProps then (.error .ENOMEM, some req)
      else (.ok (req.triples.length + 1), some (req.add t))

def AtomicReq.addAll (req : AtomicReq) (triples : List Triple) : AtomicReq :=
  triples.foldl (fun req t => (drmModeAtomicAddProperty (some req) t).2.getD req) req

theorem AtomicReq.ext {left right : AtomicReq} (same : left.triples = right.triples) : left = right := by
  cases left; cases right; simpa using same

theorem addProperty_eq_add (req : AtomicReq) (t : Triple) :
    (drmModeAtomicAddProperty (some req) t).2.getD req = req.add t := by
  simp only [drmModeAtomicAddProperty]
  split
  · rename_i full
    rw [Option.getD_some, AtomicReq.add, dif_neg (not_lt.mpr full)]
  · rfl

theorem triples_addAll (req : AtomicReq) (triples : List Triple) :
    (req.addAll triples).triples = (req.triples ++ triples).take maxAtomicProps := by
  induction triples generalizing req with
  | nil =>
      rw [List.append_nil, List.take_of_length_le req.fits]
      rfl
  | cons t rest ih =>
      change (((drmModeAtomicAddProperty (some req) t).2.getD req).addAll rest).triples = _
      rw [addProperty_eq_add, ih]
      by_cases room : req.triples.length < maxAtomicProps
      · simp [AtomicReq.add, room]
      · have full : req.triples.length = maxAtomicProps := le_antisymm req.fits (not_lt.mp room)
        simp only [AtomicReq.add, room, dite_false]
        rw [List.take_append_of_le_length full.ge, List.take_append_of_le_length full.ge]

/-- The local variables of `drmModeAtomicCommit`, beside the device. -/
structure Committing where
  dev : Device
  newFbId : UInt32
  newPlaneId : UInt32
  flipCrtcs : List UInt32

def Committing.start (dev : Device) : Committing := ⟨dev, 0, 0, []⟩

def Committing.withTable (s : Committing) (table : ObjTable) : Committing :=
  { s with dev := s.dev.withTable table }

def Committing.withDev (s : Committing) (dev : Device) : Committing := { s with dev := dev }

def idIndex (id : UInt32) : Int := id.toInt32.toInt - 1

/-- `if (idx < 0 || idx >= MAX_CRTCS) idx = 0;` -/
def clampIndex (idx : Int) : Fin maxCrtcs :=
  if inside : 0 ≤ idx ∧ idx < maxCrtcs then ⟨idx.toNat, by omega⟩ else ⟨0, by decide⟩

def stateIndex (idx : Int) : Except Fault (Fin maxCrtcs) :=
  if inside : 0 ≤ idx ∧ idx < maxCrtcs then .ok ⟨idx.toNat, by omega⟩
  else .error (.outOfBounds .gState idx)

/-- The CRTC that shows a plane's framebuffer: the one with the plane's id,
or for an id beyond the displays the plane's CRTC_ID, or else CRTC 1. -/
def planeCrtc (host : Host) (objId : UInt32) (props : PropStore) : Except Fault UInt32 := do
  if objId.toNat > host.getDisplayCount then
    let hit ← scan .propArrays (fun pair => pair.1 == PropId.crtcId) props.entries
    let crtcVal := (hit.map Prod.snd).getD 0
    return if 0 < crtcVal then crtcVal.toUInt32 else 1
  else return objId

/-- The position of a plane: its CRTC_X and CRTC_Y, where it has them, else
those of its CRTC. -/
def planePosition (state : CrtcState) (props : PropStore) : Except Fault (Int32 × Int32) :=
  each .propArrays (fun position pair =>
      (if pair.1 = PropId.crtcX then toCInt pair.2 else position.1,
        if pair.1 = PropId.crtcY then toCInt pair.2 else position.2))
    (state.x, state.y) props.entries

def noteFlip (crtcId : UInt32) (flipCrtcs : List UInt32) : Except Fault (List UInt32) := do
  if flipCrtcs.length < 8 then
    match ← scan .flipCrtcs (· == crtcId) flipCrtcs with
    | some _ => return flipCrtcs
    | none =>
        checkIndex .flipCrtcs flipCrtcs.length
        return flipCrtcs ++ [crtcId]
  else return flipCrtcs

def presentPlane (host : Host) (dev : Device) (crtcId fbId : UInt32) (props : PropStore) : Except Fault Device := do
  let crtcIdx := clampIndex (idIndex crtcId)
  match dev.fbIdToSurface fbId with
  | none => return dev
  | some surf =>
      let (x, y) ← planePosition (dev.gState crtcIdx) props
      let dev := dev.present host surf crtcId x y
      return dev.setState crtcIdx { dev.gState crtcIdx with crtcFbId := fbId }

def flipPlane (host : Host) (s : Committing) (t : Triple) (props : PropStore) : Except Fault Committing := do
  let crtcId ← planeCrtc host t.objId props
  let dev ← presentPlane host s.dev crtcId t.value.toUInt32 props
  let flipCrtcs ← noteFlip crtcId s.flipCrtcs
  return { dev, newFbId := t.value.toUInt32, newPlaneId := t.objId, flipCrtcs }

/-- The branch for CRTC_X and CRTC_Y: the position also goes to `g_state`. -/
def movePlane (host : Host) (dev : Device) (t : Triple) : Except Fault Device := do
  if t.objId.toNat > host.getDisplayCount then return dev
  let idx ← stateIndex (idIndex t.objId)
  let state := dev.gState idx
  return dev.setState idx { state with
    x := if t.propId = PropId.crtcX then toCInt t.value else state.x
    y := if t.propId = PropId.crtcY then toCInt t.value else state.y }

/-- The body of the loop over the triples.  The record is searched by object
id alone; a triple without one is skipped. -/
def commitTriple (host : Host) (s : Committing) (t : Triple) : Except Fault Committing := do
  match ← scan .gObjProps (fun record => record.objId == t.objId) s.dev.gObjProps.entries with
  | none => return s
  | some op =>
      let props ← setObjProp op.props t.propId t.value
      let s := s.withTable (s.dev.gObjProps.setProps (fun record => record.objId == t.objId) props)
      let s ← if t.propId = PropId.fbId then flipPlane host s t props else pure s
      if t.propId = PropId.crtcX ∨ t.propId = PropId.crtcY then
        return s.withDev (← movePlane host s.dev t)
      else return s

/-- `if (new_fb_id > 0)`: the last FB_ID is recorded for its plane's CRTC,
whether or not the framebuffer exists. -/
def recordLastFb (s : Committing) : Device :=
  if 0 < s.newFbId then
    let idx := clampIndex (idIndex s.newPlaneId)
    s.dev.setState idx { s.dev.gState idx with crtcFbId := s.newFbId }
  else s.dev

/-- Queue a completion for each CRTC that flips, or for CRTC 1 if none does,
and write one byte to the pipe. -/
def sendFlipEvents (dev : Device) (flipCrtcs : List UInt32) (userData : UInt64) : Except Fault Device := do
  let flipCrtcs ← if flipCrtcs.length = 0 then
      checkIndex .flipCrtcs 0
      pure [(1 : UInt32)]
    else pure flipCrtcs
  let dev ← each .flipCrtcs (fun (dev : Device) crtcId => dev.enqueueFlipEvent crtcId userData) dev flipCrtcs
  return dev.signalEvent

def drmModeAtomicCommit (host : Host) (dev : Device) (fd : Int) (req : Option AtomicReq) (flags : UInt32)
    (userData : UInt64) : Except Fault (Except Errno Unit × Device) := do
  match checkFd fd, req with
  | .error e, _ => return (.error e, dev)
  | .ok (), none => return (.error .EINVAL, dev)
  | .ok (), some req =>
      let table ← ensureObjProperties host.getDisplayCount dev.gObjProps
      let dev := dev.withTable table
      let _cursorProps ← scan .gObjProps (fun record => record.objId == 2) table.entries
      let s ← req.triples.foldlM (commitTriple host) (.start dev)
      let dev := recordLastFb s
      let dev ← if flags &&& drmModePageFlipEvent ≠ 0 then sendFlipEvents dev s.flipCrtcs userData else pure dev
      return (.ok (), dev)

end Iland.Drm

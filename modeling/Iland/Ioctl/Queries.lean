import Iland.Drm.Queries

namespace Iland.Ioctl

open Iland.Drm

/-! The ioctls that fill user arrays.

A handler returns the request structure as it leaves it, together with the
elements that it stores through the structure's pointers.  A pointer is an
address, and 0 is NULL.
-/

inductive ArrayName where
  | fbs
  | crtcs
  | connectors
  | encoders
  | modes
  | props
  | propValues
  | planes
  | formats
  | values
  | enumBlobs
  | data
deriving DecidableEq

inductive Element where
  | u32 (v : UInt32)
  | u64 (v : UInt64)
  | byte (b : UInt8)
  | mode (m : ModeInfo)
  /-- `drm_mode_property_enum`. -/
  | enum (value : UInt64) (name : String)

structure Write where
  array : ArrayName
  index : ℕ
  value : Element

/-- `for (i = 0; i < n; i++) array[i] = src[i];` -/
def copyLoop (array : ArrayName) (n : ℕ) (src : List Element) : List Write :=
  (src.take n).zipIdx.map fun (value, i) => ⟨array, i, value⟩

def copyPairs (left right : ArrayName) (n : ℕ) (src src' : List Element) : List Write :=
  ((src.zip src').take n).zipIdx.flatMap fun ((value, value'), i) => [⟨left, i, value⟩, ⟨right, i, value'⟩]

/-! Modes. -/

structure ModeWords where
  words : Vector UInt32 9
  name : Vector UInt8 32

def packFields (low high : UInt16) : UInt32 := low.toUInt32 ||| (high.toUInt32 <<< 16)

def copyMode (src : ModeInfo) : ModeWords where
  words := #v[src.clock, packFields src.hdisplay src.hsyncStart, packFields src.hsyncEnd src.htotal,
    packFields src.hskew src.vdisplay, packFields src.vsyncStart src.vsyncEnd, packFields src.vtotal src.vscan,
    src.vrefresh, src.flags, src.type]
  name := src.name

def ModeWords.read (mode : ModeWords) : ModeInfo where
  clock := mode.words[0]
  hdisplay := mode.words[1].toUInt16
  hsyncStart := (mode.words[1] >>> 16).toUInt16
  hsyncEnd := mode.words[2].toUInt16
  htotal := (mode.words[2] >>> 16).toUInt16
  hskew := mode.words[3].toUInt16
  vdisplay := (mode.words[3] >>> 16).toUInt16
  vsyncStart := mode.words[4].toUInt16
  vsyncEnd := (mode.words[4] >>> 16).toUInt16
  vtotal := mode.words[5].toUInt16
  vscan := (mode.words[5] >>> 16).toUInt16
  vrefresh := mode.words[6]
  flags := mode.words[7]
  type := mode.words[8]
  name := mode.name

theorem toUInt16_packFields (low high : UInt16) : (packFields low high).toUInt16 = low := by
  apply UInt16.eq_of_toBitVec_eq
  apply BitVec.eq_of_getLsbD_eq
  intro i inside
  simp [packFields, inside]

theorem toUInt16_packFields_shifted (low high : UInt16) : (packFields low high >>> 16).toUInt16 = high := by
  apply UInt16.eq_of_toBitVec_eq
  apply BitVec.eq_of_getLsbD_eq
  intro i inside
  have bounds : 16 + i < 32 ∧ i < 32 := by omega
  simp [packFields, inside, bounds]

@[simp] theorem read_copyMode (src : ModeInfo) : (copyMode src).read = src := by
  simp [ModeWords.read, copyMode, toUInt16_packFields, toUInt16_packFields_shifted]

/-! GETRESOURCES and GETCONNECTOR. -/

structure DrmModeCardRes where
  fbIdPtr : UInt64
  crtcIdPtr : UInt64
  connectorIdPtr : UInt64
  encoderIdPtr : UInt64
  countFbs : UInt32
  countCrtcs : UInt32
  countConnectors : UInt32
  countEncoders : UInt32
  minWidth : UInt32
  maxWidth : UInt32
  minHeight : UInt32
  maxHeight : UInt32

/-- One of the three loops of `handle_get_resources`: `n` ids, and the count
field as it is by then. -/
def copyIds (array : ArrayName) (ptr : UInt64) (n : UInt32) (ids : List UInt32) (count : UInt32) : List Write :=
  if ptr ≠ 0 ∧ 0 < count then
    copyLoop array (min n.toNat count.toInt32.toInt.toNat) (ids.map .u32)
  else []

def handleGetResources (host : Host) (res : DrmModeCardRes) : Except Errno (DrmModeCardRes × List Write) :=
  match drmModeGetResources host drmVirtualFd with
  | .error e => .error e
  | .ok r =>
      let res := { res with
        countFbs := r.countFbs
        countCrtcs := r.countCrtcs
        countConnectors := r.countConnectors
        countEncoders := r.countEncoders
        minWidth := r.minWidth
        maxWidth := r.maxWidth
        minHeight := r.minHeight
        maxHeight := r.maxHeight }
      .ok (res,
        copyIds .crtcs res.crtcIdPtr r.countCrtcs r.crtcs res.countCrtcs ++
          copyIds .connectors res.connectorIdPtr r.countConnectors r.connectors res.countConnectors ++
          copyIds .encoders res.encoderIdPtr r.countEncoders r.encoders res.countEncoders)

structure DrmModeGetConnector where
  encodersPtr : UInt64
  modesPtr : UInt64
  propsPtr : UInt64
  propValuesPtr : UInt64
  countModes : UInt32
  countProps : UInt32
  countEncoders : UInt32
  encoderId : UInt32
  connectorId : UInt32
  connectorType : UInt32
  connectorTypeId : UInt32
  connection : UInt32
  mmWidth : UInt32
  mmHeight : UInt32
  subpixel : UInt32

def handleGetConnector (host : Host) (kc : DrmModeGetConnector) : Except Errno (DrmModeGetConnector × List Write) :=
  match drmModeGetConnector host drmVirtualFd kc.connectorId with
  | .error e => .error e
  | .ok c =>
      let modes :=
        if kc.modesPtr ≠ 0 ∧ 0 < c.countModes then
          copyLoop .modes c.countModes.toNat (c.modes.map fun m => .mode (copyMode m).read)
        else []
      let props :=
        if kc.propsPtr ≠ 0 ∧ kc.propValuesPtr ≠ 0 ∧ 0 < c.countProps then
          copyPairs .props .propValues c.countProps.toNat (c.props.map .u32) (c.propValues.map .u64)
        else []
      let encoders :=
        if kc.encodersPtr ≠ 0 ∧ 0 < c.countEncoders then
          copyLoop .encoders c.countEncoders.toNat (c.encoders.map .u32)
        else []
      .ok ({ kc with
          encoderId := c.encoderId
          connectorType := c.connectorType
          connectorTypeId := c.connectorTypeId
          connection := c.connection
          mmWidth := c.mmWidth
          mmHeight := c.mmHeight
          subpixel := c.subpixel
          countModes := c.countModes
          countProps := c.countProps
          countEncoders := c.countEncoders },
        modes ++ props ++ encoders)

/-! GETPLANERESOURCES and GETPLANE. -/

structure DrmModeGetPlaneRes where
  planeIdPtr : UInt64
  countPlanes : UInt32

def handleGetPlaneResources (host : Host) (dev : Device) (res : DrmModeGetPlaneRes) :
    Except Errno (DrmModeGetPlaneRes × List Write) :=
  match drmModeGetPlaneResources host dev drmVirtualFd with
  | .error e => .error e
  | .ok r =>
      .ok ({ res with countPlanes := r.countPlanes },
        if res.planeIdPtr ≠ 0 then copyLoop .planes r.countPlanes.toNat (r.planes.map .u32) else [])

structure DrmModeGetPlane where
  planeId : UInt32
  crtcId : UInt32
  fbId : UInt32
  possibleCrtcs : UInt32
  gammaSize : UInt32
  countFormatTypes : UInt32
  formatTypePtr : UInt64

def handleGetPlane (host : Host) (dev : Device) (kp : DrmModeGetPlane) :
    Except Fault (Except Errno (DrmModeGetPlane × List Write) × Device) := do
  match ← drmModeGetPlane host dev drmVirtualFd kp.planeId with
  | (.error e, dev) => return (.error e, dev)
  | (.ok p, dev) =>
      return (.ok ({ kp with
          crtcId := p.crtcId
          fbId := p.fbId
          possibleCrtcs := p.possibleCrtcs
          gammaSize := p.gammaSize
          countFormatTypes := p.countFormats },
        if kp.formatTypePtr ≠ 0 then copyLoop .formats p.countFormats.toNat (p.formats.map .u32) else []), dev)

/-! OBJ_GETPROPERTIES, GETPROPERTY and GETPROPBLOB. -/

structure DrmModeObjGetProperties where
  propsPtr : UInt64
  propValuesPtr : UInt64
  countProps : UInt32
  objId : UInt32
  objType : UInt32

def handleObjGetProperties (host : Host) (dev : Device) (kp : DrmModeObjGetProperties) :
    Except Fault (Except Errno (DrmModeObjGetProperties × List Write) × Device) := do
  match ← drmModeObjectGetProperties host dev drmVirtualFd kp.objId kp.objType with
  | (.error e, dev) => return (.error e, dev)
  | (.ok p, dev) =>
      return (.ok ({ kp with countProps := p.countProps },
        if kp.propsPtr ≠ 0 ∧ kp.propValuesPtr ≠ 0 then
          copyPairs .props .propValues p.countProps.toNat (p.props.map .u32) (p.propValues.map .u64)
        else []), dev)

structure DrmModeGetProperty where
  valuesPtr : UInt64
  enumBlobPtr : UInt64
  propId : UInt32
  flags : UInt32
  name : String
  countValues : UInt32
  countEnumBlobs : UInt32

/-- `handle_get_property`.  Nothing is stored through `enum_blob_ptr`. -/
def handleGetProperty (dev : Device) (kp : DrmModeGetProperty) :
    Except Errno (DrmModeGetProperty × List Write) × Device :=
  match drmModeGetProperty dev drmVirtualFd kp.propId with
  | (.error e, dev) => (.error e, dev)
  | (.ok p, dev) =>
      (.ok ({ kp with
          flags := p.flags
          name := p.name
          countValues := p.countValues
          countEnumBlobs := if 0 < p.countBlobs ∧ p.flags &&& drmModePropBlob ≠ 0 then p.countBlobs else p.countEnums },
        if kp.valuesPtr ≠ 0 then copyLoop .values p.countValues.toNat (p.values.map .u64) else []), dev)

structure DrmModeGetPropertyBlob where
  data : UInt64
  length : UInt32
  blobId : UInt32

def handleGetPropBlob (dev : Device) (kb : DrmModeGetPropertyBlob) :
    Except Errno (DrmModeGetPropertyBlob × List Write) :=
  match drmModeGetPropertyBlob dev drmVirtualFd kb.blobId with
  | .error e => .error e
  | .ok b =>
      .ok ({ kb with length := b.length },
        if kb.data ≠ 0 then copyLoop .data b.length.toNat (b.data.map .byte) else [])

/-! All of them. -/

inductive Request where
  | getResources (res : DrmModeCardRes)
  | getConnector (kc : DrmModeGetConnector)
  | getPlaneResources (res : DrmModeGetPlaneRes)
  | getPlane (kp : DrmModeGetPlane)
  | objGetProperties (kp : DrmModeObjGetProperties)
  | getProperty (kp : DrmModeGetProperty)
  | getPropBlob (kb : DrmModeGetPropertyBlob)

/-- What an ioctl returns: its request structure and its stores, if it succeeds. -/
abbrev Filled := Except Errno (Request × List Write)

def fill (request : α → Request) (result : Except Errno (α × List Write)) : Filled :=
  result.map fun (after, writes) => (request after, writes)

/-- `drm_ioctl_dispatch`, for these requests. -/
def Request.handle (host : Host) (dev : Device) : Request → Except Fault (Filled × Device)
  | .getResources res => .ok (fill .getResources (handleGetResources host res), dev)
  | .getConnector kc => .ok (fill .getConnector (handleGetConnector host kc), dev)
  | .getPlaneResources res => .ok (fill .getPlaneResources (handleGetPlaneResources host dev res), dev)
  | .getPlane kp => (handleGetPlane host dev kp).map fun (result, dev) => (fill .getPlane result, dev)
  | .objGetProperties kp =>
      (handleObjGetProperties host dev kp).map fun (result, dev) => (fill .objGetProperties result, dev)
  | .getProperty kp =>
      let (result, dev) := handleGetProperty dev kp
      .ok (fill .getProperty result, dev)
  | .getPropBlob kb => .ok (fill .getPropBlob (handleGetPropBlob dev kb), dev)

end Iland.Ioctl

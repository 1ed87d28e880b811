import Mathlib

namespace Iland.Drm

/-! The property definitions of the virtual device.

The source fills the table on first use, from constants, and never changes it
afterwards; every reader fills it first.  It is therefore a constant here, as
are the cached property ids.
-/

def drmModePropRange : UInt32 := (1 : UInt32) <<< 0
def drmModePropEnum : UInt32 := (1 : UInt32) <<< 1
def drmModePropBlob : UInt32 := (1 : UInt32) <<< 2
def drmModePropImmutable : UInt32 := (1 : UInt32) <<< 4
def drmModePropAtomic : UInt32 := (1 : UInt32) <<< 5

def drmPlaneTypeOverlay : UInt64 := 0
def drmPlaneTypePrimary : UInt64 := 1
def drmPlaneTypeCursor : UInt64 := 2

structure PropDef where
  id : UInt32
  flags : UInt32
  name : String
  countValues : UInt32
  values : List UInt64
  countEnums : UInt32
  enums : List (UInt64 × String)
  countBlobs : UInt32
deriving DecidableEq

def maxProps : ℕ := 64

def addProp (name : String) (flags : UInt32) (vals : List UInt64) (props : List PropDef) : List PropDef :=
  if props.length ≥ maxProps then props
  else props ++ [{ id := UInt32.ofNat (props.length + 1), flags, name,
                   countValues := UInt32.ofNat vals.length, values := vals.take 4,
                   countEnums := 0, enums := [], countBlobs := 0 }]

def addEnumProp (name : String) (flags : UInt32) (enums : List (UInt64 × String))
    (props : List PropDef) : List PropDef :=
  if props.length ≥ maxProps then props
  else props ++ [{ id := UInt32.ofNat (props.length + 1), flags, name, countValues := 0, values := [],
                   countEnums := UInt32.ofNat enums.length, enums := enums.take 8, countBlobs := 0 }]

def addBlobProp (name : String) (flags : UInt32) (props : List PropDef) : List PropDef :=
  addProp name (flags ||| drmModePropBlob) [] props

def gProps : List PropDef :=
  let u32Range : List UInt64 := [0, 0xFFFFFFFF]
  -- connector properties
  addEnumProp "DPMS" (drmModePropEnum ||| drmModePropAtomic) [(0, "OK"), (1, "off")] []
  |> addProp "CRTC_ID" (drmModePropRange ||| drmModePropAtomic ||| drmModePropImmutable) [0, 1]
  |> addBlobProp "EDID" drmModePropImmutable
  -- CRTC properties
  |> addProp "ACTIVE" (drmModePropRange ||| drmModePropAtomic) [0, 1]
  |> addBlobProp "MODE_ID" drmModePropAtomic
  -- plane properties
  |> addBlobProp "IN_FORMATS" (drmModePropImmutable ||| drmModePropBlob)
  |> addProp "FB_ID" (drmModePropRange ||| drmModePropAtomic) u32Range
  |> addProp "CRTC_X" (drmModePropRange ||| drmModePropAtomic) u32Range
  |> addProp "CRTC_Y" (drmModePropRange ||| drmModePropAtomic) u32Range
  |> addProp "CRTC_W" (drmModePropRange ||| drmModePropAtomic) u32Range
  |> addProp "CRTC_H" (drmModePropRange ||| drmModePropAtomic) u32Range
  |> addProp "SRC_X" (drmModePropRange ||| drmModePropAtomic) u32Range
  |> addProp "SRC_Y" (drmModePropRange ||| drmModePropAtomic) u32Range
  |> addProp "SRC_W" (drmModePropRange ||| drmModePropAtomic) u32Range
  |> addProp "SRC_H" (drmModePropRange ||| drmModePropAtomic) u32Range
  |> addEnumProp "type" (drmModePropImmutable ||| drmModePropEnum)
      [(drmPlaneTypeOverlay, "Overlay"), (drmPlaneTypePrimary, "Primary"), (drmPlaneTypeCursor, "Cursor")]

def lookupPropId (name : String) : UInt32 :=
  ((gProps.find? (fun prop => prop.name == name)).map PropDef.id).getD 0

/-! `g_cached_prop_ids`. -/
namespace PropId

def fbId : UInt32 := lookupPropId "FB_ID"
def crtcX : UInt32 := lookupPropId "CRTC_X"
def crtcY : UInt32 := lookupPropId "CRTC_Y"
def crtcW : UInt32 := lookupPropId "CRTC_W"
def crtcH : UInt32 := lookupPropId "CRTC_H"
def srcX : UInt32 := lookupPropId "SRC_X"
def srcY : UInt32 := lookupPropId "SRC_Y"
def srcW : UInt32 := lookupPropId "SRC_W"
def srcH : UInt32 := lookupPropId "SRC_H"
def crtcId : UInt32 := lookupPropId "CRTC_ID"
def active : UInt32 := lookupPropId "ACTIVE"
def modeId : UInt32 := lookupPropId "MODE_ID"
def dpms : UInt32 := lookupPropId "DPMS"
def type : UInt32 := lookupPropId "type"

def planeOnly : List UInt32 := [fbId, crtcX, crtcY, crtcW, crtcH, srcX, srcY, srcW, srcH]

theorem nodup : ([crtcId, active, modeId, dpms, type] ++ planeOnly).Nodup := by decide

end PropId

theorem gProps_ids : gProps.map PropDef.id = (List.range gProps.length).map (fun i => UInt32.ofNat (i + 1)) := by
  decide

theorem gProps_counted : ∀ pd ∈ gProps, pd.countValues = UInt32.ofNat pd.values.length ∧
    pd.countEnums = UInt32.ofNat pd.enums.length ∧ pd.values.length ≤ 4 ∧ pd.enums.length ≤ 8 ∧
    (pd.name = "IN_FORMATS" → pd.flags &&& drmModePropBlob ≠ 0) := by
  decide +kernel

end Iland.Drm

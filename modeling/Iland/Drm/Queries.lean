import Iland.Drm.Device

namespace Iland.Drm

open Iland.Data

/-! Property blobs and the calls that report on objects.

Memory for the returned structures is assumed to be there.
-/

/-! Blobs. -/

def drmFormatXrgb8888 : UInt32 := 0x34325258
def drmFormatArgb8888 : UInt32 := 0x34325241
def drmFormatXbgr8888 : UInt32 := 0x34324258
def drmFormatAbgr8888 : UInt32 := 0x34324241
def drmFormatModLinear : UInt64 := 0

def u32Bytes (v : UInt32) : List UInt8 := [v.toUInt8, (v >>> 8).toUInt8, (v >>> 16).toUInt8, (v >>> 24).toUInt8]

/-- The bytes of `g_in_formats`: each format, four bytes of padding, and the modifier. -/
def inFormatsData : List UInt8 :=
  [drmFormatXrgb8888, drmFormatArgb8888, drmFormatXbgr8888, drmFormatAbgr8888].flatMap fun format =>
    u32Bytes format ++ List.replicate 4 (0 : UInt8) ++ u32Bytes drmFormatModLinear.toUInt32 ++
      u32Bytes (drmFormatModLinear >>> 32).toUInt32

def storeBlob (dev : Device) (data : List UInt8) : Option (UInt32 × Device) :=
  (firstPlace (fun i => (dev.gBlobs i).isNone)).map fun slot =>
    let id := dev.gNextBlobId
    (id, { dev with
      gNextBlobId := id + 1
      gBlobs := Function.update dev.gBlobs slot (some ⟨id, UInt32.ofNat data.length, data, rfl⟩) })

/-- What `storeBlob` does with a free place. -/
def addBlob (dev : Device) (slot : Fin maxBlobs) (data : List UInt8) : Device :=
  { dev with
    gNextBlobId := dev.gNextBlobId + 1
    gBlobs := Function.update dev.gBlobs slot (some ⟨dev.gNextBlobId, UInt32.ofNat data.length, data, rfl⟩) }

def createInFormatsBlob (dev : Device) : UInt32 × Device := (storeBlob dev inFormatsData).getD (0, dev)

def getOrCreateInFormatsBlob (dev : Device) : UInt32 × Device :=
  if dev.gInFormatsBlobId ≠ 0 then (dev.gInFormatsBlobId, dev)
  else
    let (id, dev) := createInFormatsBlob dev
    (id, { dev with gInFormatsBlobId := id })

def blobPlace (dev : Device) (blobId : UInt32) : Option (Fin maxBlobs) :=
  firstPlace (fun i => (dev.gBlobs i).any (fun blob => blob.id == blobId))

structure PropertyBlobRes where
  id : UInt32
  length : UInt32
  data : List UInt8

def drmModeGetPropertyBlob (dev : Device) (fd : Int) (blobId : UInt32) : Except Errno PropertyBlobRes :=
  match checkFd fd with
  | .error e => .error e
  | .ok () =>
      match (blobPlace dev blobId).bind dev.gBlobs with
      | none => .error .ENOENT
      | some blob => .ok { id := blobId, length := blob.size, data := blob.data.take blob.size.toNat }

/-- `drmModeCreatePropertyBlob`; the data is `none` when either pointer is NULL. -/
def drmModeCreatePropertyBlob (dev : Device) (fd : Int) (data : Option (List UInt8)) : Except Errno UInt32 × Device :=
  match checkFd fd, data with
  | .error e, _ => (.error e, dev)
  | .ok (), none => (.error .EINVAL, dev)
  | .ok (), some data =>
      match storeBlob dev data with
      | none => (.error .ENOMEM, dev)
      | some (id, dev) => (.ok id, dev)

def drmModeDestroyPropertyBlob (dev : Device) (fd : Int) (blobId : UInt32) : Except Errno Unit × Device :=
  match checkFd fd with
  | .error e => (.error e, dev)
  | .ok () =>
      match blobPlace dev blobId with
      | none => (.error .ENOENT, dev)
      | some i => (.ok (), { dev with gBlobs := Function.update dev.gBlobs i none })

/-! Properties and planes. -/

structure PropertyRes where
  propId : UInt32
  flags : UInt32
  name : String
  countValues : UInt32
  values : List UInt64
  countEnums : UInt32
  enums : List (UInt64 × String)
  countBlobs : UInt32
  blobIds : List UInt32

def drmModeGetProperty (dev : Device) (fd : Int) (propertyId : UInt32) : Except Errno PropertyRes × Device :=
  match checkFd fd with
  | .error e => (.error e, dev)
  | .ok () =>
      match if propertyId = 0 then none else gProps[propertyId.toNat - 1]? with
      | none => (.error .ENOENT, dev)
      | some pd =>
          let p : PropertyRes :=
            { propId := pd.id, flags := pd.flags, name := pd.name, countValues := pd.countValues,
              values := pd.values, countEnums := pd.countEnums, enums := pd.enums, countBlobs := 0, blobIds := [] }
          if pd.name = "IN_FORMATS" ∧ pd.countBlobs = 0 then
            let (id, dev) := getOrCreateInFormatsBlob dev
            (.ok { p with countBlobs := 1, blobIds := [id] }, dev)
          else (.ok p, dev)

structure ObjectProperties where
  countProps : UInt32
  props : List UInt32
  propValues : List UInt64

def ObjProps.reported (record : ObjProps) : ObjectProperties :=
  { countProps := UInt32.ofNat record.props.entries.length
    props := record.props.entries.map Prod.fst
    propValues := record.props.entries.map Prod.snd }

def drmModeObjectGetProperties (host : Host) (dev : Device) (fd : Int) (objectId objectType : UInt32) :
    Except Fault (Except Errno ObjectProperties × Device) := do
  match checkFd fd with
  | .error e => return (.error e, dev)
  | .ok () =>
      let table ← ensureObjProperties host.getDisplayCount dev.gObjProps
      match ← getObjProps table objectId objectType with
      | (none, table) => return (.error .ENOENT, dev.withTable table)
      | (some op, table) => return (.ok op.reported, dev.withTable table)

structure PlaneRes where
  countPlanes : UInt32
  planes : List UInt32

def drmModeGetPlaneResources (host : Host) (dev : Device) (fd : Int) : Except Errno PlaneRes :=
  match checkFd fd with
  | .error e => .error e
  | .ok () =>
      if dev.universalPlanes = 0 then .error .EOPNOTSUPP
      else .ok { countPlanes := UInt32.ofNat host.getDisplayCount, planes := objectIds host.getDisplayCount }

structure Plane where
  possibleCrtcs : UInt32
  gammaSize : UInt32
  countFormats : UInt32
  formats : List UInt32
  planeId : UInt32
  crtcId : UInt32
  fbId : UInt32

/-- `drmModeGetPlane`.  The record is looked up, and dereferenced, before the
id is checked. -/
def drmModeGetPlane (host : Host) (dev : Device) (fd : Int) (planeId : UInt32) :
    Except Fault (Except Errno Plane × Device) := do
  match checkFd fd with
  | .error e => return (.error e, dev)
  | .ok () =>
      let table ← ensureObjProperties host.getDisplayCount dev.gObjProps
      let (record, table) ← getObjProps table planeId drmModeObjectPlane
      let fbId ← getObjProp record PropId.fbId
      let dev := dev.withTable table
      if 1 ≤ planeId.toNat ∧ planeId.toNat ≤ host.getDisplayCount then
        return (.ok { planeId, possibleCrtcs := 1 <<< (planeId - 1), gammaSize := 256, crtcId := planeId,
                      fbId := fbId.toUInt32, countFormats := 2,
                      formats := [drmFormatXrgb8888, drmFormatArgb8888] }, dev)
      else return (.error .ENOENT, dev)

/-! Resources and connectors. -/

structure Res where
  countFbs : UInt32
  countCrtcs : UInt32
  crtcs : List UInt32
  countConnectors : UInt32
  connectors : List UInt32
  countEncoders : UInt32
  encoders : List UInt32
  minWidth : UInt32
  maxWidth : UInt32
  minHeight : UInt32
  maxHeight : UInt32

def drmModeGetResources (host : Host) (fd : Int) : Except Errno Res :=
  match checkFd fd with
  | .error e => .error e
  | .ok () =>
      let n := host.getDisplayCount
      .ok { countFbs := 0, countCrtcs := UInt32.ofNat n, crtcs := objectIds n,
            countConnectors := UInt32.ofNat n, connectors := objectIds n,
            countEncoders := UInt32.ofNat n, encoders := objectIds n,
            minWidth := 1, maxWidth := 8192, minHeight := 1, maxHeight := 8192 }

def drmModeConnectorDisplayPort : UInt32 := 10
def drmModeConnected : UInt32 := 1

structure Connector where
  connectorId : UInt32
  encoderId : UInt32
  connectorType : UInt32
  connectorTypeId : UInt32
  connection : UInt32
  mmWidth : UInt32
  mmHeight : UInt32
  subpixel : UInt32
  countModes : UInt32
  modes : List ModeInfo
  countProps : UInt32
  props : List UInt32
  propValues : List UInt64
  countEncoders : UInt32
  encoders : List UInt32

def drmModeGetConnector (host : Host) (fd : Int) (connectorId : UInt32) : Except Errno Connector :=
  match checkFd fd with
  | .error e => .error e
  | .ok () =>
      if connectorId.toNat < 1 ∨ connectorId.toNat > host.getDisplayCount then .error .ENOENT
      else
        .ok { connectorId, encoderId := connectorId, connectorType := drmModeConnectorDisplayPort,
              connectorTypeId := connectorId, connection := drmModeConnected, mmWidth := 527, mmHeight := 296,
              subpixel := 0, countModes := UInt32.ofNat (initModes host).length,
              modes := connectorModes host (connectorId.toNat - 1), countProps := 0, props := [], propValues := [],
              countEncoders := 1, encoders := [connectorId] }

variable {host : Host} {dev : Device} {table : ObjTable}

/-! What the object queries do, without their index checks. -/

def ObjTable.demand (table : ObjTable) (objId objType : UInt32) : Option ObjProps × ObjTable :=
  match table.lookup (objId, objType) with
  | some record => (some record, table)
  | none =>
      if table.full then (none, table)
      else (some ⟨objId, objType, .empty⟩, table.insertNew ⟨objId, objType, .empty⟩)

theorem getObjProps_demand (table : ObjTable) (objId objType : UInt32) :
    getObjProps table objId objType = .ok (table.demand objId objType) :=
  getObjProps_eq table objId objType

theorem grows_demand (table : ObjTable) (objId objType : UInt32) :
    Grows table (table.demand objId objType).2 := by
  simp only [ObjTable.demand]
  split
  · exact .refl table
  · split
    · exact .refl table
    · exact .insertNew table _

theorem ObjTable.demand_of_lookup {objId objType : UInt32} {record : ObjProps}
    (found : table.lookup (objId, objType) = some record) : table.demand objId objType = (some record, table) := by
  simp only [demand, found]

theorem ObjTable.demand_eq_none_iff {objId objType : UInt32} :
    (table.demand objId objType).1 = none ↔ (objId, objType) ∉ table.keys ∧ table.full := by
  rw [← KeyedTable.lookup_eq_none_iff]
  simp only [demand]
  cases table.lookup (objId, objType) with
  | some record => simp
  | none => by_cases full : table.full <;> simp [full]

theorem drmModeObjectGetProperties_eq (objectId objectType : UInt32)
    (ensured : ensureObjProperties host.getDisplayCount dev.gObjProps = .ok table) :
    drmModeObjectGetProperties host dev drmVirtualFd objectId objectType =
      .ok (match (table.demand objectId objectType).1 with
          | none => .error .ENOENT
          | some op => .ok op.reported,
        dev.withTable (table.demand objectId objectType).2) := by
  simp only [drmModeObjectGetProperties, checkFd, ne_eq, not_true_eq_false, if_false, ensured, getObjProps_demand,
    bind, Except.bind]
  obtain ⟨record, after⟩ := table.demand objectId objectType
  cases record <;> rfl

theorem drmModeGetPlane_null {planeId : UInt32}
    (ensured : ensureObjProperties host.getDisplayCount dev.gObjProps = .ok table)
    (missing : (table.demand planeId drmModeObjectPlane).1 = none) :
    drmModeGetPlane host dev drmVirtualFd planeId = .error .nullDeref := by
  simp only [drmModeGetPlane, checkFd, ne_eq, not_true_eq_false, if_false, ensured, getObjProps_demand, bind,
    Except.bind, missing]
  rfl

def planeOf (planeId : UInt32) (record : ObjProps) : Plane :=
  { planeId, possibleCrtcs := 1 <<< (planeId - 1), gammaSize := 256, crtcId := planeId,
    fbId := ((record.props.get PropId.fbId).getD 0).toUInt32, countFormats := 2,
    formats := [drmFormatXrgb8888, drmFormatArgb8888] }

theorem drmModeGetPlane_eq {planeId : UInt32} {record : ObjProps}
    (ensured : ensureObjProperties host.getDisplayCount dev.gObjProps = .ok table)
    (found : (table.demand planeId drmModeObjectPlane).1 = some record) :
    drmModeGetPlane host dev drmVirtualFd planeId =
      .ok (if 1 ≤ planeId.toNat ∧ planeId.toNat ≤ host.getDisplayCount then .ok (planeOf planeId record)
          else .error .ENOENT,
        dev.withTable (table.demand planeId drmModeObjectPlane).2) := by
  simp only [drmModeGetPlane, checkFd, ne_eq, not_true_eq_false, if_false, ensured, getObjProps_demand, bind,
    Except.bind, found, getObjProp_some]
  split <;> rfl

/-- The device after an object query: as before if the descriptor is wrong,
else with the object's record in its table. -/
def Demanded (host : Host) (dev : Device) (fd : Int) (objectId objectType : UInt32) (after : Device) : Prop :=
  fd ≠ drmVirtualFd ∧ after = dev ∨
    ∃ table, fd = drmVirtualFd ∧ ensureObjProperties host.getDisplayCount dev.gObjProps = .ok table ∧
      after = dev.withTable (table.demand objectId objectType).2

theorem drmModeObjectGetProperties_ok {fd : Int} {objectId objectType : UInt32}
    {ret : Except Errno ObjectProperties} {after : Device}
    (done : drmModeObjectGetProperties host dev fd objectId objectType = .ok (ret, after)) :
    Demanded host dev fd objectId objectType after := by
  by_cases valid : fd = drmVirtualFd
  · subst valid
    cases ensured : ensureObjProperties host.getDisplayCount dev.gObjProps with
    | error fault =>
        simp [drmModeObjectGetProperties, checkFd, ensured, bind, Except.bind] at done
    | ok table =>
        rw [drmModeObjectGetProperties_eq objectId objectType ensured, Except.ok.injEq, Prod.mk.injEq] at done
        exact .inr ⟨table, rfl, ensured, done.2.symm⟩
  · have refused : checkFd fd = .error .EBADF := by simp [checkFd, valid]
    simp only [drmModeObjectGetProperties, refused, pure, Except.pure, Except.ok.injEq, Prod.mk.injEq] at done
    exact .inl ⟨valid, done.2.symm⟩

theorem drmModeObjectGetProperties_reported {objectId objectType : UInt32} {p : ObjectProperties} {after : Device}
    (done : drmModeObjectGetProperties host dev drmVirtualFd objectId objectType = .ok (.ok p, after)) :
    ∃ record : ObjProps, p = record.reported := by
  cases ensured : ensureObjProperties host.getDisplayCount dev.gObjProps with
  | error fault => simp [drmModeObjectGetProperties, checkFd, ensured, bind, Except.bind] at done
  | ok table =>
      rw [drmModeObjectGetProperties_eq objectId objectType ensured, Except.ok.injEq, Prod.mk.injEq] at done
      cases demanded : (table.demand objectId objectType).1 with
      | none => simp [demanded] at done
      | some record =>
          simp only [demanded, Except.ok.injEq] at done
          exact ⟨record, done.1.symm⟩

theorem drmModeGetPlane_reported {planeId : UInt32} {p : Plane} {after : Device}
    (done : drmModeGetPlane host dev drmVirtualFd planeId = .ok (.ok p, after)) :
    ∃ record : ObjProps, p = planeOf planeId record := by
  cases ensured : ensureObjProperties host.getDisplayCount dev.gObjProps with
  | error fault => simp [drmModeGetPlane, checkFd, ensured, bind, Except.bind] at done
  | ok table =>
      cases demanded : (table.demand planeId drmModeObjectPlane).1 with
      | none => simp [drmModeGetPlane_null ensured demanded] at done
      | some record =>
          rw [drmModeGetPlane_eq ensured demanded, Except.ok.injEq, Prod.mk.injEq] at done
          have reported := done.1
          split at reported
          · exact ⟨record, (Except.ok.inj reported).symm⟩
          · contradiction

theorem drmModeGetPlane_ok {fd : Int} {planeId : UInt32} {ret : Except Errno Plane} {after : Device}
    (done : drmModeGetPlane host dev fd planeId = .ok (ret, after)) :
    Demanded host dev fd planeId drmModeObjectPlane after := by
  by_cases valid : fd = drmVirtualFd
  · subst valid
    cases ensured : ensureObjProperties host.getDisplayCount dev.gObjProps with
    | error fault => simp [drmModeGetPlane, checkFd, ensured, bind, Except.bind] at done
    | ok table =>
        cases found : (table.demand planeId drmModeObjectPlane).1 with
        | none =>
            rw [drmModeGetPlane_null ensured found] at done
            contradiction
        | some record =>
            rw [drmModeGetPlane_eq ensured found, Except.ok.injEq, Prod.mk.injEq] at done
            exact .inr ⟨table, rfl, ensured, done.2.symm⟩
  · have refused : checkFd fd = .error .EBADF := by simp [checkFd, valid]
    simp only [drmModeGetPlane, refused, pure, Except.pure, Except.ok.injEq, Prod.mk.injEq] at done
    exact .inl ⟨valid, done.2.symm⟩

end Iland.Drm

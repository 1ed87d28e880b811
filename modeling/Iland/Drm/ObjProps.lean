import Iland.Basic
import Iland.Data.Store
import Iland.Drm.Properties

namespace Iland.Drm

open Iland.Data

/-! The object-property store `g_obj_props`. -/

def drmModeObjectCrtc : UInt32 := 0xCCCCCCCC
def drmModeObjectConnector : UInt32 := 0xC0C0C0C0
def drmModeObjectPlane : UInt32 := 0xEEEEEEEE

def maxPropsPerObj : ℕ := 16

def maxObjProps : ℕ := 16

abbrev PropStore := Store UInt32 UInt64 maxPropsPerObj

structure ObjProps where
  objId : UInt32
  objType : UInt32
  props : PropStore

def ObjProps.key (record : ObjProps) : UInt32 × UInt32 := (record.objId, record.objType)

def ObjProps.withProps (record : ObjProps) (props : PropStore) : ObjProps :=
  { record with props := props }

@[simp] theorem ObjProps.key_withProps (record : ObjProps) (props : PropStore) :
    (record.withProps props).key = record.key := rfl

abbrev ObjTable := KeyedTable ObjProps.key maxObjProps

def ObjTable.setProps (table : ObjTable) (p : ObjProps → Bool) (props : PropStore) : ObjTable :=
  table.modify p (fun record => record.withProps props) (fun record => record.key_withProps props)

@[simp] theorem ObjTable.entries_setProps (table : ObjTable) (p : ObjProps → Bool) (props : PropStore) :
    (table.setProps p props).entries = modifyFirst p (fun record => record.withProps props) table.entries :=
  rfl

@[simp] theorem ObjTable.keys_setProps (table : ObjTable) (p : ObjProps → Bool) (props : PropStore) :
    (table.setProps p props).keys = table.keys :=
  KeyedTable.keys_modify _ _ _ _

/-- `get_obj_props`: the record of an object, created if it is missing; NULL
when it is missing and the table is full. -/
def getObjProps (table : ObjTable) (objId objType : UInt32) : Except Fault (Option ObjProps × ObjTable) := do
  match ← scan .gObjProps (fun record => record.objId == objId && record.objType == objType) table.entries with
  | some record => return (some record, table)
  | none =>
      if table.entries.length ≥ maxObjProps then return (none, table)
      checkIndex .gObjProps table.entries.length
      let record := { objId, objType, props := .empty }
      return (some record, table.insertNew record)

def setObjProp (props : PropStore) (propId : UInt32) (val : UInt64) : Except Fault PropStore := do
  match ← scan .propArrays (fun pair => pair.1 == propId) props.entries with
  | some _ => return props.assign propId val
  | none =>
      if props.entries.length ≥ maxPropsPerObj then return props
      checkIndex .propArrays props.entries.length
      return props.assign propId val

def getObjProp (record : Option ObjProps) (propId : UInt32) : Except Fault UInt64 := do
  match record with
  | none => throw .nullDeref
  | some record =>
      match ← scan .propArrays (fun pair => pair.1 == propId) record.props.entries with
      | some pair => return pair.2
      | none => return 0

/-- Find or create a record and, if it has no property yet, set its defaults. -/
def ensureRecord (objId objType : UInt32) (defaults : List (UInt32 × UInt64)) (table : ObjTable) :
    Except Fault ObjTable := do
  match ← getObjProps table objId objType with
  | (none, _) => throw .nullDeref
  | (some record, table) =>
      if record.props.entries.length = 0 then
        let props ← defaults.foldlM (fun props (write : UInt32 × UInt64) => setObjProp props write.1 write.2) record.props
        return table.setProps (fun other => decide (other.key = (objId, objType))) props
      return table

def crtcDefaults : List (UInt32 × UInt64) := [(PropId.active, 1), (PropId.modeId, 0)]

def connectorDefaults : List (UInt32 × UInt64) := [(PropId.dpms, 0), (PropId.crtcId, 0)]

/-- The defaults of plane `pid`, which is bound to the CRTC of the same id. -/
def planeDefaults (pid : UInt32) : List (UInt32 × UInt64) :=
  [(PropId.type, drmPlaneTypePrimary), (PropId.fbId, 0), (PropId.crtcId, pid.toUInt64),
    (PropId.crtcX, 0), (PropId.crtcY, 0), (PropId.crtcW, 0), (PropId.crtcH, 0),
    (PropId.srcX, 0), (PropId.srcY, 0), (PropId.srcW, 0), (PropId.srcH, 0)]

def objectIds (n : ℕ) : List UInt32 := (List.range n).map (fun i => UInt32.ofNat (i + 1))

def ensureObjProperties (n : ℕ) (table : ObjTable) : Except Fault ObjTable := do
  let table ← (objectIds n).foldlM (fun table id => do
    let table ← ensureRecord id drmModeObjectCrtc crtcDefaults table
    ensureRecord id drmModeObjectConnector connectorDefaults table) table
  (objectIds n).foldlM (fun table id => ensureRecord id drmModeObjectPlane (planeDefaults id) table) table

theorem length_objectIds (n : ℕ) : (objectIds n).length = n := by simp [objectIds]

theorem getObjProps_eq (table : ObjTable) (objId objType : UInt32) :
    getObjProps table objId objType = .ok (match table.lookup (objId, objType) with
      | some record => (some record, table)
      | none =>
          if table.full then (none, table)
          else (some ⟨objId, objType, .empty⟩, table.insertNew ⟨objId, objType, .empty⟩)) := by
  have sameTest : (fun record : ObjProps => record.objId == objId && record.objType == objType) =
      fun record => decide (record.key = (objId, objType)) := by
    funext record
    simp [ObjProps.key, Bool.decide_and, Bool.beq_eq_decide_eq]
  simp only [getObjProps, scan_eq .gObjProps table.bound, sameTest, bind, Except.bind,
    KeyedTable.lookup]
  cases table.entries.find? (fun record => decide (record.key = (objId, objType))) with
  | some record => rfl
  | none =>
      by_cases noRoom : table.full
      · have filled : table.entries.length ≥ maxObjProps := noRoom
        simp [filled, noRoom, pure, Except.pure]
      · have room : ¬ table.entries.length ≥ maxObjProps := noRoom
        have inside : table.entries.length < CArray.gObjProps.size := not_le.mp room
        simp [room, noRoom, checkIndex_nat inside, pure, Except.pure]

theorem setObjProp_eq (props : PropStore) (propId : UInt32) (val : UInt64) :
    setObjProp props propId val = .ok (props.assign propId val) := by
  simp only [setObjProp, scan_eq .propArrays props.bound, bind, Except.bind]
  cases found : props.entries.find? (fun pair => pair.1 == propId) with
  | some pair => rfl
  | none =>
      have absent : propId ∉ props.keys := by
        intro present
        obtain ⟨pair, member, same⟩ := List.mem_map.mp present
        simpa [same] using List.find?_eq_none.mp found pair member
      by_cases noRoom : props.full
      · have filled : props.entries.length ≥ maxPropsPerObj := noRoom
        simp [filled, props.assign_dropped absent noRoom, pure, Except.pure]
      · have room : ¬ props.entries.length ≥ maxPropsPerObj := noRoom
        have inside : props.entries.length < CArray.propArrays.size := not_le.mp room
        simp [room, checkIndex_nat inside, pure, Except.pure]

theorem setObjProps_eq (props : PropStore) (writes : List (UInt32 × UInt64)) :
    writes.foldlM (fun props (write : UInt32 × UInt64) => setObjProp props write.1 write.2) props =
      .ok (props.assignAll writes) := by
  induction writes generalizing props with
  | nil => rfl
  | cons write rest ih =>
      rw [List.foldlM_cons, setObjProp_eq]
      exact ih _

theorem getObjProp_some (record : ObjProps) (propId : UInt32) :
    getObjProp (some record) propId = .ok ((record.props.get propId).getD 0) := by
  have sameTest : (fun pair : UInt32 × UInt64 => pair.1 == propId) = fun pair => decide (pair.1 = propId) := by
    funext pair
    simp [Bool.beq_eq_decide_eq]
  simp only [getObjProp, scan_eq .propArrays record.props.bound, sameTest, bind, Except.bind,
    Store.get, KeyedTable.lookup]
  cases record.props.entries.find? (fun pair => decide (pair.1 = propId)) <;> rfl

end Iland.Drm

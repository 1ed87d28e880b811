import Iland.Drm.CommitLoop

namespace Iland.Drm

open Iland.Data

/-! The object-property store as the arrays that it is.

Nothing in these keeps two records or two properties apart: a lookup that fails
appends.  The tables of the other modules hold what the arrays hold.
-/

namespace ObjArrays

/-- The used part of `prop_ids` and `prop_vals`. -/
abbrev PropArrays := List (UInt32 × UInt64)

/-- `obj_props_t`. -/
structure ObjPropsT where
  objId : UInt32
  objType : UInt32
  props : PropArrays

def ObjPropsT.key (record : ObjPropsT) : UInt32 × UInt32 := (record.objId, record.objType)

/-- The used part of `g_obj_props`. -/
abbrev Objs := List ObjPropsT

/-- `get_obj_props`: the place of the record, if not NULL. -/
def getObjProps (objs : Objs) (objId objType : UInt32) : Option ℕ × Objs :=
  match objs.findIdx? (fun record => record.objId == objId && record.objType == objType) with
  | some i => (some i, objs)
  | none => if objs.length ≥ maxObjProps then (none, objs) else (some objs.length, objs ++ [⟨objId, objType, []⟩])

def setObjProp (props : PropArrays) (propId : UInt32) (val : UInt64) : PropArrays :=
  match props.findIdx? (fun pair => pair.1 == propId) with
  | some i => props.modify i fun pair => (pair.1, val)
  | none => if props.length ≥ maxPropsPerObj then props else props ++ [(propId, val)]

def getObjProp (props : PropArrays) (propId : UInt32) : UInt64 :=
  match props.find? (fun pair => pair.1 == propId) with
  | some pair => pair.2
  | none => 0

/-- `set_obj_prop` for the record at a place. -/
def setAt (objs : Objs) (i : ℕ) (propId : UInt32) (val : UInt64) : Objs :=
  objs.modify i fun record => { record with props := setObjProp record.props propId val }

def ensureRecord (objId objType : UInt32) (defaults : List (UInt32 × UInt64)) (objs : Objs) : Except Fault Objs :=
  match getObjProps objs objId objType with
  | (none, _) => .error .nullDeref
  | (some i, objs) =>
      if objs[i]?.map (fun record => record.props.length) = some 0 then
        .ok (defaults.foldl (fun objs write => setAt objs i write.1 write.2) objs)
      else .ok objs

def ensureObjProperties (n : ℕ) (objs : Objs) : Except Fault Objs := do
  let objs ← (objectIds n).foldlM (fun objs id => do
    let objs ← ensureRecord id drmModeObjectCrtc crtcDefaults objs
    ensureRecord id drmModeObjectConnector connectorDefaults objs) objs
  (objectIds n).foldlM (fun objs id => ensureRecord id drmModeObjectPlane (planeDefaults id) objs) objs

/-- What the loop of a commit does to the store for one of its triples. -/
def commitWrite (objs : Objs) (t : Triple) : Objs :=
  match objs.findIdx? (fun record => record.objId == t.objId) with
  | none => objs
  | some i => setAt objs i t.propId t.value

def ofRecord (record : ObjProps) : ObjPropsT := ⟨record.objId, record.objType, record.props.entries⟩

def ofTable (table : ObjTable) : Objs := table.entries.map ofRecord

/-! The operations on tables do this to the arrays. -/

variable {α β γ δ ε : Type}

theorem modifyFirst_eq (p : α → Bool) (f : α → α) (values : List α) :
    modifyFirst p f values = match values.findIdx? p with
      | none => values
      | some i => values.modify i f := by
  induction values with
  | nil => rfl
  | cons x rest ih =>
      rw [modifyFirst, List.findIdx?_cons, ih]
      cases p x with
      | true => rfl
      | false => cases rest.findIdx? p <;> simp

theorem map_modify_of {f : α → β} {g : α → α} {h : β → β} (values : List α) (i : ℕ)
    (same : ∀ x, values[i]? = some x → f (g x) = h (f x)) : (values.modify i g).map f = (values.map f).modify i h := by
  apply List.ext_getElem?
  intro j
  by_cases here : i = j
  · subst here
    cases found : values[i]? with
    | none => simp [found]
    | some x => simp [found, same x found]
  · simp [here]

theorem bind_map_of {f : α → Except ε γ} {g : β → Except ε δ} {φ : α → β} {ψ : γ → δ}
    (commutes : ∀ a, g (φ a) = (f a).map ψ) (result : Except ε α) :
    (result.map φ >>= g) = (result >>= f).map ψ := by
  cases result with
  | error reason => rfl
  | ok a => exact commutes a

theorem foldlM_map {f : α → γ → Except ε α} {g : β → γ → Except ε β} {φ : α → β}
    (commutes : ∀ a c, g (φ a) c = (f a c).map φ) (cs : List γ) (a : α) :
    cs.foldlM g (φ a) = (cs.foldlM f a).map φ := by
  induction cs generalizing a with
  | nil => rfl
  | cons c rest ih =>
      rw [List.foldlM_cons, List.foldlM_cons, commutes]
      exact bind_map_of ih _

theorem foldl_setAt (objs : Objs) (i : ℕ) (writes : List (UInt32 × UInt64)) :
    writes.foldl (fun objs write => setAt objs i write.1 write.2) objs =
      objs.modify i fun record =>
        { record with props := writes.foldl (fun props write => setObjProp props write.1 write.2) record.props } := by
  induction writes generalizing objs with
  | nil => exact (List.modify_id i objs).symm
  | cons write rest ih =>
      rw [List.foldl_cons, ih, setAt, List.modify_modify_eq]
      rfl

theorem setObjProp_entries (props : PropStore) (propId : UInt32) (val : UInt64) :
    setObjProp props.entries propId val = (props.assign propId val).entries := by
  have sameTest : (fun pair : UInt32 × UInt64 => pair.1 == propId) = fun pair => decide (pair.1 = propId) := by
    funext pair
    exact Bool.beq_eq_decide_eq _ _
  rw [setObjProp, sameTest]
  cases found : props.entries.findIdx? (fun pair => decide (pair.1 = propId)) with
  | some i =>
      have present : propId ∈ props.keys := by
        obtain ⟨inside, hit, _⟩ := List.findIdx?_eq_some_iff_getElem.mp found
        exact List.mem_map.mpr ⟨_, List.getElem_mem inside, of_decide_eq_true hit⟩
      rw [Store.assign, if_pos present, KeyedTable.entries_modify, modifyFirst_eq, found]
  | none =>
      have absent : propId ∉ props.keys := by
        intro present
        obtain ⟨pair, member, same⟩ := List.mem_map.mp present
        simpa [same] using List.findIdx?_eq_none_iff.mp found pair member
      by_cases noRoom : props.full
      · simp only [if_pos (show props.entries.length ≥ maxPropsPerObj from noRoom), props.assign_dropped absent noRoom]
      · simp only [if_neg (show ¬ props.entries.length ≥ maxPropsPerObj from noRoom),
          props.entries_assign_new absent noRoom]

theorem foldl_setObjProp_entries (props : PropStore) (writes : List (UInt32 × UInt64)) :
    writes.foldl (fun props write => setObjProp props write.1 write.2) props.entries =
      (props.assignAll writes).entries := by
  induction writes generalizing props with
  | nil => rfl
  | cons write rest ih => rw [List.foldl_cons, setObjProp_entries, ih, Store.assignAll_cons]

theorem getObjProp_ofRecord (record : ObjProps) (propId : UInt32) :
    Drm.getObjProp (some record) propId = .ok (getObjProp (ofRecord record).props propId) := by
  simp only [Drm.getObjProp, scan_eq .propArrays record.props.bound, bind, Except.bind, getObjProp, ofRecord]
  cases record.props.entries.find? (fun pair => pair.1 == propId) <;> rfl

theorem modify_append_last (values : List α) (x : α) (f : α → α) :
    (values ++ [x]).modify values.length f = values ++ [f x] := by
  induction values with
  | nil => rfl
  | cons first rest ih => simpa using ih

theorem findIdx?_ofTable (table : ObjTable) (objId objType : UInt32) :
    (ofTable table).findIdx? (fun record => record.objId == objId && record.objType == objType) =
      table.entries.findIdx? (fun record => decide (record.key = (objId, objType))) := by
  rw [ofTable, List.findIdx?_map]
  congr 1
  funext record
  rw [Bool.eq_iff_iff]
  simp [ofRecord, ObjProps.key]

theorem find?_of_findIdx? {p : α → Bool} {values : List α} {i : ℕ} (found : values.findIdx? p = some i) :
    ∃ x, values[i]? = some x ∧ values.find? p = some x ∧ p x = true := by
  obtain ⟨inside, hit, _⟩ := List.findIdx?_eq_some_iff_getElem.mp found
  refine ⟨values[i], List.getElem?_eq_getElem inside, ?_, hit⟩
  rw [List.find?_eq_bind_findIdx?_getElem?, found, Option.bind_some, List.getElem?_eq_getElem inside]

/-- The record at the place that is written gets the properties, as in the
table. -/
theorem ofTable_setProps {table : ObjTable} {p : ObjProps → Bool} {i : ℕ} {record : ObjProps}
    (found : table.entries.findIdx? p = some i) (here : table.entries[i]? = some record) (props : PropStore)
    {f : PropArrays → PropArrays} (same : f record.props.entries = props.entries) :
    ofTable (table.setProps p props) = (ofTable table).modify i fun other => { other with props := f other.props } := by
  rw [ofTable, ObjTable.entries_setProps, modifyFirst_eq, found]
  refine map_modify_of _ i fun other there => ?_
  obtain rfl : record = other := Option.some.inj (here.symm.trans there)
  simp only [ofRecord, ObjProps.withProps, same]

theorem find?_eq_none_of_findIdx? {p : α → Bool} {values : List α} (missing : values.findIdx? p = none) :
    values.find? p = none := by
  rw [List.find?_eq_bind_findIdx?_getElem?, missing, Option.bind_none]

theorem length_ofTable (table : ObjTable) : (ofTable table).length = table.entries.length := List.length_map ..

theorem getObjProps_ofTable (table : ObjTable) (objId objType : UInt32) :
    ∃ found after, Drm.getObjProps table objId objType = .ok (found, after) ∧
      (getObjProps (ofTable table) objId objType).2 = ofTable after ∧
      (getObjProps (ofTable table) objId objType).1.bind (fun i => (ofTable after)[i]?) = found.map ofRecord := by
  rw [getObjProps_eq, getObjProps, findIdx?_ofTable]
  cases found : table.entries.findIdx? (fun record => decide (record.key = (objId, objType))) with
  | some i =>
      obtain ⟨record, here, first, _⟩ := find?_of_findIdx? found
      have looked : table.lookup (objId, objType) = some record := first
      simp only [looked]
      exact ⟨_, _, rfl, rfl, by simp [ofTable, here]⟩
  | none =>
      have missing : table.lookup (objId, objType) = none := find?_eq_none_of_findIdx? found
      simp only [missing, length_ofTable]
      by_cases noRoom : table.full
      · rw [if_pos noRoom, if_pos (show table.entries.length ≥ maxObjProps from noRoom)]
        exact ⟨_, _, rfl, rfl, rfl⟩
      · have appended := KeyedTable.entries_insertNew (x := ⟨objId, objType, .empty⟩)
          (KeyedTable.lookup_eq_none_iff.mp missing) noRoom
        rw [if_neg noRoom, if_neg (show ¬ table.entries.length ≥ maxObjProps from noRoom)]
        refine ⟨_, _, rfl, by simp [ofTable, appended, ofRecord], by simp [ofTable, appended]⟩

theorem ensureRecord_ofTable (objId objType : UInt32) (defaults : List (UInt32 × UInt64)) (table : ObjTable) :
    ensureRecord objId objType defaults (ofTable table) =
      (Drm.ensureRecord objId objType defaults table).map ofTable := by
  rw [ensureRecord, getObjProps, findIdx?_ofTable, Drm.ensureRecord, getObjProps_eq]
  cases found : table.entries.findIdx? (fun record => decide (record.key = (objId, objType))) with
  | some i =>
      obtain ⟨record, here, first, _⟩ := find?_of_findIdx? found
      have looked : table.lookup (objId, objType) = some record := first
      have place : (ofTable table)[i]? = some (ofRecord record) := by
        rw [ofTable, List.getElem?_map, here, Option.map_some]
      simp only [looked, place, bind, Except.bind, Option.map_some, Option.some.injEq]
      by_cases empty : record.props.entries.length = 0
      · rw [if_pos (show (ofRecord record).props.length = 0 from empty), if_pos empty, setObjProps_eq, foldl_setAt]
        exact congrArg Except.ok
          (ofTable_setProps (f := defaults.foldl fun props write => setObjProp props write.1 write.2) found here _
            (foldl_setObjProp_entries record.props defaults)).symm
      · rw [if_neg (show ¬ (ofRecord record).props.length = 0 from empty), if_neg empty]
        rfl
  | none =>
      have absent := find?_eq_none_of_findIdx? found
      have missing : table.lookup (objId, objType) = none := absent
      simp only [missing, length_ofTable]
      by_cases noRoom : table.full
      · rw [if_pos (show table.entries.length ≥ maxObjProps from noRoom), if_pos noRoom]
        rfl
      · have appended := KeyedTable.entries_insertNew (x := ⟨objId, objType, .empty⟩)
          (KeyedTable.lookup_eq_none_iff.mp missing) noRoom
        rw [if_neg (show ¬ table.entries.length ≥ maxObjProps from noRoom), if_neg noRoom]
        have last : (ofTable table ++ [⟨objId, objType, []⟩])[table.entries.length]? = some ⟨objId, objType, []⟩ := by
          rw [← length_ofTable, List.getElem?_concat_length]
        simp only [last, bind, Except.bind, Option.map_some, List.length_nil, if_true, KeyedTable.entries_empty,
          setObjProps_eq, foldl_setAt]
        refine congrArg Except.ok ?_
        rw [← length_ofTable, modify_append_last, ofTable, ofTable, ObjTable.entries_setProps, appended,
          modifyFirst_append_of_none absent, List.map_append]
        simp [modifyFirst, ObjProps.key, ofRecord, ObjProps.withProps,
          ← foldl_setObjProp_entries KeyedTable.empty defaults]

theorem ensureObjProperties_ofTable (n : ℕ) (table : ObjTable) :
    ensureObjProperties n (ofTable table) = (Drm.ensureObjProperties n table).map ofTable := by
  have pairs (table : ObjTable) (id : UInt32) :
      (do
        let objs ← ensureRecord id drmModeObjectCrtc crtcDefaults (ofTable table)
        ensureRecord id drmModeObjectConnector connectorDefaults objs) =
      (do
        let table ← Drm.ensureRecord id drmModeObjectCrtc crtcDefaults table
        Drm.ensureRecord id drmModeObjectConnector connectorDefaults table).map ofTable := by
    rw [ensureRecord_ofTable]
    exact bind_map_of (ensureRecord_ofTable id drmModeObjectConnector connectorDefaults) _
  have planes (table : ObjTable) :
      (objectIds n).foldlM (fun objs id => ensureRecord id drmModeObjectPlane (planeDefaults id) objs) (ofTable table) =
        ((objectIds n).foldlM (fun table id => Drm.ensureRecord id drmModeObjectPlane (planeDefaults id) table)
          table).map ofTable :=
    foldlM_map (fun table id => ensureRecord_ofTable id drmModeObjectPlane (planeDefaults id) table) _ _
  rw [ensureObjProperties, Drm.ensureObjProperties, foldlM_map pairs]
  exact bind_map_of planes _

theorem commitWrite_ofTable (table : ObjTable) (t : Triple) :
    commitWrite (ofTable table) t = ofTable (table.applyTriple t) := by
  have sameTest : (ofTable table).findIdx? (fun record => record.objId == t.objId) =
      table.entries.findIdx? (fun record => record.objId == t.objId) := by
    rw [ofTable, List.findIdx?_map]
    rfl
  rw [commitWrite, sameTest, ObjTable.applyTriple, ObjTable.first]
  cases found : table.entries.findIdx? (fun record => record.objId == t.objId) with
  | none => rw [find?_eq_none_of_findIdx? found]
  | some i =>
      obtain ⟨record, here, first, _⟩ := find?_of_findIdx? found
      rw [first]
      exact (ofTable_setProps (f := fun props => setObjProp props t.propId t.value) found here _
        (setObjProp_entries record.props t.propId t.value)).symm

/-! Reading after writing. -/

/-- `set_obj_prop` overwrites the first match or else appends. -/
theorem setObjProp_cases (props : PropArrays) (propId : UInt32) (val : UInt64) :
    (props.find? (fun pair => pair.1 == propId)).isSome ∧
        setObjProp props propId val = modifyFirst (fun pair => pair.1 == propId) (fun pair => (pair.1, val)) props ∨
      props.find? (fun pair => pair.1 == propId) = none ∧
        setObjProp props propId val = if props.length ≥ maxPropsPerObj then props else props ++ [(propId, val)] := by
  rw [setObjProp, modifyFirst_eq]
  cases found : props.findIdx? (fun pair => pair.1 == propId) with
  | some i =>
      obtain ⟨pair, _, first, _⟩ := find?_of_findIdx? found
      exact .inl ⟨by rw [first]; rfl, rfl⟩
  | none => exact .inr ⟨find?_eq_none_of_findIdx? found, rfl⟩

theorem getObjProp_setObjProp_self {props : PropArrays} {propId : UInt32} (val : UInt64)
    (accepted : propId ∈ props.map Prod.fst ∨ props.length < maxPropsPerObj) :
    getObjProp (setObjProp props propId val) propId = val := by
  rcases setObjProp_cases props propId val with ⟨present, writes⟩ | ⟨absent, writes⟩
  · obtain ⟨pair, found⟩ := Option.isSome_iff_exists.mp present
    have after := find?_modifyFirst (p := fun pair : UInt32 × UInt64 => pair.1 == propId)
      (f := fun pair => (pair.1, val)) (fun _ same => same) props
    rw [writes, getObjProp, after, found]
    rfl
  · have room : ¬ props.length ≥ maxPropsPerObj := by
      rcases accepted with present | room
      · obtain ⟨pair, member, same⟩ := List.mem_map.mp present
        simpa [same] using List.find?_eq_none.mp absent pair member
      · exact Nat.not_le.mpr room
    rw [writes, if_neg room, getObjProp, List.find?_append, absent]
    simp

theorem getObjProp_setObjProp_other (props : PropArrays) {propId other : UInt32} (val : UInt64)
    (different : other ≠ propId) : getObjProp (setObjProp props propId val) other = getObjProp props other := by
  rcases setObjProp_cases props propId val with ⟨_, writes⟩ | ⟨_, writes⟩
  · rw [writes, getObjProp, getObjProp, find?_modifyFirst_of_miss]
    intro pair first
    have own : pair.1 = propId := by simpa using List.find?_some first
    simp [own, different.symm]
  · rw [writes]
    split
    · rfl
    · rw [getObjProp, getObjProp, List.find?_append]
      simp [different.symm]

/-- Records and their properties are told apart by their keys, and what is
written is read again and changes nothing else. -/
structure Lawful (objs : Objs) : Prop where
  records : (objs.map ObjPropsT.key).Nodup
  props : ∀ record ∈ objs, (record.props.map Prod.fst).Nodup
  written : ∀ i record, objs[i]? = some record → ∀ propId val,
    propId ∈ record.props.map Prod.fst ∨ record.props.length < maxPropsPerObj →
      ∃ after, (setAt objs i propId val)[i]? = some after ∧ after.key = record.key ∧
        getObjProp after.props propId = val ∧
        ∀ other, other ≠ propId → getObjProp after.props other = getObjProp record.props other
  others : ∀ i j propId val, i ≠ j → (setAt objs i propId val)[j]? = objs[j]?

theorem lawful_ofTable (table : ObjTable) : Lawful (ofTable table) := by
  refine ⟨?_, fun record member => ?_, fun i record found propId val accepted => ?_, fun i j propId val different => ?_⟩
  · have keys : (ofTable table).map ObjPropsT.key = table.keys := by
      rw [ofTable, List.map_map]
      rfl
    rw [keys]
    exact table.distinct
  · obtain ⟨stored, _, rfl⟩ := List.mem_map.mp member
    exact stored.props.distinct
  · refine ⟨{ record with props := setObjProp record.props propId val }, ?_, rfl,
      getObjProp_setObjProp_self val accepted, fun other different => getObjProp_setObjProp_other _ val different⟩
    rw [setAt, List.getElem?_modify_eq, found]
    rfl
  · rw [setAt, List.getElem?_modify_ne _ _ different]

end ObjArrays

end Iland.Drm

import Iland.Drm.ObjProps
import Iland.Host

namespace Iland.Drm

open Iland.Data

/-! What `ensure_obj_properties` establishes and finds again. -/

/-- A record that `ensure_obj_properties` looks for, with the properties it
gives to an empty one. -/
structure DefaultRecord where
  objId : UInt32
  objType : UInt32
  defaults : List (UInt32 × UInt64)

namespace DefaultRecord

def key (wanted : DefaultRecord) : UInt32 × UInt32 := (wanted.objId, wanted.objType)

def record (wanted : DefaultRecord) : ObjProps :=
  ⟨wanted.objId, wanted.objType, Store.assignAll .empty wanted.defaults⟩

def ensure (wanted : DefaultRecord) (table : ObjTable) : Except Fault ObjTable :=
  ensureRecord wanted.objId wanted.objType wanted.defaults table

def Present (wanted : DefaultRecord) (table : ObjTable) : Prop :=
  ∃ found, table.lookup wanted.key = some found ∧
    ∀ propId ∈ wanted.defaults.map Prod.fst, propId ∈ found.props.keys

theorem ensure_present {wanted : DefaultRecord} {table : ObjTable} (present : wanted.Present table)
    (some : wanted.defaults ≠ []) : wanted.ensure table = .ok table := by
  obtain ⟨found, hit, covered⟩ := present
  have nonempty : found.props.entries ≠ [] := by
    obtain ⟨write, member⟩ := List.exists_mem_of_ne_nil _ some
    have key := covered write.1 (List.mem_map_of_mem member)
    intro empty
    simp [KeyedTable.keys, empty] at key
  rw [ensure, ensureRecord, getObjProps_eq, show (wanted.objId, wanted.objType) = wanted.key from rfl, hit]
  simp [bind, Except.bind, nonempty, pure, Except.pure]

theorem ensure_absent {wanted : DefaultRecord} {table : ObjTable}
    (absent : wanted.key ∉ table.keys) (room : ¬ table.full) :
    ∃ after, wanted.ensure table = .ok after ∧
      after.entries = table.entries ++ [wanted.record] := by
  have missing : table.lookup (wanted.objId, wanted.objType) = none :=
    KeyedTable.lookup_eq_none_iff.mpr absent
  have appended := KeyedTable.entries_insertNew (x := ⟨wanted.objId, wanted.objType, .empty⟩) absent room
  refine ⟨ObjTable.setProps (table.insertNew ⟨wanted.objId, wanted.objType, .empty⟩)
      (fun other => decide (other.key = wanted.key)) wanted.record.props, ?_, ?_⟩
  · simp only [ensure, ensureRecord, getObjProps_eq, missing, room, if_false, bind, Except.bind,
      KeyedTable.entries_empty, List.length_nil, if_true, setObjProps_eq]
    rfl
  · have unmatched : table.entries.find? (fun other => decide (other.key = wanted.key)) = none := missing
    rw [ObjTable.entries_setProps, appended, modifyFirst_append_of_none unmatched]
    simp [modifyFirst, ObjProps.withProps, ObjProps.key, key, record]

theorem ensure_full {wanted : DefaultRecord} {table : ObjTable}
    (absent : wanted.key ∉ table.keys) (noRoom : table.full) :
    wanted.ensure table = .error .nullDeref := by
  have missing : table.lookup (wanted.objId, wanted.objType) = none :=
    KeyedTable.lookup_eq_none_iff.mpr absent
  simp only [ensure, ensureRecord, getObjProps_eq, missing, noRoom, if_true, bind, Except.bind]
  rfl

theorem ensureAll_absent {wanted : List DefaultRecord} {table : ObjTable}
    (distinct : (table.keys ++ wanted.map key).Nodup)
    (room : table.entries.length + wanted.length ≤ maxObjProps) :
    ∃ after, wanted.foldlM (fun table record => ensure record table) table = .ok after ∧
      after.entries = table.entries ++ wanted.map record := by
  induction wanted generalizing table with
  | nil => exact ⟨table, rfl, by simp⟩
  | cons first rest ih =>
      simp only [List.length_cons] at room
      have free : ¬ table.full := by simp only [KeyedTable.full]; omega
      have absent : first.key ∉ table.keys := by
        intro member
        have apart := (List.nodup_append.mp distinct).2.2
        exact apart _ member _ (by simp) rfl
      obtain ⟨middle, created, entries⟩ := ensure_absent absent free
      have keys : middle.keys = table.keys ++ [first.key] := by
        simp [KeyedTable.keys, entries, record, ObjProps.key, key]
      have roomLeft : middle.entries.length + rest.length ≤ maxObjProps := by
        simp only [entries, List.length_append, List.length_singleton]
        omega
      obtain ⟨after, remaining, final⟩ := ih (by simpa [keys] using distinct) roomLeft
      exact ⟨after, by rw [List.foldlM_cons, created]; exact remaining, by simp [final, entries]⟩

theorem ensureAll_overflow {wanted : List DefaultRecord} {table : ObjTable}
    (distinct : (table.keys ++ wanted.map key).Nodup)
    (tooMany : maxObjProps < table.entries.length + wanted.length) :
    wanted.foldlM (fun table record => ensure record table) table = .error .nullDeref := by
  induction wanted generalizing table with
  | nil =>
      have bound := table.bound
      simp only [List.length_nil] at tooMany
      omega
  | cons first rest ih =>
      simp only [List.length_cons] at tooMany
      have absent : first.key ∉ table.keys := by
        intro member
        have apart := (List.nodup_append.mp distinct).2.2
        exact apart _ member _ (by simp) rfl
      by_cases noRoom : table.full
      · rw [List.foldlM_cons, ensure_full absent noRoom]
        rfl
      · obtain ⟨middle, created, entries⟩ := ensure_absent absent noRoom
        have keys : middle.keys = table.keys ++ [first.key] := by
          simp [KeyedTable.keys, entries, record, ObjProps.key, key]
        rw [List.foldlM_cons, created]
        exact ih (by simpa [keys] using distinct)
          (by simp only [entries, List.length_append, List.length_singleton]; omega)

theorem ensureAll_present {wanted : List DefaultRecord} {table : ObjTable}
    (present : ∀ record ∈ wanted, record.Present table) (some : ∀ record ∈ wanted, record.defaults ≠ []) :
    wanted.foldlM (fun table record => ensure record table) table = .ok table := by
  induction wanted with
  | nil => rfl
  | cons first rest ih =>
      rw [List.foldlM_cons, ensure_present (present first List.mem_cons_self) (some first List.mem_cons_self)]
      exact ih (fun record member => present record (List.mem_cons_of_mem _ member))
        (fun record member => some record (List.mem_cons_of_mem _ member))

end DefaultRecord

def crtcRecord (id : UInt32) : DefaultRecord := ⟨id, drmModeObjectCrtc, crtcDefaults⟩

def connectorRecord (id : UInt32) : DefaultRecord := ⟨id, drmModeObjectConnector, connectorDefaults⟩

def planeRecord (id : UInt32) : DefaultRecord := ⟨id, drmModeObjectPlane, planeDefaults id⟩

/-- The records of `n` displays in the order they are created: CRTC and
connector in turn, then the planes. -/
def defaultRecords (n : ℕ) : List DefaultRecord :=
  (objectIds n).flatMap (fun id => [crtcRecord id, connectorRecord id]) ++ (objectIds n).map planeRecord

theorem ensureObjProperties_eq (n : ℕ) (table : ObjTable) :
    ensureObjProperties n table =
      (defaultRecords n).foldlM (fun table record => record.ensure table) table := by
  have pairs (ids : List UInt32) (table : ObjTable) :
      (ids.flatMap (fun id => [crtcRecord id, connectorRecord id])).foldlM
          (fun table record => record.ensure table) table =
        ids.foldlM (fun table id => do
          let table ← ensureRecord id drmModeObjectCrtc crtcDefaults table
          ensureRecord id drmModeObjectConnector connectorDefaults table) table := by
    induction ids generalizing table with
    | nil => rfl
    | cons id rest ih =>
        simp only [List.flatMap_cons, List.foldlM_append, List.foldlM_cons, List.foldlM_nil, bind_pure]
        simp only [ih]
        rfl
  have planes (ids : List UInt32) (table : ObjTable) :
      (ids.map planeRecord).foldlM (fun table record => record.ensure table) table =
        ids.foldlM (fun table id => ensureRecord id drmModeObjectPlane (planeDefaults id) table) table := by
    induction ids generalizing table with
    | nil => rfl
    | cons id rest ih =>
        simp only [List.map_cons, List.foldlM_cons, ih]
        rfl
  simp only [defaultRecords, List.foldlM_append, pairs, planes]
  rfl

theorem length_defaultRecords (n : ℕ) : (defaultRecords n).length = 3 * n := by
  simp [defaultRecords, objectIds, List.length_flatMap, Function.comp_def]
  omega

theorem defaultRecords_distinct {n : ℕ} (few : n ≤ maxCrtcs) :
    ((defaultRecords n).map DefaultRecord.key).Nodup := by
  simp only [maxCrtcs] at few
  interval_cases n <;> decide

theorem defaultRecords_nonempty {n : ℕ} {wanted : DefaultRecord} (member : wanted ∈ defaultRecords n) :
    wanted.defaults ≠ [] := by
  simp only [defaultRecords, List.mem_append, List.mem_flatMap, List.mem_map, List.mem_cons,
    List.not_mem_nil, or_false] at member
  rcases member with ⟨id, _, rfl | rfl⟩ | ⟨id, _, rfl⟩ <;> exact List.cons_ne_nil _ _

theorem defaultRecords_fit {n : ℕ} {wanted : DefaultRecord} (member : wanted ∈ defaultRecords n) :
    (wanted.defaults.map Prod.fst).length ≤ maxPropsPerObj := by
  simp only [defaultRecords, List.mem_append, List.mem_flatMap, List.mem_map, List.mem_cons,
    List.not_mem_nil, or_false] at member
  rcases member with ⟨id, _, rfl | rfl⟩ | ⟨id, _, rfl⟩ <;>
    simp [crtcRecord, connectorRecord, planeRecord, crtcDefaults, connectorDefaults, planeDefaults, maxPropsPerObj]

theorem find?_defaultRecords {n : ℕ} {id : UInt32} (member : id ∈ objectIds n) :
    ((defaultRecords n).map DefaultRecord.key).find? (fun key => key.1 == id) = some (id, drmModeObjectCrtc) := by
  have pairs (ids : List UInt32) (present : id ∈ ids) :
      ((ids.flatMap (fun id => [crtcRecord id, connectorRecord id])).map DefaultRecord.key).find?
        (fun key => key.1 == id) = some (id, drmModeObjectCrtc) := by
    induction ids with
    | nil => simp at present
    | cons first rest ih =>
        by_cases same : first = id
        · simp [same, crtcRecord, DefaultRecord.key]
        · have later := ih ((List.mem_cons.mp present).resolve_left (Ne.symm same))
          simpa [same, crtcRecord, connectorRecord, DefaultRecord.key] using later
  rw [defaultRecords, List.map_append, List.find?_append, pairs _ member, Option.some_or]

def ObjTable.first (table : ObjTable) (objId : UInt32) : Option ObjProps :=
  table.entries.find? (fun record => record.objId == objId)

/-- `after` has the records of `before`, in order and with at least their
properties. -/
structure Grows (before after : ObjTable) : Prop where
  keys : before.keys <+: after.keys
  props : ∀ key old, before.lookup key = some old →
    ∃ new, after.lookup key = some new ∧ old.props.keys ⊆ new.props.keys

theorem Grows.refl (table : ObjTable) : Grows table table :=
  ⟨List.prefix_rfl, fun _ old found => ⟨old, found, List.Subset.refl _⟩⟩

theorem Grows.trans {first second third : ObjTable} (left : Grows first second)
    (right : Grows second third) : Grows first third := by
  refine ⟨left.keys.trans right.keys, ?_⟩
  intro key old found
  obtain ⟨middle, later, some⟩ := left.props key old found
  obtain ⟨new, last, all⟩ := right.props key middle later
  exact ⟨new, last, List.Subset.trans some all⟩

theorem Grows.insertNew (table : ObjTable) (record : ObjProps) : Grows table (table.insertNew record) := by
  by_cases fresh : record.key ∉ table.keys ∧ ¬ table.full
  · have entries := KeyedTable.entries_insertNew fresh.1 fresh.2
    refine ⟨?_, ?_⟩
    · simp only [KeyedTable.keys, entries, List.map_append]
      exact List.prefix_append _ _
    · intro key old found
      refine ⟨old, ?_, List.Subset.refl _⟩
      simp only [KeyedTable.lookup] at found ⊢
      simp [entries, List.find?_append, found]
  · have same : table.insertNew record = table := dif_neg fresh
    rw [same]
    exact .refl table

theorem Grows.setProps {table : ObjTable} {objId : UInt32} {record : ObjProps} {props : PropStore}
    (hit : table.first objId = some record) (more : record.props.keys ⊆ props.keys) :
    Grows table (table.setProps (fun other => other.objId == objId) props) := by
  refine ⟨by rw [ObjTable.keys_setProps], ?_⟩
  intro key old found
  by_cases same : record.key = key
  · refine ⟨record.withProps props, ?_, ?_⟩
    · subst same
      have member : record.withProps props ∈
          (table.setProps (fun other => other.objId == objId) props).entries := by
        have modified := find?_modifyFirst (p := fun other : ObjProps => other.objId == objId)
          (f := fun other => other.withProps props) (fun _ keeps => keeps) table.entries
        rw [show table.entries.find? (fun other => other.objId == objId) = some record from hit] at modified
        exact List.mem_of_find?_eq_some modified
      exact KeyedTable.lookup_of_mem member
    · have unique := table.lookup_of_mem (List.mem_of_find?_eq_some hit)
      rw [same, found] at unique
      cases unique
      exact more
  · refine ⟨old, ?_, List.Subset.refl _⟩
    simp only [KeyedTable.lookup, ObjTable.entries_setProps]
    rw [find?_modifyFirst_of_miss]
    · exact found
    · intro other first
      have sameRecord : some record = some other := hit.symm.trans first
      cases sameRecord
      exact ⟨by simp [same], by simp [same]⟩

/-- What `ensure_obj_properties` establishes: the default records come first,
and each still has its properties. -/
structure Ensured (n : ℕ) (table : ObjTable) : Prop where
  keys : (defaultRecords n).map DefaultRecord.key <+: table.keys
  present : ∀ wanted ∈ defaultRecords n, wanted.Present table

theorem Ensured.grows {n : ℕ} {before after : ObjTable} (ensured : Ensured n before)
    (grows : Grows before after) : Ensured n after := by
  refine ⟨ensured.keys.trans grows.keys, ?_⟩
  intro wanted member
  obtain ⟨old, found, covered⟩ := ensured.present wanted member
  obtain ⟨new, later, more⟩ := grows.props _ old found
  exact ⟨new, later, fun propId default => more (covered propId default)⟩

theorem Ensured.fits {n : ℕ} {table : ObjTable} (ensured : Ensured n table) : 3 * n ≤ maxObjProps := by
  have shorter := ensured.keys.length_le
  have bound := table.bound
  simp only [List.length_map, length_defaultRecords, KeyedTable.keys] at shorter
  omega

theorem Ensured.ensure {n : ℕ} {table : ObjTable} (ensured : Ensured n table) :
    ensureObjProperties n table = .ok table := by
  rw [ensureObjProperties_eq]
  exact DefaultRecord.ensureAll_present ensured.present (fun _ member => defaultRecords_nonempty member)

theorem ensure_empty {n : ℕ} (fits : 3 * n ≤ maxObjProps) :
    ∃ after, ensureObjProperties n .empty = .ok after ∧
      after.entries = (defaultRecords n).map DefaultRecord.record ∧ Ensured n after := by
  have few : n ≤ maxCrtcs := by
    simp only [maxObjProps, maxCrtcs] at fits ⊢
    omega
  have room : (KeyedTable.empty : ObjTable).entries.length + (defaultRecords n).length ≤ maxObjProps := by
    simpa [length_defaultRecords] using fits
  obtain ⟨after, done, entries⟩ := DefaultRecord.ensureAll_absent
    (by simpa [KeyedTable.keys] using defaultRecords_distinct few) room
  simp only [KeyedTable.entries_empty, List.nil_append] at entries
  have keys : after.keys = (defaultRecords n).map DefaultRecord.key := by
    simp only [KeyedTable.keys, entries, List.map_map]
    rfl
  refine ⟨after, (ensureObjProperties_eq n _).trans done, entries, ⟨keys ▸ List.prefix_rfl, ?_⟩⟩
  intro wanted member
  have stored : wanted.record ∈ after.entries := entries ▸ List.mem_map_of_mem member
  refine ⟨wanted.record, after.lookup_of_mem stored, ?_⟩
  intro propId default
  change propId ∈ KeyedTable.keys (Store.assignAll .empty wanted.defaults)
  have fits' := defaultRecords_fit member
  rw [Store.keys_assignAll_of_fits _ (by simpa [KeyedTable.keys] using fits')]
  simpa [KeyedTable.keys, mem_freshKeys] using default

theorem ensure_overflow {n : ℕ} (few : n ≤ maxCrtcs) (tooMany : maxObjProps < 3 * n) :
    ensureObjProperties n .empty = .error .nullDeref := by
  rw [ensureObjProperties_eq]
  exact DefaultRecord.ensureAll_overflow (by simpa [KeyedTable.keys] using defaultRecords_distinct few)
    (by simpa [length_defaultRecords] using tooMany)

theorem Ensured.first_eq {n : ℕ} {table : ObjTable} (ensured : Ensured n table) {id : UInt32}
    (member : id ∈ objectIds n) : table.first id = table.lookup (id, drmModeObjectCrtc) := by
  have keyHit : table.keys.find? (fun key => key.1 == id) = some (id, drmModeObjectCrtc) := by
    obtain ⟨rest, split⟩ := ensured.keys
    rw [← split, List.find?_append, find?_defaultRecords member, Option.some_or]
  simp only [KeyedTable.keys, List.find?_map, Option.map_eq_some_iff] at keyHit
  obtain ⟨record, hit, key⟩ := keyHit
  have stored := table.lookup_of_mem (List.mem_of_find?_eq_some hit)
  rw [key] at stored
  exact hit.trans stored.symm

/-- What holds of the table between any two calls: nothing has used it yet, or
it has the default records. -/
def TableInv (n : ℕ) (table : ObjTable) : Prop := table = .empty ∨ Ensured n table

theorem TableInv.ensured {n : ℕ} {table after : ObjTable} (few : n ≤ maxCrtcs) (inv : TableInv n table)
    (done : ensureObjProperties n table = .ok after) : Ensured n after := by
  rcases inv with rfl | ensured
  · by_cases fits : 3 * n ≤ maxObjProps
    · obtain ⟨created, ensures, _, ensured⟩ := ensure_empty fits
      rw [ensures] at done
      cases done
      exact ensured
    · rw [ensure_overflow few (not_le.mp fits)] at done
      contradiction
  · rw [ensured.ensure] at done
    cases done
    exact ensured

theorem TableInv.ensure_fits {n : ℕ} {table : ObjTable} (inv : TableInv n table) (fits : 3 * n ≤ maxObjProps) :
    ∃ after, ensureObjProperties n table = .ok after ∧ Ensured n after := by
  rcases inv with rfl | ensured
  · obtain ⟨after, ensures, _, ensured⟩ := ensure_empty fits
    exact ⟨after, ensures, ensured⟩
  · exact ⟨table, ensured.ensure, ensured⟩

theorem TableInv.ensure_overflow {n : ℕ} {table : ObjTable} (few : n ≤ maxCrtcs) (inv : TableInv n table)
    (tooMany : maxObjProps < 3 * n) : table = .empty ∧ ensureObjProperties n table = .error .nullDeref := by
  rcases inv with rfl | ensured
  · exact ⟨rfl, Drm.ensure_overflow few tooMany⟩
  · exact absurd ensured.fits (not_le.mpr tooMany)

theorem mem_objectIds {n : ℕ} (few : n ≤ maxCrtcs) {id : UInt32} :
    id ∈ objectIds n ↔ 1 ≤ id.toNat ∧ id.toNat ≤ n := by
  simp only [objectIds, List.mem_map, List.mem_range, maxCrtcs] at few ⊢
  constructor
  · rintro ⟨i, inside, rfl⟩
    rw [UInt32.toNat_ofNat_of_lt' (by rw [UInt32.size]; omega)]
    omega
  · rintro ⟨positive, bound⟩
    refine ⟨id.toNat - 1, by omega, ?_⟩
    rw [Nat.sub_add_cancel positive, UInt32.ofNat_toNat]

theorem objId_of_mem_defaultRecords {n : ℕ} {wanted : DefaultRecord} (member : wanted ∈ defaultRecords n) :
    wanted.objId ∈ objectIds n := by
  simp only [defaultRecords, List.mem_append, List.mem_flatMap, List.mem_map, List.mem_cons, List.not_mem_nil,
    or_false] at member
  rcases member with ⟨id, known, rfl | rfl⟩ | ⟨id, known, rfl⟩ <;> exact known

theorem first_ensure {n : ℕ} {table after : ObjTable} (inv : TableInv n table) (few : n ≤ maxCrtcs)
    (done : ensureObjProperties n table = .ok after) {objId : UInt32} (unknown : objId ∉ objectIds n) :
    after.first objId = table.first objId := by
  rcases inv with rfl | ensured
  · by_cases fits : 3 * n ≤ maxObjProps
    · obtain ⟨created, ensures, entries, _⟩ := ensure_empty fits
      rw [ensures] at done
      cases done
      rw [ObjTable.first, entries, ObjTable.first, KeyedTable.entries_empty, List.find?_nil, List.find?_eq_none]
      intro record member same
      obtain ⟨wanted, default, rfl⟩ := List.mem_map.mp member
      simp only [DefaultRecord.record, beq_iff_eq] at same
      exact unknown (same ▸ objId_of_mem_defaultRecords default)
    · rw [Drm.ensure_overflow few (not_le.mp fits)] at done
      contradiction
  · rw [ensured.ensure] at done
    cases done
    rfl

end Iland.Drm

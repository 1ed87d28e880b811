import Iland.Data.KeyedTable

namespace Iland.Data

/-! Bounded key-value stores.

`assign` overwrites the value of a present key, appends a new key while there
is room, and drops the write otherwise.  The results below say what a whole
list of writes leaves behind.
-/

variable {κ : Type u} {ν : Type v} [DecidableEq κ]

def lastValue (k : κ) : List (κ × ν) → Option ν
  | [] => none
  | write :: rest => (lastValue k rest).or (if write.1 = k then some write.2 else none)

@[simp] theorem lastValue_nil (k : κ) : lastValue k ([] : List (κ × ν)) = none := rfl

theorem lastValue_append (k : κ) (first second : List (κ × ν)) :
    lastValue k (first ++ second) = (lastValue k second).or (lastValue k first) := by
  induction first with
  | nil => simp
  | cons write rest ih => rw [List.cons_append, lastValue, ih, Option.or_assoc, lastValue]

theorem lastValue_isSome_iff {k : κ} {writes : List (κ × ν)} :
    (lastValue k writes).isSome ↔ k ∈ writes.map Prod.fst := by
  induction writes with
  | nil => simp
  | cons write rest ih =>
      simp only [lastValue, Option.isSome_or, Bool.or_eq_true, ih, List.map_cons, List.mem_cons]
      by_cases same : write.1 = k
      · simp [same]
      · simp [same, Ne.symm same]

theorem lastValue_eq_none {k : κ} {writes : List (κ × ν)} (absent : k ∉ writes.map Prod.fst) :
    lastValue k writes = none := by
  cases found : lastValue k writes with
  | none => rfl
  | some value => exact absurd (lastValue_isSome_iff.mp (by simp [found])) absent

theorem lastValue_mem {k : κ} {value : ν} {writes : List (κ × ν)}
    (last : lastValue k writes = some value) : (k, value) ∈ writes := by
  induction writes with
  | nil => simp at last
  | cons write rest ih =>
      cases later : lastValue k rest with
      | some found =>
          simp only [lastValue, later, Option.some_or, Option.some.injEq] at last
          exact List.mem_cons_of_mem _ (ih (last ▸ later))
      | none =>
          simp only [lastValue, later, Option.none_or] at last
          split at last
          · rename_i same
            cases last
            exact same ▸ List.mem_cons_self
          · contradiction

theorem lastValue_filter {k : κ} {value : ν} {writes : List (κ × ν)} {p : κ × ν → Bool}
    (last : lastValue k writes = some value) (keeps : p (k, value) = true) :
    lastValue k (writes.filter p) = some value := by
  induction writes with
  | nil => simp at last
  | cons write rest ih =>
      have split : lastValue k ((write :: rest).filter p) =
          (lastValue k (rest.filter p)).or (lastValue k ([write].filter p)) := by
        rw [← lastValue_append, ← List.filter_append, List.singleton_append]
      rw [split]
      cases later : lastValue k rest with
      | some found =>
          simp only [lastValue, later, Option.some_or, Option.some.injEq] at last
          rw [ih (last ▸ later), Option.some_or]
      | none =>
          have absent : k ∉ rest.map Prod.fst := fun present => by
            simpa [later] using lastValue_isSome_iff.mpr present
          have gone : lastValue k (rest.filter p) = none :=
            lastValue_eq_none fun present => absent ((List.filter_sublist.map Prod.fst).subset present)
          simp only [lastValue, later, Option.none_or] at last
          split at last
          · rename_i same
            cases last
            have kept : p write = true := by rwa [← same] at keeps
            simp [gone, kept, lastValue, same]
          · contradiction

theorem lastValue_of_distinct {writes : List (κ × ν)} (distinct : (writes.map Prod.fst).Nodup)
    {k : κ} {value : ν} (member : (k, value) ∈ writes) : lastValue k writes = some value := by
  induction writes with
  | nil => simp at member
  | cons write rest ih =>
      simp only [List.map_cons, List.nodup_cons] at distinct
      rcases List.mem_cons.mp member with rfl | later
      · simp [lastValue, lastValue_eq_none distinct.1]
      · simp [lastValue, ih distinct.2 later]

/-- The keys outside `known`, without repetitions, in order of first
appearance. -/
def freshKeys (known : List κ) : List κ → List κ
  | [] => []
  | k :: rest => if k ∈ known then freshKeys known rest else k :: freshKeys (known ++ [k]) rest

theorem mem_freshKeys {known ks : List κ} {k : κ} :
    k ∈ freshKeys known ks ↔ k ∈ ks ∧ k ∉ known := by
  induction ks generalizing known with
  | nil => simp [freshKeys]
  | cons first rest ih =>
      by_cases old : first ∈ known
      · simp only [freshKeys, if_pos old, ih, List.mem_cons]
        constructor
        · rintro ⟨later, new⟩
          exact ⟨.inr later, new⟩
        · rintro ⟨rfl | later, new⟩
          · exact absurd old new
          · exact ⟨later, new⟩
      · simp only [freshKeys, if_neg old, List.mem_cons, ih, List.mem_append, List.not_mem_nil,
          or_false, not_or]
        by_cases same : k = first
        · simp [same, old]
        · simp [same]

theorem length_freshKeys_le (known ks : List κ) : (freshKeys known ks).length ≤ ks.length := by
  induction ks generalizing known with
  | nil => simp [freshKeys]
  | cons first rest ih =>
      simp only [freshKeys]
      split
      · exact (ih known).trans (Nat.le_succ _)
      · simpa using ih (known ++ [first])

theorem nodup_append_freshKeys {known : List κ} (distinct : known.Nodup) (ks : List κ) :
    (known ++ freshKeys known ks).Nodup := by
  induction ks generalizing known with
  | nil => simpa [freshKeys] using distinct
  | cons first rest ih =>
      by_cases old : first ∈ known
      · simpa only [freshKeys, if_pos old] using ih distinct
      · have extended : (known ++ [first]).Nodup :=
          List.nodup_append.mpr ⟨distinct, List.nodup_singleton first, by
            intro a member b single equal
            rw [List.mem_singleton] at single
            exact old (single ▸ equal ▸ member)⟩
        simpa only [freshKeys, if_neg old, List.append_assoc, List.singleton_append] using ih extended

theorem freshKeys_of_nodup {known ks : List κ} (distinct : (known ++ ks).Nodup) : freshKeys known ks = ks := by
  induction ks generalizing known with
  | nil => rfl
  | cons first rest ih =>
      have shifted : (known ++ [first] ++ rest).Nodup := by
        rwa [List.append_assoc, List.singleton_append]
      have new : first ∉ known := fun old => (List.nodup_append.mp distinct).2.2 _ old _ List.mem_cons_self rfl
      rw [freshKeys, if_neg new, ih shifted]

/-- A bounded store: an array of at most `cap` pairs with distinct keys. -/
abbrev Store (κ : Type u) (ν : Type v) (cap : ℕ) := KeyedTable (Prod.fst : κ × ν → κ) cap

namespace Store

open KeyedTable

variable {cap : ℕ} (store : Store κ ν cap)

def get (k : κ) : Option ν := (store.lookup k).map Prod.snd

theorem get_eq_none_iff {k : κ} : store.get k = none ↔ k ∉ store.keys := by
  simp [get, lookup_eq_none_iff]

theorem get_isSome_iff {k : κ} : (store.get k).isSome ↔ k ∈ store.keys := by
  rw [← not_iff_not, ← store.get_eq_none_iff, Option.not_isSome_iff_eq_none]

theorem ext_get {left right : Store κ ν cap} (sameKeys : left.keys = right.keys)
    (sameGet : ∀ k ∈ left.keys, left.get k = right.get k) : left = right := by
  apply ext_lookup sameKeys
  intro k member
  have values := sameGet k member
  cases leftHit : left.lookup k with
  | none => exact absurd member (lookup_eq_none_iff.mp leftHit)
  | some x =>
      cases rightHit : right.lookup k with
      | none => exact absurd (sameKeys ▸ member) (lookup_eq_none_iff.mp rightHit)
      | some y =>
          simp only [get, leftHit, rightHit, Option.map_some, Option.some.injEq] at values
          rw [Prod.ext ((key_of_lookup leftHit).trans (key_of_lookup rightHit).symm) values]

/-- Overwrite the value of a present key, append a new key while there is
room, and otherwise drop the write. -/
def assign (k : κ) (value : ν) : Store κ ν cap :=
  if k ∈ store.keys then
    store.modify (fun pair => decide (pair.1 = k)) (fun pair => (pair.1, value)) (fun _ => rfl)
  else store.insertNew (k, value)

theorem keys_assign_of_mem {k : κ} {value : ν} (present : k ∈ store.keys) :
    (store.assign k value).keys = store.keys := by
  simp [assign, present]

theorem assign_dropped {k : κ} {value : ν} (absent : k ∉ store.keys) (noRoom : store.full) :
    store.assign k value = store := by
  simp [assign, absent, insertNew_full noRoom]

theorem entries_assign_new {k : κ} {value : ν} (absent : k ∉ store.keys) (room : ¬ store.full) :
    (store.assign k value).entries = store.entries ++ [(k, value)] := by
  rw [assign, if_neg absent]
  exact entries_insertNew absent room

theorem keys_assign_new {k : κ} {value : ν} (absent : k ∉ store.keys) (room : ¬ store.full) :
    (store.assign k value).keys = store.keys ++ [k] := by
  simp [keys, store.entries_assign_new absent room]

theorem get_assign_self {k : κ} {value : ν} (accepted : k ∈ store.keys ∨ ¬ store.full) :
    (store.assign k value).get k = some value := by
  by_cases present : k ∈ store.keys
  · obtain ⟨pair, found⟩ := Option.ne_none_iff_exists'.mp (lookup_eq_none_iff.not_left.mpr present)
    rw [get, assign, if_pos present, lookup_modify_self, found]
    rfl
  · rw [get, assign, if_neg present, lookup_insertNew present (accepted.resolve_left present), if_pos rfl]
    rfl

theorem get_assign_other {k other : κ} {value : ν} (different : other ≠ k) :
    (store.assign k value).get other = store.get other := by
  by_cases present : k ∈ store.keys
  · rw [get, assign, if_pos present, lookup_modify_of_ne _ _ different, get]
  · by_cases noRoom : store.full
    · rw [store.assign_dropped present noRoom]
    · rw [get, assign, if_neg present, lookup_insertNew present noRoom, if_neg different.symm, get]

omit [DecidableEq κ] in
theorem length_entries : store.entries.length = store.keys.length := by simp [keys]

def assignAll (writes : List (κ × ν)) : Store κ ν cap :=
  writes.foldl (fun current write => current.assign write.1 write.2) store

@[simp] theorem assignAll_nil : store.assignAll [] = store := rfl

@[simp] theorem assignAll_cons (write : κ × ν) (rest : List (κ × ν)) :
    store.assignAll (write :: rest) = (store.assign write.1 write.2).assignAll rest := rfl

theorem assignAll_append (first second : List (κ × ν)) :
    store.assignAll (first ++ second) = (store.assignAll first).assignAll second := by
  simp [assignAll]

theorem keys_assignAll (writes : List (κ × ν)) :
    (store.assignAll writes).keys =
      store.keys ++ (freshKeys store.keys (writes.map Prod.fst)).take (cap - store.keys.length) := by
  induction writes generalizing store with
  | nil => simp [freshKeys]
  | cons write rest ih =>
      rw [assignAll_cons, ih, List.map_cons, freshKeys]
      by_cases present : write.1 ∈ store.keys
      · rw [if_pos present, store.keys_assign_of_mem present]
      · rw [if_neg present]
        by_cases noRoom : store.full
        · have none : cap - store.keys.length = 0 := by
            rw [← length_entries]
            exact Nat.sub_eq_zero_of_le noRoom
          simp [store.assign_dropped present noRoom, none]
        · have some : cap - store.keys.length = cap - (store.keys ++ [write.1]).length + 1 := by
            simp only [full, length_entries, not_le] at noRoom
            simp only [List.length_append, List.length_singleton]
            omega
          rw [store.keys_assign_new present noRoom, some, List.take_succ_cons, List.append_assoc,
            List.singleton_append]

theorem keys_assignAll_of_full (noRoom : store.full) (writes : List (κ × ν)) :
    (store.assignAll writes).keys = store.keys := by
  have none : cap - store.keys.length = 0 := by
    rw [← length_entries]
    exact Nat.sub_eq_zero_of_le noRoom
  simp [keys_assignAll, none]

theorem keys_assignAll_of_fits {writes : List (κ × ν)}
    (fits : store.keys.length + (writes.map Prod.fst).length ≤ cap) :
    (store.assignAll writes).keys = store.keys ++ freshKeys store.keys (writes.map Prod.fst) := by
  have short := length_freshKeys_le store.keys (writes.map Prod.fst)
  rw [keys_assignAll, List.take_of_length_le (by omega)]

theorem mem_keys_assignAll {k : κ} (present : k ∈ store.keys) (writes : List (κ × ν)) :
    k ∈ (store.assignAll writes).keys := by
  rw [keys_assignAll]
  exact List.mem_append_left _ present

theorem get_assignAll {writes : List (κ × ν)} {k : κ}
    (present : k ∈ (store.assignAll writes).keys) :
    (store.assignAll writes).get k = (lastValue k writes).or (store.get k) := by
  induction writes generalizing store with
  | nil => simp
  | cons write rest ih =>
      rw [assignAll_cons] at present ⊢
      rw [ih _ present, lastValue, Option.or_assoc]
      congr 1
      by_cases same : write.1 = k
      · subst same
        have accepted : write.1 ∈ store.keys ∨ ¬ store.full := by
          by_contra refused
          obtain ⟨absent, noRoom⟩ := not_or.mp refused
          rw [store.assign_dropped absent (not_not.mp noRoom),
            store.keys_assignAll_of_full (not_not.mp noRoom)] at present
          exact absent present
        simp [store.get_assign_self accepted]
      · simp [same, store.get_assign_other (Ne.symm same)]

theorem get_assignAll_eq_none {writes : List (κ × ν)} {k : κ}
    (absent : k ∉ (store.assignAll writes).keys) : (store.assignAll writes).get k = none :=
  (get_eq_none_iff _).mpr absent

/-- A key that is written to and was stored before, or found a full array, is
the only kind that leaves the keys alone. -/
theorem keys_assignAll_eq_self_iff (writes : List (κ × ν)) :
    (store.assignAll writes).keys = store.keys ↔
      ∀ write ∈ writes, write.1 ∈ store.keys ∨ store.full := by
  constructor
  · intro same write member
    rw [keys_assignAll, List.append_right_eq_self, List.take_eq_nil_iff] at same
    rcases same with none | none
    · right
      simp only [full, length_entries]
      omega
    · left
      by_contra absent
      have fresh := mem_freshKeys.mpr ⟨List.mem_map_of_mem member, absent⟩
      simp [none] at fresh
  · intro kept
    by_cases noRoom : store.full
    · exact store.keys_assignAll_of_full noRoom writes
    · have none : freshKeys store.keys (writes.map Prod.fst) = [] := by
        apply List.eq_nil_iff_forall_not_mem.mpr
        intro k fresh
        obtain ⟨written, absent⟩ := mem_freshKeys.mp fresh
        obtain ⟨write, member, rfl⟩ := List.mem_map.mp written
        exact (kept write member).elim absent noRoom
      simp [keys_assignAll, none]

/-- The writes leave the store as it was exactly when the last value written
to each key is the stored one, or the key is unknown and the array full. -/
theorem assignAll_eq_self_iff (writes : List (κ × ν)) :
    store.assignAll writes = store ↔
      ∀ write ∈ writes, store.get write.1 = lastValue write.1 writes ∨
        (write.1 ∉ store.keys ∧ store.full) := by
  constructor
  · intro same write member
    have keysSame : (store.assignAll writes).keys = store.keys := by rw [same]
    by_cases present : write.1 ∈ store.keys
    · left
      have last := store.get_assignAll (store.mem_keys_assignAll present writes)
      rw [same] at last
      obtain ⟨value, found⟩ := Option.isSome_iff_exists.mp
        (lastValue_isSome_iff.mpr (List.mem_map_of_mem member))
      rw [last, found, Option.some_or]
    · exact .inr ⟨present, ((store.keys_assignAll_eq_self_iff writes).mp keysSame write member).resolve_left present⟩
  · intro settled
    have keysSame := (store.keys_assignAll_eq_self_iff writes).mpr (fun write member => by
      rcases settled write member with stored | dropped
      · left
        rw [← get_isSome_iff, stored, lastValue_isSome_iff]
        exact List.mem_map_of_mem member
      · exact .inr dropped.2)
    apply ext_get keysSame
    intro k present
    rw [store.get_assignAll present]
    by_cases written : k ∈ writes.map Prod.fst
    · obtain ⟨write, member, rfl⟩ := List.mem_map.mp written
      rcases settled write member with stored | dropped
      · rw [← stored, Option.or_self]
      · exact absurd (keysSame ▸ present) dropped.1
    · simp [lastValue_eq_none written]

def Fits (writes : List (κ × ν)) : Prop :=
  (freshKeys store.keys (writes.map Prod.fst)).length ≤ cap - store.keys.length

theorem mem_keys_of_fits {writes : List (κ × ν)} (fits : store.Fits writes) {k : κ} (written : k ∈ writes.map Prod.fst) :
    k ∈ (store.assignAll writes).keys := by
  rw [keys_assignAll, List.take_of_length_le fits]
  by_cases old : k ∈ store.keys
  · exact List.mem_append_left _ old
  · exact List.mem_append_right _ (mem_freshKeys.mpr ⟨written, old⟩)

theorem fits_iff (writes : List (κ × ν)) :
    store.Fits writes ↔ ∀ write ∈ writes, write.1 ∈ (store.assignAll writes).keys := by
  constructor
  · intro fits write member
    exact store.mem_keys_of_fits fits (List.mem_map_of_mem member)
  · intro stored
    have all : ∀ k ∈ freshKeys store.keys (writes.map Prod.fst),
        k ∈ (freshKeys store.keys (writes.map Prod.fst)).take (cap - store.keys.length) := by
      intro k fresh
      obtain ⟨inWrites, absent⟩ := mem_freshKeys.mp fresh
      obtain ⟨write, member, rfl⟩ := List.mem_map.mp inWrites
      have present := stored write member
      rw [keys_assignAll] at present
      exact (List.mem_append.mp present).resolve_left absent
    have distinct : (freshKeys store.keys (writes.map Prod.fst)).Nodup :=
      (List.nodup_append.mp (nodup_append_freshKeys store.distinct _)).2.1
    have shorter := (distinct.subperm all).length_le
    rw [List.length_take] at shorter
    exact (Nat.le_min.mp shorter).1

end Store

end Iland.Data

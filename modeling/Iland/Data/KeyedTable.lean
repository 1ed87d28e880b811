import Mathlib

namespace Iland.Data

/-! Bounded tables searched from the front.

A table is the used part of a fixed array: at most `cap` entries, appended in
order, no two with the same key.  Lookups return the first match and updates
change the first match in place, as a `for` loop with a `break` does.
-/

variable {α : Type u} {κ : Type v} {ν : Type w} {cap : ℕ}

def modifyFirst (p : α → Bool) (f : α → α) : List α → List α
  | [] => []
  | x :: rest => if p x then f x :: rest else x :: modifyFirst p f rest

variable {p q : α → Bool} {f : α → α}

@[simp] theorem length_modifyFirst (values : List α) :
    (modifyFirst p f values).length = values.length := by
  induction values with
  | nil => rfl
  | cons x rest ih => simp only [modifyFirst]; split <;> simp [ih]

theorem map_modifyFirst (key : α → κ) (keeps : ∀ x, key (f x) = key x) (values : List α) :
    (modifyFirst p f values).map key = values.map key := by
  induction values with
  | nil => rfl
  | cons x rest ih => simp only [modifyFirst]; split <;> simp [ih, keeps]

theorem find?_modifyFirst (stable : ∀ x, p x = true → p (f x) = true) (values : List α) :
    (modifyFirst p f values).find? p = (values.find? p).map f := by
  induction values with
  | nil => rfl
  | cons x rest ih =>
      cases found : p x with
      | true => simp [modifyFirst, found, stable x found]
      | false => simp [modifyFirst, found, ih]

theorem find?_modifyFirst_of_miss (values : List α)
    (miss : ∀ x, values.find? p = some x → q x = false ∧ q (f x) = false) :
    (modifyFirst p f values).find? q = values.find? q := by
  induction values with
  | nil => rfl
  | cons x rest ih =>
      cases found : p x with
      | true =>
          obtain ⟨before, after⟩ := miss x (by simp [found])
          simp [modifyFirst, found, before, after]
      | false =>
          have later := ih (fun y hit => miss y (by simpa [found] using hit))
          simp [modifyFirst, found, later, List.find?_cons]

theorem modifyFirst_append_of_none {values : List α} (none : values.find? p = none) (rest : List α) :
    modifyFirst p f (values ++ rest) = values ++ modifyFirst p f rest := by
  induction values with
  | nil => rfl
  | cons x values ih =>
      have later := List.find?_eq_none.mp none
      have first : p x = false := by simpa using later x List.mem_cons_self
      simp only [List.cons_append, modifyFirst, first, Bool.false_eq_true, if_false]
      rw [ih (by simpa [first] using none)]

theorem mem_modifyFirst {values : List α} {y : α} (member : y ∈ modifyFirst p f values) :
    y ∈ values ∨ ∃ x, values.find? p = some x ∧ y = f x := by
  induction values with
  | nil => simp [modifyFirst] at member
  | cons x rest ih =>
      cases found : p x with
      | true =>
          simp only [modifyFirst, found, if_true, List.mem_cons] at member
          rcases member with rfl | later
          · exact .inr ⟨x, by simp [found], rfl⟩
          · exact .inl (List.mem_cons_of_mem x later)
      | false =>
          simp only [modifyFirst, found, Bool.false_eq_true, if_false, List.mem_cons] at member
          rcases member with rfl | later
          · exact .inl List.mem_cons_self
          · rcases ih later with old | ⟨hit, first, equal⟩
            · exact .inl (List.mem_cons_of_mem x old)
            · exact .inr ⟨hit, by simpa [found] using first, equal⟩

theorem find?_key_of_mem [DecidableEq κ] {key : α → κ} {values : List α}
    (distinct : (values.map key).Nodup) {x : α} (member : x ∈ values) :
    values.find? (fun y => decide (key y = key x)) = some x := by
  induction values with
  | nil => simp at member
  | cons first rest ih =>
      simp only [List.map_cons, List.nodup_cons] at distinct
      rcases List.mem_cons.mp member with rfl | later
      · simp
      · have different : key first ≠ key x := by
          intro same
          exact distinct.1 (same ▸ List.mem_map_of_mem later)
        simpa [different] using ih distinct.2 later

/-- The used part of an array of `cap` entries with pairwise distinct keys. -/
structure KeyedTable (key : α → κ) (cap : ℕ) where
  entries : List α
  bound : entries.length ≤ cap
  distinct : (entries.map key).Nodup

namespace KeyedTable

variable {key : α → κ}

@[ext] theorem ext {left right : KeyedTable key cap} (same : left.entries = right.entries) :
    left = right := by
  cases left; cases right; simpa using same

def empty : KeyedTable key cap := ⟨[], Nat.zero_le cap, .nil⟩

instance : Inhabited (KeyedTable key cap) := ⟨empty⟩

@[simp] theorem entries_empty : (empty : KeyedTable key cap).entries = [] := rfl

def keys (table : KeyedTable key cap) : List κ := table.entries.map key

def full (table : KeyedTable key cap) : Prop := cap ≤ table.entries.length

instance (table : KeyedTable key cap) : Decidable table.full := inferInstanceAs (Decidable (_ ≤ _))

def modify (table : KeyedTable key cap) (p : α → Bool) (f : α → α)
    (keeps : ∀ x, key (f x) = key x) : KeyedTable key cap where
  entries := modifyFirst p f table.entries
  bound := by simpa using table.bound
  distinct := by rw [map_modifyFirst key keeps]; exact table.distinct

@[simp] theorem entries_modify (table : KeyedTable key cap) (p : α → Bool) (f : α → α)
    (keeps : ∀ x, key (f x) = key x) :
    (table.modify p f keeps).entries = modifyFirst p f table.entries := rfl

@[simp] theorem keys_modify (table : KeyedTable key cap) (p : α → Bool) (f : α → α)
    (keeps : ∀ x, key (f x) = key x) : (table.modify p f keeps).keys = table.keys :=
  map_modifyFirst key keeps table.entries

variable [DecidableEq κ]

def lookup (table : KeyedTable key cap) (k : κ) : Option α :=
  table.entries.find? (fun x => decide (key x = k))

theorem lookup_eq_none_iff {table : KeyedTable key cap} {k : κ} :
    table.lookup k = none ↔ k ∉ table.keys := by
  simp [lookup, keys]

theorem key_of_lookup {table : KeyedTable key cap} {k : κ} {x : α}
    (found : table.lookup k = some x) : key x = k := by
  simpa using List.find?_some found

theorem lookup_of_mem {table : KeyedTable key cap} {x : α} (member : x ∈ table.entries) :
    table.lookup (key x) = some x :=
  find?_key_of_mem table.distinct member

theorem ext_lookup {left right : KeyedTable key cap} (sameKeys : left.keys = right.keys)
    (sameLookup : ∀ k ∈ left.keys, left.lookup k = right.lookup k) : left = right := by
  apply ext
  apply List.ext_getElem (by simpa [keys] using congrArg List.length sameKeys)
  intro i inLeft inRight
  have keyEq : key left.entries[i] = key right.entries[i] := by
    have at' := congrArg (fun ks => ks[i]?) sameKeys
    simpa [keys, inLeft, inRight] using at'
  have leftHit := left.lookup_of_mem (List.getElem_mem inLeft)
  have rightHit := right.lookup_of_mem (List.getElem_mem inRight)
  rw [sameLookup _ (List.mem_map_of_mem (List.getElem_mem inLeft)), keyEq, rightHit] at leftHit
  exact (Option.some.inj leftHit).symm

def insertNew (table : KeyedTable key cap) (x : α) : KeyedTable key cap :=
  if fresh : key x ∉ table.keys ∧ ¬ table.full then
    { entries := table.entries ++ [x]
      bound := by
        have room := fresh.2
        simp only [full, not_le] at room
        simpa using room
      distinct := by
        have absent := fresh.1
        simp only [keys, List.mem_map, not_exists, not_and] at absent
        simpa [List.nodup_append, table.distinct] using absent }
  else table

theorem entries_insertNew {table : KeyedTable key cap} {x : α}
    (fresh : key x ∉ table.keys) (room : ¬ table.full) :
    (table.insertNew x).entries = table.entries ++ [x] := by
  simp [insertNew, fresh, room]

theorem insertNew_full {table : KeyedTable key cap} {x : α} (noRoom : table.full) :
    table.insertNew x = table := by
  simp [insertNew, noRoom]

theorem lookup_modify_self (table : KeyedTable key cap) {k : κ} {f : α → α} (keeps : ∀ x, key (f x) = key x) :
    (table.modify (fun x => decide (key x = k)) f keeps).lookup k = (table.lookup k).map f :=
  find?_modifyFirst (fun x hit => by rwa [keeps]) table.entries

theorem lookup_modify_of_ne (table : KeyedTable key cap) {k other : κ} {f : α → α} (keeps : ∀ x, key (f x) = key x)
    (different : other ≠ k) : (table.modify (fun x => decide (key x = k)) f keeps).lookup other = table.lookup other := by
  apply find?_modifyFirst_of_miss
  intro x hit
  have own : key x = k := by simpa using List.find?_some hit
  simp [keeps, own, different.symm]

theorem lookup_insertNew {table : KeyedTable key cap} {x : α} (fresh : key x ∉ table.keys) (room : ¬ table.full) (k : κ) :
    (table.insertNew x).lookup k = if key x = k then some x else table.lookup k := by
  rw [lookup, entries_insertNew fresh room, List.find?_append, ← lookup]
  by_cases own : key x = k
  · subst own
    simp [lookup_eq_none_iff.mpr fresh]
  · simp [own]

end KeyedTable

end Iland.Data

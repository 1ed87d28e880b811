import Iland.Data.KeyedTable

namespace Iland.Data

/-! Bounded registries: lists of entries with different keys.

A new entry takes the place of the one with its key, or goes behind the others
while there is room.  When an entry is removed, the last one takes its place.
Without a bound, entries are put in the place of those with their keys, and
left out.
-/

variable {α κ : Type*} [DecidableEq κ] (key : α → κ)

def register (cap : ℕ) (x : α) (entries : List α) : List α :=
  if entries.any (fun y => key y = key x) then modifyFirst (fun y => key y = key x) (fun _ => x) entries
  else if entries.length ≥ cap then entries
  else entries ++ [x]

def unregister (k : κ) (entries : List α) : List α :=
  match entries.findIdx? (fun y => key y = k), entries.getLast? with
  | some i, some last => (entries.set i last).dropLast
  | _, _ => entries

variable {key} {cap : ℕ} {x y : α} {k : κ} {entries : List α}

theorem register_of_fresh (fresh : k ∉ entries.map key) (same : key x = k) :
    register key cap x entries = if entries.length ≥ cap then entries else entries ++ [x] := by
  have none : entries.any (fun y => key y = key x) = false := by
    rw [List.any_eq_false]
    intro y member hit
    exact fresh (same ▸ of_decide_eq_true hit ▸ List.mem_map_of_mem member)
  simp only [register, none, Bool.false_eq_true, if_false]

theorem mem_register (member : y ∈ register key cap x entries) : y = x ∨ y ∈ entries := by
  simp only [register] at member
  split at member
  · rcases mem_modifyFirst member with old | ⟨_, _, same⟩
    · exact .inr old
    · exact .inl same
  · split at member
    · exact .inr member
    · rcases List.mem_append.mp member with old | new
      · exact .inr old
      · exact .inl (List.mem_singleton.mp new)

theorem length_register (short : entries.length ≤ cap) : (register key cap x entries).length ≤ cap := by
  simp only [register]
  split
  · rwa [length_modifyFirst]
  · split
    · exact short
    · rw [List.length_append, List.length_singleton]
      omega

theorem map_replace (rest : List α) :
    (modifyFirst (fun y => decide (key y = key x)) (fun _ => x) rest).map key = rest.map key := by
  induction rest with
  | nil => rfl
  | cons y rest ih =>
      by_cases same : key y = key x
      · simp [modifyFirst, same]
      · simp [modifyFirst, same, ih]

theorem nodup_register (distinct : (entries.map key).Nodup) : ((register key cap x entries).map key).Nodup := by
  simp only [register]
  split
  · rw [map_replace]
    exact distinct
  · rename_i absent
    have apart : ∀ y ∈ entries, key y ≠ key x := by simpa using absent
    split
    · exact distinct
    · rw [List.map_append]
      refine List.nodup_append.mpr ⟨distinct, by simp, ?_⟩
      intro old member new last same
      obtain ⟨y, stored, rfl⟩ := List.mem_map.mp member
      exact apart y stored (same.trans (by simpa using last))

theorem swap_perm (init : List α) (last : α) {i : ℕ} (inside : i < (init ++ [last]).length) :
    (((init ++ [last]).set i last).dropLast).Perm ((init ++ [last]).eraseIdx i) := by
  cases Nat.lt_or_ge i init.length with
  | inl early =>
      rw [List.set_append_left _ _ early, List.dropLast_concat, List.eraseIdx_append_of_lt_length early]
      exact (List.set_perm_cons_eraseIdx early last).trans (List.perm_append_singleton last _).symm
  | inr end' =>
      have atEnd : i = init.length := by
        simp only [List.length_append, List.length_singleton] at inside
        omega
      subst atEnd
      simp [List.eraseIdx_append_of_length_le]

theorem unregister_perm (found : entries.find? (fun y => key y = k) = some x) :
    entries.Perm (x :: unregister key k entries) := by
  cases place : entries.findIdx? (fun y => key y = k) with
  | none =>
      rw [List.findIdx?_eq_none_iff] at place
      have miss := place x (List.mem_of_find?_eq_some found)
      have hit := List.find?_some found
      simp_all
  | some i =>
      obtain ⟨inside, index⟩ := List.findIdx?_eq_some_iff_findIdx_eq.mp place
      have here : x = entries[i] := by
        rw [List.find?_eq_getElem?_findIdx, index, List.getElem?_eq_getElem inside, Option.some.injEq] at found
        exact found.symm
      obtain ⟨last, ends⟩ : ∃ last, entries.getLast? = some last :=
        Option.isSome_iff_exists.mp (List.getLast?_isSome.mpr (List.ne_nil_of_length_pos (by omega)))
      obtain ⟨init, rfl⟩ := List.getLast?_eq_some_iff.mp ends
      simp only [unregister, place, ends]
      rw [here]
      exact (List.getElem_cons_eraseIdx_perm inside).symm.trans ((swap_perm init last inside).symm.cons _)

theorem unregister_of_absent (absent : entries.find? (fun y => key y = k) = none) : unregister key k entries = entries := by
  have place : entries.findIdx? (fun y => key y = k) = none := by
    rw [List.findIdx?_eq_none_iff]
    intro y member
    simpa using List.find?_eq_none.mp absent y member
  simp only [unregister, place]

theorem length_unregister : (unregister key k entries).length ≤ entries.length := by
  simp only [unregister]
  split
  · simp
  · exact le_rfl

theorem mem_unregister (distinct : (entries.map key).Nodup) :
    y ∈ unregister key k entries ↔ y ∈ entries ∧ key y ≠ k := by
  cases found : entries.find? (fun y => key y = k) with
  | none =>
      rw [unregister_of_absent found]
      have apart : ∀ y ∈ entries, key y ≠ k := by simpa using found
      exact ⟨fun member => ⟨member, apart y member⟩, And.left⟩
  | some x =>
      have perm := unregister_perm found
      have own : key x = k := by simpa using List.find?_some found
      have apart := (perm.map key).nodup_iff.mp distinct
      rw [List.map_cons, List.nodup_cons] at apart
      rw [perm.mem_iff, List.mem_cons]
      constructor
      · intro member
        exact ⟨.inr member, fun same => apart.1 (List.mem_map.mpr ⟨y, member, same.trans own.symm⟩)⟩
      · intro both
        exact both.1.resolve_left fun same => both.2 (same ▸ own)

theorem nodup_unregister (distinct : (entries.map key).Nodup) : ((unregister key k entries).map key).Nodup := by
  cases found : entries.find? (fun y => key y = k) with
  | none =>
      rw [unregister_of_absent found]
      exact distinct
  | some x =>
      have apart := ((unregister_perm found).map key).nodup_iff.mp distinct
      exact (List.nodup_cons.mp apart).2

/-! Entries in their places. -/

variable (key) in
def put (x : α) (entries : List α) : List α := entries.map fun y => if key y = key x then x else y

variable (key) in
def leaveOut (k : κ) (entries : List α) : List α := entries.filter fun y => key y ≠ k

/-- What an entry shares with the one in whose place it is put stays. -/
theorem map_put {β : Type*} {f : α → β} (same : ∀ y ∈ entries, key y = key x → f y = f x) :
    (put key x entries).map f = entries.map f := by
  rw [put, List.map_map]
  refine List.map_congr_left fun y member => ?_
  simp only [Function.comp_apply]
  split
  · rename_i equal
    exact (same y member equal).symm
  · rfl

theorem length_put : (put key x entries).length = entries.length := List.length_map _

theorem put_of_absent (absent : key x ∉ entries.map key) : put key x entries = entries := by
  refine (List.map_congr_left fun y member => if_neg fun same => absent ?_).trans (List.map_id entries)
  exact same ▸ List.mem_map_of_mem member

theorem mem_put : y ∈ put key x entries ↔ y ∈ entries ∧ key y ≠ key x ∨ y = x ∧ key x ∈ entries.map key := by
  simp only [put, List.mem_map]
  constructor
  · rintro ⟨z, member, rfl⟩
    split
    · rename_i same
      exact .inr ⟨rfl, z, member, same⟩
    · rename_i other
      exact .inl ⟨member, other⟩
  · rintro (⟨member, other⟩ | ⟨rfl, z, member, same⟩)
    · exact ⟨y, member, if_neg other⟩
    · exact ⟨z, member, if_pos same⟩

theorem mem_leaveOut : y ∈ leaveOut key k entries ↔ y ∈ entries ∧ key y ≠ k := by
  simp [leaveOut, List.mem_filter]

theorem map_leaveOut_sublist {β : Type*} (f : α → β) : ((leaveOut key k entries).map f).Sublist (entries.map f) :=
  List.Sublist.map f List.filter_sublist

theorem length_leaveOut (distinct : (entries.map key).Nodup) (present : k ∈ entries.map key) :
    (leaveOut key k entries).length + 1 = entries.length := by
  induction entries with
  | nil => cases present
  | cons y rest ih =>
      simp only [List.map_cons, List.nodup_cons] at distinct
      by_cases same : key y = k
      · have kept : leaveOut key k rest = rest := by
          refine List.filter_eq_self.mpr fun z member => decide_eq_true fun again => distinct.1 ?_
          rw [same, ← again]
          exact List.mem_map_of_mem member
        have here : leaveOut key k (y :: rest) = leaveOut key k rest := List.filter_cons_of_neg (by simpa using same)
        rw [here, kept, List.length_cons]
      · have present : k ∈ rest.map key := by
          rw [List.map_cons, List.mem_cons] at present
          exact present.resolve_left (Ne.symm same)
        have here : leaveOut key k (y :: rest) = y :: leaveOut key k rest :=
          List.filter_cons_of_pos (by simpa using same)
        rw [here, List.length_cons, List.length_cons, ih distinct.2 present]

theorem find?_key_iff (distinct : (entries.map key).Nodup) :
    entries.find? (fun y => key y = k) = some x ↔ x ∈ entries ∧ key x = k := by
  constructor
  · intro found
    exact ⟨List.mem_of_find?_eq_some found, by simpa using List.find?_some found⟩
  · rintro ⟨member, rfl⟩
    exact find?_key_of_mem distinct member

end Iland.Data

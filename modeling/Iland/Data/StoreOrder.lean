import Iland.Data.Store

namespace Iland.Data

/-! Batches of writes in another order.

A batch without repeated keys leaves the same values behind in every order if
its new keys fit, or if none of them does.  Otherwise the places go to the keys
that come first.
-/

variable {κ : Type u} {ν : Type v} [DecidableEq κ] {cap : ℕ}

theorem lastValue_perm {writes other : List (κ × ν)} (perm : writes.Perm other)
    (distinct : (writes.map Prod.fst).Nodup) (k : κ) : lastValue k writes = lastValue k other := by
  have otherDistinct : (other.map Prod.fst).Nodup := (perm.map Prod.fst).nodup_iff.mp distinct
  cases last : lastValue k writes with
  | some value => exact (lastValue_of_distinct otherDistinct (perm.mem_iff.mp (lastValue_mem last))).symm
  | none =>
      symm
      apply lastValue_eq_none
      rw [← (perm.map Prod.fst).mem_iff, ← lastValue_isSome_iff, last]
      simp

theorem length_freshKeys_congr {known ks others : List κ} (same : ∀ k, k ∈ ks ↔ k ∈ others) (distinct : known.Nodup) :
    (freshKeys known ks).length = (freshKeys known others).length := by
  have nodup (ks : List κ) : (freshKeys known ks).Nodup :=
    (List.nodup_append.mp (nodup_append_freshKeys distinct ks)).2.1
  apply List.Perm.length_eq
  rw [List.perm_ext_iff_of_nodup (nodup ks) (nodup others)]
  intro k
  rw [mem_freshKeys, mem_freshKeys, same]

theorem length_freshKeys_cons {known ks : List κ} {k : κ} (new : k ∉ known) (once : k ∉ ks) (distinct : known.Nodup) :
    (freshKeys known (k :: ks)).length = (freshKeys known ks).length + 1 := by
  have nodup (ks : List κ) : (freshKeys known ks).Nodup :=
    (List.nodup_append.mp (nodup_append_freshKeys distinct ks)).2.1
  have absent : k ∉ freshKeys known ks := fun member => once (mem_freshKeys.mp member).1
  rw [← List.length_cons (a := k)]
  apply List.Perm.length_eq
  rw [List.perm_ext_iff_of_nodup (nodup _) (List.nodup_cons.mpr ⟨absent, nodup ks⟩)]
  intro other
  simp only [mem_freshKeys, List.mem_cons]
  constructor
  · intro fresh
    obtain ⟨rfl | later, unknown⟩ := fresh
    · exact .inl rfl
    · exact .inr ⟨later, unknown⟩
  · intro fresh
    rcases fresh with rfl | ⟨later, unknown⟩
    · exact ⟨.inl rfl, new⟩
    · exact ⟨.inr later, unknown⟩

namespace Store

open KeyedTable

variable (store : Store κ ν cap) {writes other : List (κ × ν)}

theorem fits_perm (perm : writes.Perm other) : store.Fits writes ↔ store.Fits other := by
  have same : (freshKeys store.keys (writes.map Prod.fst)).length = (freshKeys store.keys (other.map Prod.fst)).length :=
    length_freshKeys_congr (fun k => (perm.map Prod.fst).mem_iff) store.distinct
  rw [Fits, Fits, same]

theorem mem_keys_assignAll_iff (settled : store.Fits writes ∨ store.full) {k : κ} :
    k ∈ (store.assignAll writes).keys ↔ k ∈ store.keys ∨ (¬ store.full ∧ k ∈ writes.map Prod.fst) := by
  by_cases noRoom : store.full
  · rw [store.keys_assignAll_of_full noRoom]
    simp [noRoom]
  · have fits := settled.resolve_right noRoom
    rw [keys_assignAll, List.take_of_length_le fits, List.mem_append, mem_freshKeys]
    by_cases old : k ∈ store.keys <;> simp [old, noRoom]

theorem get_assignAll_perm (perm : writes.Perm other) (distinct : (writes.map Prod.fst).Nodup)
    (settled : store.Fits writes ∨ store.full) (k : κ) :
    (store.assignAll writes).get k = (store.assignAll other).get k := by
  have otherSettled : store.Fits other ∨ store.full := settled.imp_left (store.fits_perm perm).mp
  have sameKeys : k ∈ (store.assignAll writes).keys ↔ k ∈ (store.assignAll other).keys := by
    rw [store.mem_keys_assignAll_iff settled, store.mem_keys_assignAll_iff otherSettled, (perm.map Prod.fst).mem_iff]
  by_cases present : k ∈ (store.assignAll writes).keys
  · rw [store.get_assignAll present, store.get_assignAll (sameKeys.mp present), lastValue_perm perm distinct]
  · rw [store.get_assignAll_eq_none present, store.get_assignAll_eq_none (fun member => present (sameKeys.mpr member))]

theorem get_assignAll_first {write : κ × ν} {rest : List (κ × ν)} (room : ¬ store.full)
    (once : write.1 ∉ rest.map Prod.fst) : (store.assignAll (write :: rest)).get write.1 = some write.2 := by
  have stored : (store.assign write.1 write.2).get write.1 = some write.2 := store.get_assign_self (.inr room)
  have entered : write.1 ∈ (store.assign write.1 write.2).keys := by
    rw [← get_isSome_iff, stored]
    rfl
  rw [assignAll_cons, get_assignAll _ (mem_keys_assignAll _ entered rest), lastValue_eq_none once, Option.none_or, stored]

theorem get_assignAll_last {write : κ × ν} {rest : List (κ × ν)} (tooMany : ¬ store.Fits (write :: rest))
    (new : write.1 ∉ store.keys) (once : write.1 ∉ rest.map Prod.fst) :
    (store.assignAll (rest ++ [write])).get write.1 = none := by
  have more := length_freshKeys_cons new once store.distinct
  have absent : write.1 ∉ (store.assignAll rest).keys := by
    rw [keys_assignAll]
    intro member
    rcases List.mem_append.mp member with old | fresh
    · exact new old
    · exact once (mem_freshKeys.mp (List.mem_of_mem_take fresh)).1
  have noRoom : (store.assignAll rest).full := by
    have bound := store.bound
    simp only [Fits, List.map_cons, more, not_le] at tooMany
    simp only [full, length_entries, keys_assignAll, List.length_append, List.length_take]
    rw [length_entries] at bound
    omega
  rw [assignAll_append, assignAll_cons, assignAll_nil, assign_dropped _ absent noRoom]
  exact (get_eq_none_iff _).mpr absent

end Store

end Iland.Data

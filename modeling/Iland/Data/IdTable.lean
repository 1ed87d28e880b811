import Iland.Data.KeyedTable

namespace Iland.Data

/-! Tables whose entries get their ids from a counter.

A table is an array of places, each free or with an id and some data.  A
ledger says what should be in it: what was made and not destroyed since.
-/

variable {κ α : Type*} {n : ℕ}

/-- What was made after `number` others, and is not destroyed. -/
structure Entry (κ α : Type*) where
  number : ℕ
  id : κ
  data : α

structure Ledger (κ α : Type*) where
  made : ℕ
  live : List (Entry κ α)

namespace Ledger

def empty : Ledger κ α := ⟨0, []⟩

def create (ledger : Ledger κ α) (id : κ) (data : α) : Ledger κ α :=
  ⟨ledger.made + 1, ⟨ledger.made, id, data⟩ :: ledger.live⟩

def ids (ledger : Ledger κ α) : List κ := ledger.live.map Entry.id

variable {ledger : Ledger κ α} {id : κ} {data : α} {e : Entry κ α}

@[simp] theorem made_create : (ledger.create id data).made = ledger.made + 1 := rfl

variable [DecidableEq κ]

def destroy (ledger : Ledger κ α) (id : κ) : Ledger κ α :=
  { ledger with live := ledger.live.filter (fun e => e.id ≠ id) }

def find (ledger : Ledger κ α) (id : κ) : Option α :=
  (ledger.live.find? (fun e => e.id = id)).map Entry.data

@[simp] theorem made_destroy : (ledger.destroy id).made = ledger.made := rfl

theorem mem_destroy : e ∈ (ledger.destroy id).live ↔ e ∈ ledger.live ∧ e.id ≠ id := by
  simp [destroy]

theorem ids_destroy : (ledger.destroy id).ids = ledger.ids.filter (fun other => other ≠ id) := by
  simp only [ids, destroy, List.filter_map]
  rfl

theorem find_eq_none_iff : ledger.find id = none ↔ id ∉ ledger.ids := by
  simp [find, ids]

theorem mem_ids_of_find (live : (ledger.find id).isSome) : id ∈ ledger.ids := by
  by_contra absent
  simp [find_eq_none_iff.mpr absent] at live

/-- What is still found is not what was destroyed. -/
theorem ne_of_find_destroy {other : κ} (stays : ((ledger.destroy id).find other).isSome) : other ≠ id := by
  have left := mem_ids_of_find stays
  rw [ids_destroy] at left
  exact of_decide_eq_true (List.mem_filter.mp left).2

theorem find_of_mem (distinct : ledger.ids.Nodup) (member : e ∈ ledger.live) : ledger.find e.id = some e.data := by
  rw [find, find?_key_of_mem distinct member]
  rfl

end Ledger

/-! A table that holds what a ledger says. -/

/-- Each entry of the ledger has one place, and each place that is not free
has an entry. -/
structure Holds (places : Fin n → Option (κ × α)) (ledger : Ledger κ α) : Prop where
  stored : ∀ i id data, places i = some (id, data) → ∃ e ∈ ledger.live, e.id = id ∧ e.data = data
  placed : ∀ e ∈ ledger.live, ∃ i, places i = some (e.id, e.data)
  apart : ∀ i j id first second, places i = some (id, first) → places j = some (id, second) → i = j
  distinct : ledger.ids.Nodup

namespace Holds

variable {places : Fin n → Option (κ × α)} {ledger : Ledger κ α} {id : κ} {data : α} {i : Fin n}

theorem empty : Holds (fun _ : Fin n => (none : Option (κ × α))) .empty where
  stored := by simp
  placed := by simp [Ledger.empty]
  apart := by simp
  distinct := .nil

theorem create (holds : Holds places ledger) (free : places i = none) (fresh : id ∉ ledger.ids) :
    Holds (Function.update places i (some (id, data))) (ledger.create id data) where
  stored := by
    intro j other stored at'
    by_cases own : j = i
    · subst own
      simp only [Function.update_self, Option.some.injEq, Prod.mk.injEq] at at'
      exact ⟨_, List.mem_cons_self, at'⟩
    · rw [Function.update_of_ne own] at at'
      obtain ⟨e, member, same⟩ := holds.stored j other stored at'
      exact ⟨e, List.mem_cons_of_mem _ member, same⟩
  placed := by
    intro e member
    rcases List.mem_cons.mp member with rfl | old
    · exact ⟨i, Function.update_self ..⟩
    · obtain ⟨j, at'⟩ := holds.placed e old
      have other : j ≠ i := by
        rintro rfl
        simp [free] at at'
      exact ⟨j, by rw [Function.update_of_ne other, at']⟩
  apart := by
    have unused (j : Fin n) (stored : α) : places j ≠ some (id, stored) := by
      intro at'
      obtain ⟨e, member, rfl, _⟩ := holds.stored j id stored at'
      exact fresh (List.mem_map_of_mem member)
    intro j k other first second left right
    by_cases ownLeft : j = i <;> by_cases ownRight : k = i
    · rw [ownLeft, ownRight]
    · subst ownLeft
      simp only [Function.update_self, Option.some.injEq, Prod.mk.injEq] at left
      rw [Function.update_of_ne ownRight, ← left.1] at right
      exact absurd right (unused k second)
    · subst ownRight
      simp only [Function.update_self, Option.some.injEq, Prod.mk.injEq] at right
      rw [Function.update_of_ne ownLeft, ← right.1] at left
      exact absurd left (unused j first)
    · rw [Function.update_of_ne ownLeft] at left
      rw [Function.update_of_ne ownRight] at right
      exact holds.apart j k other first second left right
  distinct := List.nodup_cons.mpr ⟨fresh, holds.distinct⟩

variable [DecidableEq κ]

theorem destroy (holds : Holds places ledger) (at' : places i = some (id, data)) :
    Holds (Function.update places i none) (ledger.destroy id) where
  stored := by
    intro j other stored there
    by_cases own : j = i
    · subst own
      simp at there
    · rw [Function.update_of_ne own] at there
      obtain ⟨e, member, rfl, rfl⟩ := holds.stored j other stored there
      -- Another place with this id would be this place.
      have different : e.id ≠ id := fun same => own (holds.apart j i id e.data data (same ▸ there) at')
      exact ⟨e, Ledger.mem_destroy.mpr ⟨member, different⟩, rfl, rfl⟩
  placed := by
    intro e member
    obtain ⟨old, different⟩ := Ledger.mem_destroy.mp member
    obtain ⟨j, there⟩ := holds.placed e old
    have other : j ≠ i := by
      rintro rfl
      rw [at', Option.some.injEq, Prod.mk.injEq] at there
      exact different there.1.symm
    exact ⟨j, by rw [Function.update_of_ne other, there]⟩
  apart := by
    intro j k other first second left right
    by_cases ownLeft : j = i
    · subst ownLeft
      simp at left
    · by_cases ownRight : k = i
      · subst ownRight
        simp at right
      · rw [Function.update_of_ne ownLeft] at left
        rw [Function.update_of_ne ownRight] at right
        exact holds.apart j k other first second left right
  distinct := by
    rw [Ledger.ids_destroy]
    exact holds.distinct.filter _

/-- A search for an id among the places finds what the ledger has for it. -/
theorem search (holds : Holds places ledger) {p : Fin n → Bool}
    (test : ∀ i, p i = true ↔ ∃ data, places i = some (id, data)) :
    (∃ i data, (List.finRange n).find? p = some i ∧ places i = some (id, data) ∧ ledger.find id = some data) ∨
      ((List.finRange n).find? p = none ∧ ledger.find id = none) := by
  cases found : (List.finRange n).find? p with
  | some i =>
      obtain ⟨data, at'⟩ := (test i).mp (List.find?_some found)
      obtain ⟨e, member, rfl, rfl⟩ := holds.stored i id data at'
      exact .inl ⟨i, e.data, rfl, at', Ledger.find_of_mem holds.distinct member⟩
  | none =>
      refine .inr ⟨rfl, Ledger.find_eq_none_iff.mpr ?_⟩
      intro member
      obtain ⟨e, live, rfl⟩ := List.mem_map.mp member
      obtain ⟨i, at'⟩ := holds.placed e live
      exact List.find?_eq_none.mp found i (List.mem_finRange i) ((test i).mpr ⟨e.data, at'⟩)

end Holds

/-! Ids from a counter. -/

/-- Each entry has the id of its number, and the counter is at the next id. -/
structure Tracks (name : ℕ → κ) (places : Fin n → Option (κ × α)) (next : κ) (ledger : Ledger κ α) : Prop
    extends Holds places ledger where
  numbered : ∀ e ∈ ledger.live, e.id = name e.number ∧ e.number < ledger.made
  counter : next = name ledger.made

namespace Tracks

variable {name : ℕ → κ} {places : Fin n → Option (κ × α)} {next : κ} {ledger : Ledger κ α} {id : κ} {data : α}
  {i : Fin n}

theorem empty : Tracks name (fun _ : Fin n => (none : Option (κ × α))) (name 0) .empty where
  toHolds := .empty
  numbered := by simp [Ledger.empty]
  counter := rfl

theorem fresh_iff (tracks : Tracks name places next ledger) :
    next ∉ ledger.ids ↔ ∀ e ∈ ledger.live, name ledger.made ≠ name e.number := by
  rw [tracks.counter, Ledger.ids, List.mem_map, not_exists]
  refine forall_congr' fun e => ?_
  rw [not_and]
  refine imp_congr_right fun member => ?_
  rw [(tracks.numbered e member).1, ne_comm]

theorem create (tracks : Tracks name places next ledger) (free : places i = none) (fresh : next ∉ ledger.ids) :
    Tracks name (Function.update places i (some (next, data))) (name (ledger.made + 1)) (ledger.create next data) where
  toHolds := tracks.toHolds.create free fresh
  numbered := by
    intro e member
    rcases List.mem_cons.mp member with rfl | old
    · exact ⟨tracks.counter, Nat.lt_succ_self _⟩
    · obtain ⟨same, before⟩ := tracks.numbered e old
      exact ⟨same, Nat.lt_succ_of_lt before⟩
  counter := rfl

theorem destroy [DecidableEq κ] (tracks : Tracks name places next ledger) (at' : places i = some (id, data)) :
    Tracks name (Function.update places i none) next (ledger.destroy id) where
  toHolds := tracks.toHolds.destroy at'
  numbered := fun e member => tracks.numbered e (Ledger.mem_destroy.mp member).1
  counter := tracks.counter

end Tracks

/-! Arrays of records where the id of a blank record marks a free place. -/

section Marked

variable {β : Type*} [DecidableEq κ] (key : β → κ) (data : β → Option α) (blank : β)

def occupants (records : Fin n → β) (i : Fin n) : Option (κ × α) :=
  if key (records i) = key blank then none else (data (records i)).map (fun d => (key (records i), d))

/-- The first record with an id. -/
def seek (key : β → κ) (records : Fin n → β) (id : κ) : Option β :=
  ((List.finRange n).find? (fun i => key (records i) = id)).map records

/-- An array of records that holds what a ledger says.  Records with the id of
the blank one are blank, and all others have data. -/
structure Marked (name : ℕ → κ) (records : Fin n → β) (next : κ) (ledger : Ledger κ α) : Prop where
  tracks : Tracks name (occupants key data blank records) next ledger
  blanks : ∀ i, key (records i) = key blank → records i = blank
  filled : ∀ i, key (records i) ≠ key blank → (data (records i)).isSome

variable {key data blank}

theorem occupants_eq_some_iff {records : Fin n → β} {i : Fin n} {id : κ} {d : α} :
    occupants key data blank records i = some (id, d) ↔
      key (records i) ≠ key blank ∧ key (records i) = id ∧ data (records i) = some d := by
  by_cases free : key (records i) = key blank <;>
    simp [occupants, free, and_comm]

theorem occupants_update (records : Fin n → β) (i : Fin n) (r : β) :
    occupants key data blank (Function.update records i r) =
      Function.update (occupants key data blank records) i
        (if key r = key blank then none else (data r).map (fun d => (key r, d))) := by
  funext j
  by_cases own : j = i
  · subst own
    simp [occupants]
  · simp [occupants, own]

theorem seek_update_of_ne {records : Fin n → β} {i : Fin n} {r : β} {id : κ} (before : key (records i) ≠ id)
    (after : key r ≠ id) : seek key (Function.update records i r) id = seek key records id := by
  have sameTest : (fun j => decide (key (Function.update records i r j) = id)) =
      fun j => decide (key (records j) = id) := by
    funext j
    by_cases own : j = i
    · subst own
      simp [before, after]
    · simp [own]
  rw [seek, seek, sameTest]
  refine Option.map_congr fun j found => ?_
  have hit : key (records j) = id := by simpa using List.find?_some found
  have own : j ≠ i := fun same => before (same ▸ hit)
  rw [Function.update_of_ne own]

namespace Marked

variable {name : ℕ → κ} {records : Fin n → β} {next : κ} {ledger : Ledger κ α} {id : κ} {d : α} {i : Fin n} {r : β}

theorem blank_not_live (marked : Marked key data blank name records next ledger) : key blank ∉ ledger.ids := by
  intro member
  obtain ⟨e, live, same⟩ := List.mem_map.mp member
  obtain ⟨i, at'⟩ := marked.tracks.placed e live
  obtain ⟨taken, own, _⟩ := occupants_eq_some_iff.mp at'
  exact taken (own.trans same)

theorem create (marked : Marked key data blank name records next ledger) (free : key (records i) = key blank)
    (named : key r = next) (nonblank : next ≠ key blank) (stores : data r = some d) (fresh : next ∉ ledger.ids) :
    Marked key data blank name (Function.update records i r) (name (ledger.made + 1)) (ledger.create next d) where
  tracks := by
    rw [occupants_update, named, if_neg nonblank, stores]
    exact marked.tracks.create (by simp [occupants, free]) fresh
  blanks := by
    intro j isBlank
    by_cases own : j = i
    · subst own
      rw [Function.update_self, named] at isBlank
      exact absurd isBlank nonblank
    · rw [Function.update_of_ne own] at isBlank ⊢
      exact marked.blanks j isBlank
  filled := by
    intro j taken
    by_cases own : j = i
    · subst own
      simp [stores]
    · rw [Function.update_of_ne own] at taken ⊢
      exact marked.filled j taken

/-- Blanking a place destroys what it holds, if anything. -/
theorem destroy (marked : Marked key data blank name records next ledger) (i : Fin n) :
    Marked key data blank name (Function.update records i blank) next (ledger.destroy (key (records i))) where
  tracks := by
    rw [occupants_update, if_pos rfl]
    by_cases free : key (records i) = key blank
    · have absent : ledger.destroy (key (records i)) = ledger := by
        rw [free, Ledger.destroy, List.filter_eq_self.mpr]
        intro e live
        have different : e.id ≠ key blank := fun same => marked.blank_not_live (same ▸ List.mem_map_of_mem live)
        simpa using different
      have empty : occupants key data blank records i = none := by simp [occupants, free]
      rw [absent, ← empty, Function.update_eq_self]
      exact marked.tracks
    · obtain ⟨d, stored⟩ := Option.isSome_iff_exists.mp (marked.filled i free)
      exact marked.tracks.destroy (occupants_eq_some_iff.mpr ⟨free, rfl, stored⟩)
  blanks := by
    intro j isBlank
    by_cases own : j = i
    · rw [own, Function.update_self]
    · rw [Function.update_of_ne own] at isBlank ⊢
      exact marked.blanks j isBlank
  filled := by
    intro j taken
    by_cases own : j = i
    · rw [own, Function.update_self] at taken
      exact absurd rfl taken
    · rw [Function.update_of_ne own] at taken ⊢
      exact marked.filled j taken

/-- A search for an id finds what the ledger has for it, unless the id is the
mark and a place is free. -/
theorem seek_cases (marked : Marked key data blank name records next ledger)
    (apart : id ≠ key blank ∨ ∀ i, key (records i) ≠ key blank) :
    (∃ r d, seek key records id = some r ∧ data r = some d ∧ ledger.find id = some d) ∨
      (seek key records id = none ∧ ledger.find id = none) := by
  have test (i : Fin n) :
      decide (key (records i) = id) = true ↔ ∃ d, occupants key data blank records i = some (id, d) := by
    simp only [decide_eq_true_eq, occupants_eq_some_iff, exists_and_left]
    constructor
    · rintro rfl
      have taken : key (records i) ≠ key blank := apart.elim (fun different => different) (fun all => all i)
      exact ⟨taken, rfl, Option.isSome_iff_exists.mp (marked.filled i taken)⟩
    · exact fun both => both.2.1
  rcases marked.tracks.search test with ⟨i, d, found, at', live⟩ | ⟨missing, dead⟩
  · exact .inl ⟨records i, d, by rw [seek, found, Option.map_some], (occupants_eq_some_iff.mp at').2.2, live⟩
  · exact .inr ⟨by rw [seek, missing, Option.map_none], dead⟩

/-- A search for the mark finds a blank record, if a place is free. -/
theorem seek_mark (marked : Marked key data blank name records next ledger) {free : Fin n}
    (isFree : key (records free) = key blank) :
    seek key records (key blank) = some blank ∧ ledger.find (key blank) = none := by
  have some : ((List.finRange n).find? (fun i => key (records i) = key blank)).isSome := by
    rw [List.find?_isSome]
    exact ⟨free, List.mem_finRange free, by simp [isFree]⟩
  obtain ⟨i, found⟩ := Option.isSome_iff_exists.mp some
  have hit : key (records i) = key blank := by simpa using List.find?_some found
  refine ⟨?_, Ledger.find_eq_none_iff.mpr marked.blank_not_live⟩
  rw [seek, found, Option.map_some, marked.blanks i hit]

end Marked

end Marked

/-- The ids of a 32-bit counter that starts at `first`. -/
def wrapped (first number : ℕ) : UInt32 := UInt32.ofNat (first + number)

theorem wrapped_succ (first number : ℕ) : wrapped first number + 1 = wrapped first (number + 1) := by
  simp only [wrapped, UInt32.ofNat_add, ← Nat.add_assoc, UInt32.ofNat_one]

theorem wrapped_eq_iff {first a b : ℕ} : wrapped first a = wrapped first b ↔ a ≡ b [MOD 2 ^ 32] := by
  rw [wrapped, wrapped, ← UInt32.toNat_inj, UInt32.toNat_ofNat', UInt32.toNat_ofNat']
  exact ⟨fun same => Nat.ModEq.add_left_cancel' first same, fun same => same.add_left first⟩

theorem wrapped_eq_zero_iff {first number : ℕ} : wrapped first number = 0 ↔ 2 ^ 32 ∣ first + number := by
  rw [wrapped, ← UInt32.toNat_inj, UInt32.toNat_ofNat']
  exact (Nat.dvd_iff_mod_eq_zero ..).symm

theorem wrapped_ne {first a b : ℕ} (less : b < a) (few : a < 2 ^ 32) : wrapped first a ≠ wrapped first b := by
  rw [Ne, wrapped_eq_iff, Nat.ModEq, Nat.mod_eq_of_lt few, Nat.mod_eq_of_lt (less.trans few)]
  exact less.ne'

section Counter

variable {first : ℕ} {places : Fin n → Option (UInt32 × α)} {next : UInt32} {ledger : Ledger UInt32 α}

namespace Tracks

theorem ne_zero_iff (tracks : Tracks (wrapped first) places next ledger) :
    next ≠ 0 ↔ ¬ 2 ^ 32 ∣ first + ledger.made := by
  rw [tracks.counter, Ne, wrapped_eq_zero_iff]

theorem unused_iff (tracks : Tracks (wrapped first) places next ledger) :
    next ∉ ledger.ids ↔ ∀ e ∈ ledger.live, ¬ ledger.made ≡ e.number [MOD 2 ^ 32] := by
  simp only [tracks.fresh_iff, Ne, wrapped_eq_iff]

theorem ne_zero_of_few (tracks : Tracks (wrapped first) places next ledger) (positive : 0 < first)
    (few : first + ledger.made < 2 ^ 32) : next ≠ 0 :=
  tracks.ne_zero_iff.mpr (Nat.not_dvd_of_pos_of_lt (by omega) few)

theorem unused_of_few (tracks : Tracks (wrapped first) places next ledger) (few : ledger.made < 2 ^ 32) :
    next ∉ ledger.ids :=
  tracks.fresh_iff.mpr fun e live => wrapped_ne (tracks.numbered e live).2 few

end Tracks

end Counter

end Iland.Data

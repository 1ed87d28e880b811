import Mathlib.Data.Finset.Card
import Mathlib.Data.Finset.Insert
import Mathlib.Data.Set.Function

namespace Iland.Data

/-! Sets of switches with a counter, as input devices keep them.

Switching a switch to where it is changes nothing and is not reported.
`Tracks` says that the switches show a set of keys, each through its image
under a map; it survives as long as no two keys meet in one switch.
-/

structure Toggles (ι : Type*) where
  on : ι → Bool
  count : Int

namespace Toggles

variable {ι κ : Type*} [DecidableEq ι] (t : Toggles ι)

def off : Toggles ι := ⟨fun _ => false, 0⟩

def toggle (i : ι) (pressed : Bool) : Option (Toggles ι) :=
  if t.on i = pressed then none
  else some ⟨Function.update t.on i pressed, if pressed then t.count + 1 else t.count - 1⟩

def set (i : ι) (pressed : Bool) : Toggles ι := (t.toggle i pressed).getD t

theorem toggle_of_same {i : ι} {pressed : Bool} (same : t.on i = pressed) : t.toggle i pressed = none :=
  if_pos same

theorem toggle_of_changes {i : ι} {pressed : Bool} (changes : t.on i ≠ pressed) :
    t.toggle i pressed = some (t.set i pressed) := by
  simp only [set, toggle, if_neg changes, Option.getD_some]

theorem set_of_same {i : ι} {pressed : Bool} (same : t.on i = pressed) : t.set i pressed = t := by
  simp only [set, t.toggle_of_same same, Option.getD_none]

theorem on_set (i : ι) (pressed : Bool) : (t.set i pressed).on = Function.update t.on i pressed := by
  by_cases same : t.on i = pressed
  · rw [t.set_of_same same, ← same, Function.update_eq_self]
  · simp only [set, toggle, if_neg same, Option.getD_some]

variable [DecidableEq κ] {f : κ → ι} {held : Finset κ} {k : κ}

def hold (held : Finset κ) (k : κ) (pressed : Bool) : Finset κ :=
  if pressed then insert k held else held.erase k

structure Tracks (f : κ → ι) (held : Finset κ) (t : Toggles ι) : Prop where
  on_iff : ∀ i, t.on i = true ↔ ∃ k ∈ held, f k = i
  injective : Set.InjOn f held
  count : t.count = held.card

def Clear (f : κ → ι) (held : Finset κ) (k : κ) : Prop := ∀ other ∈ held, f other = f k → other = k

omit [DecidableEq ι] [DecidableEq κ] in
theorem tracks_off (f : κ → ι) : Tracks f ∅ (off : Toggles ι) where
  on_iff := by simp [off]
  injective := by simp
  count := rfl

variable {t}

omit [DecidableEq ι] in
theorem Tracks.on_eq (tracks : t.Tracks f held) (clear : Clear f held k) : t.on (f k) = decide (k ∈ held) := by
  rw [Bool.eq_iff_iff, tracks.on_iff, decide_eq_true_iff]
  constructor
  · intro shown
    obtain ⟨other, member, meets⟩ := shown
    exact clear other member meets ▸ member
  · intro member
    exact ⟨k, member, rfl⟩

omit [DecidableEq ι] [DecidableEq κ] in
theorem Tracks.on_of_meets (tracks : t.Tracks f held) {other : κ} (member : other ∈ held) (meets : f other = f k) :
    t.on (f k) = true := (tracks.on_iff _).mpr ⟨other, member, meets⟩

omit [DecidableEq ι] in
/-- A switch shows its own key exactly if no other key that is held meets it. -/
theorem Tracks.on_eq_iff (tracks : t.Tracks f held) : t.on (f k) = decide (k ∈ held) ↔ Clear f held k := by
  refine ⟨?_, tracks.on_eq⟩
  intro shows other member meets
  have down := tracks.on_of_meets member meets
  rw [shows, decide_eq_true_iff] at down
  exact tracks.injective member down meets

theorem mem_hold {other : κ} {pressed : Bool} :
    other ∈ hold held k pressed ↔ if other = k then pressed = true else other ∈ held := by
  cases pressed <;> by_cases same : other = k <;> simp [hold, same]

theorem hold_of_same {pressed : Bool} (same : decide (k ∈ held) = pressed) : hold held k pressed = held := by
  cases pressed with
  | true => exact Finset.insert_eq_of_mem (of_decide_eq_true same)
  | false => exact Finset.erase_eq_of_notMem (of_decide_eq_false same)

theorem card_hold_of_changes {pressed : Bool} (changes : decide (k ∈ held) ≠ pressed) :
    ((hold held k pressed).card : Int) = if pressed then (held.card : Int) + 1 else held.card - 1 := by
  cases pressed with
  | true =>
      have absent : k ∉ held := by simpa using changes
      simp [hold, Finset.card_insert_of_notMem absent]
  | false =>
      have member : k ∈ held := by simpa using changes
      have some := Finset.card_pos.mpr ⟨k, member⟩
      simp only [hold, Bool.false_eq_true, if_false, Finset.card_erase_of_mem member]
      omega

theorem Tracks.set (tracks : t.Tracks f held) (clear : Clear f held k) (pressed : Bool) :
    (t.set (f k) pressed).Tracks f (hold held k pressed) where
  on_iff := by
    intro i
    rw [t.on_set, Function.update_apply]
    by_cases here : i = f k
    · rw [if_pos here]
      constructor
      · intro down
        exact ⟨k, mem_hold.mpr (by simp [down]), here.symm⟩
      · intro shown
        obtain ⟨other, member, meets⟩ := shown
        rw [mem_hold] at member
        by_cases same : other = k
        · simpa [same] using member
        · rw [if_neg same] at member
          exact absurd (clear other member (meets.trans here)) same
    · rw [if_neg here, tracks.on_iff]
      have elsewhere (other : κ) (meets : f other = i) : other ≠ k := fun same => here (same ▸ meets.symm)
      constructor
      · intro shown
        obtain ⟨other, member, meets⟩ := shown
        exact ⟨other, mem_hold.mpr (by simpa [elsewhere other meets] using member), meets⟩
      · intro shown
        obtain ⟨other, member, meets⟩ := shown
        rw [mem_hold, if_neg (elsewhere other meets)] at member
        exact ⟨other, member, meets⟩
  injective := by
    intro a memberA b memberB meets
    rw [Finset.mem_coe, mem_hold] at memberA memberB
    by_cases sameA : a = k <;> by_cases sameB : b = k
    · rw [sameA, sameB]
    · rw [if_neg sameB] at memberB
      exact absurd (clear b memberB (meets.symm.trans (congrArg f sameA))) sameB
    · rw [if_neg sameA] at memberA
      exact absurd (clear a memberA (meets.trans (congrArg f sameB))) sameA
    · rw [if_neg sameA] at memberA
      rw [if_neg sameB] at memberB
      exact tracks.injective memberA memberB meets
  count := by
    have on := tracks.on_eq clear
    by_cases same : t.on (f k) = pressed
    · rw [t.set_of_same same, hold_of_same (on ▸ same), tracks.count]
    · rw [card_hold_of_changes (on ▸ same), ← tracks.count]
      simp only [Toggles.set, toggle, if_neg same, Option.getD_some]

/-! Moves one after the other. -/

/-- No move meets, in a switch, another key that is held. -/
def ClearThroughout (f : κ → ι) : Finset κ → List (κ × Bool) → Prop
  | _, [] => True
  | held, (k, pressed) :: rest => Clear f held k ∧ ClearThroughout f (hold held k pressed) rest

/-- The moves that change their key. -/
def changes : Finset κ → List (κ × Bool) → List (κ × Bool)
  | _, [] => []
  | held, (k, pressed) :: rest =>
      (if decide (k ∈ held) = pressed then [] else [(k, pressed)]) ++ changes (hold held k pressed) rest

/-- The values alternate, and `next` is the first. -/
def Alternates : Bool → List Bool → Prop
  | _, [] => True
  | next, value :: rest => value = next ∧ Alternates (!next) rest

/-- Whatever moves are made, the changes of one key alternate. -/
theorem alternates_changes (held : Finset κ) (moves : List (κ × Bool)) (k : κ) :
    Alternates (!decide (k ∈ held)) (((changes held moves).filter (fun move => move.1 = k)).map Prod.snd) := by
  induction moves generalizing held with
  | nil => trivial
  | cons move rest ih =>
      obtain ⟨moved, pressed⟩ := move
      have later := ih (hold held moved pressed)
      rw [changes, List.filter_append, List.map_append]
      by_cases own : moved = k
      · subst own
        have now : decide (moved ∈ hold held moved pressed) = pressed := by simp [mem_hold]
        rw [now] at later
        by_cases same : decide (moved ∈ held) = pressed
        · rw [if_pos same, same]
          exact later
        · have change : (!decide (moved ∈ held)) = pressed := Bool.not_eq.mpr same
          simpa [if_neg same, Alternates, change] using later
      · have elsewhere : decide (k ∈ hold held moved pressed) = decide (k ∈ held) := by
          simp [mem_hold, Ne.symm own]
        rw [elsewhere] at later
        split
        · exact later
        · simpa [own] using later

end Toggles

end Iland.Data

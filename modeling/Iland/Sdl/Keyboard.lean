import Iland.Libinput.Injection
import Iland.Sdl.Input

namespace Iland.Sdl

open Iland.Data
open Iland.Data.Toggles
open Iland.Libinput
open Iland.Libinput.Globals

/-! Which key events a client gets for the keys that go down and up.

`hid_to_evdev` gives one code to the keys P (`0x13`) and R (`0x15`), so the two
share a bit of `key_state_map`.  Everything else keeps the keys apart.
-/

/-- A key that goes down or up at some time, and not by repetition. -/
structure KeyMove where
  scancode : ℕ
  down : Bool
  timeUsec : UInt64

/-- What an event of the keyboard tells: the key, its state and how many are
held. -/
abbrev KeyReport := UInt32 × KeyState × Int

def keyReport : Event → Option KeyReport
  | .keyboardKey _ key state seatKeyCount _ => some (key, state, seatKeyCount)
  | _ => none

def Mapped (scancode : ℕ) : Prop := scancode < 256 ∧ hidToEvdev scancode ≠ 0

instance : DecidablePred Mapped := fun _ => inferInstanceAs (Decidable (_ ∧ _))

/-- What a backend without confusions reports for one move while `held` are the
mapped keys held down. -/
def reportDue (held : Finset ℕ) (move : KeyMove) : List KeyReport :=
  if Mapped move.scancode ∧ decide (move.scancode ∈ held) ≠ move.down then
    [(hidToEvdev move.scancode, keyState move.down, (hold held move.scancode move.down).card)]
  else []

def heldAfter (held : Finset ℕ) (move : KeyMove) : Finset ℕ :=
  if Mapped move.scancode then hold held move.scancode move.down else held

def reportsDue : Finset ℕ → List KeyMove → List (List KeyReport)
  | _, [] => []
  | held, move :: rest => reportDue held move :: reportsDue (heldAfter held move) rest

def KeyMove.handled (move : KeyMove) (rawMouseActive : Bool) (g : Globals) : Globals :=
  handleSdlEvent rawMouseActive g move.timeUsec (.key move.scancode move.down false)

def reports (rawMouseActive : Bool) : Globals → List KeyMove → List (List KeyReport)
  | _, [] => []
  | g, move :: rest =>
      ((move.handled rawMouseActive g).events.drop g.events.length).filterMap keyReport ::
        reports rawMouseActive (move.handled rawMouseActive g) rest

/-- No move of P while R is held, nor the other way round. -/
def PAndRApart : Finset ℕ → List KeyMove → Prop
  | _, [] => True
  | held, move :: rest =>
      (move.scancode = 0x13 → 0x15 ∉ held) ∧ (move.scancode = 0x15 → 0x13 ∉ held) ∧
        PAndRApart (heldAfter held move) rest

def keySwitch (scancode : ℕ) : Fin 1024 := keyBit (hidToEvdev scancode)

theorem mem_table {scancode : ℕ} (mapped : Mapped scancode) :
    (scancode, hidToEvdev scancode) ∈ hidToEvdevTable := by
  have coded := mapped.2
  simp only [hidToEvdev] at coded ⊢
  cases found : hidToEvdevTable.find? (fun entry => entry.1 == scancode) with
  | none => simp [found] at coded
  | some entry =>
      have same : entry.1 = scancode := by simpa using List.find?_some found
      simpa [← same] using List.mem_of_find?_eq_some found

theorem switches_table : ∀ x ∈ hidToEvdevTable, ∀ y ∈ hidToEvdevTable, keyBit x.2 = keyBit y.2 →
    x.1 = y.1 ∨ x.1 = 0x13 ∧ y.1 = 0x15 ∨ x.1 = 0x15 ∧ y.1 = 0x13 := by
  decide +kernel

theorem keySwitch_eq {a b : ℕ} (mappedA : Mapped a) (mappedB : Mapped b) (meets : keySwitch a = keySwitch b) :
    a = b ∨ a = 0x13 ∧ b = 0x15 ∨ a = 0x15 ∧ b = 0x13 :=
  switches_table _ (mem_table mappedA) _ (mem_table mappedB) meets

theorem clear_iff {held : Finset ℕ} {scancode : ℕ} (all : ∀ k ∈ held, Mapped k) (mapped : Mapped scancode) :
    Clear keySwitch held scancode ↔
      (scancode = 0x13 → 0x15 ∉ held) ∧ (scancode = 0x15 → 0x13 ∉ held) := by
  constructor
  · intro clear
    refine ⟨?_, ?_⟩
    · rintro rfl member
      exact absurd (clear 0x15 member (by decide +kernel)) (by decide)
    · rintro rfl member
      exact absurd (clear 0x13 member (by decide +kernel)) (by decide)
  · intro apart other member meets
    rcases keySwitch_eq (all other member) mapped meets with same | ⟨rfl, rfl⟩ | ⟨rfl, rfl⟩
    · exact same
    · exact absurd member (apart.2 rfl)
    · exact absurd member (apart.1 rfl)

structure Shows (held : Finset ℕ) (g : Globals) : Prop where
  tracks : g.keys.Tracks keySwitch held
  mapped : ∀ k ∈ held, Mapped k

variable {held : Finset ℕ} {g : Globals} {move : KeyMove} {rawMouseActive : Bool}

theorem handled_mapped (mapped : Mapped move.scancode) :
    move.handled rawMouseActive g =
      g.sdlInjectKey (hidToEvdev move.scancode) move.down move.timeUsec := by
  simp [KeyMove.handled, handleSdlEvent, mapped.1, mapped.2]

theorem handled_unmapped (unmapped : ¬ Mapped move.scancode) : move.handled rawMouseActive g = g := by
  have none : (if move.scancode < 256 then hidToEvdev move.scancode else 0) = 0 := by
    split
    · rename_i small
      exact not_not.mp (fun coded => unmapped ⟨small, coded⟩)
    · rfl
  simp [KeyMove.handled, handleSdlEvent, none]

theorem reports_mapped (mapped : Mapped move.scancode) :
    ((move.handled rawMouseActive g).events.drop g.events.length).filterMap keyReport =
      if g.keys.on (keySwitch move.scancode) = move.down then []
      else [(hidToEvdev move.scancode, keyState move.down, (g.keys.set (keySwitch move.scancode) move.down).count)] := by
  obtain ⟨_, added, device, announced, events⟩ :=
    g.sdlInjectKey_spec (hidToEvdev move.scancode) move.down move.timeUsec
  rw [handled_mapped mapped, filterMap_added (fun _ => rfl) announced events, keySwitch]
  split <;> rfl

theorem report_iff (shown : Shows held g) :
    ((move.handled rawMouseActive g).events.drop g.events.length).filterMap keyReport = reportDue held move ↔
      (move.scancode = 0x13 → 0x15 ∉ held) ∧ (move.scancode = 0x15 → 0x13 ∉ held) := by
  by_cases mapped : Mapped move.scancode
  · rw [← clear_iff shown.mapped mapped, reports_mapped mapped]
    simp only [reportDue, mapped, true_and]
    constructor
    · intro right
      refine shown.tracks.on_eq_iff.mp ?_
      revert right
      cases g.keys.on (keySwitch move.scancode) <;> cases decide (move.scancode ∈ held) <;> cases move.down <;> simp
    · intro clear
      rw [shown.tracks.on_eq clear]
      by_cases same : decide (move.scancode ∈ held) = move.down
      · rw [if_pos same, if_neg (not_not.mpr same)]
      · rw [if_neg same, if_pos same, (shown.tracks.set clear move.down).count]
  · have notP : move.scancode ≠ 0x13 := fun same => mapped (same ▸ by decide +kernel)
    have notR : move.scancode ≠ 0x15 := fun same => mapped (same ▸ by decide +kernel)
    simp [handled_unmapped mapped, reportDue, mapped, notP, notR]

theorem Shows.handled (shown : Shows held g) (apart : move.scancode = 0x13 → 0x15 ∉ held)
    (apart' : move.scancode = 0x15 → 0x13 ∉ held) :
    Shows (heldAfter held move) (move.handled rawMouseActive g) := by
  by_cases mapped : Mapped move.scancode
  · have clear := (clear_iff shown.mapped mapped).mpr ⟨apart, apart'⟩
    rw [handled_mapped mapped, heldAfter, if_pos mapped]
    refine ⟨?_, ?_⟩
    · rw [(g.sdlInjectKey_spec _ _ _).1]
      exact shown.tracks.set clear move.down
    · intro k member
      rw [mem_hold] at member
      split at member
      · rename_i same
        exact same ▸ mapped
      · exact shown.mapped k member
  · rw [handled_unmapped mapped, heldAfter, if_neg mapped]
    exact shown

theorem reports_iff (shown : Shows held g) (moves : List KeyMove) :
    reports rawMouseActive g moves = reportsDue held moves ↔ PAndRApart held moves := by
  induction moves generalizing held g with
  | nil => simp [reports, reportsDue, PAndRApart]
  | cons move rest ih =>
      simp only [reports, reportsDue, PAndRApart, List.cons.injEq, report_iff shown, and_assoc]
      refine and_congr_right fun apart => and_congr_right fun apart' => ?_
      exact ih (shown.handled apart apart')

/-- The client hears of each key that goes down or up, and of nothing else,
exactly when no move of P or R happens while the other is held. -/
theorem keyboard_consistent_iff (g : Globals) (fresh : g.keys = .off) (moves : List KeyMove) :
    reports rawMouseActive g moves = reportsDue ∅ moves ↔ PAndRApart ∅ moves :=
  reports_iff ⟨fresh ▸ tracks_off keySwitch, by simp⟩ moves

theorem keyboard_consistent_iff_shift :
    reports false .initial [⟨0xE1, true, 1⟩, ⟨0x13, true, 2⟩, ⟨0x13, false, 3⟩, ⟨0x15, true, 4⟩] =
        reportsDue ∅ [⟨0xE1, true, 1⟩, ⟨0x13, true, 2⟩, ⟨0x13, false, 3⟩, ⟨0x15, true, 4⟩] ↔
      PAndRApart ∅ [⟨0xE1, true, 1⟩, ⟨0x13, true, 2⟩, ⟨0x13, false, 3⟩, ⟨0x15, true, 4⟩] :=
  keyboard_consistent_iff .initial rfl _

/-- With P held, R goes down unnoticed. -/
theorem held_p_suppresses_r :
    reports false .initial [⟨0x13, true, 1⟩, ⟨0x15, true, 2⟩] = [[(19, .pressed, 1)], []] ∧
      reportsDue ∅ [⟨0x13, true, 1⟩, ⟨0x15, true, 2⟩] = [[(19, .pressed, 1)], [(19, .pressed, 2)]] ∧
      reports false .initial [⟨0x13, true, 1⟩, ⟨0x15, true, 2⟩] ≠
        reportsDue ∅ [⟨0x13, true, 1⟩, ⟨0x15, true, 2⟩] := by
  decide +kernel

end Iland.Sdl

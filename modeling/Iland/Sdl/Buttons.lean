import Iland.Libinput.Injection
import Iland.Sdl.Input

namespace Iland.Sdl

open Iland.Data
open Iland.Libinput
open Iland.Libinput.Globals

/-! The two paths of a mouse button: the event tap and SDL.

Both number the buttons in their own way and translate the number to an evdev
code.  They give the right and the centre button each other's code.
-/

inductive MouseButton where
  | left
  | right
  | centre
  | extra (k : ℕ) (isExtra : 3 ≤ k)
deriving DecidableEq

def MouseButton.cgNumber : MouseButton → Int
  | .left => 0
  | .right => 1
  | .centre => 2
  | .extra k _ => k

def MouseButton.sdlNumber : MouseButton → Int
  | .left => 1
  | .right => 3
  | .centre => 2
  | .extra k _ => k + 1

structure ButtonMove where
  button : MouseButton
  down : Bool
  timeUsec : UInt64

/-- What an event of a button tells: its code, its state and how many are held. -/
abbrev ButtonReport := Int × KeyState × Int

def buttonReport : Event → Option ButtonReport
  | .pointerButton _ button state seatButtonCount _ => some (button, state, seatButtonCount)
  | _ => none

def ButtonMove.tapped (move : ButtonMove) (g : Globals) : Globals :=
  rawMouseTapCb g move.timeUsec move.button.cgNumber move.down

def ButtonMove.handled (move : ButtonMove) (g : Globals) : Globals :=
  handleSdlEvent false g move.timeUsec (.mouseButton move.button.sdlNumber move.down)

def buttonReports (path : ButtonMove → Globals → Globals) : Globals → List ButtonMove → List (List ButtonReport)
  | _, [] => []
  | g, move :: rest =>
      ((path move g).events.drop g.events.length).filterMap buttonReport :: buttonReports path (path move g) rest

def rightBit : Fin 32 := buttonBit 0x111
def centreBit : Fin 32 := buttonBit 0x112

/-- No move of the right or the centre button finds a switch to move: both
switches are where the move would put them. -/
def RightAndCentreSettled : Toggles (Fin 32) → List ButtonMove → Prop
  | _, [] => True
  | buttons, move :: rest =>
      (move.button = .right ∨ move.button = .centre →
        buttons.on rightBit = move.down ∧ buttons.on centreBit = move.down) ∧
      RightAndCentreSettled (buttons.set (buttonBit (sdlButtonCode move.button.sdlNumber)) move.down) rest

theorem buttonReport_inject (g : Globals) (code : Int) (down : Bool) (timeUsec : UInt64) :
    ((g.sdlInjectButton code down timeUsec).events.drop g.events.length).filterMap buttonReport =
      if g.buttons.on (buttonBit code) = down then []
      else [(code, keyState down, (g.buttons.set (buttonBit code) down).count)] := by
  obtain ⟨_, added, device, announced, events⟩ := g.sdlInjectButton_spec code down timeUsec
  rw [filterMap_added (fun _ => rfl) announced events]
  split <;> rfl

variable {tap sdl : Globals} {move : ButtonMove}

theorem buttons_tapped : (move.tapped tap).buttons =
    tap.buttons.set (buttonBit (tapButtonCode move.button.cgNumber)) move.down :=
  (tap.sdlInjectButton_spec _ _ _).1

theorem buttons_handled : (move.handled sdl).buttons =
    sdl.buttons.set (buttonBit (sdlButtonCode move.button.sdlNumber)) move.down :=
  (sdl.sdlInjectButton_spec _ _ _).1

theorem reports_crossed (same : tap.buttons = sdl.buttons)
    (crossed : tapButtonCode move.button.cgNumber ≠ sdlButtonCode move.button.sdlNumber) :
    ((move.tapped tap).events.drop tap.events.length).filterMap buttonReport =
        ((move.handled sdl).events.drop sdl.events.length).filterMap buttonReport ↔
      sdl.buttons.on (buttonBit (tapButtonCode move.button.cgNumber)) = move.down ∧
        sdl.buttons.on (buttonBit (sdlButtonCode move.button.sdlNumber)) = move.down := by
  simp only [ButtonMove.tapped, ButtonMove.handled, rawMouseTapCb, handleSdlEvent, Bool.false_eq_true, if_false,
    buttonReport_inject, same]
  split_ifs with tapSame sdlSame sdlSame <;> simp_all

theorem reports_straight (same : tap.buttons = sdl.buttons)
    (straight : tapButtonCode move.button.cgNumber = sdlButtonCode move.button.sdlNumber) :
    ((move.tapped tap).events.drop tap.events.length).filterMap buttonReport =
      ((move.handled sdl).events.drop sdl.events.length).filterMap buttonReport := by
  simp only [ButtonMove.tapped, ButtonMove.handled, rawMouseTapCb, handleSdlEvent, Bool.false_eq_true, if_false,
    buttonReport_inject, same, straight]

theorem crossed_cases (button : MouseButton) :
    (button = .right ∧ tapButtonCode button.cgNumber = 0x112 ∧ sdlButtonCode button.sdlNumber = 0x111) ∨
    (button = .centre ∧ tapButtonCode button.cgNumber = 0x111 ∧ sdlButtonCode button.sdlNumber = 0x112) ∨
    (button ≠ .right ∧ button ≠ .centre ∧ tapButtonCode button.cgNumber = sdlButtonCode button.sdlNumber) := by
  cases button with
  | left => exact .inr (.inr ⟨by decide, by decide, rfl⟩)
  | right => exact .inl ⟨rfl, rfl, rfl⟩
  | centre => exact .inr (.inl ⟨rfl, rfl, rfl⟩)
  | extra k isExtra =>
      refine .inr (.inr ⟨by simp, by simp, ?_⟩)
      simp only [tapButtonCode, sdlButtonCode, MouseButton.cgNumber, MouseButton.sdlNumber]
      split_ifs <;> omega

theorem report_agrees_iff (move : ButtonMove) (same : tap.buttons = sdl.buttons) :
    (((move.tapped tap).events.drop tap.events.length).filterMap buttonReport =
        ((move.handled sdl).events.drop sdl.events.length).filterMap buttonReport ↔
      (move.button = .right ∨ move.button = .centre →
        sdl.buttons.on rightBit = move.down ∧ sdl.buttons.on centreBit = move.down)) ∧
    ((move.button = .right ∨ move.button = .centre →
        sdl.buttons.on rightBit = move.down ∧ sdl.buttons.on centreBit = move.down) →
      (move.tapped tap).buttons = (move.handled sdl).buttons) := by
  rw [buttons_tapped, buttons_handled, same]
  rcases crossed_cases move.button with ⟨right, tapCode, sdlCode⟩ | ⟨centre, tapCode, sdlCode⟩ |
    ⟨notRight, notCentre, straight⟩
  · rw [reports_crossed same (by rw [tapCode, sdlCode]; decide), tapCode, sdlCode]
    simp only [right, true_or, true_imp_iff]
    exact ⟨and_comm, fun settled =>
      (sdl.buttons.set_of_same settled.2).trans (sdl.buttons.set_of_same settled.1).symm⟩
  · rw [reports_crossed same (by rw [tapCode, sdlCode]; decide), tapCode, sdlCode]
    simp only [centre, or_true, true_imp_iff]
    exact ⟨Iff.rfl, fun settled =>
      (sdl.buttons.set_of_same settled.1).trans (sdl.buttons.set_of_same settled.2).symm⟩
  · simp [reports_straight same straight, straight, notRight, notCentre]

theorem buttonReports_iff (same : tap.buttons = sdl.buttons) (moves : List ButtonMove) :
    buttonReports ButtonMove.tapped tap moves = buttonReports ButtonMove.handled sdl moves ↔
      RightAndCentreSettled sdl.buttons moves := by
  induction moves generalizing tap sdl with
  | nil => simp [buttonReports, RightAndCentreSettled]
  | cons move rest ih =>
      obtain ⟨first, next⟩ := report_agrees_iff move same
      simp only [buttonReports, RightAndCentreSettled, List.cons.injEq, first, ← buttons_handled]
      exact and_congr_right fun settled => ih (next settled)

/-- The two paths report the same buttons exactly when the right and the centre
button never move a switch. -/
theorem buttons_agree_iff (g : Globals) (moves : List ButtonMove) :
    buttonReports ButtonMove.tapped g moves = buttonReports ButtonMove.handled g moves ↔
      RightAndCentreSettled g.buttons moves :=
  buttonReports_iff rfl moves

/-- A right click is a middle click on the other path. -/
theorem right_click_crossed :
    buttonReports ButtonMove.tapped .initial [⟨.right, true, 1⟩] = [[(0x112, .pressed, 1)]] ∧
      buttonReports ButtonMove.handled .initial [⟨.right, true, 1⟩] = [[(0x111, .pressed, 1)]] ∧
      buttonReports ButtonMove.tapped .initial [⟨.right, true, 1⟩] ≠
        buttonReports ButtonMove.handled .initial [⟨.right, true, 1⟩] := by
  decide +kernel

end Iland.Sdl

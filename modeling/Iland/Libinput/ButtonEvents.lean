import Iland.Libinput.Injection

namespace Iland.Libinput

open Iland.Data
open Iland.Data.Toggles
open Iland.Libinput.Globals

/-! The events of the mouse buttons.

The backends can produce the codes `0x110` to `0x20E`.  The mask has 32 bits,
so each bit stands for up to eight of them.
-/

/-- A call of `libinput_sdl_inject_button` with the code `0x110 + k`. -/
structure ButtonCall where
  k : Fin 255
  pressed : Bool
  timeUsec : UInt64

def buttonCode (k : Fin 255) : Int := 0x110 + (k.val : Int)

structure ButtonEvent where
  button : Int
  state : KeyState
  seatButtonCount : Int
deriving DecidableEq

def Event.buttonEvent : Event → Option ButtonEvent
  | .pointerButton _ button state seatButtonCount _ => some ⟨button, state, seatButtonCount⟩
  | _ => none

namespace ButtonCall

def inject (call : ButtonCall) (g : Globals) : Globals :=
  g.sdlInjectButton (buttonCode call.k) call.pressed call.timeUsec

/-- The POINTER_BUTTON events that a call queues. -/
def queued (call : ButtonCall) (g : Globals) : List ButtonEvent :=
  ((call.inject g).events.drop g.events.length).filterMap Event.buttonEvent

def move (call : ButtonCall) : Fin 255 × Bool := (call.k, call.pressed)

/-- While `held` are held, a call queues one event if it changes its own button
and none otherwise, and the event tells how many buttons are held after it. -/
structure Answered (held : Finset (Fin 255)) (g : Globals) (call : ButtonCall) : Prop where
  onePerChange : (call.queued g).map ButtonEvent.button =
    if decide (call.k ∈ held) = call.pressed then [] else [buttonCode call.k]
  counted : ∀ ev ∈ call.queued g, ev.seatButtonCount = (hold held call.k call.pressed).card

end ButtonCall

def AllAnswered : Finset (Fin 255) → Globals → List ButtonCall → Prop
  | _, _, [] => True
  | held, g, call :: rest =>
      call.Answered held g ∧ AllAnswered (hold held call.k call.pressed) (call.inject g) rest

def queuedEvents : Globals → List ButtonCall → List ButtonEvent
  | _, [] => []
  | g, call :: rest => call.queued g ++ queuedEvents (call.inject g) rest

/-- The states in the events of one button, `true` for PRESSED. -/
def statesOf (k : Fin 255) (events : List ButtonEvent) : List Bool :=
  (events.filter (fun ev => ev.button = buttonCode k)).map (fun ev => ev.state = .pressed)

structure ButtonsConsistent (g : Globals) (calls : List ButtonCall) : Prop where
  alternate : ∀ k, Alternates true (statesOf k (queuedEvents g calls))
  answered : AllAnswered ∅ g calls

/-- No button moves while another one is held whose code is the same modulo 32. -/
def TwinsApart : Finset (Fin 255) → List ButtonCall → Prop
  | _, [] => True
  | held, call :: rest =>
      (∀ other ∈ held, (other.val : ℕ) % 32 = call.k.val % 32 → other = call.k) ∧
        TwinsApart (hold held call.k call.pressed) rest

def buttonSwitch (k : Fin 255) : Fin 32 := buttonBit (buttonCode k)

variable {held : Finset (Fin 255)} {g : Globals} {call : ButtonCall} {calls : List ButtonCall}

theorem buttonSwitch_eq_iff {a b : Fin 255} : buttonSwitch a = buttonSwitch b ↔ a.val % 32 = b.val % 32 := by
  simp only [buttonSwitch, buttonBit, buttonCode, Fin.mk.injEq]
  omega

theorem twinsApart_iff : TwinsApart held calls ↔ ClearThroughout buttonSwitch held (calls.map ButtonCall.move) := by
  induction calls generalizing held with
  | nil => exact Iff.rfl
  | cons call rest ih =>
      simp only [TwinsApart, List.map_cons, ButtonCall.move, ClearThroughout, Clear, buttonSwitch_eq_iff, ih]

theorem ButtonCall.queued_eq (call : ButtonCall) (g : Globals) :
    call.queued g =
      if g.buttons.on (buttonSwitch call.k) = call.pressed then []
      else [⟨buttonCode call.k, keyState call.pressed, (g.buttons.set (buttonSwitch call.k) call.pressed).count⟩] := by
  obtain ⟨_, added, device, announced, events⟩ :=
    g.sdlInjectButton_spec (buttonCode call.k) call.pressed call.timeUsec
  rw [queued, inject, filterMap_added (fun _ => rfl) announced events, buttonSwitch]
  split <;> rfl

theorem ButtonCall.buttons_inject (call : ButtonCall) (g : Globals) :
    (call.inject g).buttons = g.buttons.set (buttonSwitch call.k) call.pressed :=
  (g.sdlInjectButton_spec _ _ _).1

theorem answered_iff (tracks : g.buttons.Tracks buttonSwitch held) :
    call.Answered held g ↔ Clear buttonSwitch held call.k := by
  rw [← tracks.on_eq_iff]
  constructor
  · intro answered
    have one := answered.onePerChange
    rw [call.queued_eq g] at one
    revert one
    cases g.buttons.on (buttonSwitch call.k) <;> cases decide (call.k ∈ held) <;> cases call.pressed <;> simp
  · intro shows
    have clear := tracks.on_eq_iff.mp shows
    refine ⟨?_, ?_⟩
    · rw [call.queued_eq g, shows]
      split <;> rfl
    · intro ev member
      rw [call.queued_eq g] at member
      split at member
      · contradiction
      · rw [List.mem_singleton.mp member]
        exact (tracks.set clear call.pressed).count

theorem allAnswered_iff (tracks : g.buttons.Tracks buttonSwitch held) :
    AllAnswered held g calls ↔ ClearThroughout buttonSwitch held (calls.map ButtonCall.move) := by
  induction calls generalizing held g with
  | nil => exact Iff.rfl
  | cons call rest ih =>
      simp only [AllAnswered, List.map_cons, ButtonCall.move, ClearThroughout, answered_iff tracks]
      refine and_congr_right fun clear => ih ?_
      rw [call.buttons_inject]
      exact tracks.set clear call.pressed

/-- While the buttons answer, the events are the changes. -/
theorem statesOf_queuedEvents (tracks : g.buttons.Tracks buttonSwitch held) (k : Fin 255)
    (clear : ClearThroughout buttonSwitch held (calls.map ButtonCall.move)) :
    statesOf k (queuedEvents g calls) =
      ((changes held (calls.map ButtonCall.move)).filter (fun move => move.1 = k)).map Prod.snd := by
  induction calls generalizing held g with
  | nil => rfl
  | cons call rest ih =>
      obtain ⟨now, later⟩ := clear
      have still : (call.inject g).buttons.Tracks buttonSwitch (hold held call.k call.pressed) := by
        rw [call.buttons_inject]
        exact tracks.set now call.pressed
      have tail := ih still later
      have sameCode : buttonCode call.k = buttonCode k ↔ call.k = k := by
        simp only [buttonCode]
        omega
      have head : statesOf k (call.queued g) =
          ((if decide (call.k ∈ held) = call.pressed then [] else [call.move]).filter
            (fun move => move.1 = k)).map Prod.snd := by
        rw [call.queued_eq g, tracks.on_eq now]
        split
        · rfl
        · by_cases own : call.k = k <;> cases down : call.pressed <;>
            simp [statesOf, sameCode, own, ButtonCall.move, down, keyState]
      simp only [queuedEvents, List.map_cons, ButtonCall.move, changes] at head tail ⊢
      rw [List.filter_append, List.map_append, ← head, ← tail, statesOf, List.filter_append, List.map_append]
      rfl

/-- The events of the buttons are consistent exactly when no button moves while
another one with its bit is held. -/
theorem buttons_consistent_iff (g : Globals) (fresh : g.buttons = .off) (calls : List ButtonCall) :
    ButtonsConsistent g calls ↔ TwinsApart ∅ calls := by
  have tracks : g.buttons.Tracks buttonSwitch ∅ := fresh ▸ tracks_off buttonSwitch
  rw [twinsApart_iff]
  constructor
  · intro consistent
    exact (allAnswered_iff tracks).mp consistent.answered
  · intro clear
    refine ⟨?_, (allAnswered_iff tracks).mpr clear⟩
    intro k
    rw [statesOf_queuedEvents tracks k clear]
    exact alternates_changes ∅ _ k

theorem buttons_consistent_iff_click :
    ButtonsConsistent .initial [⟨0, true, 1⟩, ⟨1, true, 2⟩, ⟨0, false, 3⟩] ↔
      TwinsApart ∅ [⟨0, true, 1⟩, ⟨1, true, 2⟩, ⟨0, false, 3⟩] :=
  buttons_consistent_iff .initial rfl _

/-- With button 0 held, button 32 goes down unnoticed. -/
theorem held_button_suppresses_twin :
    queuedEvents .initial [⟨0, true, 1⟩, ⟨32, true, 2⟩] = [⟨0x110, .pressed, 1⟩] ∧
      ¬ ButtonsConsistent .initial [⟨0, true, 1⟩, ⟨32, true, 2⟩] := by
  refine ⟨by decide +kernel, fun consistent => ?_⟩
  have unheard := consistent.answered.2.1.onePerChange
  revert unheard
  decide +kernel

end Iland.Libinput

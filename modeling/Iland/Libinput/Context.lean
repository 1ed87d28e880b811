import Iland.Data.Toggles

namespace Iland.Libinput

open Iland.Data

/-! The input context: devices, the event queue and the pipe that announces it.

Doubles are carried by their bits and never computed with.  Memory for events
is taken to be there.
-/

abbrev Double := UInt64

def maxDevices : ℕ := 8

def inputIpcCapKeyboard : Int := 1
def inputIpcCapPointer : Int := 2

def libinputPointerAxisSourceFinger : Int := 2

/-- `struct libinput_device`, without the fields that only its accessors read. -/
structure LibinputDevice where
  id : Int
  capabilities : Int
  name : String
deriving DecidableEq

inductive KeyState where
  | released
  | pressed
deriving DecidableEq

def keyState (pressed : Bool) : KeyState := if pressed then .pressed else .released

/-- `struct libinput_event`: its type and the fields that type uses.  The device
is given by its id. -/
inductive Event where
  | deviceAdded (device : Option Int)
  | keyboardKey (device : Option Int) (key : UInt32) (state : KeyState) (seatKeyCount : Int) (timeUsec : UInt64)
  | pointerMotion (device : Option Int) (dx dy dxUnaccel dyUnaccel : Double) (timeUsec : UInt64)
  | pointerButton (device : Option Int) (button : Int) (state : KeyState) (seatButtonCount : Int) (timeUsec : UInt64)
  | pointerAxis (device : Option Int) (axisValue : Double × Double) (axisSource : Int) (timeUsec : UInt64)
deriving DecidableEq

inductive Pipe where
  /-- As the program starts, both are 0: bytes go to that descriptor. -/
  | unset
  | closed
  | opened (unread : ℕ)
  /-- Closed, and descriptor 0 with it, which the next pipe is read from. -/
  | closedWithZero
  /-- Read from descriptor 0, which the code takes for no pipe. -/
  | openedAtZero (unread : ℕ)
deriving DecidableEq

structure Globals where
  devices : List LibinputDevice
  /-- The queue from `ev_head` to `ev_tail`. -/
  events : List Event
  pipe : Pipe
  connected : Bool
  /-- `key_state_map`, bit by bit, and `pressed_keys`. -/
  keys : Toggles (Fin 1024)
  /-- `button_state_mask`, bit by bit, and `pressed_buttons`. -/
  buttons : Toggles (Fin 32)

def Globals.initial : Globals where
  devices := []
  events := []
  pipe := .unset
  connected := false
  keys := .off
  buttons := .off

namespace Globals

variable (g : Globals)

def findOrCreateDevice (id caps : Int) (name : String) : Option Int × Globals :=
  match g.devices.find? (fun dev => dev.id == id) with
  | some dev => (some dev.id, g)
  | none =>
      if g.devices.length ≥ maxDevices then (none, g)
      else (some id, { g with devices := g.devices ++ [⟨id, caps, name⟩] })

def append (ev : Event) : Globals := { g with events := g.events ++ [ev] }

def signal : Globals :=
  match g.pipe with
  | .opened unread => { g with pipe := .opened (unread + 1) }
  | .openedAtZero unread => { g with pipe := .openedAtZero (unread + 1) }
  | .unset | .closed | .closedWithZero => g

def queueEvent (ev : Event) : Globals := (g.append ev).signal

def createDevices : List Event × Globals :=
  if g.devices.length = 0 then
    let (kb, g) := g.findOrCreateDevice 0 inputIpcCapKeyboard "SDL Keyboard"
    let (ptr, g) := g.findOrCreateDevice 1 inputIpcCapPointer "SDL Pointer"
    ((kb.toList ++ ptr.toList).map (fun id => .deviceAdded (some id)), g)
  else ([], g)

def ensureDevices : Globals :=
  let (added, g) := g.createDevices
  added.foldl queueEvent g

def keyBit (scancode : UInt32) : Fin 1024 := ⟨(scancode &&& 0x3FF).toNat, by
  have bound : (scancode &&& 0x3FF).toNat ≤ (0x3FF : UInt32).toNat := by
    rw [UInt32.toNat_and]
    exact Nat.and_le_right
  exact Nat.lt_of_le_of_lt bound (by decide)⟩

def buttonBit (button : Int) : Fin 32 := ⟨(button % 32).toNat, by omega⟩

end Globals

inductive Injection where
  | deviceAdded
  | key (scancode : UInt32) (pressed : Bool) (timeUsec : UInt64)
  | motion (dx dy : Double) (timeUsec : UInt64)
  | button (button : Int) (pressed : Bool) (timeUsec : UInt64)
  | axis (axis : Int) (value : Double) (timeUsec : UInt64)

namespace Globals

variable (g : Globals)

/-- What an injection does once the devices exist: the event that it queues. -/
def change : Injection → Option Event × Globals
  | .deviceAdded => (none, g)
  | .key scancode pressed timeUsec =>
      match g.keys.toggle (keyBit scancode) pressed with
      | none => (none, g)
      | some keys =>
          let (dev, g) := ({ g with keys } : Globals).findOrCreateDevice 0 inputIpcCapKeyboard "SDL Keyboard"
          (some (.keyboardKey dev scancode (keyState pressed) keys.count timeUsec), g)
  | .motion dx dy timeUsec =>
      let (dev, g) := g.findOrCreateDevice 1 inputIpcCapPointer "SDL Pointer"
      (some (.pointerMotion dev dx dy dx dy timeUsec), g)
  | .button button pressed timeUsec =>
      match g.buttons.toggle (buttonBit button) pressed with
      | none => (none, g)
      | some buttons =>
          let (dev, g) := ({ g with buttons } : Globals).findOrCreateDevice 1 inputIpcCapPointer "SDL Pointer"
          (some (.pointerButton dev button (keyState pressed) buttons.count timeUsec), g)
  | .axis axis value timeUsec =>
      let (dev, g) := g.findOrCreateDevice 1 inputIpcCapPointer "SDL Pointer"
      (some (.pointerAxis dev (if axis = 0 then value else 0, if axis = 1 then value else 0)
        libinputPointerAxisSourceFinger timeUsec), g)

def inject (injection : Injection) : Globals :=
  match g.ensureDevices.change injection with
  | (none, g) => g
  | (some ev, g) => g.queueEvent ev

def sdlInjectDeviceAdded : Globals := g.inject .deviceAdded

def sdlInjectKey (scancode : UInt32) (pressed : Bool) (timeUsec : UInt64) : Globals :=
  g.inject (.key scancode pressed timeUsec)

def sdlInjectMotion (dx dy : Double) (timeUsec : UInt64) : Globals := g.inject (.motion dx dy timeUsec)

def sdlInjectButton (button : Int) (pressed : Bool) (timeUsec : UInt64) : Globals :=
  g.inject (.button button pressed timeUsec)

def sdlInjectAxis (axis : Int) (value : Double) (timeUsec : UInt64) : Globals := g.inject (.axis axis value timeUsec)

/-- The pipe part of `libinput_udev_create_context`; `piped` says whether `pipe`
succeeds.  A pipe gets the lowest descriptor that is free. -/
def openPipe (piped : Bool) : Globals :=
  match g.pipe with
  | .opened _ => g
  | .unset | .closed => if piped then { g with pipe := .opened 0 } else g
  | .closedWithZero => if piped then { g with pipe := .openedAtZero 0 } else g
  -- The pipe stays open, but the context no longer reads it.
  | .openedAtZero _ => { g with pipe := if piped then .opened 0 else .closed }

/-- `libinput_unref`: before any pipe was made, both ends are 0. -/
def unref : Globals :=
  match g.pipe with
  | .opened _ | .closed => { g with pipe := .closed }
  | .unset | .closedWithZero | .openedAtZero _ => { g with pipe := .closedWithZero }

/-- One `read` of the loop of `libinput_dispatch`: up to 64 bytes, or nothing. -/
def readPipe : Option Globals :=
  match g.pipe with
  | .opened (unread + 1) => some { g with pipe := .opened (unread + 1 - 64) }
  | .openedAtZero (unread + 1) => some { g with pipe := .openedAtZero (unread + 1 - 64) }
  | _ => none

def getEvent : Option (Event × Globals) :=
  match g.events with
  | [] => none
  | ev :: rest => some (ev, { g with events := rest })

end Globals

end Iland.Libinput

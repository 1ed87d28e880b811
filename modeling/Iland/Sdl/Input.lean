import Iland.Libinput.Context

namespace Iland.Sdl

open Iland.Libinput

/-! The keys and mouse buttons of the SDL backend.

The branches for motion and scrolling, which only pass doubles on, are left
out.
-/

def hidToEvdevTable : List (ℕ × UInt32) := [
  (0x04, 30), (0x05, 48), (0x06, 46), (0x07, 32), (0x08, 18), (0x09, 33), (0x0A, 34), (0x0B, 35),
    (0x0C, 23), (0x0D, 36), (0x0E, 37), (0x0F, 38), (0x10, 50), (0x11, 49), (0x12, 24), (0x13, 19),
    (0x14, 16), (0x15, 19), (0x16, 31), (0x17, 20), (0x18, 22), (0x19, 47), (0x1A, 17), (0x1B, 45),
    (0x1C, 21), (0x1D, 44), (0x1E, 2), (0x1F, 3), (0x20, 4), (0x21, 5), (0x22, 6), (0x23, 7), (0x24, 8),
    (0x25, 9), (0x26, 10), (0x27, 11), (0x28, 28), (0x29, 1), (0x2A, 14), (0x2B, 15), (0x2C, 57),
    (0x2D, 12), (0x2E, 13), (0x2F, 26), (0x30, 27), (0x31, 43), (0x33, 39), (0x34, 40), (0x35, 41),
    (0x36, 51), (0x37, 52), (0x38, 53), (0x39, 58), (0x3A, 59), (0x3B, 60), (0x3C, 61), (0x3D, 62),
    (0x3E, 63), (0x3F, 64), (0x40, 65), (0x41, 66), (0x42, 67), (0x43, 68), (0x44, 87), (0x45, 88),
    (0x46, 99), (0x47, 70), (0x48, 119), (0x49, 110), (0x4A, 102), (0x4B, 104), (0x4C, 111), (0x4D, 107),
    (0x4E, 109), (0x4F, 106), (0x50, 105), (0x51, 108), (0x52, 103), (0x53, 69), (0x54, 98), (0x55, 55),
    (0x56, 74), (0x57, 78), (0x58, 96), (0x59, 79), (0x5A, 80), (0x5B, 81), (0x5C, 75), (0x5D, 76),
    (0x5E, 77), (0x5F, 71), (0x60, 72), (0x61, 73), (0x62, 82), (0x63, 83), (0x64, 86), (0x65, 127),
    (0x66, 116), (0x67, 117), (0x68, 183), (0x69, 184), (0x6A, 185), (0x6B, 186), (0x6C, 187), (0x6D, 188),
    (0x6E, 189), (0x6F, 190), (0x70, 191), (0x71, 192), (0x72, 193), (0x73, 194), (0xE0, 29), (0xE1, 42),
    (0xE2, 56), (0xE3, 125), (0xE4, 97), (0xE5, 54), (0xE6, 100), (0xE7, 126)]

def hidToEvdev (scancode : ℕ) : UInt32 :=
  ((hidToEvdevTable.find? (fun entry => entry.1 == scancode)).map Prod.snd).getD 0

inductive SdlEvent where
  | key (scancode : ℕ) (down isRepeat : Bool)
  | mouseButton (button : Int) (down : Bool)

def sdlButtonCode (sdlBtn : Int) : Int :=
  if sdlBtn = 1 then 0x110
  else if sdlBtn = 2 then 0x112
  else if sdlBtn = 3 then 0x111
  else if sdlBtn = 4 then 0x113
  else if sdlBtn = 5 then 0x114
  else 0x110 + (sdlBtn - 1)

def handleSdlEvent (rawMouseActive : Bool) (g : Globals) (t : UInt64) : SdlEvent → Globals
  | .key scancode down isRepeat =>
      if isRepeat then g
      else
        let code := if scancode < 256 then hidToEvdev scancode else 0
        if code ≠ 0 then g.sdlInjectKey code down t else g
  | .mouseButton button down =>
      if rawMouseActive then g else g.sdlInjectButton (sdlButtonCode button) down t

def tapButtonCode (button : Int) : Int :=
  if button = 0 then 0x110
  else if button = 1 then 0x112
  else if button = 2 then 0x111
  else 0x110 + button

def rawMouseTapCb (g : Globals) (t : UInt64) (button : Int) (down : Bool) : Globals :=
  g.sdlInjectButton (tapButtonCode button) down t

end Iland.Sdl

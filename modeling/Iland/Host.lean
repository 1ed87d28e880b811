import Mathlib

namespace Iland

/-! What the machine around the library decides.

The library reads the display list once and keeps that snapshot, so the
displays are fixed for a run.  `sdlInit` says how each attempt to start the
SDL backend ends.
-/

def maxDisplays : ℕ := 16

def maxCrtcs : ℕ := 8

structure Host where
  /-- `CGGetActiveDisplayList`. -/
  activeDisplays : List UInt32
  /-- `CGMainDisplayID`. -/
  mainDisplay : UInt32
  /-- `CGDisplayPixelsWide` and `CGDisplayPixelsHigh`. -/
  pixelsWide : UInt32 → UInt32
  pixelsHigh : UInt32 → UInt32
  /-- The refresh rate of the main display's mode, if it has one. -/
  modeRefreshRate : Option ℚ
  /-- Whether the `i`-th call of `SDL_Init` succeeds. -/
  sdlInit : ℕ → Bool

namespace Host

variable (host : Host)

/-- Exchange the first element with the first occurrence of `value` behind
it, if there is one. -/
def swapToFront (value : UInt32) : List UInt32 → List UInt32
  | [] => []
  | first :: rest =>
      if first = value then first :: rest
      else match rest.findIdx? (· == value) with
        | some i => value :: rest.set i first
        | none => first :: rest

def ensureDisplays : List UInt32 :=
  if host.activeDisplays = [] then [host.mainDisplay]
  else swapToFront host.mainDisplay (host.activeDisplays.take maxDisplays)

def getDisplayCount : ℕ :=
  let n := host.ensureDisplays.length
  let n := if n < 1 then 1 else n
  if n > maxCrtcs then maxCrtcs else n

theorem getDisplayCount_pos : 1 ≤ host.getDisplayCount := by
  simp only [getDisplayCount, maxCrtcs]
  split <;> split at * <;> omega

theorem getDisplayCount_le : host.getDisplayCount ≤ maxCrtcs := by
  simp only [getDisplayCount, maxCrtcs]
  split <;> split at * <;> omega

def uniform (n : ℕ) : Host where
  activeDisplays := (List.range n).map (fun i => UInt32.ofNat (i + 1))
  mainDisplay := 1
  pixelsWide := fun _ => 1920
  pixelsHigh := fun _ => 1080
  modeRefreshRate := none
  sdlInit := fun _ => true

def getDisplayBounds (idx : ℕ) : UInt32 × UInt32 :=
  match host.ensureDisplays[idx]? with
  | none => (1920, 1080)
  | some display => (host.pixelsWide display, host.pixelsHigh display)

def getDisplayRefreshRate : UInt32 :=
  let refresh : UInt32 := match host.modeRefreshRate with
    | none => 60
    | some r => if 0 < r then UInt32.ofNat ⌊r + 1 / 2⌋.toNat else 120
  let refresh := if refresh < 60 then 60 else refresh
  if refresh < 120 then 120 else refresh

end Host

end Iland

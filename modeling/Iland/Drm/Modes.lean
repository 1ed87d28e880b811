import Iland.Host

namespace Iland.Drm

structure ModeInfo where
  clock : UInt32
  hdisplay : UInt16
  hsyncStart : UInt16
  hsyncEnd : UInt16
  htotal : UInt16
  hskew : UInt16
  vdisplay : UInt16
  vsyncStart : UInt16
  vsyncEnd : UInt16
  vtotal : UInt16
  vscan : UInt16
  vrefresh : UInt32
  flags : UInt32
  type : UInt32
  name : Vector UInt8 32
deriving DecidableEq

def ModeInfo.zero : ModeInfo :=
  ⟨0, 0, 0, 0, 0, 0, 0, 0, 0, 0, 0, 0, 0, 0, Vector.replicate 32 0⟩

instance : Inhabited ModeInfo := ⟨.zero⟩

/-- `snprintf(name, 32, "%ux%u", w, h)` into zeroed storage. -/
def modeName (w h : UInt32) : Vector UInt8 32 :=
  let text := (toString w ++ "x" ++ toString h).toUTF8.toList.take 31
  Vector.ofFn fun i => text.getD i 0

def maxModes : ℕ := 8

def displayMode (pw ph refreshRate : UInt32) : ModeInfo :=
  { ModeInfo.zero with
    clock := (pw * ph * refreshRate + 500) / 1000
    hdisplay := pw.toUInt16
    hsyncStart := (pw + 88).toUInt16
    hsyncEnd := (pw + 88 + 44).toUInt16
    htotal := (pw + 88 + 44 + 168).toUInt16
    vdisplay := ph.toUInt16
    vsyncStart := (ph + 4).toUInt16
    vsyncEnd := (ph + 4 + 5).toUInt16
    vtotal := (ph + 4 + 5 + 36).toUInt16
    vrefresh := refreshRate
    name := modeName pw ph }

def fallbackMode (refreshRate : UInt32) : ModeInfo :=
  { ModeInfo.zero with
    clock := (1920 * 1080 * refreshRate + 500) / 1000
    hdisplay := 1920
    hsyncStart := 2008
    hsyncEnd := 2052
    htotal := 2200
    vdisplay := 1080
    vsyncStart := 1084
    vsyncEnd := 1089
    vtotal := 1125
    vrefresh := refreshRate
    name := modeName 1920 1080 }

/-- One round of the display loop of `init_modes`, which stops storing when a
single place is left. -/
def storeDisplayMode (host : Host) (modes : List ModeInfo) (d : ℕ) : List ModeInfo :=
  if modes.length < maxModes - 1 then
    let (pw, ph) := host.getDisplayBounds d
    modes ++ [displayMode pw ph host.getDisplayRefreshRate]
  else modes

/-- `init_modes`: the displays, then the fallback if there is room. -/
def initModes (host : Host) : List ModeInfo :=
  let modes := (List.range host.getDisplayCount).foldl (storeDisplayMode host) []
  if modes.length < maxModes then modes ++ [fallbackMode host.getDisplayRefreshRate] else modes

/-- The mode list of `drmModeGetConnector` for display `idx`: the table with
the first entry of the display's size moved to the front. -/
def connectorModes (host : Host) (idx : ℕ) : List ModeInfo :=
  let modes := initModes host
  let (pw, ph) := host.getDisplayBounds idx
  match modes.findIdx? (fun m => m.hdisplay.toUInt32 == pw && m.vdisplay.toUInt32 == ph) with
  | some (found + 1) => (modes[found + 1]?).toList ++ modes.eraseIdx (found + 1)
  | _ => modes

theorem length_storeDisplayModes (host : Host) (displays : List ℕ) {modes : List ModeInfo}
    (fits : modes.length ≤ maxModes) :
    (displays.foldl (storeDisplayMode host) modes).length ≤ maxModes := by
  induction displays generalizing modes with
  | nil => exact fits
  | cons d rest ih =>
      apply ih
      simp only [storeDisplayMode]
      split
      · simp only [List.length_append, List.length_singleton]
        omega
      · exact fits

theorem length_initModes (host : Host) : (initModes host).length ≤ maxModes := by
  have filled := length_storeDisplayModes host (List.range host.getDisplayCount)
    (show ([] : List ModeInfo).length ≤ maxModes from Nat.zero_le _)
  simp only [initModes]
  split
  · simp only [List.length_append, List.length_singleton]
    omega
  · exact filled

theorem length_connectorModes (host : Host) (idx : ℕ) :
    (connectorModes host idx).length = (initModes host).length := by
  simp only [connectorModes]
  split
  · rename_i found hit
    have inside := (List.findIdx?_eq_some_iff_getElem.mp hit).1
    simp [inside, List.length_eraseIdx]
    omega
  · rfl

end Iland.Drm

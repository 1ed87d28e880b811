import Iland.Drm.CommitState
import Iland.Ioctl.Queries

namespace Iland.Ioctl

open Iland.Drm

/-! SETCRTC and GETCRTC.

`struct drm_mode_modeinfo` and `drmModeModeInfo` have their fields at the same
offsets, so a `memcpy` from one to the other reads field by field.
-/

structure DrmModeCrtc where
  setConnectorsPtr : UInt64
  countConnectors : UInt32
  crtcId : UInt32
  fbId : UInt32
  x : UInt32
  y : UInt32
  gammaSize : UInt32
  modeValid : UInt32
  mode : ModeWords

def handleGetCrtc (host : Host) (dev : Device) (c : DrmModeCrtc) : Except Errno DrmModeCrtc :=
  match drmModeGetCrtc host dev drmVirtualFd c.crtcId with
  | .error e => .error e
  | .ok crtc =>
      .ok { c with
        fbId := crtc.bufferId
        x := crtc.x
        y := crtc.y
        gammaSize := crtc.gammaSize
        modeValid := if crtc.modeValid then 1 else 0
        mode := if crtc.modeValid then copyMode crtc.mode else c.mode }

/-- `handle_set_crtc`, which never looks at `mode_valid`. -/
def handleSetCrtc (host : Host) (dev : Device) (c : DrmModeCrtc) : Except Errno Unit × Device :=
  drmModeSetCrtc host dev drmVirtualFd c.crtcId c.fbId c.x c.y (some c.mode.read)

variable {host : Host} {dev : Device} {c : DrmModeCrtc}

/-- The call that a SETCRTC stands for. -/
def DrmModeCrtc.meant (c : DrmModeCrtc) : Option ModeInfo := if c.modeValid ≠ 0 then some c.mode.read else none

/-- SETCRTC does what the call it stands for does, and if it succeeds then
GETCRTC reports what was set, whatever is in the structure it fills. -/
structure CrtcRoundTrip (host : Host) (dev : Device) (c : DrmModeCrtc) : Prop where
  sameEffect : handleSetCrtc host dev c = drmModeSetCrtc host dev drmVirtualFd c.crtcId c.fbId c.x c.y c.meant
  reports : ∀ after, handleSetCrtc host dev c = (.ok (), after) → ∀ query : DrmModeCrtc, query.crtcId = c.crtcId →
    ∃ reported, handleGetCrtc host after query = .ok reported ∧
      reported.fbId = c.fbId ∧ reported.x = c.x ∧ reported.y = c.y ∧
      (reported.modeValid ≠ 0 ↔ c.modeValid ≠ 0) ∧ (c.modeValid ≠ 0 → reported.mode.read = c.mode.read)

theorem handleGetCrtc_after {after : Device} (known : c.crtcId ∈ objectIds host.getDisplayCount)
    (done : handleSetCrtc host dev c = (.ok (), after)) {query : DrmModeCrtc} (same : query.crtcId = c.crtcId) :
    handleGetCrtc host after query = .ok { query with
      fbId := c.fbId, x := c.x, y := c.y, gammaSize := 256, modeValid := 1, mode := copyMode c.mode.read } := by
  have states : (handleSetCrtc host dev c).2.gState = _ :=
    (drmModeSetCrtc_known known c.fbId c.x c.y (some c.mode.read)).2
  simp only [done] at states
  simp only [handleGetCrtc, same, drmModeGetCrtc, checkFd, ne_eq, not_true_eq_false, if_false,
    crtcIndex_of_known known, states, Function.update_self]
  simp

/-- SETCRTC and GETCRTC round-trip exactly when a mode is given. -/
theorem crtc_round_trip_iff (known : c.crtcId ∈ objectIds host.getDisplayCount) :
    CrtcRoundTrip host dev c ↔ c.modeValid ≠ 0 := by
  constructor
  · intro roundTrip
    obtain ⟨after, done⟩ : ∃ after, handleSetCrtc host dev c = (.ok (), after) :=
      ⟨_, Prod.ext (drmModeSetCrtc_known known c.fbId c.x c.y (some c.mode.read)).1 rfl⟩
    obtain ⟨reported, got, _, _, _, valid, _⟩ := roundTrip.reports after done c rfl
    rw [handleGetCrtc_after known done rfl, Except.ok.injEq] at got
    refine valid.mp ?_
    rw [← got]
    exact (by decide : (1 : UInt32) ≠ 0)
  · intro valid
    refine ⟨by rw [DrmModeCrtc.meant, if_pos valid, handleSetCrtc], ?_⟩
    intro after done query same
    refine ⟨_, handleGetCrtc_after known done same, rfl, rfl, rfl, ?_, fun _ => read_copyMode _⟩
    simp [valid]

/-- Turn CRTC 1 off: no framebuffer and no valid mode. -/
def turnOff : DrmModeCrtc := ⟨0, 0, 1, 0, 0, 0, 0, 0, copyMode .zero⟩

theorem crtc_round_trip_iff_turnOff : CrtcRoundTrip (.uniform 1) .initial turnOff ↔ turnOff.modeValid ≠ 0 :=
  crtc_round_trip_iff (by decide)

/-- GETCRTC reports a valid mode for the CRTC that was turned off. -/
theorem turnOff_reports_mode : ¬ CrtcRoundTrip (.uniform 1) .initial turnOff := by
  intro roundTrip
  obtain ⟨reported, got, _, _, _, valid, _⟩ := roundTrip.reports _ rfl turnOff rfl
  cases got
  exact absurd valid (by decide)

end Iland.Ioctl

import Iland.Drm.ConnectorModes

namespace Iland.Drm

/-! The timings of the modes.

The clock is computed in 32 bits, and so is the product that is divided.
-/

/-- The timings are those of the pixel counts and the rate, computed without
bounds, and increase. -/
structure TimingsExact (mode : ModeInfo) (w h r : ℕ) : Prop where
  clock : mode.clock.toNat = (w * h * r + 500) / 1000
  horizontal : mode.hdisplay.toNat = w ∧ mode.hsyncStart.toNat = w + 88 ∧ mode.hsyncEnd.toNat = w + 88 + 44 ∧
    mode.htotal.toNat = w + 88 + 44 + 168
  vertical : mode.vdisplay.toNat = h ∧ mode.vsyncStart.toNat = h + 4 ∧ mode.vsyncEnd.toNat = h + 4 + 5 ∧
    mode.vtotal.toNat = h + 4 + 5 + 36
  increasing : mode.hdisplay < mode.hsyncStart ∧ mode.hsyncStart < mode.hsyncEnd ∧ mode.hsyncEnd < mode.htotal ∧
    mode.vdisplay < mode.vsyncStart ∧ mode.vsyncStart < mode.vsyncEnd ∧ mode.vsyncEnd < mode.vtotal

variable {host : Host} {d : ℕ} {pw ph refreshRate : UInt32}

/-- A quotient by 1000 survives the reduction of a number exactly if the number
does. -/
theorem div_mod_eq_iff (n : ℕ) : n % 2 ^ 32 / 1000 = n / 1000 ↔ n < 2 ^ 32 := by
  omega

theorem clock_displayMode : (displayMode pw ph refreshRate).clock.toNat =
    (pw.toNat * ph.toNat * refreshRate.toNat + 500) % 2 ^ 32 / 1000 := by
  simp only [displayMode, UInt32.toNat_div, UInt32.toNat_add, UInt32.toNat_mul, UInt32.reduceToNat, Nat.mod_mul_mod,
    Nat.mod_add_mod]

theorem timings_displayMode (wide : pw.toNat ≤ 8192) (high : ph.toNat ≤ 8192) :
    TimingsExact (displayMode pw ph refreshRate) pw.toNat ph.toNat refreshRate.toNat ↔
      pw.toNat * ph.toNat * refreshRate.toNat + 500 < 2 ^ 32 := by
  rw [← div_mod_eq_iff, ← clock_displayMode]
  refine ⟨TimingsExact.clock, fun clock => ⟨clock, ?_, ?_, ?_⟩⟩
  · simp only [displayMode, UInt32.toNat_toUInt16, UInt32.toNat_add, UInt32.reduceToNat]
    omega
  · simp only [displayMode, UInt32.toNat_toUInt16, UInt32.toNat_add, UInt32.reduceToNat]
    omega
  · simp only [displayMode, UInt16.lt_iff_toNat_lt, UInt32.toNat_toUInt16, UInt32.toNat_add, UInt32.reduceToNat]
    omega

/-- The mode of a display of at most 8192 by 8192 has exact timings exactly if
the product for its clock fits into 32 bits. -/
theorem mode_timings_iff (stored : d < min host.getDisplayCount (maxModes - 1))
    (wide : (host.getDisplayBounds d).1.toNat ≤ 8192) (high : (host.getDisplayBounds d).2.toNat ≤ 8192) :
    ∃ mode, (initModes host)[d]? = some mode ∧
      (TimingsExact mode (host.getDisplayBounds d).1.toNat (host.getDisplayBounds d).2.toNat
          host.getDisplayRefreshRate.toNat ↔
        (host.getDisplayBounds d).1.toNat * (host.getDisplayBounds d).2.toNat * host.getDisplayRefreshRate.toNat + 500 <
          2 ^ 32) := by
  refine ⟨ownMode host d, ?_, timings_displayMode wide high⟩
  rw [initModes_eq, List.getElem?_append_left (by simpa using stored), List.getElem?_map, List.getElem?_range stored]
  rfl

theorem mode_timings_iff_one :
    ∃ mode, (initModes (.uniform 1))[0]? = some mode ∧
      (TimingsExact mode ((Host.uniform 1).getDisplayBounds 0).1.toNat ((Host.uniform 1).getDisplayBounds 0).2.toNat
          (Host.uniform 1).getDisplayRefreshRate.toNat ↔
        ((Host.uniform 1).getDisplayBounds 0).1.toNat * ((Host.uniform 1).getDisplayBounds 0).2.toNat *
          (Host.uniform 1).getDisplayRefreshRate.toNat + 500 < 2 ^ 32) :=
  mode_timings_iff (by decide) (by decide) (by decide)

/-- One display of 7680 by 4320 at 144 Hz. -/
def wide144 : Host :=
  { Host.uniform 1 with pixelsWide := fun _ => 7680, pixelsHigh := fun _ => 4320, modeRefreshRate := some 144 }

theorem clock_of_wide144_wraps :
    wide144.getDisplayRefreshRate = 144 ∧
      ∃ mode, (initModes wide144)[0]? = some mode ∧ mode.clock = 482607 ∧ (7680 * 4320 * 144 + 500) / 1000 = 4777574 ∧
        ¬ TimingsExact mode 7680 4320 144 := by
  refine ⟨by decide +kernel, _, rfl, by decide +kernel, by decide, fun timings => ?_⟩
  have clock := timings.clock
  revert clock
  decide +kernel

end Iland.Drm

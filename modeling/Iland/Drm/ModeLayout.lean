import Iland.Data.Layout
import Iland.Drm.Modes

namespace Iland.Drm

open Iland.Data

/-! `drmModeModeInfo` in memory. -/

inductive ModeField where
  | clock
  | hdisplay
  | hsyncStart
  | hsyncEnd
  | htotal
  | hskew
  | vdisplay
  | vsyncStart
  | vsyncEnd
  | vtotal
  | vscan
  | vrefresh
  | flags
  | type
  | name
deriving DecidableEq

namespace ModeField

def Value : ModeField → Type
  | clock | vrefresh | flags | type => UInt32
  | hdisplay | hsyncStart | hsyncEnd | htotal | hskew | vdisplay | vsyncStart | vsyncEnd | vtotal | vscan => UInt16
  | name => Vector UInt8 32

instance : ∀ field : ModeField, CType field.Value
  | clock | vrefresh | flags | type => inferInstanceAs (CType UInt32)
  | hdisplay | hsyncStart | hsyncEnd | htotal | hskew | vdisplay | vsyncStart | vsyncEnd | vtotal | vscan =>
      inferInstanceAs (CType UInt16)
  | name => inferInstanceAs (CType (Vector UInt8 32))

end ModeField

/-- The declaration of `drmModeModeInfo`. -/
def drmModeModeInfo : Struct ModeField.Value where
  members := [.clock, .hdisplay, .hsyncStart, .hsyncEnd, .htotal, .hskew, .vdisplay, .vsyncStart, .vsyncEnd, .vtotal,
    .vscan, .vrefresh, .flags, .type, .name]
  once field := by cases field <;> rfl

namespace ModeInfo

def field (mode : ModeInfo) : ∀ field : ModeField, field.Value
  | .clock => mode.clock
  | .hdisplay => mode.hdisplay
  | .hsyncStart => mode.hsyncStart
  | .hsyncEnd => mode.hsyncEnd
  | .htotal => mode.htotal
  | .hskew => mode.hskew
  | .vdisplay => mode.vdisplay
  | .vsyncStart => mode.vsyncStart
  | .vsyncEnd => mode.vsyncEnd
  | .vtotal => mode.vtotal
  | .vscan => mode.vscan
  | .vrefresh => mode.vrefresh
  | .flags => mode.flags
  | .type => mode.type
  | .name => mode.name

def ofFields (value : ∀ field : ModeField, field.Value) : ModeInfo :=
  ⟨value .clock, value .hdisplay, value .hsyncStart, value .hsyncEnd, value .htotal, value .hskew, value .vdisplay,
    value .vsyncStart, value .vsyncEnd, value .vtotal, value .vscan, value .vrefresh, value .flags, value .type,
    value .name⟩

@[simp] theorem ofFields_field (mode : ModeInfo) : ofFields mode.field = mode := rfl

end ModeInfo

/-- The `drmModeModeInfo` at an address. -/
def modeAt (mem : ℕ → UInt8) (base : ℕ) : ModeInfo := .ofFields (drmModeModeInfo.member mem base)

/-- No member of it is moved up. -/
theorem packed_drmModeModeInfo : drmModeModeInfo.Packed := by
  decide

example : drmModeModeInfo.members.map drmModeModeInfo.offsetOf = [0, 4, 6, 8, 10, 12, 14, 16, 18, 20, 22, 24, 28, 32, 36] :=
  rfl

theorem sizeOf_drmModeModeInfo : drmModeModeInfo.sizeOf = 17 * 4 := rfl

theorem ModeInfo.length_bytes (mode : ModeInfo) : (drmModeModeInfo.bytes mode.field).length = 17 * 4 :=
  drmModeModeInfo.length_bytes mode.field

theorem modeAt_writeBytes (mem : ℕ → UInt8) (base : ℕ) (mode : ModeInfo) :
    modeAt (writeBytes mem base (drmModeModeInfo.bytes mode.field)) base = mode := by
  have members : drmModeModeInfo.member (writeBytes mem base (drmModeModeInfo.bytes mode.field)) base = mode.field :=
    funext (packed_drmModeModeInfo.member_bytes mem base mode.field)
  rw [modeAt, members, ModeInfo.ofFields_field]

theorem modeAt_writeBytes_behind {mem : ℕ → UInt8} {base place : ℕ} {bytes : List UInt8}
    (behind : base + drmModeModeInfo.sizeOf ≤ place) : modeAt (writeBytes mem place bytes) base = modeAt mem base := by
  have members : drmModeModeInfo.member (writeBytes mem place bytes) base = drmModeModeInfo.member mem base :=
    funext (Struct.member_writeBytes_outside behind)
  rw [modeAt, modeAt, members]

/-- A copy of the bytes of a mode is the mode. -/
theorem modeAt_copyRange (mem : ℕ → UInt8) (dst src : ℕ) :
    modeAt (copyRange mem mem dst src drmModeModeInfo.sizeOf) dst = modeAt mem src := by
  have members : drmModeModeInfo.member (copyRange mem mem dst src drmModeModeInfo.sizeOf) dst =
      drmModeModeInfo.member mem src :=
    funext (drmModeModeInfo.member_copyRange mem mem dst src)
  rw [modeAt, modeAt, members]

end Iland.Drm

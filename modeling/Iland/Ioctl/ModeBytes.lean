import Iland.Drm.ModeLayout
import Iland.Ioctl.Crtc

namespace Iland.Ioctl

open Iland.Data
open Iland.Data.CType
open Iland.Drm

/-! Modes that cross the ioctls as bytes.

`copy_mode` does not use the members of the structure that it fills.  It writes
words, most of them with two members each, and the name behind them.
-/

def modeinfoMembers : List ModeField :=
  [.clock, .hdisplay, .hsyncStart, .hsyncEnd, .htotal, .hskew, .vdisplay, .vsyncStart, .vsyncEnd, .vtotal, .vscan,
    .vrefresh, .flags, .type, .name]

theorem once_modeinfoMembers (field : ModeField) : modeinfoMembers.count field = 1 := by
  cases field <;> rfl

/-- The declaration of `struct drm_mode_modeinfo`. -/
def drmModeModeinfo : Struct ModeField.Value := ⟨modeinfoMembers, once_modeinfoMembers⟩

/-- The assignments to `dst[0]` up to `dst[8]`, and the copy of the name to
`&dst[9]`. -/
def ModeWords.storeAt (mode : ModeWords) (mem : ℕ → UInt8) (dst : ℕ) : ℕ → UInt8 :=
  store (storeArray mem dst mode.words.toList) (dst + 9 * size UInt32) mode.name

def copyModeTo (mem : ℕ → UInt8) (dst : ℕ) (src : ModeInfo) : ℕ → UInt8 := (copyMode src).storeAt mem dst

/-- What `handle_set_crtc` has in `mode` after the `memcpy` from `c->mode`. -/
def setCrtcMode (mem : ℕ → UInt8) (mode cMode : ℕ) : ModeInfo :=
  modeAt (copyRange mem mem mode cMode drmModeModeInfo.sizeOf) mode

/-- Both headers declare the same structure. -/
theorem drmModeModeinfo_eq : drmModeModeinfo = drmModeModeInfo := rfl

theorem bytes_read (mode : ModeWords) :
    mode.words.toList.flatMap toBytes ++ toBytes mode.name = drmModeModeInfo.bytes mode.read.field := by
  have inOrder : mode.words.toList = [mode.words[0], mode.words[1], mode.words[2], mode.words[3], mode.words[4],
      mode.words[5], mode.words[6], mode.words[7], mode.words[8]] := by
    refine List.ext_getElem mode.words.length_toList fun i inside _ => ?_
    rw [mode.words.length_toList] at inside
    interval_cases i <;> rfl
  rw [inOrder, ← List.append_nil (toBytes mode.name)]
  simp only [List.flatMap_cons, List.flatMap_nil, toBytes_halves mode.words[1], toBytes_halves mode.words[2],
    toBytes_halves mode.words[3], toBytes_halves mode.words[4], toBytes_halves mode.words[5], List.append_assoc,
    List.nil_append]
  rfl

/-- The words are the members in the order of their declaration. -/
theorem storeAt_eq (mode : ModeWords) (mem : ℕ → UInt8) (dst : ℕ) :
    mode.storeAt mem dst = writeBytes mem dst (drmModeModeInfo.bytes mode.read.field) := by
  have behind : (mode.words.toList.flatMap toBytes).length = 9 * size UInt32 := by
    rw [length_flatMap_toBytes, Vector.length_toList]
  rw [ModeWords.storeAt, store, storeArray_eq, ← bytes_read, writeBytes_append, behind]

theorem modeAt_storeAt (mode : ModeWords) (mem : ℕ → UInt8) (dst : ℕ) : modeAt (mode.storeAt mem dst) dst = mode.read := by
  rw [storeAt_eq, modeAt_writeBytes]

/-- The mode that SETCRTC is modelled with is the one in the copied bytes. -/
theorem setCrtcMode_storeAt (words : ModeWords) (mem : ℕ → UInt8) (mode cMode : ℕ) :
    setCrtcMode (words.storeAt mem cMode) mode cMode = words.read := by
  rw [setCrtcMode, modeAt_copyRange, modeAt_storeAt]

variable {host : Host} {dev : Device} {c : DrmModeCrtc}

theorem handleSetCrtc_eq (mem : ℕ → UInt8) (mode cMode : ℕ) : handleSetCrtc host dev c =
    drmModeSetCrtc host dev drmVirtualFd c.crtcId c.fbId c.x c.y
      (some (setCrtcMode (c.mode.storeAt mem cMode) mode cMode)) := by
  rw [setCrtcMode_storeAt, handleSetCrtc]

theorem copyModeTo_eq (mem : ℕ → UInt8) (dst : ℕ) (src : ModeInfo) :
    copyModeTo mem dst src = writeBytes mem dst (drmModeModeInfo.bytes src.field) := by
  rw [copyModeTo, storeAt_eq, read_copyMode]

/-- What `copy_mode` writes are the members of the mode, as the ioctls declare
them, and SETCRTC finds the mode again in a copy of it. -/
theorem copy_mode_round_trip (src : ModeInfo) (mem : ℕ → UInt8) (dst : ℕ) :
    (∀ field, drmModeModeinfo.member (copyModeTo mem dst src) dst field = src.field field) ∧
      (∀ mode, setCrtcMode (copyModeTo mem dst src) mode dst = src) ∧
      ∀ i, i < dst ∨ dst + 17 * size UInt32 ≤ i → copyModeTo mem dst src i = mem i := by
  refine ⟨fun field => ?_, fun mode => ?_, fun i outside => ?_⟩
  · rw [copyModeTo_eq, drmModeModeinfo_eq]
    exact packed_drmModeModeInfo.member_bytes mem dst src.field field
  · rw [copyModeTo, setCrtcMode_storeAt, read_copyMode]
  · rw [copyModeTo_eq, writeBytes_outside (src.length_bytes ▸ outside)]

/-! The modes that GETCONNECTOR copies. -/

/-- The loop over the modes, from `dst[i]` on. -/
def copyModes (mem : ℕ → UInt8) : ℕ → List ModeInfo → ℕ → UInt8
  | _, [] => mem
  | dst, mode :: rest => copyModes (copyModeTo mem dst mode) (dst + drmModeModeinfo.sizeOf) rest

theorem copyModes_eq (mem : ℕ → UInt8) (dst : ℕ) (modes : List ModeInfo) :
    copyModes mem dst modes = writeBytes mem dst (modes.flatMap fun mode => drmModeModeInfo.bytes mode.field) := by
  induction modes generalizing mem dst with
  | nil => rfl
  | cons mode rest ih =>
      rw [copyModes, ih, copyModeTo_eq, List.flatMap_cons, writeBytes_append, mode.length_bytes, drmModeModeinfo_eq,
        sizeOf_drmModeModeInfo]

/-- Each mode stands in the array at its own index. -/
theorem modeAt_copyModes (mem : ℕ → UInt8) (dst : ℕ) {modes : List ModeInfo} {i : ℕ} (inside : i < modes.length) :
    modeAt (copyModes mem dst modes) (dst + i * drmModeModeinfo.sizeOf) = modes[i] := by
  induction modes generalizing mem dst i with
  | nil => cases inside
  | cons mode rest ih =>
      cases i with
      | zero =>
          rw [Nat.zero_mul, Nat.add_zero, copyModes, copyModes_eq, drmModeModeinfo_eq, modeAt_writeBytes_behind le_rfl,
            copyModeTo_eq, modeAt_writeBytes, List.getElem_cons_zero]
      | succ i =>
          rw [Nat.succ_mul, Nat.add_comm (i * _), ← Nat.add_assoc]
          exact ih (copyModeTo mem dst mode) (dst + drmModeModeinfo.sizeOf) (Nat.lt_of_succ_lt_succ inside)

end Iland.Ioctl

import Iland.Data.Rows
import Iland.Gbm.Surface

namespace Iland.Egl

open Iland.Data

/-! The pixels that `eglSwapBuffers` copies.

They are read from GL, whose first row is the lowest, into a staging buffer, and
copied to the surface in the opposite order.  If GL does not give them as BGRA,
they are read as RGBA and permuted in place.
-/

abbrev Memory := ℕ → UInt8

inductive Format where
  /-- `GL_BGRA_EXT`. -/
  | bgra
  /-- `GL_RGBA`. -/
  | rgba

structure Pixel where
  red : UInt8
  green : UInt8
  blue : UInt8
  alpha : UInt8

def Pixel.byte (pixel : Pixel) : Format → Fin 4 → UInt8
  | .bgra => ![pixel.blue, pixel.green, pixel.red, pixel.alpha]
  | .rgba => ![pixel.red, pixel.green, pixel.blue, pixel.alpha]

def kRGBAToBGRAMap : Fin 4 → Fin 4 := ![2, 1, 0, 3]

def sizeT (n : ℕ) : ℕ := n % 2 ^ 64

/-- An IOSurface of `h` rows; its bytes can be addressed. -/
structure Surface (h : ℕ) where
  bytesPerRow : ℕ
  bytes : Memory
  addressable : bytesPerRow * h < 2 ^ 64

/-- What a swap finds, and how the calls that it makes turn out. -/
structure SwapCalls where
  glReadPixels : Option (Format → Memory → Memory)
  /-- The result of `glGetError`, if that is resolved. -/
  glGetError : Option UInt32
  /-- `vImagePermuteChannels_ARGB8888` in place, for a width, a height, the bytes
  of a row and a map. -/
  permuteChannels : ℕ → ℕ → ℕ → (Fin 4 → Fin 4) → Memory → Memory
  gPixels : Memory
  gPixelsSz : ℕ
  /-- What `realloc` returns, if it succeeds. -/
  realloc : Option Memory
  gUseBgra : Int
  realSwap : Bool

structure SwapResult where
  how : Gbm.Swap
  bytes : Memory
  gUseBgra : Int

namespace SwapCalls

variable (calls : SwapCalls)

/-- The staging buffer, if there is memory for `total` bytes. -/
def staging (total : ℕ) : Option Memory := if calls.gPixelsSz < total then calls.realloc else some calls.gPixels

/-- The staging buffer after the reads, `did_bgra`, and `g_use_bgra`. -/
def readPixels (read : Format → Memory → Memory) (pixels : Memory) : Memory × Bool × Int :=
  if calls.gUseBgra ≠ 0 then
    let pixels := read .bgra pixels
    match calls.glGetError with
    | none => (pixels, true, calls.gUseBgra)
    | some err =>
        let useBgra := if calls.gUseBgra = -1 then (if err = 0 then 1 else 0) else calls.gUseBgra
        if err = 0 then (pixels, true, useBgra) else (read .rgba pixels, false, if useBgra = -1 then 0 else useBgra)
  else (read .rgba pixels, false, calls.gUseBgra)

/-- One round of the loop over the rows; `none` if it leaves the first `total`
bytes of the staging buffer or the surface. -/
def copyRow {h : ℕ} (w : ℕ) (surface : Surface h) (pixels : Memory) (bytes : Memory) (y : ℕ) : Option Memory :=
  copyWithin (surface.bytesPerRow * h) (sizeT (w * h * 4)) bytes pixels (sizeT (y * surface.bytesPerRow))
    (sizeT ((h - 1 - y) * w * 4)) (sizeT (w * 4))

/-- `eglSwapBuffers` on a surface of this library. -/
def eglSwapBuffers (w h : UInt32) (surface : Surface h.toNat) : Option SwapResult :=
  match calls.glReadPixels with
  | none => some ⟨.noReadPixels calls.realSwap, surface.bytes, calls.gUseBgra⟩
  | some read =>
      match calls.staging (sizeT (w.toNat * h.toNat * 4)) with
      | none => some ⟨.noMemory calls.realSwap, surface.bytes, calls.gUseBgra⟩
      | some pixels =>
          let (pixels, didBgra, useBgra) := calls.readPixels read pixels
          if calls.realSwap = false then some ⟨.realFails, surface.bytes, useBgra⟩
          else
            ((List.range h.toNat).foldlM (copyRow w.toNat surface pixels) surface.bytes).map fun bytes =>
              ⟨.drawn, if didBgra then bytes
                else calls.permuteChannels w.toNat h.toNat surface.bytesPerRow kRGBAToBGRAMap bytes, useBgra⟩

end SwapCalls

/-- Whether a swap returns EGL_TRUE. -/
def returned : Gbm.Swap → Bool
  | .noReadPixels ret | .noMemory ret => ret
  | .realFails => false
  | .drawn => true

theorem eglSwapBuffers_returned {β : Type*} (surface : Gbm.GbmSurface β) (how : Gbm.Swap) :
    (Gbm.eglSwapBuffers surface how).1 = returned how := by
  cases how <;> rfl

/-! What GL and Accelerate are known to do. -/

/-- The rows of a `w` by `h` picture, from the lowest up, in a channel order. -/
def Filled (w h : ℕ) (content : ℕ → ℕ → Pixel) (format : Format) (pixels : Memory) : Prop :=
  ∀ x < w, ∀ y < h, ∀ c : Fin 4, pixels ((y * w + x) * 4 + c.val) = (content x y).byte format c

structure Documented (calls : SwapCalls) (w h bytesPerRow : ℕ) (content : ℕ → ℕ → Pixel) : Prop where
  /-- A read that leaves no error has filled the buffer. -/
  readsBgra : ∀ read ∈ calls.glReadPixels, calls.glGetError = some 0 → ∀ mem, Filled w h content .bgra (read .bgra mem)
  readsRgba : ∀ read ∈ calls.glReadPixels, ∀ mem, Filled w h content .rgba (read .rgba mem)
  permutes : ∀ map mem, ∀ y < h, ∀ x < w, ∀ c : Fin 4,
    calls.permuteChannels w h bytesPerRow map mem (y * bytesPerRow + (x * 4 + c.val)) =
      mem (y * bytesPerRow + (x * 4 + (map c).val))
  /-- Bytes of no pixel stay as they are. -/
  keeps : ∀ map mem i, ¬ (i / bytesPerRow < h ∧ i % bytesPerRow < w * 4) →
    calls.permuteChannels w h bytesPerRow map mem i = mem i

/-- The surface shows the picture the right way up, as BGRA, and nothing else
has changed. -/
structure Shows (w h bytesPerRow : ℕ) (content : ℕ → ℕ → Pixel) (before after : Memory) : Prop where
  pixels : ∀ y < h, ∀ x < w, ∀ c : Fin 4,
    after (y * bytesPerRow + (x * 4 + c.val)) = (content x (h - 1 - y)).byte .bgra c
  others : ∀ i, ¬ (i / bytesPerRow < h ∧ i % bytesPerRow < w * 4) → after i = before i

variable {calls : SwapCalls} {content : ℕ → ℕ → Pixel}

theorem byte_permuted (pixel : Pixel) (c : Fin 4) : pixel.byte .rgba (kRGBAToBGRAMap c) = pixel.byte .bgra c := by
  fin_cases c <;> rfl

/-- After the reads the staging buffer holds the picture, in the order that
`did_bgra` says. -/
theorem readPixels_filled {w h bytesPerRow : ℕ} (documented : Documented calls w h bytesPerRow content)
    {read : Format → Memory → Memory} (resolved : calls.glReadPixels = some read) (checked : calls.glGetError.isSome)
    (mem : Memory) :
    Filled w h content (if (calls.readPixels read mem).2.1 then .bgra else .rgba) (calls.readPixels read mem).1 := by
  obtain ⟨err, known⟩ := Option.isSome_iff_exists.mp checked
  rw [SwapCalls.readPixels, known]
  by_cases tries : calls.gUseBgra ≠ 0
  · rw [if_pos tries]
    by_cases fine : err = 0
    · simp only [fine, if_true]
      exact documented.readsBgra read resolved (fine ▸ known) mem
    · simp only [fine, if_false, Bool.false_eq_true]
      exact documented.readsRgba read resolved _
  · rw [if_neg tries]
    simp only [Bool.false_eq_true, if_false]
    exact documented.readsRgba read resolved mem

variable {w : ℕ} {h : ℕ} {surface : Surface h} {pixels : Memory}

theorem sizeT_total (roomy : w * 4 ≤ surface.bytesPerRow) : sizeT (w * h * 4) = w * h * 4 := by
  refine Nat.mod_eq_of_lt ?_
  calc w * h * 4 = w * 4 * h := by ring
    _ ≤ surface.bytesPerRow * h := Nat.mul_le_mul_right h roomy
    _ < 2 ^ 64 := surface.addressable

theorem staging_isSome (calls : SwapCalls) (total : ℕ) :
    (calls.staging total).isSome ↔ total ≤ calls.gPixelsSz ∨ calls.realloc.isSome := by
  rw [SwapCalls.staging]
  split
  case isTrue short => exact (or_iff_right (Nat.not_le.mpr short)).symm
  case isFalse enough => simp [Nat.not_lt.mp enough]

/-- A row of the picture and the row of the surface that it goes to are both
inside their buffers. -/
theorem copyRow_inside (roomy : w * 4 ≤ surface.bytesPerRow) {y : ℕ} (row : y < h) (bytes : Memory) :
    SwapCalls.copyRow w surface pixels bytes y =
      some (copyRange bytes pixels (y * surface.bytesPerRow) ((h - 1 - y) * w * 4) (w * 4)) := by
  have addressable := surface.addressable
  have picture : w * 4 * h ≤ surface.bytesPerRow * h := Nat.mul_le_mul_right h roomy
  have total : w * h * 4 = w * 4 * h := by ring
  have wholeSize := sizeT_total roomy
  have target : y * surface.bytesPerRow + surface.bytesPerRow ≤ surface.bytesPerRow * h := by
    calc y * surface.bytesPerRow + surface.bytesPerRow = surface.bytesPerRow * (y + 1) := by ring
      _ ≤ surface.bytesPerRow * h := Nat.mul_le_mul_left _ row
  have source : (h - 1 - y) * w * 4 + w * 4 ≤ w * 4 * h := by
    calc (h - 1 - y) * w * 4 + w * 4 = w * 4 * (h - 1 - y + 1) := by ring
      _ ≤ w * 4 * h := Nat.mul_le_mul_left _ (by omega)
  have targetSize : sizeT (y * surface.bytesPerRow) = y * surface.bytesPerRow := Nat.mod_eq_of_lt (by omega)
  have sourceSize : sizeT ((h - 1 - y) * w * 4) = (h - 1 - y) * w * 4 := Nat.mod_eq_of_lt (by omega)
  have rowSize : sizeT (w * 4) = w * 4 := Nat.mod_eq_of_lt (by omega)
  rw [SwapCalls.copyRow, wholeSize, targetSize, sourceSize, rowSize, copyWithin, if_pos (by omega)]

/-- The loop copies every row, from the opposite end. -/
theorem copyRows_eq (roomy : w * 4 ≤ surface.bytesPerRow) (bytes : Memory) :
    (List.range h).foldlM (SwapCalls.copyRow w surface pixels) bytes =
      some (rowsCopied surface.bytesPerRow (w * 4) (fun y => (h - 1 - y) * w * 4) pixels bytes h) :=
  foldlM_rows roomy (fun _ row mem => copyRow_inside roomy row mem) bytes

theorem rowsCopied_pixel {bytesPerRow : ℕ} {format : Format} (roomy : w * 4 ≤ bytesPerRow)
    (filled : Filled w h content format pixels) (bytes : Memory) {x y : ℕ} (row : y < h) (column : x < w) (c : Fin 4) :
    rowsCopied bytesPerRow (w * 4) (fun y => (h - 1 - y) * w * 4) pixels bytes h (y * bytesPerRow + (x * 4 + c.val)) =
      (content x (h - 1 - y)).byte format c := by
  have near : x * 4 + c.val < w * 4 := by omega
  rw [rowsCopied_at row near roomy, ← filled x column (h - 1 - y) (by omega) c]
  congr 1
  ring

/-- What the loop and the permutation leave shows the picture. -/
theorem shows_copied {bytesPerRow : ℕ} {didBgra : Bool} (documented : Documented calls w h bytesPerRow content)
    (roomy : w * 4 ≤ bytesPerRow) (filled : Filled w h content (if didBgra then .bgra else .rgba) pixels)
    (before : Memory) {copied : Memory}
    (copies : rowsCopied bytesPerRow (w * 4) (fun y => (h - 1 - y) * w * 4) pixels before h = copied) :
    Shows w h bytesPerRow content before
      (if didBgra then copied else calls.permuteChannels w h bytesPerRow kRGBAToBGRAMap copied) := by
  have others : ∀ i, ¬ (i / bytesPerRow < h ∧ i % bytesPerRow < w * 4) → copied i = before i := by
    intro i outside
    rw [← copies, rowsCopied, if_neg outside]
  cases didBgra with
  | true =>
      refine ⟨fun y row x column c => ?_, others⟩
      simp only [if_true] at filled ⊢
      rw [← copies, rowsCopied_pixel roomy filled before row column]
  | false =>
      simp only [Bool.false_eq_true, if_false] at filled ⊢
      refine ⟨fun y row x column c => ?_, fun i outside => ?_⟩
      · rw [documented.permutes kRGBAToBGRAMap copied y row x column c, ← copies,
          rowsCopied_pixel roomy filled before row column, byte_permuted]
      · rw [documented.keeps kRGBAToBGRAMap copied i outside, others i outside]

/-- A swap reads and writes inside its buffers.  If it returns EGL_TRUE, the
surface shows the picture whichever way the pixels were read, except that the
surface stays as it is without `glReadPixels` or memory to read into. -/
theorem swap_shows_picture (calls : SwapCalls) (w h : UInt32) (surface : Surface h.toNat) (content : ℕ → ℕ → Pixel)
    (roomy : w.toNat * 4 ≤ surface.bytesPerRow) (checked : calls.glGetError.isSome)
    (documented : Documented calls w.toNat h.toNat surface.bytesPerRow content) :
    ∃ result, calls.eglSwapBuffers w h surface = some result ∧ returned result.how = calls.realSwap ∧
      (if returned result.how = true ∧ calls.glReadPixels.isSome ∧
          (w.toNat * h.toNat * 4 ≤ calls.gPixelsSz ∨ calls.realloc.isSome)
        then Shows w.toNat h.toNat surface.bytesPerRow content surface.bytes result.bytes
        else result.bytes = surface.bytes) := by
  rw [SwapCalls.eglSwapBuffers, sizeT_total roomy]
  have memory := staging_isSome calls (w.toNat * h.toNat * 4)
  cases resolved : calls.glReadPixels with
  | none => exact ⟨_, rfl, rfl, by simp⟩
  | some read =>
      cases staged : calls.staging (w.toNat * h.toNat * 4) with
      | none =>
          rw [staged] at memory
          exact ⟨_, rfl, rfl, by simp [← memory]⟩
      | some staging =>
          rw [staged] at memory
          have filled := readPixels_filled documented resolved checked staging
          cases swaps : calls.realSwap with
          | false => exact ⟨_, rfl, rfl, by simp [returned]⟩
          | true =>
              simp only [Bool.true_eq_false, if_false, copyRows_eq roomy, Option.map_some]
              refine ⟨_, rfl, rfl, ?_⟩
              rw [if_pos ⟨rfl, rfl, memory.mp rfl⟩]
              exact shows_copied documented roomy filled surface.bytes rfl

/-- A picture of `w` columns that GL gives as RGBA only. -/
def rgbaOnly (w : ℕ) (content : ℕ → ℕ → Pixel) (realloc : Option Memory) : SwapCalls where
  glReadPixels := some fun format _ i => (content (i / 4 % w) (i / 4 / w)).byte format ⟨i % 4, Nat.mod_lt i (by decide)⟩
  glGetError := some 0x500
  permuteChannels := fun w h rowBytes map mem i =>
    if i / rowBytes < h ∧ i % rowBytes < w * 4 then
      mem (i / rowBytes * rowBytes +
        (i % rowBytes / 4 * 4 + (map ⟨i % rowBytes % 4, Nat.mod_lt _ (by decide)⟩).val))
    else mem i
  gPixels := fun _ => 0
  gPixelsSz := 0
  realloc := realloc
  gUseBgra := -1
  realSwap := true

theorem documented_rgbaOnly {bytesPerRow : ℕ} (roomy : w * 4 ≤ bytesPerRow) (content : ℕ → ℕ → Pixel)
    (realloc : Option Memory) : Documented (rgbaOnly w content realloc) w h bytesPerRow content := by
  refine ⟨fun _ _ fine => ?_, ?_, ?_, ?_⟩
  · cases fine
  · rintro read ⟨⟩ mem x column y row c
    have pixel : ((y * w + x) * 4 + c.val) / 4 = y * w + x := by omega
    have channel : (⟨((y * w + x) * 4 + c.val) % 4, Nat.mod_lt _ (by decide)⟩ : Fin 4) = c := by
      apply Fin.ext
      simp only
      omega
    have inRow : (y * w + x) % w = x := by rw [Nat.mul_add_mod_self_right, Nat.mod_eq_of_lt column]
    have ofRow : (y * w + x) / w = y := by
      rw [Nat.mul_comm, Nat.mul_add_div (by omega), Nat.div_eq_of_lt column, Nat.add_zero]
    simp only [pixel, channel, inRow, ofRow]
  · intro map mem y row x column c
    have near : x * 4 + c.val < bytesPerRow := by omega
    have ofRow : (y * bytesPerRow + (x * 4 + c.val)) / bytesPerRow = y := by
      rw [Nat.mul_comm, Nat.mul_add_div (by omega), Nat.div_eq_of_lt near, Nat.add_zero]
    have inRow : (y * bytesPerRow + (x * 4 + c.val)) % bytesPerRow = x * 4 + c.val := by
      rw [Nat.mul_add_mod_self_right, Nat.mod_eq_of_lt near]
    have pixel : (x * 4 + c.val) / 4 = x := by omega
    have channel : (⟨(x * 4 + c.val) % 4, Nat.mod_lt _ (by decide)⟩ : Fin 4) = c := by
      apply Fin.ext
      simp only
      omega
    have inside : y < h ∧ x * 4 + c.val < w * 4 := ⟨row, by omega⟩
    simp only [rgbaOnly, ofRow, inRow, inside, and_self, if_true, pixel, channel]
  · intro map mem i outside
    simp only [rgbaOnly, outside, if_false]

/-- Four pixels of different colours. -/
def corners (x y : ℕ) : Pixel := ⟨UInt8.ofNat (200 * x), UInt8.ofNat (100 * y), 32, 128⟩

def frame : Surface 2 := ⟨64, fun _ => 0, by decide⟩

/-- The lower left pixel of the picture ends up in the second row of the
surface. -/
theorem swap_shows_picture_corners :
    ∃ result, (rgbaOnly 2 corners (some fun _ => 7)).eglSwapBuffers 2 2 frame = some result ∧
      Shows 2 2 64 corners frame.bytes result.bytes := by
  obtain ⟨result, swaps, succeeds, shows⟩ :=
    swap_shows_picture (rgbaOnly 2 corners (some fun _ => 7)) 2 2 frame corners (by decide) rfl
      (documented_rgbaOnly (by decide) _ _)
  have drawn : returned result.how = true := succeeds
  rw [if_pos ⟨drawn, rfl, .inr rfl⟩] at shows
  exact ⟨result, swaps, shows⟩

def blank : Surface 1 := ⟨64, fun _ => 0, by decide⟩

/-- Without memory for the pixels a swap returns EGL_TRUE all the same. -/
theorem no_memory_shows_nothing :
    ∃ (calls : SwapCalls) (content : ℕ → ℕ → Pixel) (result : SwapResult),
      Documented calls 1 1 blank.bytesPerRow content ∧ calls.glGetError.isSome ∧ calls.glReadPixels.isSome ∧
        calls.eglSwapBuffers 1 1 blank = some result ∧ returned result.how = true ∧
        ¬ Shows 1 1 blank.bytesPerRow content blank.bytes result.bytes := by
  refine ⟨rgbaOnly 1 (fun _ _ => ⟨255, 16, 32, 128⟩) none, fun _ _ => ⟨255, 16, 32, 128⟩,
    ⟨.noMemory true, blank.bytes, -1⟩, documented_rgbaOnly (by decide) _ _, rfl, rfl, rfl, rfl, fun shows => ?_⟩
  have red := shows.pixels 0 (by decide) 0 (by decide) 2
  exact absurd red (by decide)

end Iland.Egl

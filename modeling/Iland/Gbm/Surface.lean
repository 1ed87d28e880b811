import Iland.Data.Run

namespace Iland.Gbm

open Iland.Data

/-! The buffers of a surface that EGL draws to and the client shows.

A surface has four buffers in a circle.  A swap writes the next one, and
`gbm_surface_lock_front_buffer` hands the written ones out in order.  Releasing
a buffer does nothing.
-/

def gbmNumBuffers : ℕ := 4

/-- `struct gbm_surface`, without what it passes to its buffers; these are
distinct. -/
structure GbmSurface (β : Type*) where
  bos : Fin gbmNumBuffers → β
  distinct : Function.Injective bos
  writeIdx : Fin gbmNumBuffers
  readIdx : Fin gbmNumBuffers
  count : ℕ

def nextIdx (i : Fin gbmNumBuffers) : Fin gbmNumBuffers := ⟨(i + 1) % gbmNumBuffers, Nat.mod_lt _ (by decide)⟩

namespace GbmSurface

variable {β : Type*} (surface : GbmSurface β)

def lockFrontBuffer : Option β × GbmSurface β :=
  if surface.count = 0 then (none, surface)
  else
    (some (surface.bos surface.readIdx),
      { surface with readIdx := nextIdx surface.readIdx, count := surface.count - 1 })

def releaseBuffer (_bo : β) : GbmSurface β := surface

def getWriteBo : β := surface.bos surface.writeIdx

def advanceWrite : GbmSurface β :=
  { surface with writeIdx := nextIdx surface.writeIdx, count := surface.count + 1 }

end GbmSurface

/-- How far `eglSwapBuffers` gets on a surface of this library. -/
inductive Swap where
  /-- There is no `glReadPixels`, and the real call says whether it succeeds. -/
  | noReadPixels (ret : Bool)
  /-- There is no memory for the pixels; likewise. -/
  | noMemory (ret : Bool)
  | realFails
  | drawn

variable {β : Type*}

def eglSwapBuffers (surface : GbmSurface β) : Swap → Bool × Option β × GbmSurface β
  | .noReadPixels ret => (ret, none, surface)
  | .noMemory ret => (ret, none, surface)
  | .realFails => (false, none, surface)
  | .drawn => (true, some surface.getWriteBo, surface.advanceWrite)

/-! A client that locks once after each swap. -/

/-- The client numbers the buffers that it gets, from 0. -/
structure Frames (β : Type*) where
  surface : GbmSurface β
  locks : ℕ
  /-- The buffers locked and not yet released, with their numbers. -/
  held : List (ℕ × β)
  /-- After a swap and before the lock: the buffer written, if any. -/
  swapped : Option (Option β)

inductive Act where
  | swap (result : Swap)
  | lock
  /-- Release the buffer with this number. -/
  | release (m : ℕ)

/-- Perform one call; an error means that such a client does not make it now.
The output is the buffer that a lock returns. -/
def step (s : Frames β) : Act → Except Unit (Frames β × Option β)
  | .swap result =>
      if s.swapped.isSome ∨ s.held.length > 3 then .error ()
      else
        let (_, written, surface) := eglSwapBuffers s.surface result
        .ok ({ s with surface := surface, swapped := some written }, none)
  | .lock =>
      if s.swapped.isNone then .error ()
      else
        match s.surface.lockFrontBuffer with
        | (none, surface) => .ok ({ s with surface := surface, swapped := none }, none)
        | (some bo, surface) =>
            .ok ({ surface, locks := s.locks + 1, held := s.held ++ [(s.locks, bo)], swapped := none }, some bo)
  | .release m =>
      match s.held.find? (fun lock => lock.1 == m) with
      | none => .error ()
      | some (_, bo) =>
          .ok ({ s with
            surface := s.surface.releaseBuffer bo
            held := s.held.filter (fun lock => lock.1 != m) }, none)

/-- A swap gets a buffer that is not locked, and a lock the buffer that the
swap before it wrote. -/
def Owned (s : Frames β) : Act → Prop
  | .swap _ => s.swapped = none → ∀ lock ∈ s.held, lock.2 ≠ s.surface.getWriteBo
  | .lock => ∀ written, s.swapped = some written → s.surface.lockFrontBuffer.1 = written
  | .release _ => True

/-- At a swap, each buffer held is one of the last three that were locked. -/
def HoldsRecent (s : Frames β) : Act → Prop
  | .swap _ => s.swapped = none → ∀ lock ∈ s.held, s.locks < lock.1 + gbmNumBuffers
  | _ => True

def bufferAt (n : ℕ) : Fin gbmNumBuffers := ⟨n % gbmNumBuffers, Nat.mod_lt _ (by decide)⟩

def Frames.start (bos : Fin gbmNumBuffers → β) (distinct : Function.Injective bos) : Frames β where
  surface := ⟨bos, distinct, bufferAt 0, bufferAt 0, 0⟩
  locks := 0
  held := []
  swapped := none

theorem nextIdx_bufferAt (n : ℕ) : nextIdx (bufferAt n) = bufferAt (n + 1) := by
  simp [nextIdx, bufferAt]

/-- The indices follow the writes and the locks, and nothing is held that four
further writes have come round to. -/
structure Circle (s : Frames β) : Prop where
  readIdx : s.surface.readIdx = bufferAt s.locks
  pending : match s.swapped with
    | some (some bo) =>
        s.surface.count = 1 ∧ s.surface.writeIdx = bufferAt (s.locks + 1) ∧ bo = s.surface.bos (bufferAt s.locks) ∧
          ∀ lock ∈ s.held, s.locks < lock.1 + gbmNumBuffers
    | _ => s.surface.count = 0 ∧ s.surface.writeIdx = bufferAt s.locks
  held : ∀ lock ∈ s.held, lock.1 < s.locks ∧ s.locks ≤ lock.1 + gbmNumBuffers ∧
    lock.2 = s.surface.bos (bufferAt lock.1)

variable {s : Frames β}

theorem bufferAt_ne_iff {m n : ℕ} (later : m < n) (near : n ≤ m + gbmNumBuffers) :
    bufferAt m ≠ bufferAt n ↔ n < m + gbmNumBuffers := by
  simp only [bufferAt, ne_eq, Fin.mk.injEq, gbmNumBuffers] at near ⊢
  omega

theorem Circle.owned_iff (circle : Circle s) (a : Act) : Owned s a ↔ HoldsRecent s a := by
  obtain ⟨readIdx, pending, held⟩ := circle
  cases a with
  | swap result =>
      refine forall_congr' fun ready => forall₂_congr fun lock member => ?_
      simp only [ready] at pending
      obtain ⟨later, near, buffer⟩ := held lock member
      rw [buffer, GbmSurface.getWriteBo, pending.2, s.surface.distinct.ne_iff]
      exact bufferAt_ne_iff later near
  | lock =>
      simp only [Owned, HoldsRecent, iff_true]
      intro written swapped
      cases written with
      | none =>
          simp only [swapped] at pending
          simp [GbmSurface.lockFrontBuffer, pending.1]
      | some bo =>
          simp only [swapped] at pending
          obtain ⟨count, _, written, _⟩ := pending
          simp [GbmSurface.lockFrontBuffer, count, readIdx, written]
  | release m => exact Iff.rfl

theorem Circle.swap (circle : Circle s) {result : Swap} {after : Frames β} {out : Option β}
    (recent : HoldsRecent s (.swap result)) (stepped : step s (.swap result) = .ok (after, out)) : Circle after := by
  obtain ⟨readIdx, pending, held⟩ := circle
  simp only [step] at stepped
  split at stepped
  · contradiction
  · rename_i allowed
    have ready : s.swapped = none := by
      rw [not_or, Bool.not_eq_true, Option.isSome_eq_false_iff, Option.isNone_iff_eq_none] at allowed
      exact allowed.1
    simp only [ready] at pending
    obtain ⟨count, writeIdx⟩ := pending
    cases result with
    | drawn =>
        cases stepped
        refine ⟨readIdx, ⟨?_, ?_, ?_, recent ready⟩, held⟩
        · simp [eglSwapBuffers, GbmSurface.advanceWrite, count]
        · simp [eglSwapBuffers, GbmSurface.advanceWrite, writeIdx, nextIdx_bufferAt]
        · simp [eglSwapBuffers, GbmSurface.getWriteBo, GbmSurface.advanceWrite, writeIdx]
    | _ =>
        cases stepped
        exact ⟨readIdx, ⟨count, writeIdx⟩, held⟩

theorem Circle.lock (circle : Circle s) {after : Frames β} {out : Option β}
    (stepped : step s .lock = .ok (after, out)) : Circle after := by
  obtain ⟨readIdx, pending, held⟩ := circle
  simp only [step] at stepped
  split at stepped
  · contradiction
  · cases swapped : s.swapped with
    | none => simp_all
    | some written =>
        cases written with
        | none =>
            simp only [swapped] at pending
            simp only [GbmSurface.lockFrontBuffer, pending.1, if_true] at stepped
            cases stepped
            exact ⟨readIdx, pending, held⟩
        | some bo =>
            simp only [swapped] at pending
            obtain ⟨count, writeIdx, written, recent⟩ := pending
            simp only [GbmSurface.lockFrontBuffer, count, one_ne_zero, if_false, Nat.sub_self] at stepped
            cases stepped
            refine ⟨?_, ⟨rfl, writeIdx⟩, ?_⟩
            · simp only [readIdx, nextIdx_bufferAt]
            · intro lock member
              rcases List.mem_append.mp member with old | new
              · have before := held lock old
                exact ⟨Nat.lt_succ_of_lt before.1, Nat.succ_le_of_lt (recent lock old), before.2.2⟩
              · rw [List.mem_singleton.mp new]
                exact ⟨Nat.lt_succ_self _, by simp [gbmNumBuffers], by rw [readIdx]⟩

theorem Circle.release (circle : Circle s) {m : ℕ} {after : Frames β} {out : Option β}
    (stepped : step s (.release m) = .ok (after, out)) : Circle after := by
  obtain ⟨readIdx, pending, held⟩ := circle
  simp only [step] at stepped
  split at stepped
  · contradiction
  · cases stepped
    have fewer : ∀ lock ∈ s.held.filter (fun lock => lock.1 != m), lock ∈ s.held :=
      fun lock member => List.mem_of_mem_filter member
    refine ⟨readIdx, ?_, fun lock member => held lock (fewer lock member)⟩
    simp only [GbmSurface.releaseBuffer]
    split
    · rename_i swapped
      simp only [swapped] at pending
      exact ⟨pending.1, pending.2.1, pending.2.2.1, fun lock member => pending.2.2.2 lock (fewer lock member)⟩
    · rename_i empty
      split at pending
      · rename_i swapped
        exact absurd swapped (empty _)
      · exact pending

theorem circle_start (bos : Fin gbmNumBuffers → β) (distinct : Function.Injective bos) :
    Circle (Frames.start bos distinct) := ⟨rfl, ⟨rfl, rfl⟩, by simp [Frames.start]⟩

/-- A client that locks once after each swap owns its buffers throughout a run
exactly when, at each swap, it holds none but the last three that it locked. -/
theorem frontBuffers_owned_iff (bos : Fin gbmNumBuffers → β) (distinct : Function.Injective bos) (actions : List Act) :
    Along step Owned (Frames.start bos distinct) actions ↔ Along step HoldsRecent (Frames.start bos distinct) actions := by
  refine along_iff_along (fun s a circle => circle.owned_iff a) ?_ (circle_start bos distinct) actions
  intro s a after out circle recent stepped
  cases a with
  | swap result => exact circle.swap recent stepped
  | lock => exact circle.lock stepped
  | release m => exact circle.release stepped

def keepsFirst : List Act :=
  [.swap .drawn, .lock, .swap .drawn, .lock, .release 1, .swap .drawn, .lock, .release 2, .swap .drawn, .lock,
    .release 3]

theorem frontBuffers_owned_iff_keepsFirst :
    Along step Owned (Frames.start Fin.val Fin.val_injective) keepsFirst ↔
      Along step HoldsRecent (Frames.start Fin.val Fin.val_injective) keepsFirst :=
  frontBuffers_owned_iff Fin.val Fin.val_injective keepsFirst

/-- The next swap writes the buffer that it keeps. -/
theorem locked_buffer_written :
    ∃ s outs, runActions step (Frames.start Fin.val Fin.val_injective) keepsFirst = .ok (s, outs) ∧
      s.held = [(0, 0)] ∧ s.surface.getWriteBo = 0 ∧ ¬ Owned s (.swap .drawn) := by
  refine ⟨_, _, rfl, rfl, rfl, ?_⟩
  intro owned
  exact owned rfl (0, 0) List.mem_cons_self rfl

end Iland.Gbm

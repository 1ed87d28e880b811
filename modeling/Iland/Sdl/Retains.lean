import Iland.Data.References
import Iland.Sdl.Backend

namespace Iland.Sdl

open Iland.Data

variable {host : Host} {surface : IOSurface}

/-! What the backend retains.

A CRTC slot holds a retain of its surface, and so does the pending place.
-/

namespace Backend

variable (backend : Backend) (x : IOSurface)

/-- The retains of a surface beyond those of the slots and the pending place. -/
def surplus : ℤ :=
  backend.retains x - heldIn CrtcSlot.surface backend.crtcs.entries x - held backend.pendingSurface x

@[simp] theorem retains_cfRetain : (backend.cfRetain surface).retains x = backend.retains x + held (some surface) x := by
  by_cases same : x = surface
  · subst same
    simp [cfRetain, held]
  · simp [cfRetain, held_some, same, Ne.symm same]

@[simp] theorem retains_cfReleaseOption (holder : Option IOSurface) :
    (backend.cfReleaseOption holder).retains x = backend.retains x - held holder x := by
  cases holder with
  | none => simp [cfReleaseOption]
  | some surface =>
      by_cases same : x = surface
      · subst same
        simp [cfReleaseOption, cfRelease, held]
      · simp [cfReleaseOption, cfRelease, held_some, same, Ne.symm same]

@[simp] theorem crtcs_cfReleaseOption (holder : Option IOSurface) :
    (backend.cfReleaseOption holder).crtcs = backend.crtcs := by
  cases holder <;> rfl

@[simp] theorem pendingSurface_cfReleaseOption (holder : Option IOSurface) :
    (backend.cfReleaseOption holder).pendingSurface = backend.pendingSurface := by
  cases holder <;> rfl

@[simp] theorem pendingSurface_cfRetain : (backend.cfRetain surface).pendingSurface = backend.pendingSurface := rfl

theorem surplus_withPending (pending : Option IOSurface) :
    ({ backend with pendingSurface := pending } : Backend).surplus x =
      backend.surplus x + held backend.pendingSurface x - held pending x := by
  simp only [surplus]
  ring

theorem surplus_cfRetain : (backend.cfRetain surface).surplus x = backend.surplus x + held (some surface) x := by
  rw [surplus, retains_cfRetain, surplus]
  simp only [cfRetain]
  ring

theorem surplus_cfReleaseOption (holder : Option IOSurface) :
    (backend.cfReleaseOption holder).surplus x = backend.surplus x - held holder x := by
  simp only [surplus, retains_cfReleaseOption, crtcs_cfReleaseOption, pendingSurface_cfReleaseOption]
  ring

theorem surplus_sdlBackendInit : (backend.sdlBackendInit host).surplus x = backend.surplus x := by
  simp only [sdlBackendInit]
  split <;> rfl

theorem getOrCreateCrtc_spec {crtcId : UInt32} {slot : CrtcSlot} {after : Backend}
    (found : backend.getOrCreateCrtc crtcId = (some slot, after)) :
    after.crtcs.lookup crtcId = some slot ∧ after.surplus x = backend.surplus x := by
  simp only [getOrCreateCrtc] at found
  cases present : backend.crtcs.lookup crtcId with
  | some old =>
      simp only [present] at found
      cases found
      exact ⟨present, rfl⟩
  | none =>
      simp only [present] at found
      split at found
      · cases found
      · rename_i room
        cases found
        have entries := KeyedTable.entries_insertNew (x := (⟨crtcId, none, 0, 0⟩ : CrtcSlot))
          (KeyedTable.lookup_eq_none_iff.mp present) room
        refine ⟨?_, ?_⟩
        · exact KeyedTable.lookup_of_mem (x := (⟨crtcId, none, 0, 0⟩ : CrtcSlot)) (by simp [entries])
        · simp [surplus, entries]

theorem getOrCreateCrtc_full {crtcId : UInt32} {after : Backend}
    (missing : backend.getOrCreateCrtc crtcId = (none, after)) : after = backend := by
  simp only [getOrCreateCrtc] at missing
  cases present : backend.crtcs.lookup crtcId with
  | some old =>
      simp only [present] at missing
      cases missing
  | none =>
      simp only [present] at missing
      split at missing <;> cases missing
      rfl

theorem surplus_setCrtc {crtcId : UInt32} {slot : CrtcSlot} {after : Backend} (found : after.crtcs.lookup crtcId = some slot)
    (px py : Int32) :
    (after.setCrtc crtcId surface px py).surplus x = after.surplus x + held slot.surface x - held (some surface) x := by
  have replaced := heldIn_modifyFirst CrtcSlot.surface (f := fun slot => slot.show surface px py) found x
  simp only [surplus, setCrtc, KeyedTable.entries_modify]
  rw [replaced]
  simp only [CrtcSlot.show]
  ring

theorem surplus_sdlPresentIosurfaceForCrtc (crtcId : UInt32) (px py : Int32) :
    (backend.sdlPresentIosurfaceForCrtc host surface crtcId px py).surplus x = backend.surplus x := by
  have initialized (presented : List Presented) :
      ({ backend with presented := presented }.sdlBackendInit host).surplus x = backend.surplus x :=
    surplus_sdlBackendInit _ x
  simp only [sdlPresentIosurfaceForCrtc]
  rw [← initialized (backend.presented ++ [⟨surface, crtcId, px, py⟩])]
  split
  · split
    · rename_i missing
      rw [getOrCreateCrtc_full _ missing]
    · rename_i slot after created
      obtain ⟨found, same⟩ := getOrCreateCrtc_spec _ x created
      have foundNow : ((after.cfReleaseOption slot.surface).cfRetain surface).crtcs.lookup crtcId = some slot := by
        simpa [cfRetain] using found
      rw [surplus_setCrtc x foundNow, surplus_cfRetain, surplus_cfReleaseOption, same]
      ring
  · rw [surplus_withPending, surplus_cfRetain, surplus_cfReleaseOption, pendingSurface_cfRetain,
      pendingSurface_cfReleaseOption]
    ring

theorem surplus_sdlBackendPumpEvents : (backend.sdlBackendPumpEvents host).surplus x = backend.surplus x := by
  simp only [sdlBackendPumpEvents]
  split
  · cases pending : backend.pendingSurface with
    | none => rfl
    | some surface =>
        have taken := backend.surplus_withPending x none
        have released := surplus_cfReleaseOption
          ({ backend with pendingSurface := none }.sdlPresentIosurfaceForCrtc host surface 1 0 0) x (some surface)
        rw [surplus_sdlPresentIosurfaceForCrtc, taken, pending, held_none] at released
        exact released.trans (by ring)
  · rfl

theorem releaseAll_spec (slots : List CrtcSlot) :
    let after := slots.foldl (fun backend slot => backend.cfReleaseOption slot.surface) backend
    after.retains x = backend.retains x - heldIn CrtcSlot.surface slots x ∧
      after.pendingSurface = backend.pendingSurface := by
  induction slots generalizing backend with
  | nil => simp
  | cons slot rest ih =>
      obtain ⟨retains, pending⟩ := ih (backend.cfReleaseOption slot.surface)
      simp only [List.foldl_cons, heldIn_cons]
      refine ⟨?_, by simpa using pending⟩
      rw [retains, retains_cfReleaseOption]
      ring

theorem surplus_sdlBackendShutdown : backend.sdlBackendShutdown.surplus x = backend.surplus x := by
  simp only [sdlBackendShutdown]
  split
  · obtain ⟨retains, pending⟩ := releaseAll_spec backend x backend.crtcs.entries
    simp only [surplus, retains_cfReleaseOption, retains, pending, crtcs_cfReleaseOption, KeyedTable.entries_empty,
      heldIn_nil, held_none]
    ring
  · rfl

end Backend

end Iland.Sdl

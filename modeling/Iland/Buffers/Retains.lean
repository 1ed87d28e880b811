import Iland.Buffers.Steps

namespace Iland.Buffers

open Iland.Data
open Iland.Drm
open Iland.Gbm
open Iland.Ioctl
open Iland.Sdl

variable {host : Host} {ioSurfaceGetID : IOSurface → UInt32} {dev : Device} {bos : List Bo} {bo : Bo}

/-! The retains of a surface are those of its buffers, its framebuffers, the
CRTC slots and the pending place. -/

/-- Each retain has its holder, no surface backs two dumb buffers or two GBM
buffers, and free places hold nothing. -/
structure Accounts (dev : Device) (bos : List Bo) : Prop where
  balanced : ∀ x, dev.sdl.surplus x = heldAt DumbBuf.surface dev.gDumb x +
    heldIn (fun bo : Bo => some bo.surface) bos x + heldAt FbEntry.surface dev.gFbs x
  dumbOnce : ∀ x, heldAt DumbBuf.surface dev.gDumb x ≤ 1
  boOnce : ∀ x, heldIn (fun bo : Bo => some bo.surface) bos x ≤ 1
  dumbFree : ∀ i, (dev.gDumb i).handle = 0 → (dev.gDumb i).surface = none
  fbFree : ∀ i, (dev.gFbs i).fbId = 0 → (dev.gFbs i).surface = none

theorem Accounts.unheld (accounts : Accounts dev bos) {x : IOSurface} (unretained : dev.sdl.retains x = 0) :
    heldAt DumbBuf.surface dev.gDumb x = 0 ∧ heldIn (fun bo : Bo => some bo.surface) bos x = 0 := by
  have balanced := accounts.balanced x
  have slots := heldIn_nonneg CrtcSlot.surface dev.sdl.crtcs.entries x
  have pending := held_nonneg dev.sdl.pendingSurface x
  have dumbs := heldAt_nonneg DumbBuf.surface dev.gDumb x
  have buffers := heldIn_nonneg (fun bo : Bo => some bo.surface) bos x
  have fbs := heldAt_nonneg FbEntry.surface dev.gFbs x
  simp only [Backend.surplus, unretained] at balanced
  omega

/-! What keeps the accounts. -/

theorem Accounts.presents {after : Device} (accounts : Accounts dev bos) (same : Presents dev after) :
    Accounts after bos := by
  refine ⟨?_, ?_, accounts.boOnce, ?_, ?_⟩
  · simpa only [same.surplus, same.gDumb, same.gFbs] using accounts.balanced
  · simpa only [same.gDumb] using accounts.dumbOnce
  · simpa only [same.gDumb] using accounts.dumbFree
  · simpa only [same.gFbs] using accounts.fbFree

theorem Accounts.addDumb (accounts : Accounts dev bos) {slot : Fin maxDumbBufs} {info : SurfaceInfo}
    (free : (dev.gDumb slot).handle = 0) (handle : dev.gNextDumbHandle ≠ 0)
    (new : dev.sdl.retains info.surface = 0) : Accounts (addDumb dev slot info) bos := by
  obtain ⟨balanced, dumbOnce, boOnce, dumbFree, fbFree⟩ := accounts
  have empty := dumbFree slot free
  have unheld := (Accounts.unheld ⟨balanced, dumbOnce, boOnce, dumbFree, fbFree⟩ new).1
  have dumbs (x : IOSurface) : heldAt DumbBuf.surface (Buffers.addDumb dev slot info).gDumb x =
      heldAt DumbBuf.surface dev.gDumb x + held (some info.surface) x := by
    simp only [Buffers.addDumb, heldAt_update, empty, held_none]
    ring
  refine ⟨fun x => ?_, fun x => ?_, boOnce, fun i => ?_, fbFree⟩
  · have before := balanced x
    simp only [dumbs]
    simp only [Buffers.addDumb, Backend.surplus_cfRetain, before]
    ring
  · simp only [dumbs, held_some]
    split
    · rename_i same
      subst same
      omega
    · simpa using dumbOnce x
  · by_cases here : i = slot
    · subst here
      simp [Buffers.addDumb, handle]
    · simp only [Buffers.addDumb, Function.update_of_ne here]
      exact dumbFree i

theorem Accounts.dropDumb (accounts : Accounts dev bos) (i : Fin maxDumbBufs) : Accounts (dropDumb dev i) bos := by
  obtain ⟨balanced, dumbOnce, boOnce, dumbFree, fbFree⟩ := accounts
  have dumbs (x : IOSurface) : heldAt DumbBuf.surface (Buffers.dropDumb dev i).gDumb x =
      heldAt DumbBuf.surface dev.gDumb x - held (dev.gDumb i).surface x := by
    simp only [Buffers.dropDumb, heldAt_update, held_none, add_zero]
  refine ⟨fun x => ?_, fun x => ?_, boOnce, fun j => ?_, fbFree⟩
  · have before := balanced x
    simp only [dumbs]
    simp only [Buffers.dropDumb, Backend.surplus_cfReleaseOption, before]
    ring
  · have before := dumbOnce x
    have released := held_nonneg (dev.gDumb i).surface x
    simp only [dumbs]
    omega
  · by_cases here : j = i
    · subst here
      simp [Buffers.dropDumb]
    · simp only [Buffers.dropDumb, Function.update_of_ne here]
      exact dumbFree j

theorem Accounts.addFb (accounts : Accounts dev bos) {slot : Fin maxFbs} {surf : IOSurface}
    (free : (dev.gFbs slot).fbId = 0) (id : dev.gNextFbId ≠ 0) : Accounts (addFb dev slot surf) bos := by
  obtain ⟨balanced, dumbOnce, boOnce, dumbFree, fbFree⟩ := accounts
  have empty := fbFree slot free
  refine ⟨fun x => ?_, dumbOnce, boOnce, dumbFree, fun i => ?_⟩
  · have before := balanced x
    simp only [Buffers.addFb, Backend.surplus_cfRetain, before, heldAt_update, empty, held_none]
    ring
  · by_cases here : i = slot
    · subst here
      simp [Buffers.addFb, id]
    · simp only [Buffers.addFb, Function.update_of_ne here]
      exact fbFree i

theorem Accounts.dropFb (accounts : Accounts dev bos) (i : Fin maxFbs) : Accounts (dropFb dev i) bos := by
  obtain ⟨balanced, dumbOnce, boOnce, dumbFree, fbFree⟩ := accounts
  refine ⟨fun x => ?_, dumbOnce, boOnce, dumbFree, fun j => ?_⟩
  · have before := balanced x
    simp only [Buffers.dropFb, Backend.surplus_cfReleaseOption, before, heldAt_update, held_none, add_zero]
    ring
  · by_cases here : j = i
    · subst here
      simp [Buffers.dropFb]
    · simp only [Buffers.dropFb, Function.update_of_ne here]
      exact fbFree j

/-! GBM buffers. -/

def InOrder (ioSurfaceGetID : IOSurface → UInt32) (b : Gbm.Buffers) : Prop :=
  Accounts b.dev b.bos ∧ Registered ioSurfaceGetID b.dev b.bos

variable {b : Gbm.Buffers}

theorem Accounts.create (accounts : Accounts dev bos) (new : dev.sdl.retains bo.surface = 0) (table : List GbmBufEntry) :
    Accounts { dev with sdl := dev.sdl.cfRetain bo.surface, gGbmBufs := table } (bos ++ [bo]) := by
  have unheld := (accounts.unheld new).2
  refine ⟨fun x => ?_, accounts.dumbOnce, fun x => ?_, accounts.dumbFree, accounts.fbFree⟩
  · have before := accounts.balanced x
    simp only [Backend.surplus_cfRetain, before, heldIn_append, heldIn_cons, heldIn_nil]
    ring
  · have before := accounts.boOnce x
    simp only [heldIn_append, heldIn_cons, heldIn_nil, held_some]
    split
    · rename_i same
      subst same
      omega
    · omega

theorem Accounts.free (accounts : Accounts dev bos) (member : bo ∈ bos) (table : List GbmBufEntry) :
    Accounts { dev with sdl := dev.sdl.cfRelease bo.surface, gGbmBufs := table } (bos.erase bo) := by
  have others (x : IOSurface) := heldIn_erase (fun bo : Bo => some bo.surface) member x
  refine ⟨fun x => ?_, accounts.dumbOnce, fun x => ?_, accounts.dumbFree, accounts.fbFree⟩
  · have before := accounts.balanced x
    have released := Backend.surplus_cfReleaseOption dev.sdl x (some bo.surface)
    simp only [Backend.cfReleaseOption] at released
    simp only [released, before, others]
    ring
  · have before := accounts.boOnce x
    have released := held_nonneg (some bo.surface) x
    rw [others]
    omega

theorem InOrder.create (inOrder : InOrder ioSurfaceGetID b) (new : b.dev.sdl.retains bo.surface = 0) :
    InOrder ioSurfaceGetID (b.gbmBoCreate ioSurfaceGetID (some bo)).2 := by
  refine ⟨?_, inOrder.2.create⟩
  simp only [Gbm.Buffers.gbmBoCreate, drmRegisterGbmBuffer_eq]
  exact inOrder.1.create new _

theorem InOrder.free (inOrder : InOrder ioSurfaceGetID b) (member : bo ∈ b.bos) :
    InOrder ioSurfaceGetID (b.free ioSurfaceGetID bo) := by
  refine ⟨?_, inOrder.2.free⟩
  simp only [Gbm.Buffers.free, drmUnregisterGbmBuffer_eq]
  exact inOrder.1.free member _

theorem retains_create {x : IOSurface} (other : x ≠ bo.surface) :
    (b.gbmBoCreate ioSurfaceGetID (some bo)).2.dev.sdl.retains x = b.dev.sdl.retains x := by
  simp only [Gbm.Buffers.gbmBoCreate, drmRegisterGbmBuffer_eq, Backend.retains_cfRetain, held_some, if_neg other.symm,
    add_zero]

/-! Runs. -/

variable {p after : Program} {op : Op} {result : Result}

theorem ofNat_ne_zero {n : ℕ} (positive : 0 < n) (small : n < 2 ^ 32) : UInt32.ofNat n ≠ 0 := by
  intro zero
  have value := congrArg UInt32.toNat zero
  rw [UInt32.toNat_ofNat_of_lt' small] at value
  simp at value
  omega

def Kept (ioSurfaceGetID : IOSurface → UInt32) (dev : Device) (bos : List Bo) (dumbsCreated fbsCreated : ℕ) : Prop :=
  Accounts dev bos ∧ Registered ioSurfaceGetID dev bos ∧
    dev.gNextDumbHandle = UInt32.ofNat (dumbsCreated + 1) ∧ dev.gNextFbId = UInt32.ofNat (fbsCreated + 1)

theorem Kept.presents {after : Device} {dumbs fbs : ℕ} (kept : Kept ioSurfaceGetID dev bos dumbs fbs)
    (same : Presents dev after) : Kept ioSurfaceGetID after bos dumbs fbs :=
  ⟨kept.1.presents same, kept.2.1.presents same, same.gNextDumbHandle ▸ kept.2.2.1, same.gNextFbId ▸ kept.2.2.2⟩

theorem kept_act {a : Action} {out : Output} {after : Device} {dumbs fbs : ℕ} (kept : Kept ioSurfaceGetID dev bos dumbs fbs)
    (stepped : ActStep dev a out after) (new : ∀ surface ∈ (Op.act a).newSurfaces, dev.sdl.retains surface = 0)
    (fewDumbs : dumbs + dumbsCreatedBy a out < 2 ^ 32) (fewFbs : fbs + fbsCreatedBy a out < 2 ^ 32) :
    Kept ioSurfaceGetID after bos (dumbs + dumbsCreatedBy a out) (fbs + fbsCreatedBy a out) := by
  obtain ⟨accounts, registered, nextDumb, nextFb⟩ := kept
  cases stepped with
  | presents same noDumb noFb =>
      rw [noDumb, noFb]
      exact Kept.presents ⟨accounts, registered, nextDumb, nextFb⟩ same
  | @addDumb fd slot info creates free one noFb =>
      rw [one] at fewDumbs
      rw [one, noFb]
      have nonzero : dev.gNextDumbHandle ≠ 0 := nextDumb ▸ ofNat_ne_zero (Nat.succ_pos _) fewDumbs
      have fresh := new info.surface (by simp [creates, Op.newSurfaces])
      refine ⟨accounts.addDumb free nonzero fresh, ⟨registered.entries, registered.distinct⟩, ?_, nextFb⟩
      simp only [Buffers.addDumb, nextDumb]
      exact (UInt32.ofNat_add _ 1).symm
  | dropDumb i noDumb noFb =>
      rw [noDumb, noFb]
      exact ⟨accounts.dropDumb i, ⟨registered.entries, registered.distinct⟩, nextDumb, nextFb⟩
  | addFb adds free noDumb one =>
      rw [one] at fewFbs
      rw [noDumb, one]
      have nonzero : dev.gNextFbId ≠ 0 := nextFb ▸ ofNat_ne_zero (Nat.succ_pos _) fewFbs
      refine ⟨accounts.addFb free nonzero, ⟨registered.entries, registered.distinct⟩, nextDumb, ?_⟩
      simp only [Buffers.addFb, nextFb]
      exact (UInt32.ofNat_add _ 1).symm
  | dropFb i noDumb noFb =>
      rw [noDumb, noFb]
      exact ⟨accounts.dropFb i, ⟨registered.entries, registered.distinct⟩, nextDumb, nextFb⟩

theorem InOrder.gbm {op : Op} {after : Gbm.Buffers} (inOrder : InOrder ioSurfaceGetID b)
    (stepped : GbmStep ioSurfaceGetID b op after) (distinct : (op.provided.map Bo.surface).Nodup)
    (new : ∀ bo ∈ op.provided, b.dev.sdl.retains bo.surface = 0) : InOrder ioSurfaceGetID after := by
  refine stepped.inv (InOrder ioSurfaceGetID) (fun b bo => b.dev.sdl.retains bo.surface = 0)
    (fun bo other => bo.surface ≠ other.surface) (fun _ _ inOrder => inOrder.free)
    (fun _ _ inOrder new => inOrder.create new) ?_ inOrder (List.pairwise_map.mp distinct) new
  exact fun b bo other new apart => (retains_create apart.symm).trans new

theorem Kept.frame {after : Device} {bos' : List Bo} {dumbs fbs : ℕ} (kept : Kept ioSurfaceGetID dev bos dumbs fbs)
    (frame : GbmFrame dev after) (inOrder : Accounts after bos' ∧ Registered ioSurfaceGetID after bos') :
    Kept ioSurfaceGetID after bos' dumbs fbs := by
  refine ⟨inOrder.1, inOrder.2, ?_, ?_⟩
  · rw [frame]
    exact kept.2.2.1
  · rw [frame]
    exact kept.2.2.2

theorem kept_step (regular : Regular p op) (kept : Kept ioSurfaceGetID p.dev p.bos p.dumbsCreated p.fbsCreated)
    (done : step host ioSurfaceGetID p op = .ok (after, result)) (fewDumbs : after.dumbsCreated < 2 ^ 32)
    (fewFbs : after.fbsCreated < 2 ^ 32) :
    Kept ioSurfaceGetID after.dev after.bos after.dumbsCreated after.fbsCreated := by
  obtain ⟨isPublic, distinct, new⟩ := regular
  rcases gbm_cases done with ⟨a, session, out, rfl, acted, rfl⟩ | ⟨surface, crtcId, x, y, rfl, rfl⟩ |
    ⟨b, surfaces, rfl, ended⟩
  · exact kept_act kept (act_cases isPublic acted) new fewDumbs fewFbs
  · exact kept.presents (presents_present surface crtcId x y)
  · have provided : ∀ bo ∈ op.provided, p.dev.sdl.retains bo.surface = 0 := by
      intro bo member
      cases ended <;> exact new bo.surface (List.mem_map_of_mem member)
    have apart : (op.provided.map Bo.surface).Nodup := by
      cases ended <;> exact distinct
    have inOrder : InOrder ioSurfaceGetID p.buffers := ⟨kept.1, kept.2.1⟩
    exact kept.frame ended.frame (inOrder.gbm ended apart provided)

theorem kept_initial : Kept ioSurfaceGetID Program.initial.dev Program.initial.bos 0 0 := by
  have dumbs (x : IOSurface) : heldAt DumbBuf.surface Device.initial.gDumb x = 0 := by
    simp [heldAt, Device.initial]
  have fbs (x : IOSurface) : heldAt FbEntry.surface Device.initial.gFbs x = 0 := by
    simp [heldAt, Device.initial]
  refine ⟨⟨fun x => ?_, fun x => ?_, fun x => ?_, fun _ _ => rfl, fun _ _ => rfl⟩, ⟨?_, ?_⟩, rfl, rfl⟩
  · change (0 : ℤ) = heldAt DumbBuf.surface Device.initial.gDumb x + 0 + heldAt FbEntry.surface Device.initial.gFbs x
    rw [dumbs, fbs]
    rfl
  · change heldAt DumbBuf.surface Device.initial.gDumb x ≤ 1
    rw [dumbs]
    decide
  · exact zero_le_one
  · exact fun entry member => absurd member List.not_mem_nil
  · exact List.nodup_nil

def KeptWhileFew (ioSurfaceGetID : IOSurface → UInt32) (p : Program) : Prop :=
  p.dumbsCreated < 2 ^ 32 → p.fbsCreated < 2 ^ 32 → Kept ioSurfaceGetID p.dev p.bos p.dumbsCreated p.fbsCreated

theorem keptWhileFew_step (p : Program) (op : Op) (after : Program) (result : Result) (regular : Regular p op)
    (kept : KeptWhileFew ioSurfaceGetID p) (done : step host ioSurfaceGetID p op = .ok (after, result)) :
    KeptWhileFew ioSurfaceGetID after := by
  intro fewDumbs fewFbs
  obtain ⟨dumbs, fbs⟩ := counts_le done
  exact kept_step regular (kept (lt_of_le_of_lt dumbs fewDumbs) (lt_of_le_of_lt fbs fewFbs)) done fewDumbs fewFbs

/-! What refers to a surface. -/

variable (dev bos) (x : IOSurface)

def fbsOn : ℕ := (Finset.univ.filter fun i => (dev.gFbs i).fbId ≠ 0 ∧ (dev.gFbs i).surface = some x).card

def slotsOn : ℕ := dev.sdl.crtcs.entries.countP fun slot => decide (slot.surface = some x)

/-- The live buffers, the live framebuffers, the slots and the pending place
that refer to a surface. -/
def references : ℕ :=
  (if ∃ i, (dev.gDumb i).handle ≠ 0 ∧ (dev.gDumb i).surface = some x then 1 else 0) +
    (if ∃ bo ∈ bos, bo.surface = x then 1 else 0) + fbsOn dev x + slotsOn dev x +
    (if dev.sdl.pendingSurface = some x then 1 else 0)

variable {dev bos}

theorem heldAt_gDumb (accounts : Accounts dev bos) : heldAt DumbBuf.surface dev.gDumb x =
    if ∃ i, (dev.gDumb i).handle ≠ 0 ∧ (dev.gDumb i).surface = some x then 1 else 0 := by
  have used : (∃ i, (dev.gDumb i).handle ≠ 0 ∧ (dev.gDumb i).surface = some x) ↔
      ∃ i, (dev.gDumb i).surface = some x := by
    refine exists_congr fun i => and_iff_right_of_imp fun refers free => ?_
    rw [accounts.dumbFree i free] at refers
    contradiction
  simp only [used]
  exact heldAt_eq_ite _ (accounts.dumbOnce x)

theorem heldAt_gFbs (accounts : Accounts dev bos) : heldAt FbEntry.surface dev.gFbs x = fbsOn dev x := by
  have used (i : Fin maxFbs) : (dev.gFbs i).fbId ≠ 0 ∧ (dev.gFbs i).surface = some x ↔ (dev.gFbs i).surface = some x := by
    refine and_iff_right_of_imp fun refers free => ?_
    rw [accounts.fbFree i free] at refers
    contradiction
  simp only [heldAt_eq_card, fbsOn, used]

theorem heldIn_bos (accounts : Accounts dev bos) : heldIn (fun bo : Bo => some bo.surface) bos x =
    if ∃ bo ∈ bos, bo.surface = x then 1 else 0 := by
  rw [heldIn_eq_ite _ (accounts.boOnce x)]
  simp only [Option.some.injEq]

theorem retains_eq_references (accounts : Accounts dev bos) : dev.sdl.retains x = references dev bos x := by
  have balanced := accounts.balanced x
  rw [heldAt_gDumb x accounts, heldIn_bos x accounts, heldAt_gFbs x accounts, Backend.surplus,
    heldIn_eq_countP, held] at balanced
  simp only [references, slotsOn]
  push_cast
  omega

/-- In a run with fewer than 2^32 dumb buffers and framebuffers, the library
retains a surface once for each reference to it, and the handle table names no
surface that is not retained. -/
theorem retains_counted {ops : List Op} {last : Program} {results : List Result}
    (run : runActions (step host ioSurfaceGetID) .initial ops = .ok (last, results))
    (regular : Along (step host ioSurfaceGetID) Regular .initial ops)
    (fewDumbs : last.dumbsCreated < 2 ^ 32) (fewFbs : last.fbsCreated < 2 ^ 32) :
    (∀ x, last.dev.sdl.retains x = references last.dev last.bos x) ∧
      ∀ entry ∈ last.dev.gGbmBufs, 0 < last.dev.sdl.retains entry.surface := by
  have kept : KeptWhileFew ioSurfaceGetID last := regular.invariant keptWhileFew_step (fun _ _ => kept_initial) run
  obtain ⟨accounts, registered, _, _⟩ := kept fewDumbs fewFbs
  refine ⟨fun x => retains_eq_references x accounts, fun entry stored => ?_⟩
  obtain ⟨bo, live, backs, _⟩ := registered.entries entry stored
  have backed : ∃ bo ∈ last.bos, bo.surface = entry.surface := ⟨bo, live, backs⟩
  simp only [retains_eq_references entry.surface accounts, references, if_pos backed]
  omega

def showsBoth : List Op :=
  [.act (.call (.createDumbBuffer drmVirtualFd (some ⟨7, 0, 0, 0⟩))), .boCreate (some ⟨16, 8⟩),
    .act (.call (.addFB drmVirtualFd 1 true)), .act (.call (.addFB drmVirtualFd 12 true)),
    .act (.call (.setCrtc drmVirtualFd 1 1 0 0 none)), .act (.call (.setCrtc drmVirtualFd 1 2 0 0 none)),
    .act (.call (.rmFB drmVirtualFd 1)), .boDestroy (some 16)]

theorem retains_counted_showsBoth :
    ∃ last results, runActions (step (.uniform 1) fun surface => UInt32.ofNat (surface + 4)) .initial showsBoth =
        .ok (last, results) ∧
      (∀ x, last.dev.sdl.retains x = references last.dev last.bos x) ∧
      last.dev.sdl.retains 7 = 1 ∧ last.dev.sdl.retains 8 = 2 := by
  have run : runActions (step (.uniform 1) fun surface => UInt32.ofNat (surface + 4)) .initial showsBoth =
    .ok (_, _) := rfl
  have regular : Along (step (.uniform 1) fun surface => UInt32.ofNat (surface + 4)) Regular .initial showsBoth := by
    refine .cons rfl ⟨rfl, by decide, by decide +kernel⟩ ?_
    refine .cons rfl ⟨rfl, by decide, by decide +kernel⟩ ?_
    exact .cons rfl ⟨rfl, by decide, nofun⟩ (.cons rfl ⟨rfl, by decide, nofun⟩ (.cons rfl ⟨rfl, by decide, nofun⟩
      (.cons rfl ⟨rfl, by decide, nofun⟩ (.cons rfl ⟨rfl, by decide, nofun⟩ (.cons rfl ⟨rfl, by decide, nofun⟩ trivial)))))
  have counted := retains_counted run regular (by decide +kernel) (by decide +kernel)
  exact ⟨_, _, run, counted.1, by decide +kernel, by decide +kernel⟩

end Iland.Buffers

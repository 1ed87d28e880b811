import Iland.Buffers.Steps

namespace Iland.Buffers

open Iland.Data
open Iland.Drm
open Iland.Gbm
open Iland.Ioctl
open Iland.Sdl

variable {host : Host} {ioSurfaceGetID : IOSurface → UInt32} {dev : Device} {bos : List Bo} {b : Gbm.Buffers} {bo : Bo}

/-! Which buffer a handle names.

The handles of dumb buffers come from a counter, those of GBM buffers are the
ids of their surfaces, and `drmModeAddFB` looks among the dumb buffers first.
-/

def Makes (dev : Device) (handle : UInt32) (surface : IOSurface) : Prop :=
  ∃ slot, (dev.gFbs slot).fbId = 0 ∧
    drmModeAddFB dev drmVirtualFd handle true = (.ok dev.gNextFbId, addFb dev slot surface)

/-- The handle of each live buffer names that buffer. -/
def Resolved (ioSurfaceGetID : IOSurface → UInt32) (p : Program) : Prop :=
  (∀ bo ∈ p.bos, Makes p.dev (gbmBoGetHandle ioSurfaceGetID (some bo)) bo.surface) ∧
    ∀ i surface, (p.dev.gDumb i).surface = some surface → Makes p.dev (p.dev.gDumb i).handle surface

/-- The GBM buffers fit into the table, and no two live buffers have the same handle. -/
def Distinguished (ioSurfaceGetID : IOSurface → UInt32) (p : Program) : Prop :=
  p.bos.length ≤ maxGbmBufs ∧ (∀ i, ∀ bo ∈ p.bos, (p.dev.gDumb i).handle ≠ ioSurfaceGetID bo.surface) ∧
    ∀ i j, (p.dev.gDumb i).handle ≠ 0 → (p.dev.gDumb i).handle = (p.dev.gDumb j).handle → i = j

/-- A surface whose id is not 0 and differs from those of the live buffers. -/
def Fresh (ioSurfaceGetID : IOSurface → UInt32) (dev : Device) (bos : List Bo) (surface : IOSurface) : Prop :=
  ioSurfaceGetID surface ≠ 0 ∧ (∀ bo ∈ bos, ioSurfaceGetID bo.surface ≠ ioSurfaceGetID surface) ∧
    ∀ i other, (dev.gDumb i).surface = some other → ioSurfaceGetID other ≠ ioSurfaceGetID surface

def Op.addsFb : Op → Bool
  | .act (.call (.addFB ..)) => true
  | _ => false

/-- The system tells surfaces apart by their ids, and the counter of the dumb
buffers has not come round to 0, the mark of a free place. -/
def Identified (ioSurfaceGetID : IOSurface → UInt32) (p : Program) (op : Op) : Prop :=
  op.isPublic = true ∧ op.addsFb = false ∧ (op.newSurfaces.map ioSurfaceGetID).Nodup ∧
    (∀ surface ∈ op.newSurfaces, Fresh ioSurfaceGetID p.dev p.bos surface) ∧
    ∀ fd created, op = .act (.call (.createDumbBuffer fd created)) → p.dev.gNextDumbHandle ≠ 0

structure Named (ioSurfaceGetID : IOSurface → UInt32) (dev : Device) (bos : List Bo) : Prop where
  registered : Registered ioSurfaceGetID dev bos
  short : dev.gGbmBufs.length ≤ maxGbmBufs
  ids : (bos.map fun bo => ioSurfaceGetID bo.surface).Nodup
  nonzero : ∀ bo ∈ bos, ioSurfaceGetID bo.surface ≠ 0
  backed : ∀ i, (dev.gDumb i).surface = none ↔ (dev.gDumb i).handle = 0
  dumbsApart : ∀ i j surface, (dev.gDumb i).surface = some surface → (dev.gDumb j).surface = some surface → i = j
  kindsApart : ∀ i, ∀ bo ∈ bos, (dev.gDumb i).surface ≠ some bo.surface
  noFb : ∀ i, (dev.gFbs i).fbId = 0

def Listed (ioSurfaceGetID : IOSurface → UInt32) (dev : Device) (bos : List Bo) : Prop :=
  ∀ bo ∈ bos, (⟨ioSurfaceGetID bo.surface, bo.surface⟩ : GbmBufEntry) ∈ dev.gGbmBufs

def AllListed (ioSurfaceGetID : IOSurface → UInt32) (b : Gbm.Buffers) : Prop :=
  Named ioSurfaceGetID b.dev b.bos ∧ Listed ioSurfaceGetID b.dev b.bos

/-! One state. -/

theorem makes_iff (room : ∃ i, (dev.gFbs i).fbId = 0) (handle : UInt32) (surface : IOSurface) :
    Makes dev handle surface ↔ boSurface dev handle = some surface := by
  constructor
  · intro makes
    obtain ⟨place, _, made⟩ := makes
    rcases addFB_cases dev drmVirtualFd handle true with ⟨⟨e, failed⟩, _⟩ | ⟨slot, surf, _, _, found, _, adds⟩
    · rw [made] at failed
      cases failed
    · rw [adds, Prod.mk.injEq] at made
      -- The retain that is added tells which surface it is.
      have retained := congrArg (fun dev => dev.sdl.retains surface) made.2
      simp only [addFb, Backend.retains_cfRetain, held_some, if_true] at retained
      split at retained
      · rename_i same
        rwa [← same]
      · omega
  · intro found
    obtain ⟨i, free⟩ := room
    obtain ⟨slot, first⟩ := Option.isSome_iff_exists.mp
      (firstPlace_isSome (p := fun i => (dev.gFbs i).fbId == 0) (i := i) (by simpa using free))
    refine ⟨slot, by simpa using firstPlace_some first, ?_⟩
    rw [boSurface] at found
    simp only [drmModeAddFB, checkFd, found, first]
    rfl

theorem dumb_place {h : UInt32} {i : Fin maxDumbBufs} (first : firstPlace (fun i => (dev.gDumb i).handle == h) = some i) :
    (dev.gDumb i).handle = h := by
  simpa using firstPlace_some first

theorem boSurface_dumb {i : Fin maxDumbBufs} {surface : IOSurface} (backs : (dev.gDumb i).surface = some surface)
    (only : ∀ j, (dev.gDumb j).handle = (dev.gDumb i).handle → j = i) :
    boSurface dev (dev.gDumb i).handle = some surface := by
  obtain ⟨j, first⟩ := Option.isSome_iff_exists.mp
    (firstPlace_isSome (p := fun j => (dev.gDumb j).handle == (dev.gDumb i).handle) (i := i) (by simp))
  have here : j = i := only j (dumb_place first)
  rw [boSurface, first, here, Option.bind_some, backs]
  rfl

theorem boSurface_table {h : UInt32} (absent : ∀ i, (dev.gDumb i).handle ≠ h) :
    boSurface dev h = lookupGbmBuffer dev h := by
  have none : firstPlace (fun i => (dev.gDumb i).handle == h) = none := by
    cases first : firstPlace (fun i => (dev.gDumb i).handle == h) with
    | none => rfl
    | some i => exact absurd (dumb_place first) (absent i)
  rw [boSurface, none]
  rfl

theorem lookup_listed (registered : Registered ioSurfaceGetID dev bos) {entry : GbmBufEntry}
    (stored : entry ∈ dev.gGbmBufs) : lookupGbmBuffer dev entry.handle = some entry.surface := by
  have found : dev.gGbmBufs.find? (fun buf => buf.handle == entry.handle) = some entry := by
    cases hit : dev.gGbmBufs.find? (fun buf => buf.handle == entry.handle) with
    | none => simpa using List.find?_eq_none.mp hit entry stored
    | some other =>
        have same : other.handle = entry.handle := by simpa using List.find?_some hit
        exact congrArg some (List.inj_on_of_nodup_map registered.distinct (List.mem_of_find?_eq_some hit) stored same)
  rw [lookupGbmBuffer, found]
  rfl

theorem listed_of_boSurface (named : Named ioSurfaceGetID dev bos) (live : bo ∈ bos)
    (found : boSurface dev (ioSurfaceGetID bo.surface) = some bo.surface) :
    (∀ i, (dev.gDumb i).handle ≠ ioSurfaceGetID bo.surface) ∧
      ioSurfaceGetID bo.surface ∈ dev.gGbmBufs.map GbmBufEntry.handle := by
  have absent (i : Fin maxDumbBufs) : (dev.gDumb i).handle ≠ ioSurfaceGetID bo.surface := by
    intro same
    obtain ⟨j, first⟩ := Option.isSome_iff_exists.mp
      (firstPlace_isSome (p := fun j => (dev.gDumb j).handle == ioSurfaceGetID bo.surface) (i := i) (by simpa using same))
    cases backs : (dev.gDumb j).surface with
    | none =>
        have zero := (named.backed j).mp backs
        exact named.nonzero bo live ((dumb_place first).symm.trans zero)
    | some other =>
        rw [boSurface, first, Option.bind_some, backs] at found
        exact named.kindsApart j bo live (backs.trans found)
  refine ⟨absent, ?_⟩
  rw [boSurface_table absent, lookupGbmBuffer, Option.map_eq_some_iff] at found
  obtain ⟨entry, hit, _⟩ := found
  have same : entry.handle = ioSurfaceGetID bo.surface := by simpa using List.find?_some hit
  exact same ▸ List.mem_map_of_mem (List.mem_of_find?_eq_some hit)

theorem distinguished_of_resolved {p : Program} (named : Named ioSurfaceGetID p.dev p.bos)
    (resolved : Resolved ioSurfaceGetID p) : Distinguished ioSurfaceGetID p := by
  have room : ∃ i, (p.dev.gFbs i).fbId = 0 := ⟨⟨0, by decide⟩, named.noFb _⟩
  have listed {bo : Bo} (live : bo ∈ p.bos) :=
    listed_of_boSurface named live ((makes_iff room _ _).mp (resolved.1 bo live))
  refine ⟨?_, fun i bo live => (listed live).1 i, ?_⟩
  · have subset : (p.bos.map fun bo => ioSurfaceGetID bo.surface) ⊆ p.dev.gGbmBufs.map GbmBufEntry.handle := by
      intro h member
      obtain ⟨bo, live, rfl⟩ := List.mem_map.mp member
      exact (listed live).2
    have fits := (named.ids.subperm subset).length_le
    rw [List.length_map, List.length_map] at fits
    exact fits.trans named.short
  · intro i j used same
    obtain ⟨surface, backs⟩ := Option.ne_none_iff_exists'.mp fun none => used ((named.backed i).mp none)
    obtain ⟨other, backs'⟩ := Option.ne_none_iff_exists'.mp fun none => used (same.trans ((named.backed j).mp none))
    have first := (makes_iff room _ _).mp (resolved.2 i surface backs)
    have second := (makes_iff room _ _).mp (resolved.2 j other backs')
    rw [same, second, Option.some.injEq] at first
    exact named.dumbsApart i j surface backs (first ▸ backs')

theorem resolved_of_distinguished {p : Program} (all : AllListed ioSurfaceGetID p.buffers)
    (distinguished : Distinguished ioSurfaceGetID p) : Resolved ioSurfaceGetID p := by
  obtain ⟨named, listed⟩ := all
  have room : ∃ i, (p.dev.gFbs i).fbId = 0 := ⟨⟨0, by decide⟩, named.noFb _⟩
  obtain ⟨_, kindsDiffer, dumbsDiffer⟩ := distinguished
  refine ⟨fun bo live => ?_, fun i surface backs => ?_⟩
  · rw [makes_iff room, gbmBoGetHandle, boSurface_table fun i => kindsDiffer i bo live]
    exact lookup_listed named.registered (listed bo live)
  · rw [makes_iff room]
    have used : (p.dev.gDumb i).handle ≠ 0 := by
      intro free
      have empty : (p.dev.gDumb i).surface = none := (named.backed i).mpr free
      rw [empty] at backs
      contradiction
    exact boSurface_dumb backs fun j same => (dumbsDiffer i j used same.symm).symm

/-! Steps. -/

theorem Named.presents {after : Device} (named : Named ioSurfaceGetID dev bos) (same : Presents dev after) :
    Named ioSurfaceGetID after bos := by
  refine ⟨named.registered.presents same, ?_, named.ids, named.nonzero, ?_, ?_, ?_, ?_⟩
  · simpa only [same.gGbmBufs] using named.short
  · simpa only [same.gDumb] using named.backed
  · simpa only [same.gDumb] using named.dumbsApart
  · simpa only [same.gDumb] using named.kindsApart
  · simpa only [same.gFbs] using named.noFb

theorem Named.addDumb (named : Named ioSurfaceGetID dev bos) {slot : Fin maxDumbBufs} {info : SurfaceInfo}
    (counter : dev.gNextDumbHandle ≠ 0) (fresh : Fresh ioSurfaceGetID dev bos info.surface) :
    Named ioSurfaceGetID (addDumb dev slot info) bos := by
  obtain ⟨_, bosDiffer, dumbsDiffer⟩ := fresh
  have unused (i : Fin maxDumbBufs) : (dev.gDumb i).surface ≠ some info.surface := fun backs =>
    dumbsDiffer i info.surface backs rfl
  refine ⟨⟨named.registered.entries, named.registered.distinct⟩, named.short, named.ids, named.nonzero, fun i => ?_,
    fun i j surface backs backs' => ?_, fun i bo live => ?_, named.noFb⟩
  · by_cases here : i = slot
    · subst here
      simp [Buffers.addDumb, counter]
    · simp only [Buffers.addDumb, Function.update_of_ne here]
      exact named.backed i
  · simp only [Buffers.addDumb, Function.update_apply] at backs backs'
    split at backs <;> split at backs'
    · simp only [*]
    · exact absurd (backs'.trans backs.symm) (unused j)
    · exact absurd (backs.trans backs'.symm) (unused i)
    · exact named.dumbsApart i j surface backs backs'
  · simp only [Buffers.addDumb, Function.update_apply]
    split
    · intro same
      exact bosDiffer bo live (congrArg ioSurfaceGetID (Option.some.inj same)).symm
    · exact named.kindsApart i bo live

theorem Named.dropDumb (named : Named ioSurfaceGetID dev bos) (i : Fin maxDumbBufs) :
    Named ioSurfaceGetID (dropDumb dev i) bos := by
  refine ⟨⟨named.registered.entries, named.registered.distinct⟩, named.short, named.ids, named.nonzero, fun j => ?_,
    fun j k surface backs backs' => ?_, fun j bo live => ?_, named.noFb⟩
  · simp only [Buffers.dropDumb, Function.update_apply]
    split
    · simp
    · exact named.backed j
  · simp only [Buffers.dropDumb, Function.update_apply] at backs backs'
    split at backs <;> split at backs' <;> first | contradiction | exact named.dumbsApart j k surface backs backs'
  · simp only [Buffers.dropDumb, Function.update_apply]
    split
    · simp
    · exact named.kindsApart j bo live

theorem Named.dropFb (named : Named ioSurfaceGetID dev bos) (i : Fin maxFbs) : Named ioSurfaceGetID (dropFb dev i) bos := by
  refine ⟨⟨named.registered.entries, named.registered.distinct⟩, named.short, named.ids, named.nonzero, named.backed,
    named.dumbsApart, named.kindsApart, fun j => ?_⟩
  simp only [Buffers.dropFb, Function.update_apply]
  split
  · rfl
  · exact named.noFb j

theorem Named.act {a : Action} {out : Output} {after : Device} {p : Program} (named : Named ioSurfaceGetID p.dev p.bos)
    (identified : Identified ioSurfaceGetID p (.act a)) (stepped : ActStep p.dev a out after) :
    Named ioSurfaceGetID after p.bos := by
  obtain ⟨_, noFb, _, fresh, counter⟩ := identified
  cases stepped with
  | presents same => exact named.presents same
  | @addDumb fd slot info creates =>
      subst creates
      exact named.addDumb (counter fd (some info) rfl) (fresh info.surface (by simp [Op.newSurfaces]))
  | dropDumb i => exact named.dropDumb i
  | addFb adds =>
      subst adds
      simp [Op.addsFb] at noFb
  | dropFb i => exact named.dropFb i

theorem Named.create (named : Named ioSurfaceGetID b.dev b.bos) (fresh : Fresh ioSurfaceGetID b.dev b.bos bo.surface) :
    Named ioSurfaceGetID (b.gbmBoCreate ioSurfaceGetID (some bo)).2.dev
      (b.gbmBoCreate ioSurfaceGetID (some bo)).2.bos := by
  obtain ⟨nonzero, bosDiffer, dumbsDiffer⟩ := fresh
  refine ⟨named.registered.create, ?_, ?_, ?_, ?_, ?_, ?_, ?_⟩ <;>
    simp only [Gbm.Buffers.gbmBoCreate, drmRegisterGbmBuffer_eq]
  · split
    · exact named.short
    · exact length_register named.short
  · rw [List.map_append]
    refine List.nodup_append.mpr ⟨named.ids, by simp, ?_⟩
    intro old member new last same
    obtain ⟨other, live, rfl⟩ := List.mem_map.mp member
    exact bosDiffer other live (same.trans (by simpa using last))
  · intro other member
    rcases List.mem_append.mp member with old | new
    · exact named.nonzero other old
    · rw [List.mem_singleton.mp new]
      exact nonzero
  · exact named.backed
  · exact named.dumbsApart
  · intro i other member
    rcases List.mem_append.mp member with old | new
    · exact named.kindsApart i other old
    · rw [List.mem_singleton.mp new]
      exact fun backs => dumbsDiffer i bo.surface backs rfl
  · exact named.noFb

theorem Named.free (named : Named ioSurfaceGetID b.dev b.bos) :
    Named ioSurfaceGetID (b.free ioSurfaceGetID bo).dev (b.free ioSurfaceGetID bo).bos := by
  have left : (b.bos.erase bo).Sublist b.bos := List.erase_sublist
  refine ⟨named.registered.free, ?_, ?_, ?_, ?_, ?_, ?_, ?_⟩ <;> simp only [Gbm.Buffers.free, drmUnregisterGbmBuffer_eq]
  · exact length_unregister.trans named.short
  · exact named.ids.sublist (left.map _)
  · exact fun other live => named.nonzero other (left.subset live)
  · exact named.backed
  · exact named.dumbsApart
  · exact fun i other live => named.kindsApart i other (left.subset live)
  · exact named.noFb

theorem Fresh.create {surface : IOSurface} (fresh : Fresh ioSurfaceGetID b.dev b.bos surface)
    (differ : ioSurfaceGetID bo.surface ≠ ioSurfaceGetID surface) :
    Fresh ioSurfaceGetID (b.gbmBoCreate ioSurfaceGetID (some bo)).2.dev
      (b.gbmBoCreate ioSurfaceGetID (some bo)).2.bos surface := by
  obtain ⟨nonzero, bosDiffer, dumbsDiffer⟩ := fresh
  simp only [Gbm.Buffers.gbmBoCreate, drmRegisterGbmBuffer_eq]
  refine ⟨nonzero, fun other member => ?_, dumbsDiffer⟩
  rcases List.mem_append.mp member with old | new
  · exact bosDiffer other old
  · rw [List.mem_singleton.mp new]
    exact differ

theorem Named.gbm {op : Op} {after : Gbm.Buffers} (named : Named ioSurfaceGetID b.dev b.bos)
    (stepped : GbmStep ioSurfaceGetID b op after) (apart : (op.provided.map fun bo => ioSurfaceGetID bo.surface).Nodup)
    (fresh : ∀ bo ∈ op.provided, Fresh ioSurfaceGetID b.dev b.bos bo.surface) :
    Named ioSurfaceGetID after.dev after.bos :=
  stepped.inv (fun b => Named ioSurfaceGetID b.dev b.bos) (fun b bo => Fresh ioSurfaceGetID b.dev b.bos bo.surface)
    (fun bo other => ioSurfaceGetID bo.surface ≠ ioSurfaceGetID other.surface) (fun _ _ named _ => named.free)
    (fun _ _ named fresh => named.create fresh) (fun _ _ _ fresh differ => fresh.create differ) named
    (List.pairwise_map.mp apart) fresh

/-! What the table lists. -/

theorem table_le_bos (registered : Registered ioSurfaceGetID dev bos) : dev.gGbmBufs.length ≤ bos.length := by
  have subset : dev.gGbmBufs.map GbmBufEntry.handle ⊆ bos.map fun bo => ioSurfaceGetID bo.surface := by
    intro h member
    obtain ⟨entry, stored, rfl⟩ := List.mem_map.mp member
    obtain ⟨bo, live, _, same⟩ := registered.entries entry stored
    exact same ▸ List.mem_map_of_mem live
  have fits := (registered.distinct.subperm subset).length_le
  rwa [List.length_map, List.length_map] at fits

theorem listed_create (registered : Registered ioSurfaceGetID b.dev b.bos)
    (fresh : Fresh ioSurfaceGetID b.dev b.bos bo.surface) {kept : List Bo} (listed : Listed ioSurfaceGetID b.dev kept) :
    Listed ioSurfaceGetID (b.gbmBoCreate ioSurfaceGetID (some bo)).2.dev kept ∧
      (b.bos.length < maxGbmBufs → Listed ioSurfaceGetID (b.gbmBoCreate ioSurfaceGetID (some bo)).2.dev [bo]) := by
  obtain ⟨nonzero, bosDiffer, _⟩ := fresh
  have new : ioSurfaceGetID bo.surface ∉ b.dev.gGbmBufs.map GbmBufEntry.handle := by
    intro member
    obtain ⟨entry, stored, same⟩ := List.mem_map.mp member
    obtain ⟨other, live, _, handle⟩ := registered.entries entry stored
    exact bosDiffer other live (handle.trans same)
  have table : (b.gbmBoCreate ioSurfaceGetID (some bo)).2.dev.gGbmBufs =
      if b.dev.gGbmBufs.length ≥ maxGbmBufs then b.dev.gGbmBufs
      else b.dev.gGbmBufs ++ [⟨ioSurfaceGetID bo.surface, bo.surface⟩] := by
    simp only [Gbm.Buffers.gbmBoCreate, drmRegisterGbmBuffer_eq, if_neg nonzero]
    exact register_of_fresh new rfl
  simp only [Listed, table]
  refine ⟨fun other member => ?_, fun room other member => ?_⟩
  · split
    · exact listed other member
    · exact List.mem_append_left _ (listed other member)
  · have short := table_le_bos registered
    rw [if_neg (by omega), List.mem_singleton.mp member]
    simp

theorem listed_free (registered : Registered ioSurfaceGetID b.dev b.bos) {kept : List Bo}
    (listed : Listed ioSurfaceGetID b.dev kept)
    (others : ∀ other ∈ kept, ioSurfaceGetID other.surface ≠ ioSurfaceGetID bo.surface) :
    Listed ioSurfaceGetID (b.free ioSurfaceGetID bo).dev kept := by
  intro other member
  simp only [Gbm.Buffers.free, drmUnregisterGbmBuffer_eq]
  exact (mem_unregister registered.distinct).mpr ⟨listed other member, others other member⟩

theorem ids_apart {kept : List Bo} (named : Named ioSurfaceGetID b.dev b.bos) (perm : b.bos.Perm (bo :: kept)) :
    ∀ other ∈ kept, ioSurfaceGetID other.surface ≠ ioSurfaceGetID bo.surface := by
  intro other member same
  have apart := (perm.map fun bo => ioSurfaceGetID bo.surface).nodup_iff.mp named.ids
  rw [List.map_cons, List.nodup_cons] at apart
  exact apart.1 (List.mem_map.mpr ⟨other, member, same⟩)

theorem AllListed.free (all : AllListed ioSurfaceGetID b) (member : bo ∈ b.bos) :
    AllListed ioSurfaceGetID (b.free ioSurfaceGetID bo) := by
  obtain ⟨named, listed⟩ := all
  have kept : Listed ioSurfaceGetID b.dev (b.bos.erase bo) := fun other left => listed other (List.mem_of_mem_erase left)
  exact ⟨named.free, listed_free named.registered kept (ids_apart named (List.perm_cons_erase member))⟩

theorem listed_freeAll {made old : List Bo} (named : Named ioSurfaceGetID b.dev b.bos)
    (perm : b.bos.Perm (made ++ old)) (listed : Listed ioSurfaceGetID b.dev old) :
    Listed ioSurfaceGetID (made.foldl (fun b bo => b.free ioSurfaceGetID bo) b).dev
      (made.foldl (fun b bo => b.free ioSurfaceGetID bo) b).bos := by
  induction made generalizing b with
  | nil => exact fun bo member => listed bo (perm.mem_iff.mp member)
  | cons bo rest ih =>
      have apart := ids_apart named perm
      refine ih named.free ?_
        (listed_free named.registered listed fun other member => apart other (List.mem_append_right _ member))
      have left := perm.erase bo
      rwa [List.cons_append, List.erase_cons_head] at left

theorem listed_createBos {created : List (Option Bo)} {made old : List Bo} (named : Named ioSurfaceGetID b.dev b.bos)
    (perm : b.bos.Perm (made ++ old)) (listedOld : Listed ioSurfaceGetID b.dev old)
    (listedMade : b.bos.length ≤ maxGbmBufs → Listed ioSurfaceGetID b.dev made)
    (apart : (created.filterMap id).Pairwise fun bo other => ioSurfaceGetID bo.surface ≠ ioSurfaceGetID other.surface)
    (fresh : ∀ bo ∈ created.filterMap id, Fresh ioSurfaceGetID b.dev b.bos bo.surface)
    (fits : (b.createBos ioSurfaceGetID made created).2.bos.length ≤ maxGbmBufs) :
    Listed ioSurfaceGetID (b.createBos ioSurfaceGetID made created).2.dev
      (b.createBos ioSurfaceGetID made created).2.bos := by
  induction created generalizing b made with
  | nil =>
      intro bo member
      rcases List.mem_append.mp (perm.mem_iff.mp member) with new | stored
      · exact listedMade fits bo new
      · exact listedOld bo stored
  | cons first rest ih =>
      cases first with
      | none => exact listed_freeAll named perm listedOld
      | some bo =>
          have all : (some bo :: rest).filterMap id = bo :: rest.filterMap id := rfl
          rw [all, List.pairwise_cons] at apart
          rw [all] at fresh
          have new := fresh bo List.mem_cons_self
          refine ih (named.create new) ?_ (listed_create named.registered new listedOld).1 ?_ apart.2 ?_ fits
          · have behind := perm.append_right [bo]
            rw [List.append_assoc] at behind ⊢
            exact behind.trans (List.perm_append_comm.append_left made)
          · intro fitsNow
            have before : b.bos.length < maxGbmBufs := by
              simp only [List.length_append, List.length_singleton] at fitsNow
              omega
            obtain ⟨kept, here⟩ := listed_create named.registered new (listedMade before.le)
            intro other member
            rcases List.mem_append.mp member with old | last
            · exact kept other old
            · exact here before other last
          · exact fun other member => (fresh other (List.mem_cons_of_mem _ member)).create (apart.1 other member)

theorem listed_gbm {op : Op} {after : Gbm.Buffers} (all : AllListed ioSurfaceGetID b)
    (stepped : GbmStep ioSurfaceGetID b op after) (apart : (op.provided.map fun bo => ioSurfaceGetID bo.surface).Nodup)
    (fresh : ∀ bo ∈ op.provided, Fresh ioSurfaceGetID b.dev b.bos bo.surface) (fits : after.bos.length ≤ maxGbmBufs) :
    Listed ioSurfaceGetID after.dev after.bos := by
  obtain ⟨named, listed⟩ := all
  have freed (b : Gbm.Buffers) (bo : Bo) (all : AllListed ioSurfaceGetID b) (member : bo ∈ b.bos) := all.free member
  cases stepped with
  | boCreate created =>
      cases created with
      | none => exact listed
      | some bo =>
          obtain ⟨kept, here⟩ := listed_create named.registered (fresh bo (by simp [Op.provided])) listed
          have before : b.bos.length < maxGbmBufs := by
            simp only [Gbm.Buffers.gbmBoCreate, List.length_append, List.length_singleton] at fits
            omega
          intro other member
          rcases List.mem_append.mp member with old | last
          · exact kept other old
          · exact here before other last
  | boDestroy done => exact (Gbm.Buffers.gbmBoDestroy_inv freed ⟨named, listed⟩ done).2
  | surfaceCreate address created =>
      cases address with
      | none => exact listed
      | some address =>
          have none : Listed ioSurfaceGetID b.dev [] := fun _ member => absurd member List.not_mem_nil
          exact listed_createBos named (by simp) listed (fun _ => none) (List.pairwise_map.mp apart) fresh fits
  | surfaceDestroy done => exact (Gbm.Buffers.gbmSurfaceDestroy_inv freed ⟨named, listed⟩ done).2

/-! Runs. -/

theorem Identified.provided {p : Program} {op : Op} {after : Gbm.Buffers} (identified : Identified ioSurfaceGetID p op)
    (stepped : GbmStep ioSurfaceGetID p.buffers op after) :
    (op.provided.map fun bo => ioSurfaceGetID bo.surface).Nodup ∧
      ∀ bo ∈ op.provided, Fresh ioSurfaceGetID p.dev p.bos bo.surface := by
  obtain ⟨_, _, distinct, fresh, _⟩ := identified
  have same : op.newSurfaces = op.provided.map Bo.surface := by
    cases stepped <;> rfl
  rw [same, List.map_map] at distinct
  rw [same] at fresh
  exact ⟨distinct, fun bo member => fresh bo.surface (List.mem_map_of_mem member)⟩

theorem ActStep.gGbmBufs {a : Action} {out : Output} {after : Device} (stepped : ActStep dev a out after) :
    after.gGbmBufs = dev.gGbmBufs := by
  cases stepped with
  | presents same => exact same.gGbmBufs
  | _ => rfl

variable {p after : Program} {op : Op} {result : Result}

theorem named_step (identified : Identified ioSurfaceGetID p op) (named : Named ioSurfaceGetID p.dev p.bos)
    (done : step host ioSurfaceGetID p op = .ok (after, result)) : Named ioSurfaceGetID after.dev after.bos := by
  rcases gbm_cases done with ⟨a, session, out, rfl, acted, rfl⟩ | ⟨surface, crtcId, x, y, rfl, rfl⟩ |
    ⟨b, surfaces, rfl, ended⟩
  · exact named.act identified (act_cases identified.1 acted)
  · exact named.presents (presents_present surface crtcId x y)
  · obtain ⟨apart, fresh⟩ := identified.provided ended
    exact Named.gbm (b := p.buffers) named ended apart fresh

theorem allListed_step (identified : Identified ioSurfaceGetID p op) (all : AllListed ioSurfaceGetID p.buffers)
    (done : step host ioSurfaceGetID p op = .ok (after, result)) (fits : after.bos.length ≤ maxGbmBufs) :
    AllListed ioSurfaceGetID after.buffers := by
  refine ⟨named_step identified all.1 done, ?_⟩
  rcases gbm_cases done with ⟨a, session, out, rfl, acted, rfl⟩ | ⟨surface, crtcId, x, y, rfl, rfl⟩ |
    ⟨b, surfaces, rfl, ended⟩
  · have same : session.world.dev.gGbmBufs = p.dev.gGbmBufs := (act_cases identified.1 acted).gGbmBufs
    intro bo live
    exact same ▸ all.2 bo live
  · exact all.2
  · obtain ⟨apart, fresh⟩ := identified.provided ended
    exact listed_gbm all ended apart fresh fits

theorem named_initial : Named ioSurfaceGetID Program.initial.dev Program.initial.bos :=
  ⟨⟨nofun, List.nodup_nil⟩, Nat.zero_le _, List.nodup_nil, nofun, fun _ => iff_of_true rfl rfl, nofun, nofun, fun _ => rfl⟩

/-- In every state of a run the handle of each live buffer names that buffer,
exactly when in every state at most 64 GBM buffers are live, no dumb buffer has
the id of a live GBM buffer's surface as its handle, and no two dumb buffers
have the same handle. -/
theorem handles_resolve_iff {ops : List Op}
    (identified : Along (step host ioSurfaceGetID) (Identified ioSurfaceGetID) .initial ops) :
    Throughout (step host ioSurfaceGetID) (Resolved ioSurfaceGetID) .initial ops ↔
      Throughout (step host ioSurfaceGetID) (Distinguished ioSurfaceGetID) .initial ops := by
  constructor
  · exact Throughout.imp (fun p named resolved => distinguished_of_resolved named resolved)
      (fun _ _ _ _ identified named done _ => named_step identified named done) named_initial identified
  · exact Throughout.imp (fun p all distinguished => resolved_of_distinguished all distinguished)
      (fun _ _ _ _ identified all done distinguished => allListed_step identified all done distinguished.1)
      ⟨named_initial, nofun⟩ identified

def makesBoth (first second : IOSurface) : List Op :=
  [.boCreate (some ⟨16, first⟩), .act (.call (.createDumbBuffer drmVirtualFd (some ⟨second, 0, 0, 0⟩)))]

def twoIds (surface : IOSurface) : UInt32 := UInt32.ofNat (9 - surface)

theorem handles_resolve_iff_makesBoth :
    Throughout (step (.uniform 1) twoIds) (Resolved twoIds) .initial (makesBoth 7 8) := by
  have identified : Along (step (.uniform 1) twoIds) (Identified twoIds) .initial (makesBoth 7 8) := by
    refine .cons rfl ⟨rfl, rfl, by decide, ?_, fun _ _ _ => by decide⟩
      (.cons rfl ⟨rfl, rfl, by decide, ?_, fun _ _ _ => by decide⟩ trivial)
    · intro surface member
      rw [List.mem_singleton.mp member]
      exact ⟨by decide, nofun, nofun⟩
    · intro surface member
      rw [List.mem_singleton.mp member]
      exact ⟨by decide, by decide +kernel, nofun⟩
  refine (handles_resolve_iff identified).mpr (.cons ⟨by decide, nofun, by decide +kernel⟩ rfl
    (.cons ⟨by decide +kernel, by decide +kernel, by decide +kernel⟩ rfl ?_))
  exact ⟨by decide +kernel, by decide +kernel, by decide +kernel⟩

/-- The first dumb buffer has the handle 1, and so has the GBM buffer on the
surface with the id 1: a framebuffer for it shows the dumb buffer. -/
theorem dumb_buffer_shown_instead :
    ∃ last results, runActions (step (.uniform 1) twoIds) .initial (makesBoth 8 7) = .ok (last, results) ∧
      Along (step (.uniform 1) twoIds) (Identified twoIds) .initial (makesBoth 8 7) ∧
      last.bos = [⟨16, 8⟩] ∧ gbmBoGetHandle twoIds (some ⟨16, 8⟩) = 1 ∧
      (drmModeAddFB last.dev drmVirtualFd 1 true).1 = .ok 1 ∧
      (drmModeAddFB last.dev drmVirtualFd 1 true).2.fbIdToSurface 1 = some 7 ∧ ¬ Resolved twoIds last := by
  refine ⟨_, _, rfl, ?_, rfl, rfl, rfl, rfl, ?_⟩
  · refine .cons rfl ⟨rfl, rfl, by decide, ?_, fun _ _ _ => by decide⟩
      (.cons rfl ⟨rfl, rfl, by decide, ?_, fun _ _ _ => by decide⟩ trivial)
    · intro surface member
      rw [List.mem_singleton.mp member]
      exact ⟨by decide, nofun, nofun⟩
    · intro surface member
      rw [List.mem_singleton.mp member]
      exact ⟨by decide, by decide +kernel, nofun⟩
  · intro resolved
    have makes := resolved.1 ⟨16, 8⟩ (by decide +kernel)
    rw [makes_iff ⟨⟨0, by decide⟩, rfl⟩] at makes
    exact absurd makes (by decide +kernel)

end Iland.Buffers

import Iland.Drm.Device
import Iland.Gbm.Surface

namespace Iland.Gbm

open Iland.Data
open Iland.Drm
open Iland.Sdl

/-! Creating and destroying GBM buffers.

A buffer has a retain of its surface from `IOSurfaceCreate`, and its entry in
the handle table of `drm_linux.c` has none.
-/

structure Bo where
  address : ℕ
  surface : IOSurface
deriving DecidableEq

/-- Why the program cannot go on: undefined behaviour in the library, or a
call with an object that has been destroyed. -/
inductive Stop where
  | fault (fault : Fault)
  | destroyed
deriving DecidableEq

structure Buffers where
  dev : Device
  bos : List Bo

namespace Buffers

variable (ioSurfaceGetID : IOSurface → UInt32) (b : Buffers)

/-- `gbm_bo_create`, returning the new buffer.  The system may have no memory or
no surface for it. -/
def gbmBoCreate : Option Bo → Option Bo × Buffers
  | none => (none, b)
  | some bo =>
      let dev := { b.dev with sdl := b.dev.sdl.cfRetain bo.surface }
      (some bo,
        { dev := drmRegisterGbmBuffer dev (ioSurfaceGetID bo.surface) (some bo.surface), bos := b.bos ++ [bo] })

def free (bo : Bo) : Buffers :=
  let dev := drmUnregisterGbmBuffer b.dev (ioSurfaceGetID bo.surface)
  { dev := { dev with sdl := dev.sdl.cfRelease bo.surface }, bos := b.bos.erase bo }

def gbmBoDestroy : Option ℕ → Except Stop Buffers
  | none => .ok b
  | some address =>
      match b.bos.find? (fun bo => bo.address == address) with
      | none => .error .destroyed
      | some bo => .ok (b.free ioSurfaceGetID bo)

/-- The loop of `gbm_surface_create` after the first rounds have made some
buffers.  Its body is that of `gbm_bo_create`; if a round fails, the buffers
are destroyed. -/
def createBos (b : Buffers) (made : List Bo) : List (Option Bo) → Option (List Bo) × Buffers
  | [] => (some made, b)
  | created :: rest =>
      match b.gbmBoCreate ioSurfaceGetID created with
      | (none, b) => (none, made.foldl (fun b bo => b.free ioSurfaceGetID bo) b)
      | (some bo, b) => createBos b (made ++ [bo]) rest

/-- `gbm_surface_create`, returning the buffers of the new surface.  `memory`
says whether there is memory for its structure. -/
def gbmSurfaceCreate (memory : Bool) (created : Fin gbmNumBuffers → Option Bo) : Option (List Bo) × Buffers :=
  if memory then b.createBos ioSurfaceGetID [] (List.ofFn created) else (none, b)

def gbmSurfaceDestroy : Option (List ℕ) → Except Stop Buffers
  | none => .ok b
  | some bos => bos.foldlM (fun b address => b.gbmBoDestroy ioSurfaceGetID (some address)) b

/-! What single creations and destructions keep, every operation keeps. -/

variable {ioSurfaceGetID b} {after : Buffers} {Inv : Buffers → Prop}

theorem freeAll_inv (freed : ∀ b bo, Inv b → bo ∈ b.bos → Inv (b.free ioSurfaceGetID bo)) {made : List Bo} (inv : Inv b)
    (owned : made.Subperm b.bos) : Inv (made.foldl (fun b bo => b.free ioSurfaceGetID bo) b) := by
  induction made generalizing b with
  | nil => exact inv
  | cons bo rest ih =>
      have member : bo ∈ b.bos := owned.subset List.mem_cons_self
      have left : rest.Subperm (b.bos.erase bo) := by
        have erased := owned.erase bo
        rwa [List.erase_cons_head] at erased
      exact ih (freed b bo inv member) left

theorem gbmBoDestroy_inv (freed : ∀ b bo, Inv b → bo ∈ b.bos → Inv (b.free ioSurfaceGetID bo)) {address : Option ℕ}
    (inv : Inv b) (done : b.gbmBoDestroy ioSurfaceGetID address = .ok after) : Inv after := by
  cases address with
  | none =>
      cases done
      exact inv
  | some address =>
      simp only [gbmBoDestroy] at done
      cases found : b.bos.find? (fun bo => bo.address == address) with
      | none => simp [found] at done
      | some bo =>
          simp only [found, Except.ok.injEq] at done
          exact done ▸ freed b bo inv (List.mem_of_find?_eq_some found)

theorem gbmSurfaceDestroy_inv (freed : ∀ b bo, Inv b → bo ∈ b.bos → Inv (b.free ioSurfaceGetID bo))
    {addresses : Option (List ℕ)} (inv : Inv b) (done : b.gbmSurfaceDestroy ioSurfaceGetID addresses = .ok after) :
    Inv after := by
  cases addresses with
  | none =>
      cases done
      exact inv
  | some addresses =>
      simp only [gbmSurfaceDestroy] at done
      induction addresses generalizing b with
      | nil =>
          cases done
          exact inv
      | cons address rest ih =>
          rw [List.foldlM_cons] at done
          cases first : b.gbmBoDestroy ioSurfaceGetID (some address) with
          | error reason => simp [first, bind, Except.bind] at done
          | ok next =>
              simp only [first, bind, Except.bind] at done
              exact ih (gbmBoDestroy_inv freed inv first) done

/-- Each buffer is new when its round comes, if all are new before the loop and
a new buffer stays new when an apart one is made. -/
theorem createBos_inv {New : Buffers → Bo → Prop} {Apart : Bo → Bo → Prop}
    (freed : ∀ b bo, Inv b → bo ∈ b.bos → Inv (b.free ioSurfaceGetID bo))
    (added : ∀ b bo, Inv b → New b bo → Inv (b.gbmBoCreate ioSurfaceGetID (some bo)).2)
    (stays : ∀ b bo other, New b other → Apart bo other → New (b.gbmBoCreate ioSurfaceGetID (some bo)).2 other)
    {created : List (Option Bo)} {made : List Bo} (inv : Inv b) (owned : made.Subperm b.bos)
    (apart : (created.filterMap id).Pairwise Apart) (new : ∀ bo ∈ created.filterMap id, New b bo) :
    Inv (b.createBos ioSurfaceGetID made created).2 := by
  induction created generalizing b made with
  | nil => exact inv
  | cons first rest ih =>
      cases first with
      | none => exact freeAll_inv freed inv owned
      | some bo =>
          have all : (some bo :: rest).filterMap id = bo :: rest.filterMap id := rfl
          rw [all, List.pairwise_cons] at apart
          rw [all] at new
          refine ih (added b bo inv (new bo List.mem_cons_self)) ?_ apart.2 ?_
          · exact (List.subperm_append_right [bo]).mpr owned
          · exact fun other member => stays b bo other (new other (List.mem_cons_of_mem _ member)) (apart.1 other member)

theorem gbmSurfaceCreate_inv {New : Buffers → Bo → Prop} {Apart : Bo → Bo → Prop}
    (freed : ∀ b bo, Inv b → bo ∈ b.bos → Inv (b.free ioSurfaceGetID bo))
    (added : ∀ b bo, Inv b → New b bo → Inv (b.gbmBoCreate ioSurfaceGetID (some bo)).2)
    (stays : ∀ b bo other, New b other → Apart bo other → New (b.gbmBoCreate ioSurfaceGetID (some bo)).2 other)
    {memory : Bool} {created : Fin gbmNumBuffers → Option Bo} (inv : Inv b)
    (apart : ((List.ofFn created).filterMap id).Pairwise Apart) (new : ∀ bo ∈ (List.ofFn created).filterMap id, New b bo) :
    Inv (b.gbmSurfaceCreate ioSurfaceGetID memory created).2 := by
  cases memory with
  | false => exact inv
  | true => exact createBos_inv freed added stays inv List.nil_subperm apart new

end Buffers

def gbmBoGetHandle (ioSurfaceGetID : IOSurface → UInt32) : Option Bo → UInt32
  | none => 0
  | some bo => ioSurfaceGetID bo.surface

end Iland.Gbm

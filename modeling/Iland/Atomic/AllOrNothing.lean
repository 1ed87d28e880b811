import Iland.Atomic.Observed

namespace Iland.Atomic

open Iland.Data
open Iland.Drm
open Iland.Ioctl

/-! Whether a commit stores all of a request or none of it.

A triple is lost without an error when it is beyond the 64th, when its object
has no record, and when its record has no place left.
-/

variable {host : Host} {dev : Device} {table : ObjTable} {triples : List Triple}

/-- Each triple's object has a record, which holds the last value that the
request gives to the triple's property. -/
def Stored (table : ObjTable) (triples : List Triple) : Prop :=
  ∀ t ∈ triples, ∃ record, table.first t.objId = some record ∧
    record.props.get t.propId = requested triples t.objId t.propId

structure SameObserved (before after : Device) : Prop where
  gObjProps : after.gObjProps = before.gObjProps
  gState : after.gState = before.gState
  sdl : after.sdl = before.sdl
  queued : after.queued = before.queued

/-- The outcome that a request should have. -/
def AllOrNothing (before : Device) (triples : List Triple) : Except Fault (Except Errno Unit × Device) → Prop
  | .ok (.ok (), after) => Stored after.gObjProps triples
  | .ok (.error _, after) => SameObserved before after
  | .error _ => False

/-- A triple's object has a record with a place for each new property of the
object, and a triple beyond the 64th asks for no other value than is there. -/
def Storable (table : ObjTable) (triples : List Triple) (t : Triple) : Prop :=
  ∃ record, table.first t.objId = some record ∧
    record.props.Fits (writesTo t.objId (accepted triples)) ∧
    (requested (accepted triples) t.objId t.propId).or (record.props.get t.propId) =
      requested triples t.objId t.propId

/-- The object records can be had, no triple strays, and every triple can be stored. -/
def AllStorable (host : Host) (dev : Device) (triples : List Triple) : Prop :=
  ∃ table, ensureObjProperties host.getDisplayCount dev.gObjProps = .ok table ∧
    (∀ t ∈ accepted triples, ¬ Strays table t) ∧ ∀ t ∈ triples, Storable table triples t

theorem stored_applyAll_iff :
    Stored (table.applyAll (accepted triples)) triples ↔ ∀ t ∈ triples, Storable table triples t := by
  constructor
  · intro stored t member
    obtain ⟨after, hit, holds⟩ := stored t member
    rw [table.first_applyAll, Option.map_eq_some_iff] at hit
    obtain ⟨record, found, rfl⟩ := hit
    refine ⟨record, found, ?_, ?_⟩
    · rw [Store.fits_iff]
      intro write written
      have other := stored _ (List.mem_of_mem_take (mem_writesTo.mp written))
      simp only [table.first_applyAll, found, Option.map_some, Option.some.injEq, exists_eq_left'] at other
      rw [← Store.get_isSome_iff]
      exact other ▸ requested_isSome (List.mem_of_mem_take (mem_writesTo.mp written))
    · have present : t.propId ∈ (record.props.assignAll (writesTo t.objId (accepted triples))).keys := by
        rw [← Store.get_isSome_iff]
        exact holds ▸ requested_isSome member
      exact (record.props.get_assignAll present).symm.trans holds
  · intro storable t member
    obtain ⟨record, found, fits, value⟩ := storable t member
    refine ⟨_, by rw [table.first_applyAll, found, Option.map_some], ?_⟩
    have present : t.propId ∈ (record.props.assignAll (writesTo t.objId (accepted triples))).keys := by
      by_cases written : t.propId ∈ (writesTo t.objId (accepted triples)).map Prod.fst
      · exact record.props.mem_keys_of_fits fits written
      · apply record.props.mem_keys_assignAll
        have unwritten : requested (accepted triples) t.objId t.propId = none := lastValue_eq_none written
        rw [unwritten, Option.none_or] at value
        rw [← Store.get_isSome_iff, value]
        exact requested_isSome member
    exact (record.props.get_assignAll present).trans value

theorem allOrNothing_commit_iff {req : AtomicReq} (holds : req.triples = accepted triples) (flags : UInt32)
    (userData : UInt64) :
    AllOrNothing dev triples (drmModeAtomicCommit host dev drmVirtualFd (some req) flags userData) ↔
      AllStorable host dev triples := by
  cases ensures : ensureObjProperties host.getDisplayCount dev.gObjProps with
  | error fault => simp [drmModeAtomicCommit_overflow ensures, AllOrNothing, AllStorable, ensures]
  | ok table =>
      by_cases stray : ∃ t ∈ req.triples, Strays table t
      · rw [drmModeAtomicCommit_stray ensures stray]
        obtain ⟨t, member, strays⟩ := stray
        simp only [AllOrNothing, AllStorable, ensures, Except.ok.injEq, exists_eq_left', false_iff, not_and]
        exact fun safe => absurd strays (safe t (holds ▸ member))
      · have safe : ∀ t ∈ req.triples, ¬ Strays table t := by simpa using stray
        rw [drmModeAtomicCommit_eq flags userData ensures safe]
        simp only [AllOrNothing, gObjProps_committed, AllStorable, ensures, Except.ok.injEq, exists_eq_left', holds]
        rw [and_iff_right (holds ▸ safe)]
        exact stored_applyAll_iff

theorem allOrNothing_refused {fd : Int} (wrong : fd ≠ drmVirtualFd) (request : Option AtomicReq) (flags : UInt32)
    (userData : UInt64) : AllOrNothing dev triples (drmModeAtomicCommit host dev fd request flags userData) := by
  have refused : checkFd fd = .error .EBADF := by simp [checkFd, wrong]
  simp only [drmModeAtomicCommit, refused]
  exact ⟨rfl, rfl, rfl, rfl⟩

theorem triples_of_no_objects {ka : DrmModeAtomic} (zero : ka.countObjs = 0) : ka.triples?.getD [] = [] := by
  simp only [DrmModeAtomic.triples?, zero]
  split <;> rfl

theorem allOrNothing_ioctl_of_none {world : World} {ka : DrmModeAtomic} {memory : Memory}
    (nothing : world.submission ka memory = none) :
    AllOrNothing world.dev (ka.triples?.getD []) (ioctlOutcome host world ka memory) := by
  obtain ⟨ret, pool, handled, _, counted⟩ := handleAtomic_of_none host nothing
  rw [ioctlOutcome, handled]
  cases ret with
  | error e => exact ⟨rfl, rfl, rfl, rfl⟩
  | ok done =>
      rw [triples_of_no_objects (counted rfl)]
      exact fun t member => absurd member List.not_mem_nil

/-- A request, made with `drmModeAtomicAddProperty` or by an ioctl that starts
from an empty request object, is committed whole or not at all exactly when it
is refused or all of it can be stored. -/
theorem all_or_nothing_iff (host : Host) (world : World) (empty : world.pool.leftover = []) :
    (∀ fd triples flags userData,
      AllOrNothing world.dev triples
          (drmModeAtomicCommit host world.dev fd (some (drmModeAtomicAlloc.addAll triples)) flags userData) ↔
        fd ≠ drmVirtualFd ∨ AllStorable host world.dev triples) ∧
    ∀ ka memory,
      AllOrNothing world.dev (ka.triples?.getD []) (ioctlOutcome host world ka memory) ↔
        world.submission ka memory = none ∨ AllStorable host world.dev (ka.triples?.getD []) := by
  constructor
  · intro fd triples flags userData
    by_cases valid : fd = drmVirtualFd
    · subst valid
      have holds : (drmModeAtomicAlloc.addAll triples).triples = accepted triples :=
        triples_addAll drmModeAtomicAlloc triples
      simp [allOrNothing_commit_iff holds]
    · simp [valid, allOrNothing_refused valid]
  · intro ka memory
    cases submitted : world.submission ka memory with
    | none => simp [allOrNothing_ioctl_of_none submitted]
    | some req =>
        rw [ioctlOutcome_of_some submitted, allOrNothing_commit_iff (triples_of_submission empty submitted)]
        simp

theorem all_or_nothing_iff_initial :
    (∀ fd triples flags userData,
      AllOrNothing .initial triples
          (drmModeAtomicCommit (.uniform 1) .initial fd (some (drmModeAtomicAlloc.addAll triples)) flags userData) ↔
        fd ≠ drmVirtualFd ∨ AllStorable (.uniform 1) .initial triples) ∧
    ∀ ka memory,
      AllOrNothing .initial (ka.triples?.getD []) (ioctlOutcome (.uniform 1) .initial ka memory) ↔
        World.initial.submission ka memory = none ∨ AllStorable (.uniform 1) .initial (ka.triples?.getD []) :=
  all_or_nothing_iff (.uniform 1) .initial rfl

def sixtyFiveTimes : DrmModeAtomic where
  flags := 0
  countObjs := 1
  objs := some fun _ => 1
  countProps := some fun _ => 65
  props := some fun _ => PropId.active
  propValues := some fun i => if i = 64 then 5 else 0
  userData := 0

/-- The 65th value is dropped, and the ioctl succeeds. -/
theorem sixty_fifth_is_dropped :
    ¬ AllOrNothing World.initial.dev (sixtyFiveTimes.triples?.getD [])
      (ioctlOutcome (.uniform 1) .initial sixtyFiveTimes ⟨true, true⟩) := by
  have submitted : World.initial.submission sixtyFiveTimes ⟨true, true⟩ =
      some (drmModeAtomicAlloc.addAll (sixtyFiveTimes.triples?.getD [])) := rfl
  rw [ioctlOutcome_of_some submitted, allOrNothing_commit_iff (triples_of_submission rfl submitted)]
  intro all
  obtain ⟨table, _, _, storable⟩ := all
  have last : (⟨1, PropId.active, 5⟩ : Triple) ∈ sixtyFiveTimes.triples?.getD [] := by decide +kernel
  have taken : requested (accepted (sixtyFiveTimes.triples?.getD [])) 1 PropId.active = some 0 := by decide +kernel
  have wanted : requested (sixtyFiveTimes.triples?.getD []) 1 PropId.active = some 5 := by decide +kernel
  obtain ⟨record, _, _, value⟩ := storable _ last
  rw [taken, wanted, Option.some_or] at value
  exact absurd value (by decide)

end Iland.Atomic

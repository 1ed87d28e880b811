import Iland.Atomic.Observed

namespace Iland.Atomic

open Iland.Data
open Iland.Drm
open Iland.Ioctl

/-! The recycled request objects of the ATOMIC ioctl.

The ioctl never empties the request that it takes from the pool, so every
triple of earlier ioctls is committed again in front of the new ones.
-/

variable {host : Host} {world : World}

/-- An ioctl with 1 to 64 objects, all arrays, at most 64 triples and memory
for its request. -/
structure Complete (world : World) (ka : DrmModeAtomic) (memory : Memory) (triples : List Triple) : Prop where
  nonzero : ka.countObjs ≠ 0
  few : ka.countObjs ≤ 64
  arrays : ka.triples? = some triples
  fits : triples.length ≤ maxAtomicProps
  memory : (world.pool.take memory).1.isSome

/-- Every complete ioctl does what a new request with its triples does. -/
def CommitsAfresh (host : Host) (world : World) : Prop :=
  ∀ ka memory triples, Complete world ka memory triples →
    ioctlOutcome host world ka memory =
      drmModeAtomicCommit host world.dev drmVirtualFd (some (drmModeAtomicAlloc.addAll triples)) ka.flags ka.userData

theorem Complete.submission {ka : DrmModeAtomic} {memory : Memory} {triples : List Triple}
    (complete : Complete world ka memory triples) :
    ∃ req, world.submission ka memory = some req ∧
      req.triples = accepted (world.pool.leftover ++ triples) := by
  obtain ⟨pair, taken⟩ := Option.isSome_iff_exists.mp complete.memory
  have counts : ¬ (ka.countObjs = 0 ∨ ka.countObjs > 64) :=
    not_or.mpr ⟨complete.nonzero, UInt32.not_lt.mpr complete.few⟩
  have submitted : world.submission ka memory = some (pair.1.addAll triples) := by
    simp [World.submission, counts, complete.arrays, taken]
  exact ⟨_, submitted, World.submission_triples submitted complete.arrays⟩

theorem commitsAfresh_of_empty (empty : world.pool.leftover = []) : CommitsAfresh host world := by
  intro ka memory triples complete
  obtain ⟨req, submitted, holds⟩ := complete.submission
  have same : req = drmModeAtomicAlloc.addAll triples := by
    apply AtomicReq.ext
    rw [holds, empty, triples_addAll]
    rfl
  rw [ioctlOutcome_of_some submitted, same]

theorem exists_unused (used : List UInt64) (few : used.length < 2 ^ 64) : ∃ v, v ∉ used := by
  by_contra all
  simp only [not_exists, not_not] at all
  have distinct : ((List.range (used.length + 1)).map UInt64.ofNat).Nodup := by
    apply List.Nodup.map_on _ List.nodup_range
    intro i iRange j jRange same
    rw [List.mem_range] at iRange jRange
    have values := congrArg UInt64.toNat same
    rwa [UInt64.toNat_ofNat_of_lt' (by rw [UInt64.size]; omega), UInt64.toNat_ofNat_of_lt' (by rw [UInt64.size]; omega)]
      at values
  have shorter := (distinct.subperm fun v _ => all v).length_le
  simp only [List.length_map, List.length_range] at shorter
  omega

def activeAtLast (value : UInt64) : DrmModeAtomic where
  flags := 0
  countObjs := 1
  objs := some fun _ => 1
  countProps := some fun _ => 64
  props := some fun _ => PropId.active
  propValues := some fun i => if i = 63 then value else 0
  userData := 0

def activeTriples (value : UInt64) : List Triple :=
  List.replicate 63 ⟨1, PropId.active, 0⟩ ++ [⟨1, PropId.active, value⟩]

theorem triples_activeAtLast (value : UInt64) : (activeAtLast value).triples? = some (activeTriples value) := rfl

theorem complete_activeAtLast (world : World) (value : UInt64) :
    Complete world (activeAtLast value) ⟨true, true⟩ (activeTriples value) where
  nonzero := (by decide : (1 : UInt32) ≠ 0)
  few := (by decide : (1 : UInt32) ≤ 64)
  arrays := triples_activeAtLast value
  fits := by simp [activeTriples, maxAtomicProps]
  memory := by
    simp only [AtomicPool.take]
    split
    · rfl
    · split <;> rfl

theorem requested_activeTriples (value : UInt64) : requested (activeTriples value) 1 PropId.active = some value := by
  rw [requested, activeTriples, writesTo_append, lastValue_append]
  rfl

theorem mem_accepted_activeTriples {leftover : List Triple} (some : leftover ≠ []) {value : UInt64} {t : Triple}
    (member : t ∈ accepted (leftover ++ activeTriples value)) : t ∈ leftover ∨ t = ⟨1, PropId.active, 0⟩ := by
  have positive := List.length_pos_iff.mpr some
  rw [accepted, List.take_append, List.mem_append] at member
  rcases member with old | new
  · exact .inl (List.mem_of_mem_take old)
  · right
    rw [activeTriples, List.take_append_of_le_length (by simp [maxAtomicProps]; omega)] at new
    exact List.eq_of_mem_replicate (List.mem_of_mem_take new)

theorem no_leftover_of_noRoom {session : Session} (inv : SessionInv host session)
    (tooMany : maxObjProps < 3 * host.getDisplayCount) : session.world.pool.leftover = [] := by
  simp only [AtomicPool.leftover]
  cases session.world.pool.free with
  | none => rfl
  | some i => rw [Option.bind_some, inv.pool tooMany i]

theorem length_leftover_le (pool : AtomicPool) : pool.leftover.length ≤ maxAtomicProps := by
  simp only [AtomicPool.leftover]
  split
  · exact Nat.zero_le _
  · exact AtomicReq.fits _

theorem active_of_commit {dev after : Device} {table : ObjTable} {record : ObjProps} {stored : UInt64} {req : AtomicReq}
    {flags : UInt32} {userData : UInt64} {ret : Except Errno Unit}
    (ensures : ensureObjProperties host.getDisplayCount dev.gObjProps = .ok table) (first : table.first 1 = some record)
    (holds : record.props.get PropId.active = some stored)
    (done : drmModeAtomicCommit host dev drmVirtualFd (some req) flags userData = .ok (ret, after)) :
    (after.gObjProps.first 1).bind (fun record => record.props.get PropId.active) =
      (requested req.triples 1 PropId.active).or (some stored) := by
  rcases drmModeAtomicCommit_ok done with ⟨_, _, _, refused⟩ | ⟨same, table', _, isReq, ensures', _, _, equal⟩
  · rcases refused with wrong | missing
    · exact absurd rfl wrong
    · contradiction
  · cases isReq
    cases ensures.symm.trans ensures'
    have tableAfter : after.gObjProps = table.applyAll req.triples := by
      rw [equal, gObjProps_committed]
      rfl
    have present : PropId.active ∈ (record.props.assignAll (writesTo 1 req.triples)).keys :=
      record.props.mem_keys_assignAll (record.props.get_isSome_iff.mp (by rw [holds]; rfl)) _
    rw [tableAfter, table.first_applyAll, first, Option.map_some, Option.bind_some]
    exact (record.props.get_assignAll present).trans (by rw [holds]; rfl)

theorem empty_of_commitsAfresh {session : Session} (inv : SessionInv host session)
    (afresh : CommitsAfresh host session.world) : session.world.pool.leftover = [] := by
  by_contra nonempty
  have fits : 3 * host.getDisplayCount ≤ maxObjProps := by
    by_contra tooMany
    exact nonempty (no_leftover_of_noRoom inv (not_le.mp tooMany))
  obtain ⟨table, ensures, ensured⟩ := inv.table.ensure_fits fits
  have known : 1 ∈ objectIds host.getDisplayCount :=
    (mem_objectIds host.getDisplayCount_le).mpr ⟨le_rfl, host.getDisplayCount_pos⟩
  obtain ⟨record, found, covered⟩ := ensured.present (crtcRecord 1)
    (List.mem_append_left _ (List.mem_flatMap.mpr ⟨1, known, by simp⟩))
  have first : table.first 1 = some record := (ensured.first_eq known).trans found
  have hasActive : PropId.active ∈ record.props.keys := covered PropId.active (by simp [crtcRecord, crtcDefaults])
  obtain ⟨stored, holdsStored⟩ := Option.isSome_iff_exists.mp (record.props.get_isSome_iff.mpr hasActive)
  -- A value that neither the record nor the pooled request has.
  obtain ⟨v, unused⟩ := exists_unused (stored :: 0 :: session.world.pool.leftover.map Triple.value) (by
    have few := length_leftover_le session.world.pool
    simp only [List.length_cons, List.length_map, maxAtomicProps] at few ⊢
    omega)
  simp only [List.mem_cons, List.mem_map, not_or, not_exists, not_and] at unused
  obtain ⟨notStored, notZero, notLeft⟩ := unused
  have complete := complete_activeAtLast session.world v
  obtain ⟨req, submitted, holds⟩ := complete.submission
  have same := afresh _ _ _ complete
  rw [ioctlOutcome_of_some submitted] at same
  have fresh : (drmModeAtomicAlloc.addAll (activeTriples v)).triples = activeTriples v := by
    rw [triples_addAll]
    exact List.take_of_length_le complete.fits
  have inside : ∀ t ∈ (drmModeAtomicAlloc.addAll (activeTriples v)).triples, ¬ Strays table t := by
    intro t member strays
    have one : t.objId = 1 := by
      rw [fresh, activeTriples, List.mem_append, List.mem_singleton] at member
      rcases member with early | last
      · rw [List.eq_of_mem_replicate early]
      · rw [last]
    exact absurd (one.symm.trans strays.1) (by decide)
  have freshDone := drmModeAtomicCommit_eq (activeAtLast v).flags (activeAtLast v).userData ensures inside
  have wanted := active_of_commit ensures first holdsStored freshDone
  rw [active_of_commit ensures first holdsStored (same.trans freshDone), fresh, requested_activeTriples,
    Option.some_or] at wanted
  cases last : requested req.triples 1 PropId.active with
  | none =>
      rw [last, Option.none_or, Option.some.injEq] at wanted
      exact notStored wanted.symm
  | some value =>
      rw [last, Option.some_or, Option.some.injEq] at wanted
      have member := mem_writesTo.mp (lastValue_mem last)
      rw [holds, wanted] at member
      rcases mem_accepted_activeTriples nonempty member with old | new
      · exact notLeft _ old rfl
      · exact notZero (congrArg Triple.value new)

/-- In a reachable state, the ATOMIC ioctl commits the triples of its own
arrays exactly when the request that it takes from the pool is empty. -/
theorem commits_afresh_iff {session : Session} (reachable : ReachableSession host session) :
    CommitsAfresh host session.world ↔ session.world.pool.leftover = [] :=
  ⟨empty_of_commitsAfresh (sessionInv_of_reachable reachable), commitsAfresh_of_empty⟩

def setProperty (propId : UInt32) (value : UInt64) : DrmModeAtomic where
  flags := 0
  countObjs := 1
  objs := some fun _ => 1
  countProps := some fun _ => 1
  props := some fun _ => propId
  propValues := some fun _ => value
  userData := 0

theorem commits_afresh_after_two : ∃ session outs, runActions (step (.uniform 1)) .initial
      [.call (.atomicIoctl (setProperty PropId.active 5) ⟨true, true⟩),
        .call (.atomicIoctl (setProperty PropId.modeId 7) ⟨true, true⟩)] = .ok (session, outs) ∧
    session.world.pool.leftover = [⟨1, PropId.active, 5⟩, ⟨1, PropId.modeId, 7⟩] ∧
    (CommitsAfresh (.uniform 1) session.world ↔ session.world.pool.leftover = []) := by
  have performed : ∃ session outs, runActions (step (.uniform 1)) .initial
      [.call (.atomicIoctl (setProperty PropId.active 5) ⟨true, true⟩),
        .call (.atomicIoctl (setProperty PropId.modeId 7) ⟨true, true⟩)] = .ok (session, outs) ∧
      session.world.pool.leftover = [⟨1, PropId.active, 5⟩, ⟨1, PropId.modeId, 7⟩] := ⟨_, _, rfl, rfl⟩
  obtain ⟨session, outs, run, left⟩ := performed
  exact ⟨session, outs, run, left, commits_afresh_iff (runActions_reachable .start run)⟩

/-- The first ioctl sets ACTIVE to 5, a commit sets it to 0, and an ioctl that
sets only MODE_ID sets it to 5 again. -/
theorem old_triple_is_committed_again :
    ∃ session outs, runActions (step (.uniform 1)) .initial
        [.call (.atomicIoctl (setProperty PropId.active 5) ⟨true, true⟩),
          .call (.atomicCommit drmVirtualFd (some ⟨[⟨1, PropId.active, 0⟩], by decide⟩) 0 0)] = .ok (session, outs) ∧
      Complete session.world (setProperty PropId.modeId 7) ⟨true, true⟩ [⟨1, PropId.modeId, 7⟩] ∧
      ioctlOutcome (.uniform 1) session.world (setProperty PropId.modeId 7) ⟨true, true⟩ ≠
        drmModeAtomicCommit (.uniform 1) session.world.dev drmVirtualFd
          (some (drmModeAtomicAlloc.addAll [⟨1, PropId.modeId, 7⟩])) 0 0 := by
  refine ⟨_, _, rfl, ⟨by decide, by decide, rfl, by decide, rfl⟩, ?_⟩
  intro same
  have active := congrArg (Except.map fun result => reportedValue (.uniform 1) result.2 1 drmModeObjectCrtc PropId.active) same
  have stale : (.ok (some 5) : Except Fault (Option UInt64)) = .ok (some 0) := active
  cases stale

end Iland.Atomic

import Iland.Atomic.Observed

namespace Iland.Atomic

open Iland.Data
open Iland.Drm
open Iland.Ioctl

/-! Commits that are only to be tested.

The commit never looks at DRM_MODE_ATOMIC_TEST_ONLY, so a test changes nothing
exactly when the request has nothing to change.
-/

variable {host : Host} {dev : Device} {table : ObjTable} {triples : List Triple} {flags : UInt32} {userData : UInt64}

/-- Nothing that can be observed has changed.  Handing a surface to the
display is a change, even if it is the one on show. -/
structure Unchanged (host : Host) (before after : Device) : Prop where
  properties : ∀ objectId objectType, reports host after objectId objectType = reports host before objectId objectType
  gState : after.gState = before.gState
  sdl : after.sdl = before.sdl

theorem Unchanged.refl (dev : Device) : Unchanged host dev dev := ⟨fun _ _ => rfl, rfl, rfl⟩

structure Harmless (host : Host) (dev : Device) (table : ObjTable) (triples : List Triple) : Prop where
  /-- No triple is a position of an object 0 with a record. -/
  inside : ∀ t ∈ triples, ¬ Strays table t
  /-- The last value for each property is stored already, or finds no place. -/
  stored : ∀ t ∈ triples, ∀ record, table.first t.objId = some record →
    record.props.get t.propId = requested triples t.objId t.propId ∨
      (t.propId ∉ record.props.keys ∧ record.props.full)
  /-- No triple names a framebuffer that exists. -/
  quiet : ∀ t ∈ triples, ¬ Shows (dev.withTable table) t
  /-- The last position for each display is the one it has. -/
  still : ∀ id ∈ objectIds host.getDisplayCount,
    (dev.gState (place id)).moved (writesTo id triples) = dev.gState (place id)
  /-- The last framebuffer id is zero or the one that its CRTC has. -/
  last : ∀ t, lastFlip table triples = some t →
    t.value.toUInt32 = 0 ∨ (dev.gState (place t.objId)).crtcFbId = t.value.toUInt32

theorem applyAll_eq_self_iff_stored :
    table.applyAll triples = table ↔
      ∀ t ∈ triples, ∀ record, table.first t.objId = some record →
        record.props.get t.propId = requested triples t.objId t.propId ∨
          (t.propId ∉ record.props.keys ∧ record.props.full) := by
  rw [table.applyAll_eq_self_iff]
  constructor
  · intro same t member record found
    exact (record.props.assignAll_eq_self_iff _).mp (same t.objId record found) _ (mem_writesTo_of_mem member)
  · intro stored objId record found
    rw [record.props.assignAll_eq_self_iff]
    intro write member
    exact stored _ (mem_writesTo.mp member) record found

theorem sdl_committed_iff :
    (committed host dev triples flags userData).sdl = dev.sdl ↔ ∀ t ∈ triples, ¬ Shows dev t := by
  rw [sdl_committed]
  constructor
  · intro same t member showsFb
    have count : ((Committing.start dev).applyAll host triples).dev.sdl.presented.length =
        dev.sdl.presented.length + (triples.filter (fun t => Shows dev t)).length :=
      length_presented_applyAll triples
    rw [same] at count
    have none : triples.filter (fun t => Shows dev t) = [] := List.length_eq_zero_iff.mp (Nat.left_eq_add.mp count)
    have shown : t ∈ triples.filter (fun t => Shows dev t) := List.mem_filter.mpr ⟨member, decide_eq_true showsFb⟩
    rw [none] at shown
    exact absurd shown List.not_mem_nil
  · exact fun quiet => (quiet_applyAll (s := .start dev) quiet).1

/-- The loop over the triples leaves a CRTC state that it neither shows
anything on nor moves. -/
theorem loop_still (displays : DisplaysLand host dev.gObjProps) (inside : ∀ t ∈ triples, ¬ Strays dev.gObjProps t)
    (quiet : ∀ t ∈ triples, ¬ Shows dev t)
    (still : ∀ id ∈ objectIds host.getDisplayCount,
      (dev.gState (place id)).moved (writesTo id triples) = dev.gState (place id)) (idx : Fin maxCrtcs) :
    ((Committing.start dev).applyAll host triples).dev.gState idx = dev.gState idx := by
  have shape : ∃ fbId, ((Committing.start dev).applyAll host triples).dev.gState idx =
      (dev.gState idx).withFb fbId := by
    by_cases inhabited : ∃ id ∈ objectIds host.getDisplayCount, place id = idx
    · obtain ⟨id, known, rfl⟩ := inhabited
      obtain ⟨fbId, moved⟩ := gState_applyAll (s := .start dev) displays inside known
      exact ⟨fbId, moved.trans (congrArg (fun state => state.withFb fbId) (still id known))⟩
    · exact gState_applyAll_outside (s := .start dev) inside fun id known same => inhabited ⟨id, known, same⟩
  obtain ⟨fbId, equal⟩ := shape
  have own : (((Committing.start dev).applyAll host triples).dev.gState idx).crtcFbId = (dev.gState idx).crtcFbId :=
    (quiet_applyAll (s := .start dev) quiet).2 idx
  rw [equal] at own ⊢
  rw [show fbId = (dev.gState idx).crtcFbId from own, CrtcState.withFb_self]

/-- What the commit records after the loop changes no CRTC exactly when the
last framebuffer id is zero or the one that its CRTC has. -/
theorem recorded_iff (host : Host) (states : Fin maxCrtcs → CrtcState) :
    (∀ idx, 0 < ((Committing.start dev).applyAll host triples).newFbId →
      place ((Committing.start dev).applyAll host triples).newPlaneId = idx →
        (states idx).crtcFbId = ((Committing.start dev).applyAll host triples).newFbId) ↔
      ∀ t, lastFlip dev.gObjProps triples = some t →
        t.value.toUInt32 = 0 ∨ (states (place t.objId)).crtcFbId = t.value.toUInt32 := by
  have newFb : (((Committing.start dev).applyAll host triples).newFbId,
      ((Committing.start dev).applyAll host triples).newPlaneId) =
      ((lastFlip dev.gObjProps triples).map (fun t => (t.value.toUInt32, t.objId))).getD (0, 0) :=
    newFb_applyAll triples
  cases flip : lastFlip dev.gObjProps triples with
  | none =>
      rw [flip] at newFb
      obtain ⟨noFb, noPlane⟩ := Prod.mk.inj newFb
      simp [noFb]
  | some t =>
      rw [flip] at newFb
      obtain ⟨fbId, planeId⟩ := Prod.mk.inj newFb
      rw [fbId, planeId]
      simp only [Option.some.injEq, forall_eq', UInt32.pos_iff_ne_zero]
      exact (forall_comm.trans (forall_congr' fun _ => forall_eq')).trans or_iff_not_imp_left.symm

/-- Without presentations, the CRTC states are as before exactly when no
position and no recorded framebuffer id is new. -/
theorem gState_committed_iff (displays : DisplaysLand host dev.gObjProps)
    (inside : ∀ t ∈ triples, ¬ Strays dev.gObjProps t) (quiet : ∀ t ∈ triples, ¬ Shows dev t) :
    (committed host dev triples flags userData).gState = dev.gState ↔
      (∀ id ∈ objectIds host.getDisplayCount,
        (dev.gState (place id)).moved (writesTo id triples) = dev.gState (place id)) ∧
      ∀ t, lastFlip dev.gObjProps triples = some t →
        t.value.toUInt32 = 0 ∨ (dev.gState (place t.objId)).crtcFbId = t.value.toUInt32 := by
  have fbIds : ∀ idx, (((Committing.start dev).applyAll host triples).dev.gState idx).crtcFbId =
      (dev.gState idx).crtcFbId := (quiet_applyAll (s := .start dev) quiet).2
  have final (idx : Fin maxCrtcs) : (committed host dev triples flags userData).gState idx = _ :=
    (gState_committed idx).trans (gState_recordLastFb _ idx)
  rw [← recorded_iff host]
  constructor
  · intro same
    have kept (idx : Fin maxCrtcs) := (final idx).symm.trans (congrFun same idx)
    constructor
    · intro id known
      obtain ⟨fbId, loop⟩ := gState_applyAll (s := .start dev) displays inside known
      have here := kept (place id)
      rw [loop, CrtcState.withFb_withFb] at here
      exact congrArg (fun state => state.withFb (dev.gState (place id)).crtcFbId) here
    · intro idx positive placed
      have here := congrArg CrtcState.crtcFbId (kept idx)
      rw [CrtcState.withFb, if_pos ⟨positive, placed⟩] at here
      exact here.symm
  · intro settled
    obtain ⟨still, recorded⟩ := settled
    funext idx
    rw [final idx, loop_still displays inside quiet still idx]
    split
    · rename_i new
      rw [← recorded idx new.1 new.2, CrtcState.withFb_self]
    · exact CrtcState.withFb_self _

theorem unchanged_committed_iff (ensures : ensureObjProperties host.getDisplayCount dev.gObjProps = .ok table)
    (ensured : Ensured host.getDisplayCount table) (inside : ∀ t ∈ triples, ¬ Strays table t) :
    Unchanged host dev (committed host (dev.withTable table) triples flags userData) ↔
      Harmless host dev table triples := by
  have tableAfter : (committed host (dev.withTable table) triples flags userData).gObjProps = table.applyAll triples :=
    gObjProps_committed triples
  have ensuresAfter : ensureObjProperties host.getDisplayCount
      (committed host (dev.withTable table) triples flags userData).gObjProps = .ok (table.applyAll triples) :=
    tableAfter ▸ (ensured.grows (table.grows_applyAll triples)).ensure
  have properties := reports_eq_iff ensures ensuresAfter (table.keys_applyAll triples)
  have states (quiet : ∀ t ∈ triples, ¬ Shows (dev.withTable table) t) :
      (committed host (dev.withTable table) triples flags userData).gState = dev.gState ↔ _ :=
    gState_committed_iff ensured.displaysLand inside quiet
  constructor
  · intro unchanged
    have quiet := sdl_committed_iff.mp unchanged.sdl
    obtain ⟨still, last⟩ := (states quiet).mp unchanged.gState
    exact ⟨inside, applyAll_eq_self_iff_stored.mp (properties.mp unchanged.properties), quiet, still, last⟩
  · intro harmless
    exact ⟨properties.mpr (applyAll_eq_self_iff_stored.mpr harmless.stored),
      (states harmless.quiet).mpr ⟨harmless.still, harmless.last⟩, sdl_committed_iff.mpr harmless.quiet⟩

def ChangesNothing (host : Host) (world : World) (c : Call) : Prop :=
  ∃ after reply, exec host world c = .ok (after, reply) ∧ Unchanged host world.dev after.dev

/-- What a request that changes nothing when it is committed looks like, if
the call commits one. -/
def NothingToChange (host : Host) (world : World) (c : Call) : Prop :=
  ∀ req, c.request world = some req →
    ∃ table, ensureObjProperties host.getDisplayCount world.dev.gObjProps = .ok table ∧
      Harmless host world.dev table req.triples

theorem changesNothing_iff {world : World} {c : Call} (inv : TableInv host.getDisplayCount world.dev.gObjProps)
    (commits : commitArguments c = some (flags, userData)) :
    ChangesNothing host world c ↔ NothingToChange host world c := by
  cases submitted : c.request world with
  | none =>
      obtain ⟨pool, reply, done⟩ := exec_of_no_request host commits submitted
      simp only [ChangesNothing, done, NothingToChange, submitted, reduceCtorEq, false_imp_iff, implies_true, iff_true]
      exact ⟨_, _, rfl, .refl world.dev⟩
  | some req =>
      obtain ⟨pool, done⟩ := exec_of_request host commits submitted
      simp only [ChangesNothing, done, NothingToChange, submitted, Option.some.injEq, forall_eq']
      cases ensures : ensureObjProperties host.getDisplayCount world.dev.gObjProps with
      | error fault => simp [drmModeAtomicCommit_overflow ensures, Except.map]
      | ok table =>
          have ensured := inv.ensured host.getDisplayCount_le ensures
          simp only [Except.ok.injEq, exists_eq_left']
          by_cases stray : ∃ t ∈ req.triples, Strays table t
          · rw [drmModeAtomicCommit_stray ensures stray]
            obtain ⟨t, member, strays⟩ := stray
            simp only [Except.map, reduceCtorEq, false_and, exists_false, false_iff]
            exact fun harmless => harmless.inside t member strays
          · have inside : ∀ t ∈ req.triples, ¬ Strays table t := by simpa using stray
            rw [drmModeAtomicCommit_eq flags userData ensures inside]
            simp only [Except.map, Except.ok.injEq, Prod.mk.injEq, and_assoc, exists_eq_left', exists_and_left]
            exact unchanged_committed_iff ensures ensured inside

/-- A test commit, by either interface, changes nothing exactly when the
request that it commits has nothing to change. -/
theorem test_only_iff {session : Session} (reachable : ReachableSession host session) {c : Call}
    (commits : commitArguments c = some (flags, userData)) (_test : flags &&& drmModeAtomicTestOnly ≠ 0) :
    ChangesNothing host session.world c ↔ NothingToChange host session.world c :=
  changesNothing_iff (sessionInv_of_reachable reachable).table commits

def testActive : Call :=
  .atomicCommit drmVirtualFd (some ⟨[⟨1, PropId.active, 5⟩], by decide⟩) drmModeAtomicTestOnly 0

theorem test_only_iff_testActive :
    ChangesNothing (.uniform 1) Session.initial.world testActive ↔
      NothingToChange (.uniform 1) Session.initial.world testActive :=
  test_only_iff .start rfl (by decide)

/-- The value is stored. -/
theorem testActive_changes_active : ¬ ChangesNothing (.uniform 1) Session.initial.world testActive := by
  rw [changesNothing_iff (.inl rfl) rfl]
  intro nothing
  obtain ⟨table, ensures, harmless⟩ := nothing _ rfl
  cases ensures
  rcases harmless.stored ⟨1, PropId.active, 5⟩ List.mem_cons_self _ rfl with same | dropped
  · exact absurd same (by decide)
  · exact absurd dropped.1 (by decide)

end Iland.Atomic

import Iland.Atomic.Observed

namespace Iland.Atomic

open Iland.Data
open Iland.Drm

/-! Commits of plane properties.

CRTC `N`, connector `N` and plane `N` have the same object id, and the commit
searches records by id alone, so it finds the record of CRTC `N`.
-/

variable {host : Host} {dev : Device} {req : AtomicReq} {flags : UInt32} {userData : UInt64}

def PlaneRequest (host : Host) (triples : List Triple) : Prop :=
  ∀ t ∈ triples, t.objId ∈ objectIds host.getDisplayCount ∧ t.propId ∈ PropId.planeOnly

/-- The effect that a commit should have on plane, CRTC and connector `N`. -/
structure PlaneUpdated (host : Host) (before after : Device) (triples : List Triple) (id : UInt32) : Prop where
  properties : ∀ propId ∈ PropId.planeOnly,
    reportedValue host after id drmModeObjectPlane propId =
      (requested triples id propId).or (reportedValue host before id drmModeObjectPlane propId)
  fbId : ∃ plane next, drmModeGetPlane host after drmVirtualFd id = .ok (.ok plane, next) ∧
    (reportedValue host after id drmModeObjectPlane PropId.fbId).map UInt64.toUInt32 = some plane.fbId
  crtc : reports host after id drmModeObjectCrtc = reports host before id drmModeObjectCrtc
  connector : reports host after id drmModeObjectConnector = reports host before id drmModeObjectConnector

/-- The commit succeeds and updates the planes, and nothing else. -/
def PlanesUpdated (host : Host) (dev : Device) (req : AtomicReq) (flags : UInt32) (userData : UInt64) : Prop :=
  ∃ after, drmModeAtomicCommit host dev drmVirtualFd (some req) flags userData = .ok (.ok (), after) ∧
    ∀ id ∈ objectIds host.getDisplayCount, PlaneUpdated host dev after req.triples id

/-- A triple has nothing to change: its plane has the requested value already,
and its CRTC has it too, or no place for it. -/
def Redundant (host : Host) (dev : Device) (triples : List Triple) (t : Triple) : Prop :=
  reportedValue host dev t.objId drmModeObjectPlane t.propId = requested triples t.objId t.propId ∧
  (reportedValue host dev t.objId drmModeObjectCrtc t.propId = requested triples t.objId t.propId ∨
    reportedValue host dev t.objId drmModeObjectCrtc t.propId = none ∧
      (reports host dev t.objId drmModeObjectCrtc).map List.length = some maxPropsPerObj)

structure DisplayRecords (table : ObjTable) (id : UInt32) where
  crtc : ObjProps
  connector : ObjProps
  plane : ObjProps
  crtc_found : table.lookup (id, drmModeObjectCrtc) = some crtc
  connector_found : table.lookup (id, drmModeObjectConnector) = some connector
  plane_found : table.lookup (id, drmModeObjectPlane) = some plane
  first : table.first id = some crtc
  fbId : PropId.fbId ∈ plane.props.keys

theorem displayRecords_exist {n : ℕ} {table : ObjTable} (ensured : Ensured n table) {id : UInt32}
    (known : id ∈ objectIds n) : Nonempty (DisplayRecords table id) := by
  have pair (wanted : DefaultRecord) (member : wanted ∈ [crtcRecord id, connectorRecord id]) :
      wanted ∈ defaultRecords n :=
    List.mem_append_left _ (List.mem_flatMap.mpr ⟨id, known, member⟩)
  obtain ⟨crtc, crtcFound, _⟩ := ensured.present _ (pair (crtcRecord id) (by simp))
  obtain ⟨connector, connectorFound, _⟩ := ensured.present _ (pair (connectorRecord id) (by simp))
  obtain ⟨plane, planeFound, covered⟩ :=
    ensured.present (planeRecord id) (List.mem_append_right _ (List.mem_map_of_mem known))
  exact ⟨crtc, connector, plane, crtcFound, connectorFound, planeFound,
    (ensured.first_eq known).trans crtcFound, covered PropId.fbId (by simp [planeRecord, planeDefaults])⟩

theorem getPlane_of_lookup {table : ObjTable} {id : UInt32} {record : ObjProps}
    (ensured : ensureObjProperties host.getDisplayCount dev.gObjProps = .ok table)
    (known : id ∈ objectIds host.getDisplayCount) (found : table.lookup (id, drmModeObjectPlane) = some record) :
    drmModeGetPlane host dev drmVirtualFd id = .ok (.ok (planeOf id record), dev.withTable table) := by
  have demanded := table.demand_of_lookup found
  rw [drmModeGetPlane_eq ensured (congrArg Prod.fst demanded), demanded,
    if_pos ((mem_objectIds host.getDisplayCount_le).mp known)]

namespace DisplayRecords

variable {table : ObjTable} {triples : List Triple} {after : Device} {id : UInt32}

theorem crtc_key (records : DisplayRecords table id) : records.crtc.key = (id, drmModeObjectCrtc) :=
  KeyedTable.key_of_lookup records.crtc_found

theorem crtc_after (records : DisplayRecords table id) (triples : List Triple) :
    (table.applyAll triples).lookup (id, drmModeObjectCrtc) =
      some (records.crtc.withProps (records.crtc.props.assignAll (writesTo id triples))) := by
  rw [← records.crtc_key]
  exact table.lookup_applyAll_first triples records.first

theorem other_after (records : DisplayRecords table id) {objType : UInt32} (other : objType ≠ drmModeObjectCrtc)
    (triples : List Triple) :
    (table.applyAll triples).lookup (id, objType) = table.lookup (id, objType) := by
  apply table.lookup_applyAll_shadowed
  intro record found
  rw [records.first, Option.some.injEq] at found
  rw [← found, records.crtc_key]
  exact fun same => other (Prod.mk.inj same).2.symm

theorem plane_kept (records : DisplayRecords table id) (triples : List Triple) :
    (table.applyAll triples).lookup (id, drmModeObjectPlane) = some records.plane :=
  (records.other_after (by decide) triples).trans records.plane_found

theorem connector_kept (records : DisplayRecords table id) (triples : List Triple) :
    (table.applyAll triples).lookup (id, drmModeObjectConnector) = some records.connector :=
  (records.other_after (by decide) triples).trans records.connector_found

/-- The plane's record stays as it was, so a value that the plane reports
afterwards was stored before. -/
theorem redundant {t : Triple} (records : DisplayRecords table t.objId) (member : t ∈ triples)
    (planeOnly : t.propId ∈ PropId.planeOnly)
    (ensures : ensureObjProperties host.getDisplayCount dev.gObjProps = .ok table)
    (ensuresAfter : ensureObjProperties host.getDisplayCount after.gObjProps = .ok (table.applyAll triples))
    (updated : PlaneUpdated host dev after triples t.objId) : Redundant host dev triples t := by
  obtain ⟨value, wanted⟩ := Option.isSome_iff_exists.mp (requested_isSome member)
  have properties := updated.properties t.propId planeOnly
  rw [reportedValue_of_lookup ensuresAfter (records.plane_kept triples),
    reportedValue_of_lookup ensures records.plane_found, wanted, Option.some_or] at properties
  have crtc := updated.crtc
  rw [reports_of_lookup ensuresAfter (records.crtc_after triples),
    reports_of_lookup ensures records.crtc_found, Option.some.injEq] at crtc
  have unchanged : records.crtc.props.assignAll (writesTo t.objId triples) = records.crtc.props :=
    KeyedTable.ext crtc
  refine ⟨?_, ?_⟩
  · rw [reportedValue_of_lookup ensures records.plane_found, properties, wanted]
  · rw [reportedValue_of_lookup ensures records.crtc_found, reports_of_lookup ensures records.crtc_found]
    rcases (records.crtc.props.assignAll_eq_self_iff _).mp unchanged _ (mem_writesTo_of_mem member) with same | dropped
    · exact .inl same
    · refine .inr ⟨records.crtc.props.get_eq_none_iff.mpr dropped.1, ?_⟩
      simp [le_antisymm records.crtc.props.bound dropped.2]

theorem crtc_unchanged (records : DisplayRecords table id)
    (ensures : ensureObjProperties host.getDisplayCount dev.gObjProps = .ok table)
    (redundant : ∀ t ∈ triples, Redundant host dev triples t) :
    records.crtc.props.assignAll (writesTo id triples) = records.crtc.props := by
  rw [records.crtc.props.assignAll_eq_self_iff]
  intro write member
  have crtc := (redundant _ (mem_writesTo.mp member)).2
  rw [reportedValue_of_lookup ensures records.crtc_found, reports_of_lookup ensures records.crtc_found] at crtc
  rcases crtc with same | ⟨missing, full⟩
  · exact .inl same
  · exact .inr ⟨records.crtc.props.get_eq_none_iff.mp missing, (Option.some.inj full).ge⟩

theorem updated (records : DisplayRecords table id) (known : id ∈ objectIds host.getDisplayCount)
    (ensures : ensureObjProperties host.getDisplayCount dev.gObjProps = .ok table)
    (ensuresAfter : ensureObjProperties host.getDisplayCount after.gObjProps = .ok (table.applyAll triples))
    (redundant : ∀ t ∈ triples, Redundant host dev triples t) : PlaneUpdated host dev after triples id := by
  have planeKept := records.plane_kept triples
  refine ⟨?_, ?_, ?_, ?_⟩
  · intro propId planeOnly
    rw [reportedValue_of_lookup ensuresAfter planeKept, reportedValue_of_lookup ensures records.plane_found]
    by_cases written : ∃ t ∈ triples, t.objId = id ∧ t.propId = propId
    · obtain ⟨t, member, rfl, rfl⟩ := written
      have same := (redundant t member).1
      rw [reportedValue_of_lookup ensures records.plane_found] at same
      rw [← same, Option.or_self]
    · have nothing : requested triples id propId = none :=
        requested_eq_none fun t member idSame propSame => written ⟨t, member, idSame, propSame⟩
      rw [nothing, Option.none_or]
  · refine ⟨_, _, getPlane_of_lookup ensuresAfter known planeKept, ?_⟩
    rw [reportedValue_of_lookup ensuresAfter planeKept]
    obtain ⟨value, stored⟩ := Option.isSome_iff_exists.mp (records.plane.props.get_isSome_iff.mpr records.fbId)
    simp [planeOf, stored]
  · rw [reports_of_lookup ensuresAfter (records.crtc_after triples), reports_of_lookup ensures records.crtc_found,
      records.crtc_unchanged ensures redundant]
    rfl
  · rw [reports_of_lookup ensuresAfter (records.connector_kept triples),
      reports_of_lookup ensures records.connector_found]

end DisplayRecords

theorem planesUpdated_iff (inv : TableInv host.getDisplayCount dev.gObjProps)
    (fits : 3 * host.getDisplayCount ≤ maxObjProps) (planes : PlaneRequest host req.triples) :
    PlanesUpdated host dev req flags userData ↔ ∀ t ∈ req.triples, Redundant host dev req.triples t := by
  obtain ⟨table, ensures, ensured⟩ := inv.ensure_fits fits
  have safe : ∀ t ∈ req.triples, ¬ Strays table t := fun t member stray =>
    known_nonzero host.getDisplayCount_le (planes t member).1 stray.1
  have done := drmModeAtomicCommit_eq flags userData ensures safe
  have tableAfter : (committed host (dev.withTable table) req.triples flags userData).gObjProps =
      table.applyAll req.triples := gObjProps_committed req.triples
  have ensuresAfter : ensureObjProperties host.getDisplayCount
      (committed host (dev.withTable table) req.triples flags userData).gObjProps = .ok (table.applyAll req.triples) :=
    tableAfter ▸ (ensured.grows (table.grows_applyAll req.triples)).ensure
  constructor
  · rintro ⟨after, returned, updated⟩ t member
    rw [done, Except.ok.injEq, Prod.mk.injEq] at returned
    obtain ⟨known, planeOnly⟩ := planes t member
    obtain ⟨records⟩ := displayRecords_exist ensured known
    exact records.redundant member planeOnly ensures (returned.2 ▸ ensuresAfter) (updated t.objId known)
  · intro redundant
    refine ⟨_, done, ?_⟩
    intro id known
    obtain ⟨records⟩ := displayRecords_exist ensured known
    exact records.updated known ensures ensuresAfter redundant

/-- A plane commit does what it should exactly when it has nothing to change:
the values would go to the records of the CRTCs. -/
theorem plane_commit_iff {session : Session} (reachable : ReachableSession host session)
    (fits : 3 * host.getDisplayCount ≤ maxObjProps) (planes : PlaneRequest host req.triples) :
    PlanesUpdated host session.world.dev req flags userData ↔
      ∀ t ∈ req.triples, Redundant host session.world.dev req.triples t :=
  planesUpdated_iff (sessionInv_of_reachable reachable).table fits planes

def showSeven : AtomicReq := ⟨[⟨1, PropId.fbId, 7⟩], by decide⟩

theorem plane_commit_iff_showSeven :
    PlanesUpdated (.uniform 1) Session.initial.world.dev showSeven 0 0 ↔
      ∀ t ∈ showSeven.triples, Redundant (.uniform 1) Session.initial.world.dev showSeven.triples t :=
  plane_commit_iff .start (by decide) (by unfold PlaneRequest; decide)

/-- The framebuffer of plane 1 is stored, but plane 1 still reports none. -/
theorem showSeven_misses_plane : ¬ PlanesUpdated (.uniform 1) Session.initial.world.dev showSeven 0 0 := by
  intro updated
  have redundant := (planesUpdated_iff (.inl rfl) (by decide) (by unfold PlaneRequest; decide)).mp updated
  have stored : (some 0 : Option UInt64) = some 7 := (redundant ⟨1, PropId.fbId, 7⟩ List.mem_cons_self).1
  exact absurd stored (by decide)

end Iland.Atomic

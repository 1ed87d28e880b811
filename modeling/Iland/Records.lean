import Iland.Invariant

namespace Iland

open Iland.Data
open Iland.Drm
open Iland.Ioctl

/-! The records of the object table in a run.

A query of an object makes a record if there is none, and the records of the
displays leave room for more.
-/

variable {host : Host} {session next : Session} {table : ObjTable} {n : ℕ} {a : Action} {out : Output}

def defaultKeys (n : ℕ) : List (UInt32 × UInt32) := (defaultRecords n).map DefaultRecord.key

/-- A query, with the right descriptor, of something other than a CRTC, a
connector or a plane of the displays. -/
def Action.foreign (host : Host) : Action → Bool
  | .call (.objectGetProperties fd objectId objectType) =>
      fd = drmVirtualFd ∧ (objectId, objectType) ∉ defaultKeys host.getDisplayCount
  | .call (.getPlane fd planeId) => fd = drmVirtualFd ∧ (planeId, drmModeObjectPlane) ∉ defaultKeys host.getDisplayCount
  | _ => false

/-- There is a record for each CRTC, connector and plane and no other, once
there are any. -/
def RecordsExact (host : Host) (session : Session) : Prop :=
  session.world.dev.gObjProps.keys = [] ∨ session.world.dev.gObjProps.keys = defaultKeys host.getDisplayCount

def Refused (host : Host) (session : Session) (a : Action) : Prop :=
  a.foreign host = true → ∃ next, step host session a = .ok (next, .replied (.error .ENOENT))

/-- The states are the same once the default records are there. -/
def SameOnceFilled (host : Host) (left right : Session) : Prop :=
  ∃ table, ensureObjProperties host.getDisplayCount left.world.dev.gObjProps = .ok table ∧
    ensureObjProperties host.getDisplayCount right.world.dev.gObjProps = .ok table ∧
    left.withDev (left.world.dev.withTable table) = right.withDev (right.world.dev.withTable table)

/-- The outputs of the actions that are not foreign queries. -/
def ownOutputs (host : Host) (actions : List Action) (outs : List Output) : List Output :=
  ((actions.zip outs).filter (fun pair => !pair.1.foreign host)).map Prod.snd

/-- Foreign queries fail and add nothing, and the run goes on as it would
without them. -/
structure QueriesHarmless (host : Host) (actions : List Action) : Prop where
  records : Throughout (step host) (RecordsExact host) .initial actions
  refused : Along (step host) (Refused host) .initial actions
  unnoticed : ∀ last outs, runActions (step host) .initial actions = .ok (last, outs) →
    ∃ last', runActions (step host) .initial (actions.filter (fun a => !a.foreign host)) =
      .ok (last', ownOutputs host actions outs) ∧ SameOnceFilled host last last'

/-! The table. -/

/-- The table is unused, or it has the default records and no other. -/
def OnlyDefaults (n : ℕ) (table : ObjTable) : Prop := table = .empty ∨ Ensured n table ∧ table.keys = defaultKeys n

theorem OnlyDefaults.ensure (only : OnlyDefaults n table) (fits : 3 * n ≤ maxObjProps) :
    ∃ after, ensureObjProperties n table = .ok after ∧ Ensured n after ∧ after.keys = defaultKeys n := by
  rcases only with rfl | ⟨ensured, keys⟩
  · obtain ⟨after, ensures, entries, ensured⟩ := ensure_empty fits
    refine ⟨after, ensures, ensured, ?_⟩
    rw [KeyedTable.keys, entries, List.map_map]
    rfl
  · exact ⟨table, ensured.ensure, ensured, keys⟩

theorem ObjTable.demand_known {objId objType : UInt32} (known : (objId, objType) ∈ table.keys) :
    (table.demand objId objType).2 = table := by
  cases found : table.lookup (objId, objType) with
  | none => exact absurd known (KeyedTable.lookup_eq_none_iff.mp found)
  | some record => rw [ObjTable.demand_of_lookup found]

theorem keys_demand_foreign {objId objType : UInt32} (keys : table.keys = defaultKeys n) (fits : 3 * n ≤ maxObjProps)
    (foreign : (objId, objType) ∉ defaultKeys n) :
    (table.demand objId objType).2.keys = defaultKeys n ++ [(objId, objType)] := by
  have length : table.entries.length = 3 * n := by
    have same := congrArg List.length keys
    simpa [KeyedTable.keys, defaultKeys, length_defaultRecords] using same
  -- 3n is not 16.
  have room : ¬ table.full := by
    simp only [KeyedTable.full, length, maxObjProps] at fits ⊢
    omega
  have missing := KeyedTable.lookup_eq_none_iff.mpr (keys ▸ foreign)
  simp only [ObjTable.demand, missing, room, if_false]
  rw [KeyedTable.keys, KeyedTable.entries_insertNew (KeyedTable.lookup_eq_none_iff.mp missing) room, List.map_append,
    ← KeyedTable.keys, keys]
  rfl

/-! One step. -/

theorem onlyDefaults_of_demanded {dev after : Device} {fd : Int} {objectId objectType : UInt32}
    (only : OnlyDefaults host.getDisplayCount dev.gObjProps) (fits : 3 * host.getDisplayCount ≤ maxObjProps)
    (own : fd = drmVirtualFd → (objectId, objectType) ∈ defaultKeys host.getDisplayCount)
    (demanded : Demanded host dev fd objectId objectType after) : OnlyDefaults host.getDisplayCount after.gObjProps := by
  rcases demanded with ⟨_, rfl⟩ | ⟨table, valid, ensures, rfl⟩
  · exact only
  · obtain ⟨created, ensures', ensured, keys⟩ := only.ensure fits
    rw [ensures', Except.ok.injEq] at ensures
    subst ensures
    have same := ObjTable.demand_known (keys.symm ▸ own valid : (objectId, objectType) ∈ created.keys)
    change OnlyDefaults _ (created.demand objectId objectType).2
    rw [same]
    exact .inr ⟨ensured, keys⟩

theorem onlyDefaults_of_commit {dev after : Device} {fd : Int} {request : Option AtomicReq} {flags : UInt32}
    {userData : UInt64} {ret : Except Errno Unit} (only : OnlyDefaults host.getDisplayCount dev.gObjProps)
    (fits : 3 * host.getDisplayCount ≤ maxObjProps)
    (done : drmModeAtomicCommit host dev fd request flags userData = .ok (ret, after)) :
    OnlyDefaults host.getDisplayCount after.gObjProps := by
  rcases drmModeAtomicCommit_ok done with ⟨e, _, rfl, _⟩ | ⟨req, table, _, _, ensures, _, _, rfl⟩
  · exact only
  · obtain ⟨created, ensures', ensured, keys⟩ := only.ensure fits
    rw [ensures', Except.ok.injEq] at ensures
    subst ensures
    right
    rw [gObjProps_committed]
    exact ⟨ensured.grows (created.grows_applyAll req.triples), (created.keys_applyAll req.triples).trans keys⟩

theorem exec_onlyDefaults {world after : World} {c : Call} {reply : Reply}
    (only : OnlyDefaults host.getDisplayCount world.dev.gObjProps) (fits : 3 * host.getDisplayCount ≤ maxObjProps)
    (own : (Action.call c).foreign host = false) (done : exec host world c = .ok (after, reply)) :
    OnlyDefaults host.getDisplayCount after.dev.gObjProps := by
  have effect := exec_ok done
  cases c
  case pageFlip =>
    simp only [effect, World.withDev]
    rwa [(pageFlip_effect world.dev _ _ _ _ _).1]
  case objectGetProperties =>
    obtain ⟨dev, demanded, rfl⟩ := effect
    refine onlyDefaults_of_demanded only fits (fun valid => ?_) demanded
    simpa [Action.foreign, valid] using own
  case getPlane =>
    obtain ⟨dev, demanded, rfl⟩ := effect
    refine onlyDefaults_of_demanded only fits (fun valid => ?_) demanded
    simpa [Action.foreign, valid] using own
  case atomicCommit =>
    obtain ⟨ret, dev, committed, rfl⟩ := effect
    exact onlyDefaults_of_commit only fits committed
  case atomicIoctl =>
    obtain ⟨ret, handled⟩ := effect
    rcases handleAtomic_ok handled with ⟨_, same, _⟩ | ⟨req, _, committed⟩
    · rwa [same]
    · exact onlyDefaults_of_commit only fits committed
  case openEventPipe => rwa [effect]
  all_goals rwa [effect.1.gObjProps]

theorem onlyDefaults_step (only : OnlyDefaults host.getDisplayCount session.world.dev.gObjProps)
    (fits : 3 * host.getDisplayCount ≤ maxObjProps) (own : a.foreign host = false)
    (done : step host session a = .ok (next, out)) :
    OnlyDefaults host.getDisplayCount next.world.dev.gObjProps := by
  rcases step_cases done with ⟨c, reply, rfl, _, called, _⟩ | ⟨event, handler, dev, _, _, taken, rfl⟩ |
    ⟨_, _, _, world⟩
  · exact exec_onlyDefaults only fits own called
  · change OnlyDefaults _ dev.gObjProps
    rwa [(dequeueFlipEvent_some taken).1]
  · rwa [world]

theorem not_recordsExact_of_foreign (only : OnlyDefaults host.getDisplayCount session.world.dev.gObjProps)
    (fits : 3 * host.getDisplayCount ≤ maxObjProps) (foreign : a.foreign host = true)
    (done : step host session a = .ok (next, out)) : ¬ RecordsExact host next := by
  have adds {objectId objectType : UInt32} {dev : Device}
      (demanded : Demanded host session.world.dev drmVirtualFd objectId objectType dev)
      (unknown : (objectId, objectType) ∉ defaultKeys host.getDisplayCount) :
      dev.gObjProps.keys = defaultKeys host.getDisplayCount ++ [(objectId, objectType)] := by
    rcases demanded with ⟨wrong, _⟩ | ⟨table, _, ensures, rfl⟩
    · contradiction
    · obtain ⟨created, ensures', _, keys⟩ := only.ensure fits
      rw [ensures', Except.ok.injEq] at ensures
      subst ensures
      exact keys_demand_foreign keys fits unknown
  have more {key : UInt32 × UInt32}
      (keys : next.world.dev.gObjProps.keys = defaultKeys host.getDisplayCount ++ [key]) : ¬ RecordsExact host next := by
    rw [RecordsExact, keys]
    simp
  cases a with
  | call c =>
      obtain ⟨reply, _, called⟩ := step_call done
      have effect := exec_ok called
      cases c <;> simp only [Action.foreign, Bool.false_eq_true, decide_eq_true_eq] at foreign
      case objectGetProperties =>
        obtain ⟨rfl, unknown⟩ := foreign
        obtain ⟨dev, demanded, world⟩ := effect
        exact more (by rw [world]; exact adds demanded unknown)
      case getPlane =>
        obtain ⟨rfl, unknown⟩ := foreign
        obtain ⟨dev, demanded, world⟩ := effect
        exact more (by rw [world]; exact adds demanded unknown)
  | _ => simp [Action.foreign] at foreign

/-! Runs. -/

theorem OnlyDefaults.recordsExact (only : OnlyDefaults host.getDisplayCount session.world.dev.gObjProps) :
    RecordsExact host session := by
  rcases only with empty | ⟨_, keys⟩
  · exact .inl (by rw [empty]; rfl)
  · exact .inr keys

theorem records_and_refused_iff (fits : 3 * host.getDisplayCount ≤ maxObjProps) (actions : List Action)
    (only : OnlyDefaults host.getDisplayCount session.world.dev.gObjProps) :
    Throughout (step host) (RecordsExact host) session actions ∧ Along (step host) (Refused host) session actions ↔
      Along (step host) (fun _ a => a.foreign host = false) session actions := by
  induction actions generalizing session with
  | nil => simp [Throughout, Along, only.recordsExact]
  | cons a rest ih =>
      constructor
      · rintro ⟨records, refused⟩
        have own : a.foreign host = false := by
          by_contra foreign
          obtain ⟨next, failed⟩ := refused.1 (Bool.eq_true_of_not_eq_false foreign)
          exact not_recordsExact_of_foreign only fits (Bool.eq_true_of_not_eq_false foreign) failed
            (records.2 next _ failed).head
        refine ⟨own, fun next out done => ?_⟩
        exact (ih (onlyDefaults_step only fits own done)).mp ⟨records.2 next out done, refused.2 next out done⟩
      · rintro ⟨own, later⟩
        have onward (next : Session) (out : Output) (done : step host session a = .ok (next, out)) :=
          (ih (onlyDefaults_step only fits own done)).mpr (later next out done)
        refine ⟨⟨only.recordsExact, fun next out done => (onward next out done).1⟩, ?_,
          fun next out done => (onward next out done).2⟩
        intro foreign
        simp [own] at foreign

theorem unnoticed_of_none {last : Session} {actions : List Action} {outs : List Output}
    (own : Along (step host) (fun _ a => a.foreign host = false) session actions)
    (run : runActions (step host) session actions = .ok (last, outs)) :
    actions.filter (fun a => !a.foreign host) = actions ∧ ownOutputs host actions outs = outs := by
  induction actions generalizing session outs with
  | nil =>
      simp only [runActions, Except.ok.injEq, Prod.mk.injEq] at run
      exact ⟨rfl, by rw [← run.2]; rfl⟩
  | cons a rest ih =>
      obtain ⟨next, out, tail, done, remaining, rfl⟩ := runActions_cons_ok run
      obtain ⟨sameRest, sameOuts⟩ := ih (own.2 next out done) remaining
      have first : a.foreign host = false := own.1
      refine ⟨by simp [first, sameRest], ?_⟩
      rw [ownOutputs] at sameOuts ⊢
      simp [first, sameOuts]

/-- Queries of other objects are harmless exactly in the runs that make none:
the first one adds a record. -/
theorem queries_harmless_iff (fits : 3 * host.getDisplayCount ≤ maxObjProps) (actions : List Action) :
    QueriesHarmless host actions ↔ Along (step host) (fun _ a => a.foreign host = false) .initial actions := by
  have only : OnlyDefaults host.getDisplayCount Session.initial.world.dev.gObjProps := .inl rfl
  constructor
  · intro harmless
    exact (records_and_refused_iff fits actions only).mp ⟨harmless.records, harmless.refused⟩
  · intro own
    obtain ⟨records, refused⟩ := (records_and_refused_iff fits actions only).mpr own
    refine ⟨records, refused, fun last outs run => ?_⟩
    obtain ⟨sameActions, sameOuts⟩ := unnoticed_of_none own run
    have reachable : ReachableSession host last := runActions_reachable .start run
    obtain ⟨table, ensures, _⟩ := (sessionInv_of_reachable reachable).table.ensure_fits fits
    exact ⟨last, by rw [sameActions, sameOuts, run], table, ensures, ensures, rfl⟩

def asksForPlane (planeId : UInt32) : Action := .call (.objectGetProperties drmVirtualFd planeId drmModeObjectPlane)

theorem queries_harmless_iff_plane : QueriesHarmless (.uniform 1) [asksForPlane 1] ↔
    Along (step (.uniform 1)) (fun _ a => a.foreign (.uniform 1) = false) .initial [asksForPlane 1] :=
  queries_harmless_iff (by decide) _

/-- A query of the plane 99 succeeds where there is only one display. -/
theorem plane_99_gets_record : ¬ QueriesHarmless (.uniform 1) [asksForPlane 99] := by
  intro harmless
  obtain ⟨next, failed⟩ := harmless.refused.1 (by decide)
  cases failed

end Iland

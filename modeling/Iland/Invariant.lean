import Iland.Effects

namespace Iland

open Iland.Data
open Iland.Drm
open Iland.Ioctl

variable {host : Host} {session after : Session}

/-! What holds in every state that a client can reach, and how a call can
stop the program. -/

/-- The object table is unused or complete; and if it is too small for the
displays, no request is left in the pool. -/
structure SessionInv (host : Host) (session : Session) : Prop where
  table : TableInv host.getDisplayCount session.world.dev.gObjProps
  pool : maxObjProps < 3 * host.getDisplayCount → ∀ i, session.world.pool.slots i = none

/-- What one action does: a call, one completion taken from the ring, or a
change of the pipe and the open loops at most. -/
theorem step_cases {action : Action} {out : Output} (done : step host session action = .ok (after, out)) :
    (∃ c reply, action = .call c ∧ out = .replied reply ∧
      exec host session.world c = .ok (after.world, reply) ∧ after.loops = session.loops) ∨
    (∃ event handler dev, action = .round ∧ out = .delivered event handler ∧
      session.world.dev.dequeueFlipEvent = some (event, dev) ∧ after = session.withDev dev) ∨
    (∃ eventPipe, (∀ event handler, out ≠ .delivered event handler) ∧ (∀ reply, out ≠ .replied reply) ∧
      after.world = session.world.withDev { session.world.dev with eventPipe := eventPipe }) := by
  cases action with
  | call c =>
      left
      cases result : exec host session.world c with
      | error fault => simp [step, result, Except.map] at done
      | ok pair =>
          simp only [step, result, Except.map, Except.ok.injEq, Prod.mk.injEq] at done
          obtain ⟨rfl, rfl⟩ := done
          exact ⟨c, pair.2, rfl, rfl, result, rfl⟩
  | handleEvent fd evctx =>
      right
      right
      simp only [step, readEvent] at done
      split at done
      · cases done
        exact ⟨_, by simp, by simp, rfl⟩
      · cases pipe : session.world.dev.eventPipe with
        | none =>
            simp only [pipe] at done
            cases done
            exact ⟨_, by simp, by simp, rfl⟩
        | some unread =>
            cases unread <;> simp only [pipe] at done <;> cases evctx <;> cases done <;>
              exact ⟨_, by simp, by simp, rfl⟩
  | round =>
      right
      simp only [step] at done
      cases loops : session.loops with
      | nil =>
          simp only [loops] at done
          cases done
          exact .inr ⟨_, by simp, by simp, rfl⟩
      | cons evctx outer =>
          simp only [loops] at done
          cases taken : session.world.dev.dequeueFlipEvent with
          | none =>
              simp only [taken] at done
              cases done
              exact .inr ⟨_, by simp, by simp, rfl⟩
          | some pair =>
              simp only [taken] at done
              cases done
              exact .inl ⟨_, _, _, rfl, rfl, rfl, rfl⟩

theorem step_call {c : Call} {out : Output} (done : step host session (.call c) = .ok (after, out)) :
    ∃ reply, out = .replied reply ∧ exec host session.world c = .ok (after.world, reply) := by
  cases called : exec host session.world c with
  | error fault => simp [step, called, Except.map] at done
  | ok result =>
      simp only [step, called, Except.map, Except.ok.injEq, Prod.mk.injEq] at done
      exact ⟨result.2, done.2.symm, by rw [← done.1]⟩

theorem dequeueFlipEvent_some {dev rest : Device} {event : FlipEvent} (taken : dev.dequeueFlipEvent = some (event, rest)) :
    rest.gObjProps = dev.gObjProps ∧ dev.queued = event :: rest.queued ∧
      rest = { dev with gFlipEvents := rest.gFlipEvents } := by
  simp only [Device.dequeueFlipEvent, Option.map_eq_some_iff] at taken
  obtain ⟨pair, dequeued, equal⟩ := taken
  cases equal
  exact ⟨rfl, Ring.toList_of_dequeue dequeued, rfl⟩

theorem queued_of_dequeue_none {dev : Device} (none : dev.dequeueFlipEvent = none) : dev.queued = [] := by
  rw [Device.dequeueFlipEvent, Option.map_eq_none_iff] at none
  exact Ring.dequeue_eq_none_iff.mp none

theorem sessionInv_step (session : Session) (action : Action) (after : Session) (out : Output)
    (inv : SessionInv host session) (done : step host session action = .ok (after, out)) : SessionInv host after := by
  rcases step_cases done with ⟨c, reply, _, _, called, _⟩ | ⟨event, handler, dev, _, _, taken, rfl⟩ | ⟨_, _, _, world⟩
  · refine ⟨exec_tableInv inv.table called, fun tooMany i => ?_⟩
    rw [exec_noLeftover tooMany inv.table called]
    exact inv.pool tooMany i
  · refine ⟨?_, inv.pool⟩
    change TableInv host.getDisplayCount dev.gObjProps
    rw [(dequeueFlipEvent_some taken).1]
    exact inv.table
  · exact ⟨world ▸ inv.table, world ▸ inv.pool⟩

theorem sessionInv_initial : SessionInv host .initial := ⟨.inl rfl, fun _ _ => rfl⟩

theorem sessionInv_of_reachable (reachable : ReachableSession host session) : SessionInv host session :=
  reachable.invariant sessionInv_initial sessionInv_step

/-! Faults. -/

def Call.request (world : World) : Call → Option AtomicReq
  | .atomicCommit fd req _ _ => if fd = drmVirtualFd then req else none
  | .atomicIoctl ka memory => world.submission ka memory
  | _ => none

def Call.UsesRecords (world : World) : Call → Prop
  | .objectGetProperties fd _ _ => fd = drmVirtualFd
  | .getPlane fd _ => fd = drmVirtualFd
  | .atomicCommit fd req flags userData => ((atomicCommit fd req flags userData).request world).isSome
  | .atomicIoctl ka memory => ((atomicIoctl ka memory).request world).isSome
  | _ => False

/-- The records of all displays fit, and a plane that is asked for has a
record or finds a free place. -/
def FindsRecords (host : Host) (world : World) (c : Call) : Prop :=
  (c.UsesRecords world → 3 * host.getDisplayCount ≤ maxObjProps) ∧
  ∀ planeId, c = .getPlane drmVirtualFd planeId →
    planeId ∈ objectIds host.getDisplayCount ∨
      (planeId, drmModeObjectPlane) ∈ world.dev.gObjProps.keys ∨ ¬ world.dev.gObjProps.full

def StaysInside (world : World) (c : Call) : Prop :=
  ∀ req, c.request world = some req → ∀ t ∈ req.triples, ¬ Strays world.dev.gObjProps t

theorem planes_recorded {n : ℕ} {table : ObjTable} (ensured : Ensured n table) {planeId : UInt32}
    (member : planeId ∈ objectIds n) : (planeId, drmModeObjectPlane) ∈ table.keys := by
  apply ensured.keys.subset
  apply List.mem_map.mpr
  exact ⟨planeRecord planeId, List.mem_append_right _ (List.mem_map_of_mem member), rfl⟩

/-- A plane gets no record exactly when it has none and the table is full
already; the table is never filled by the default records alone. -/
theorem demand_plane_none_iff {n : ℕ} {table ensured : ObjTable} (few : n ≤ maxCrtcs) (inv : TableInv n table)
    (done : ensureObjProperties n table = .ok ensured) (planeId : UInt32) :
    (ensured.demand planeId drmModeObjectPlane).1 = none ↔
      ¬ (planeId ∈ objectIds n ∨ (planeId, drmModeObjectPlane) ∈ table.keys ∨ ¬ table.full) := by
  have complete := inv.ensured few done
  rw [ObjTable.demand_eq_none_iff]
  rcases inv with rfl | present
  · obtain ⟨created, ensures, entries, _⟩ := ensure_empty complete.fits
    rw [ensures] at done
    cases done
    have length : ensured.entries.length = 3 * n := by
      rw [entries, List.length_map, length_defaultRecords]
    have notFull : ¬ ensured.full := by
      have fits := complete.fits
      simp only [KeyedTable.full, length, maxObjProps] at fits ⊢
      omega
    have startNotFull : ¬ (KeyedTable.empty : ObjTable).full := by simp [KeyedTable.full, maxObjProps]
    simp [notFull, startNotFull]
  · rw [present.ensure] at done
    cases done
    simp only [not_or, not_not]
    constructor
    · rintro ⟨absent, full⟩
      exact ⟨fun member => absent (planes_recorded complete member), absent, full⟩
    · rintro ⟨_, absent, full⟩
      exact ⟨absent, full⟩

theorem strays_ensure {table ensured : ObjTable} (inv : TableInv host.getDisplayCount table)
    (done : ensureObjProperties host.getDisplayCount table = .ok ensured) (t : Triple) :
    Strays ensured t ↔ Strays table t := by
  have zero : (0 : UInt32) ∉ objectIds host.getDisplayCount := by
    rw [mem_objectIds host.getDisplayCount_le]
    simp
  simp only [Strays, first_ensure inv host.getDisplayCount_le done zero]

variable {dev : Device} {fault : Fault}

theorem objectGetProperties_error {fd : Int} {objectId objectType : UInt32} :
    drmModeObjectGetProperties host dev fd objectId objectType = .error fault ↔
      fd = drmVirtualFd ∧ ensureObjProperties host.getDisplayCount dev.gObjProps = .error fault := by
  by_cases valid : fd = drmVirtualFd
  · subst valid
    cases ensured : ensureObjProperties host.getDisplayCount dev.gObjProps with
    | error cause => simp [drmModeObjectGetProperties, checkFd, ensured, bind, Except.bind]
    | ok table => simp [drmModeObjectGetProperties_eq objectId objectType ensured]
  · simp [drmModeObjectGetProperties, checkFd, valid, pure, Except.pure]

theorem getPlane_error {fd : Int} {planeId : UInt32} :
    drmModeGetPlane host dev fd planeId = .error fault ↔
      fd = drmVirtualFd ∧ (ensureObjProperties host.getDisplayCount dev.gObjProps = .error fault ∨
        ∃ table, ensureObjProperties host.getDisplayCount dev.gObjProps = .ok table ∧
          (table.demand planeId drmModeObjectPlane).1 = none ∧ fault = .nullDeref) := by
  by_cases valid : fd = drmVirtualFd
  · subst valid
    cases ensured : ensureObjProperties host.getDisplayCount dev.gObjProps with
    | error cause => simp [drmModeGetPlane, checkFd, ensured, bind, Except.bind]
    | ok table =>
        cases found : (table.demand planeId drmModeObjectPlane).1 with
        | none => simp [drmModeGetPlane_null ensured found, found, eq_comm]
        | some record => simp [drmModeGetPlane_eq ensured found, found]
  · simp [drmModeGetPlane, checkFd, valid, pure, Except.pure]

theorem commit_error {fd : Int} {request : Option AtomicReq} {flags : UInt32} {userData : UInt64} :
    drmModeAtomicCommit host dev fd request flags userData = .error fault ↔
      ∃ req, fd = drmVirtualFd ∧ request = some req ∧
        (ensureObjProperties host.getDisplayCount dev.gObjProps = .error fault ∨
          ∃ table, ensureObjProperties host.getDisplayCount dev.gObjProps = .ok table ∧
            (∃ t ∈ req.triples, Strays table t) ∧ fault = .outOfBounds .gState (-1)) := by
  by_cases valid : fd = drmVirtualFd
  · subst valid
    cases request with
    | none => simp [drmModeAtomicCommit, checkFd, pure, Except.pure]
    | some req =>
        cases ensured : ensureObjProperties host.getDisplayCount dev.gObjProps with
        | error cause => simp [drmModeAtomicCommit_overflow ensured]
        | ok table =>
            by_cases stray : ∃ t ∈ req.triples, Strays table t
            · simp [drmModeAtomicCommit_stray ensured stray, stray, eq_comm]
            · have safe : ∀ t ∈ req.triples, ¬ Strays table t := by simpa using stray
              simp [drmModeAtomicCommit_eq flags userData ensured safe, stray]
  · simp [drmModeAtomicCommit, checkFd, valid, pure, Except.pure]

theorem Except.map_eq_error {α β ε : Type} {f : α → β} {result : Except ε α} {e : ε} :
    result.map f = .error e ↔ result = .error e := by
  cases result <;> simp [Except.map]

theorem commit_fault (inv : TableInv host.getDisplayCount dev.gObjProps) {req : AtomicReq} {flags : UInt32}
    {userData : UInt64} :
    drmModeAtomicCommit host dev drmVirtualFd (some req) flags userData = .error fault ↔
      maxObjProps < 3 * host.getDisplayCount ∧ fault = .nullDeref ∨
        (∃ t ∈ req.triples, Strays dev.gObjProps t) ∧ fault = .outOfBounds .gState (-1) := by
  rw [commit_error]
  by_cases fits : 3 * host.getDisplayCount ≤ maxObjProps
  · obtain ⟨table, ensures, _⟩ := inv.ensure_fits fits
    simp [ensures, not_lt.mpr fits, strays_ensure inv ensures]
  · obtain ⟨unused, fails⟩ := inv.ensure_overflow host.getDisplayCount_le (not_le.mp fits)
    have none (t : Triple) : ¬ Strays dev.gObjProps t := by simp [unused, Strays, ObjTable.first]
    simp [fails, not_le.mp fits, none, eq_comm]

theorem stays_inside_iff {world : World} {c : Call} {req : AtomicReq} (submitted : c.request world = some req) :
    ¬ StaysInside world c ↔ ∃ t ∈ req.triples, Strays world.dev.gObjProps t := by
  simp [StaysInside, submitted]

theorem stays_inside_of_none {c : Call} (world : World) (nothing : c.request world = none) : StaysInside world c := by
  simp [StaysInside, nothing]

theorem fault_of_request {world : World} {c : Call} {req : AtomicReq} (submitted : c.request world = some req) :
    maxObjProps < 3 * host.getDisplayCount ∧ fault = .nullDeref ∨
        (∃ t ∈ req.triples, Strays world.dev.gObjProps t) ∧ fault = .outOfBounds .gState (-1) ↔
      fault = .nullDeref ∧ ¬ FindsRecords host world c ∨
        fault = .outOfBounds .gState (-1) ∧ ¬ StaysInside world c := by
  have uses : c.UsesRecords world := by
    cases c with
    | atomicCommit fd req flags userData => exact Option.isSome_of_eq_some submitted
    | atomicIoctl ka memory => exact Option.isSome_of_eq_some submitted
    | _ => simp [Call.request] at submitted
  have notPlane (planeId : UInt32) : c ≠ .getPlane drmVirtualFd planeId := by
    rintro rfl
    simp [Call.request] at submitted
  rw [stays_inside_iff submitted]
  simp [FindsRecords, uses, notPlane, and_comm]

theorem exec_fault {world : World} (inv : TableInv host.getDisplayCount world.dev.gObjProps) (c : Call) :
    exec host world c = .error fault ↔
      fault = .nullDeref ∧ ¬ FindsRecords host world c ∨
        fault = .outOfBounds .gState (-1) ∧ ¬ StaysInside world c := by
  cases c
  case objectGetProperties fd objectId objectType =>
    have inside := stays_inside_of_none (c := .objectGetProperties fd objectId objectType) world rfl
    simp only [exec, Except.map_eq_error, objectGetProperties_error, inside, not_true_eq_false, and_false, or_false,
      FindsRecords, Call.UsesRecords]
    by_cases fits : 3 * host.getDisplayCount ≤ maxObjProps
    · obtain ⟨table, ensures, _⟩ := inv.ensure_fits fits
      simp [ensures, fits]
    · have fails := (inv.ensure_overflow host.getDisplayCount_le (not_le.mp fits)).2
      simp [fails, fits, eq_comm, and_comm]
  case getPlane fd planeId =>
    have inside := stays_inside_of_none (c := .getPlane fd planeId) world rfl
    simp only [exec, Except.map_eq_error, getPlane_error, inside, not_true_eq_false, and_false, or_false,
      FindsRecords, Call.UsesRecords, Call.getPlane.injEq]
    by_cases fits : 3 * host.getDisplayCount ≤ maxObjProps
    · obtain ⟨table, ensures, _⟩ := inv.ensure_fits fits
      have missing := demand_plane_none_iff host.getDisplayCount_le inv ensures planeId
      simp only [ensures, reduceCtorEq, false_or, Except.ok.injEq, exists_eq_left', missing, fits, implies_true,
        true_and]
      by_cases valid : fd = drmVirtualFd
      · simp [valid, and_comm]
      · simp [valid]
    · have fails := (inv.ensure_overflow host.getDisplayCount_le (not_le.mp fits)).2
      simp only [fails, Except.error.injEq, reduceCtorEq, false_and, exists_false, or_false, fits]
      by_cases valid : fd = drmVirtualFd
      · simp [valid, eq_comm]
      · simp [valid]
  case atomicCommit fd request flags userData =>
    rw [exec, Except.map_eq_error]
    by_cases valid : fd = drmVirtualFd
    · subst valid
      cases request with
      | none =>
          have nothing : (Call.atomicCommit drmVirtualFd none flags userData).request world = none := by
            simp [Call.request]
          simp [commit_error, stays_inside_of_none world nothing, FindsRecords, Call.UsesRecords, nothing]
      | some req =>
          rw [commit_fault inv]
          exact fault_of_request (by simp [Call.request])
    · have nothing : (Call.atomicCommit fd request flags userData).request world = none := by
        simp [Call.request, valid]
      simp [commit_error, valid, stays_inside_of_none world nothing, FindsRecords, Call.UsesRecords, nothing]
  case atomicIoctl ka memory =>
    rw [exec, Except.map_eq_error]
    cases submitted : world.submission ka memory with
    | none =>
        obtain ⟨ret, pool, handled, _⟩ := handleAtomic_of_none host submitted
        have nothing : (Call.atomicIoctl ka memory).request world = none := submitted
        simp [handled, stays_inside_of_none world nothing, FindsRecords, Call.UsesRecords, nothing]
    | some req =>
        obtain ⟨pool, handled⟩ := handleAtomic_of_some host submitted
        rw [handled, Except.map_eq_error, commit_fault inv]
        exact fault_of_request submitted
  all_goals simp [exec, StaysInside, FindsRecords, Call.UsesRecords, Call.request]

theorem step_fault (inv : SessionInv host session) (action : Action) :
    step host session action = .error fault ↔
      ∃ c, action = .call c ∧ (fault = .nullDeref ∧ ¬ FindsRecords host session.world c ∨
        fault = .outOfBounds .gState (-1) ∧ ¬ StaysInside session.world c) := by
  cases action with
  | call c => simp [step, Except.map_eq_error, exec_fault inv.table]
  | handleEvent fd evctx =>
      simp only [step]
      repeat' split
      all_goals simp
  | round =>
      simp only [step]
      repeat' split
      all_goals simp

end Iland

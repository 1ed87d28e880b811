import Iland.Drm.CommitState
import Iland.Invariant

namespace Iland.Atomic

open Iland.Data
open Iland.Drm
open Iland.Ioctl

/-! What a client sees of the device between its calls. -/

variable {host : Host} {dev : Device} {table : ObjTable}

def reports (host : Host) (dev : Device) (objectId objectType : UInt32) : Option (List (UInt32 × UInt64)) :=
  match drmModeObjectGetProperties host dev drmVirtualFd objectId objectType with
  | .ok (.ok p, _) => some (p.props.zip p.propValues)
  | _ => none

def reportedValue (host : Host) (dev : Device) (objectId objectType propId : UInt32) : Option UInt64 :=
  (reports host dev objectId objectType).bind fun props =>
    (props.find? (fun pair => pair.1 = propId)).map Prod.snd

theorem reports_eq (ensured : ensureObjProperties host.getDisplayCount dev.gObjProps = .ok table)
    (objectId objectType : UInt32) :
    reports host dev objectId objectType =
      (table.demand objectId objectType).1.map (fun record => record.props.entries) := by
  simp only [reports, drmModeObjectGetProperties_eq objectId objectType ensured]
  cases (table.demand objectId objectType).1 with
  | none => rfl
  | some record =>
      have zipped := List.zip_of_prod (rfl : record.props.entries.map Prod.fst = _) rfl
      simp [ObjProps.reported, ← zipped]

theorem reports_of_lookup (ensured : ensureObjProperties host.getDisplayCount dev.gObjProps = .ok table)
    {objectId objectType : UInt32} {record : ObjProps} (found : table.lookup (objectId, objectType) = some record) :
    reports host dev objectId objectType = some record.props.entries := by
  rw [reports_eq ensured, table.demand_of_lookup found]
  rfl

theorem reportedValue_eq (ensured : ensureObjProperties host.getDisplayCount dev.gObjProps = .ok table)
    (objectId objectType propId : UInt32) :
    reportedValue host dev objectId objectType propId =
      (table.lookup (objectId, objectType)).bind (fun record => record.props.get propId) := by
  rw [reportedValue, reports_eq ensured, ObjTable.demand]
  cases table.lookup (objectId, objectType) with
  | some record => rfl
  | none =>
      simp only
      split <;> rfl

theorem reportedValue_of_lookup (ensured : ensureObjProperties host.getDisplayCount dev.gObjProps = .ok table)
    {objectId objectType : UInt32} {record : ObjProps} (found : table.lookup (objectId, objectType) = some record)
    (propId : UInt32) : reportedValue host dev objectId objectType propId = record.props.get propId := by
  rw [reportedValue_eq ensured, found]
  rfl

theorem reports_eq_iff {before after : Device} {old new : ObjTable}
    (oldEnsured : ensureObjProperties host.getDisplayCount before.gObjProps = .ok old)
    (newEnsured : ensureObjProperties host.getDisplayCount after.gObjProps = .ok new) (sameKeys : new.keys = old.keys) :
    (∀ objectId objectType, reports host after objectId objectType = reports host before objectId objectType) ↔
      new = old := by
  constructor
  · intro same
    apply KeyedTable.ext_lookup sameKeys
    intro key present
    cases newFound : new.lookup key with
    | none => exact absurd present (KeyedTable.lookup_eq_none_iff.mp newFound)
    | some newRecord =>
        cases oldFound : old.lookup key with
        | none => exact absurd (sameKeys ▸ present) (KeyedTable.lookup_eq_none_iff.mp oldFound)
        | some oldRecord =>
            have entries := same key.1 key.2
            rw [reports_of_lookup newEnsured newFound, reports_of_lookup oldEnsured oldFound, Option.some.injEq] at entries
            have props : newRecord.props = oldRecord.props := KeyedTable.ext entries
            have keys : newRecord.key = oldRecord.key :=
              (KeyedTable.key_of_lookup newFound).trans (KeyedTable.key_of_lookup oldFound).symm
            obtain ⟨newId, newType, newProps⟩ := newRecord
            obtain ⟨oldId, oldType, oldProps⟩ := oldRecord
            simp only [ObjProps.key, Prod.mk.injEq] at keys
            simp only at props
            rw [keys.1, keys.2, props]
  · intro same objectId objectType
    rw [reports_eq newEnsured, reports_eq oldEnsured, same]

/-! Commits, by either interface. -/

def commitArguments : Call → Option (UInt32 × UInt64)
  | .atomicCommit _ _ flags userData => some (flags, userData)
  | .atomicIoctl ka _ => some (ka.flags, ka.userData)
  | _ => none

section Commits

variable {world : World} {c : Call} {flags : UInt32} {userData : UInt64} {req : AtomicReq}

theorem exec_of_request (host : Host) (commits : commitArguments c = some (flags, userData))
    (submitted : c.request world = some req) :
    ∃ pool, exec host world c =
      (drmModeAtomicCommit host world.dev drmVirtualFd (some req) flags userData).map
        (fun result => (⟨result.2, pool⟩, result.1.map fun _ => .unit)) := by
  cases c with
  | atomicCommit fd request given data =>
      simp only [commitArguments, Option.some.injEq, Prod.mk.injEq] at commits
      obtain ⟨rfl, rfl⟩ := commits
      simp only [Call.request, Option.ite_none_right_eq_some] at submitted
      obtain ⟨rfl, rfl⟩ := submitted
      exact ⟨world.pool, rfl⟩
  | atomicIoctl ka memory =>
      simp only [commitArguments, Option.some.injEq, Prod.mk.injEq] at commits
      obtain ⟨rfl, rfl⟩ := commits
      obtain ⟨pool, handled⟩ := handleAtomic_of_some host submitted
      refine ⟨pool, ?_⟩
      rw [exec, handled]
      cases drmModeAtomicCommit host world.dev drmVirtualFd (some req) ka.flags ka.userData <;> rfl
  | _ => simp [commitArguments] at commits

theorem exec_of_no_request (host : Host) (commits : commitArguments c = some (flags, userData))
    (nothing : c.request world = none) :
    ∃ pool reply, exec host world c = .ok (⟨world.dev, pool⟩, reply) := by
  cases c with
  | atomicCommit fd request given data =>
      refine ⟨world.pool, ?_⟩
      by_cases valid : fd = drmVirtualFd
      · simp only [Call.request, if_pos valid] at nothing
        subst nothing
        exact ⟨.error .EINVAL, by rw [valid]; rfl⟩
      · have refused : checkFd fd = .error .EBADF := by simp [checkFd, valid]
        exact ⟨.error .EBADF, by simp only [exec, drmModeAtomicCommit, refused]; rfl⟩
  | atomicIoctl ka memory =>
      obtain ⟨ret, pool, handled, _⟩ := handleAtomic_of_none host nothing
      exact ⟨pool, _, by rw [exec, handled]; rfl⟩
  | _ => simp [commitArguments] at commits

theorem queues_of_request (commits : commitArguments c = some (flags, userData)) :
    c.queues host world =
      match c.request world with
      | some req => commitQueues host world.dev req.triples flags userData
      | none => [] := by
  cases c with
  | atomicCommit fd request given data =>
      simp only [commitArguments, Option.some.injEq, Prod.mk.injEq] at commits
      obtain ⟨rfl, rfl⟩ := commits
      by_cases valid : fd = drmVirtualFd <;> cases request <;> simp [Call.queues, Call.request, valid]
  | atomicIoctl ka memory =>
      simp only [commitArguments, Option.some.injEq, Prod.mk.injEq] at commits
      obtain ⟨rfl, rfl⟩ := commits
      cases submitted : world.submission ka memory <;>
        simp [Call.queues, Call.request, submitted]
  | _ => simp [commitArguments] at commits

end Commits

def accepted (triples : List Triple) : List Triple := triples.take maxAtomicProps

def ioctlOutcome (host : Host) (world : World) (ka : DrmModeAtomic) (memory : Memory) :
    Except Fault (Except Errno Unit × Device) :=
  (handleAtomic host world ka memory).map fun result => (result.1, result.2.dev)

theorem ioctlOutcome_of_some {world : World} {ka : DrmModeAtomic} {memory : Memory} {req : AtomicReq}
    (submitted : world.submission ka memory = some req) :
    ioctlOutcome host world ka memory =
      drmModeAtomicCommit host world.dev drmVirtualFd (some req) ka.flags ka.userData := by
  obtain ⟨pool, handled⟩ := handleAtomic_of_some host submitted
  rw [ioctlOutcome, handled]
  cases drmModeAtomicCommit host world.dev drmVirtualFd (some req) ka.flags ka.userData <;> rfl

theorem triples_of_submission {world : World} {ka : DrmModeAtomic} {memory : Memory} {req : AtomicReq}
    (empty : world.pool.leftover = []) (submitted : world.submission ka memory = some req) :
    req.triples = accepted (ka.triples?.getD []) := by
  cases read : ka.triples? with
  | none =>
      simp only [World.submission, read, Option.bind_none, ite_self] at submitted
      contradiction
  | some triples =>
      rw [World.submission_triples submitted read, empty, List.nil_append]
      rfl

end Iland.Atomic

import Iland.Drm.CommitLoop

namespace Iland.Ioctl

open Iland.Drm

/-! The ATOMIC ioctl and the pool of requests it recycles. -/

/-- `drm_mode_atomic`.  A user array is a function from indices to elements,
or `none` for a NULL pointer. -/
structure DrmModeAtomic where
  flags : UInt32
  countObjs : UInt32
  objs : Option (ℕ → UInt32)
  countProps : Option (ℕ → UInt32)
  props : Option (ℕ → UInt32)
  propValues : Option (ℕ → UInt64)
  userData : UInt64

def poolSize : ℕ := 4

structure AtomicPool where
  slots : Fin poolSize → Option AtomicReq
  inUse : Fin poolSize → Bool

def AtomicPool.initial : AtomicPool := ⟨fun _ => none, fun _ => false⟩

/-- How the at most two calls of `drmModeAtomicAlloc` end: the one for an empty
pool slot and the one on the heap. -/
structure Memory where
  pool : Bool
  heap : Bool

namespace AtomicPool

variable (pool : AtomicPool)

def free : Option (Fin poolSize) := firstPlace (fun i => !pool.inUse i)

def leftover : List Triple :=
  match pool.free.bind pool.slots with
  | none => []
  | some req => req.triples

def reserve (i : Fin poolSize) : AtomicPool := { pool with inUse := Function.update pool.inUse i true }

def put (i : Fin poolSize) (req : AtomicReq) : AtomicPool :=
  { pool with slots := Function.update pool.slots i (some req) }

def release (i : Fin poolSize) : AtomicPool := { pool with inUse := Function.update pool.inUse i false }

/-- Take a request from the pool, or else from the heap: the request, if
there is memory for it, and its pool slot, if it has one. -/
def take (memory : Memory) : Option (AtomicReq × Option (Fin poolSize)) × AtomicPool :=
  let fromHeap := if memory.heap then some (drmModeAtomicAlloc, none) else none
  match pool.free with
  | none => (fromHeap, pool)
  | some i =>
      let pool := pool.reserve i
      match pool.slots i with
      | some req => (some (req, some i), pool)
      | none =>
          if memory.pool then (some (drmModeAtomicAlloc, some i), pool.put i drmModeAtomicAlloc)
          else (fromHeap, pool)

def giveBack (req : AtomicReq) : Option (Fin poolSize) → AtomicPool
  | some i => (pool.put i req).release i
  | none => pool

end AtomicPool

structure World where
  dev : Device
  pool : AtomicPool

def World.initial : World := ⟨.initial, .initial⟩

/-- The triples that the two loops of `handle_atomic` add, from the objects
with these indices on, when `flatIdx` properties have been read. -/
def readTriples (objs countProps props : ℕ → UInt32) (propValues : ℕ → UInt64) : ℕ → List ℕ → List Triple
  | _, [] => []
  | flatIdx, i :: rest =>
      (List.range (countProps i).toNat).map
          (fun j => ⟨objs i, props (flatIdx + j), propValues (flatIdx + j)⟩) ++
        readTriples objs countProps props propValues (flatIdx + (countProps i).toNat) rest

def DrmModeAtomic.triples? (ka : DrmModeAtomic) : Option (List Triple) :=
  match ka.objs, ka.countProps, ka.props, ka.propValues with
  | some objs, some countProps, some props, some propValues =>
      some (readTriples objs countProps props propValues 0 (List.range ka.countObjs.toNat))
  | _, _, _, _ => none

def handleAtomic (host : Host) (world : World) (ka : DrmModeAtomic) (memory : Memory) :
    Except Fault (Except Errno Unit × World) := do
  if ka.countObjs = 0 then return (.ok (), world)
  if ka.countObjs > 64 then return (.error .E2BIG, world)
  match ka.triples? with
  | none => return (.error .EFAULT, world)
  | some triples =>
      match world.pool.take memory with
      | (none, pool) => return (.error .ENOMEM, { world with pool := pool })
      | (some (req, slot), pool) =>
          let req := req.addAll triples
          let (ret, dev) ← drmModeAtomicCommit host world.dev drmVirtualFd (some req) ka.flags ka.userData
          return (ret, { dev, pool := pool.giveBack req slot })

variable {pool : AtomicPool} {memory : Memory}

variable (host : Host) {world : World} {ka : DrmModeAtomic}

def World.submission (world : World) (ka : DrmModeAtomic) (memory : Memory) : Option AtomicReq :=
  if ka.countObjs = 0 ∨ ka.countObjs > 64 then none
  else ka.triples?.bind fun triples => (world.pool.take memory).1.map fun (req, _) => req.addAll triples

@[simp] theorem AtomicPool.slots_reserve (i : Fin poolSize) : (pool.reserve i).slots = pool.slots := rfl

theorem AtomicPool.take_triples {req : AtomicReq} {slot : Option (Fin poolSize)} {after : AtomicPool}
    (taken : pool.take memory = (some (req, slot), after)) : req.triples = pool.leftover := by
  have fresh : drmModeAtomicAlloc.triples = [] := rfl
  simp only [take] at taken
  cases found : pool.free with
  | none =>
      simp only [found] at taken
      split at taken
      · cases taken
        simp [leftover, found, fresh]
      · simp at taken
  | some i =>
      simp only [found, slots_reserve] at taken
      cases stored : pool.slots i with
      | some old =>
          simp only [stored, Prod.mk.injEq, Option.some.injEq] at taken
          simp [leftover, found, stored, taken.1.1]
      | none =>
          simp only [stored] at taken
          split at taken
          · cases taken
            simp [leftover, found, stored, fresh]
          · split at taken
            · cases taken
              simp [leftover, found, stored, fresh]
            · simp at taken

theorem AtomicPool.slots_of_take_none {after : AtomicPool} (taken : pool.take memory = (none, after)) :
    after.slots = pool.slots := by
  simp only [take] at taken
  cases found : pool.free with
  | none =>
      simp only [found] at taken
      exact congrArg slots (Prod.mk.inj taken).2.symm
  | some i =>
      simp only [found, slots_reserve] at taken
      cases stored : pool.slots i with
      | some old => simp [stored] at taken
      | none =>
          simp only [stored] at taken
          split at taken
          · simp at taken
          · rw [← (Prod.mk.inj taken).2, slots_reserve]

theorem handleAtomic_of_none (nothing : world.submission ka memory = none) :
    ∃ ret pool, handleAtomic host world ka memory = .ok (ret, ⟨world.dev, pool⟩) ∧
      pool.slots = world.pool.slots ∧ (ret = .ok () → ka.countObjs = 0) := by
  simp only [World.submission] at nothing
  by_cases zero : ka.countObjs = 0
  · exact ⟨.ok (), world.pool, by simp [handleAtomic, zero, pure, Except.pure], rfl, fun _ => zero⟩
  · by_cases many : ka.countObjs > 64
    · exact ⟨.error .E2BIG, world.pool, by simp [handleAtomic, zero, many, pure, Except.pure], rfl, by simp⟩
    · simp only [zero, many, or_self, if_false] at nothing
      cases read : ka.triples? with
      | none => exact ⟨.error .EFAULT, world.pool, by simp [handleAtomic, zero, many, read, pure, Except.pure], rfl, by simp⟩
      | some triples =>
          cases taken : world.pool.take memory with
          | mk got pool =>
              cases got with
              | none =>
                  exact ⟨.error .ENOMEM, pool, by simp [handleAtomic, zero, many, read, taken, pure, Except.pure],
                    AtomicPool.slots_of_take_none taken, by simp⟩
              | some pair => simp [read, taken] at nothing

theorem handleAtomic_of_some {req : AtomicReq} (submitted : world.submission ka memory = some req) :
    ∃ pool, handleAtomic host world ka memory =
      (drmModeAtomicCommit host world.dev drmVirtualFd (some req) ka.flags ka.userData).map
        (fun result => (result.1, ⟨result.2, pool⟩)) := by
  simp only [World.submission] at submitted
  split at submitted
  · contradiction
  · rename_i count
    obtain ⟨zero, many⟩ := not_or.mp count
    obtain ⟨triples, read, rest⟩ := Option.bind_eq_some_iff.mp submitted
    obtain ⟨pair, got, added⟩ := Option.map_eq_some_iff.mp rest
    cases taken : world.pool.take memory with
    | mk first pool =>
        simp only [taken] at got
        subst got
        refine ⟨pool.giveBack req pair.2, ?_⟩
        simp only [handleAtomic, zero, many, if_false, read, taken, added, bind, Except.bind, pure, Except.pure]
        cases drmModeAtomicCommit host world.dev drmVirtualFd (some req) ka.flags ka.userData <;> rfl

theorem World.submission_triples {req : AtomicReq} {triples : List Triple}
    (submitted : world.submission ka memory = some req) (read : ka.triples? = some triples) :
    req.triples = (world.pool.leftover ++ triples).take maxAtomicProps := by
  simp only [submission, read, Option.bind_some] at submitted
  split at submitted
  · contradiction
  · obtain ⟨pair, got, added⟩ := Option.map_eq_some_iff.mp submitted
    cases taken : world.pool.take memory with
    | mk first pool =>
        simp only [taken] at got
        subst got
        rw [← added, triples_addAll, AtomicPool.take_triples taken]

end Iland.Ioctl

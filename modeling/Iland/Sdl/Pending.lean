import Iland.Data.Store
import Iland.Sdl.Retains

namespace Iland.Sdl

open Iland.Data

/-! Surfaces presented before the backend is up.

Until SDL_Init succeeds there is one place for a surface, without its CRTC.
The first pump after that presents what is there for CRTC 1.
-/

inductive BackendOp where
  | init
  /-- The surface is `none` for NULL. -/
  | present (surface : Option IOSurface) (crtcId : UInt32) (x y : Int32)
  | pump
deriving DecidableEq

def BackendOp.run (host : Host) (backend : Backend) : BackendOp → Backend
  | .init => backend.sdlBackendInit host
  | .present none _ _ _ => backend
  | .present (some surface) crtcId x y => backend.sdlPresentIosurfaceForCrtc host surface crtcId x y
  | .pump => backend.sdlBackendPumpEvents host

def runOps (host : Host) (backend : Backend) (ops : List BackendOp) : Backend := ops.foldl (BackendOp.run host) backend

def Backend.current (backend : Backend) (crtcId : UInt32) : Option IOSurface :=
  (backend.crtcs.lookup crtcId).bind CrtcSlot.surface

/-- The surfaces presented, with their CRTCs. -/
def presents (ops : List BackendOp) : List (UInt32 × IOSurface) :=
  ops.filterMap fun
    | .present (some surface) crtcId _ _ => some (crtcId, surface)
    | _ => none

/-- After each pump with the backend up, each CRTC has the surface presented
for it last. -/
def PresentationSurvives (host : Host) (ops : List BackendOp) : Prop :=
  ∀ before rest, ops = before ++ .pump :: rest → (runOps host .initial before).inited = true →
    ∀ crtcId, (runOps host .initial (before ++ [.pump])).current crtcId = lastValue crtcId (presents before)

/-- Whether an operation starts SDL if it is not up. -/
def BackendOp.starts : BackendOp → Bool
  | .init => true
  | .present surface .. => surface.isSome
  | .pump => false

/-- The operations before the one whose attempt to start SDL succeeds, and
that one and the others; there have been `attempts` so far. -/
def splitAtStart (host : Host) : ℕ → List BackendOp → List BackendOp × List BackendOp
  | _, [] => ([], [])
  | attempts, op :: rest =>
      if op.starts then
        if host.sdlInit attempts then ([], op :: rest)
        else
          let (early, late) := splitAtStart host (attempts + 1) rest
          (op :: early, late)
      else
        let (early, late) := splitAtStart host attempts rest
        (op :: early, late)

def earlyOps (host : Host) (ops : List BackendOp) : List BackendOp := (splitAtStart host 0 ops).1

def lateOps (host : Host) (ops : List BackendOp) : List BackendOp := (splitAtStart host 0 ops).2

/-- The operations from the start of SDL to the first pump after it. -/
def directOps (host : Host) (ops : List BackendOp) : List BackendOp :=
  (lateOps host ops).takeWhile (fun op => op ≠ .pump)

/-- How many CRTCs have had a surface. -/
def crtcCount (writes : List (UInt32 × IOSurface)) : ℕ := (writes.map Prod.fst).toFinset.card

/-- Whether the next surface for a CRTC finds a slot. -/
def HasSlot (crtcId : UInt32) (writes : List (UInt32 × IOSurface)) : Prop :=
  crtcId ∈ writes.map Prod.fst ∨ crtcCount writes < maxCrtcSlots

instance (crtcId : UInt32) (writes : List (UInt32 × IOSurface)) : Decidable (HasSlot crtcId writes) :=
  inferInstanceAs (Decidable (_ ∨ _))

/-- Every CRTC other than 1 that had a surface before the start has had another
since, and the last surface of all before the start is the one due for CRTC 1,
or CRTC 1 finds no slot. -/
def ReplayHarmless (early direct : List (UInt32 × IOSurface)) : Prop :=
  ∀ last, early.getLast? = some last →
    (∀ write ∈ early, write.1 ≠ 1 → write.1 ∈ direct.map Prod.fst) ∧
      (lastValue 1 (early ++ direct) = some last.2 ∨ ¬ HasSlot 1 direct)

variable {host : Host} {backend : Backend} {writes early direct : List (UInt32 × IOSurface)} {ops : List BackendOp}

theorem presents_append (first second : List BackendOp) :
    presents (first ++ second) = presents first ++ presents second :=
  List.filterMap_append

theorem presents_cons (op : BackendOp) (rest : List BackendOp) :
    presents (op :: rest) = presents [op] ++ presents rest :=
  presents_append [op] rest

theorem runOps_append (first second : List BackendOp) :
    runOps host backend (first ++ second) = runOps host (runOps host backend first) second :=
  List.foldl_append

/-! A backend that is up. -/

/-- The backend is up and shows what was written last for each CRTC. -/
structure UpToDate (backend : Backend) (writes : List (UInt32 × IOSurface)) : Prop where
  inited : backend.inited = true
  current : ∀ crtcId, backend.current crtcId = lastValue crtcId writes
  keys : ∀ crtcId, crtcId ∈ backend.crtcs.keys ↔ crtcId ∈ writes.map Prod.fst

theorem UpToDate.congr (upToDate : UpToDate backend writes) {others : List (UInt32 × IOSurface)}
    (same : ∀ crtcId, lastValue crtcId writes = lastValue crtcId others) : UpToDate backend others where
  inited := upToDate.inited
  current crtcId := (upToDate.current crtcId).trans (same crtcId)
  keys crtcId := by rw [upToDate.keys, ← lastValue_isSome_iff, same, lastValue_isSome_iff]

theorem UpToDate.full_iff (upToDate : UpToDate backend writes) :
    backend.crtcs.full ↔ maxCrtcSlots ≤ crtcCount writes := by
  have sameKeys : (writes.map Prod.fst).toFinset = backend.crtcs.keys.toFinset := by
    ext crtcId
    rw [List.mem_toFinset, List.mem_toFinset, upToDate.keys]
  have distinct : backend.crtcs.keys.Nodup := backend.crtcs.distinct
  rw [crtcCount, sameKeys, List.toFinset_card_of_nodup distinct, KeyedTable.full, KeyedTable.keys, List.length_map]

theorem hasSlot_of_few {crtcId : UInt32} {surface : IOSurface}
    (few : crtcCount (writes ++ [(crtcId, surface)]) ≤ maxCrtcSlots) : HasSlot crtcId writes := by
  by_cases present : crtcId ∈ writes.map Prod.fst
  · exact .inl present
  · right
    rw [crtcCount, List.map_append, List.toFinset_append, List.map_singleton, List.toFinset_cons, List.toFinset_nil,
      insert_empty_eq, Finset.union_comm, ← Finset.insert_eq,
      Finset.card_insert_of_notMem (by rwa [List.mem_toFinset])] at few
    exact few

theorem UpToDate.getOrCreateCrtc (upToDate : UpToDate backend writes) {crtcId : UInt32} (room : HasSlot crtcId writes) :
    ∃ slot after, backend.getOrCreateCrtc crtcId = (some slot, after) ∧ after.inited = true ∧
      after.pendingSurface = backend.pendingSurface ∧ after.crtcs.lookup crtcId = some slot ∧
      (∀ other, other ∈ after.crtcs.keys ↔ other = crtcId ∨ other ∈ backend.crtcs.keys) ∧
      ∀ other, other ≠ crtcId → after.crtcs.lookup other = backend.crtcs.lookup other := by
  cases found : backend.crtcs.lookup crtcId with
  | some slot =>
      have present : crtcId ∈ backend.crtcs.keys := by
        by_contra absent
        rw [KeyedTable.lookup_eq_none_iff.mpr absent] at found
        cases found
      refine ⟨slot, backend, by simp [Backend.getOrCreateCrtc, found], upToDate.inited, rfl, found, fun other => ?_,
        fun _ _ => rfl⟩
      constructor
      · exact .inr
      · rintro (rfl | known)
        · exact present
        · exact known
  | none =>
      have absent := KeyedTable.lookup_eq_none_iff.mp found
      have notFull : ¬ backend.crtcs.full := by
        rw [upToDate.full_iff, not_le]
        exact room.resolve_left fun present => absent ((upToDate.keys crtcId).mpr present)
      let slot : CrtcSlot := { crtcId, surface := none, x := 0, y := 0 }
      have looked := KeyedTable.lookup_insertNew (x := slot) absent notFull
      refine ⟨slot, { backend with crtcs := backend.crtcs.insertNew slot },
        by simp [Backend.getOrCreateCrtc, found, notFull, slot], upToDate.inited, rfl, by simp [looked, slot],
        fun other => ?_, fun other different => ?_⟩
      · simp [KeyedTable.keys, KeyedTable.entries_insertNew (x := slot) absent notFull, slot, or_comm]
      · exact (looked other).trans (if_neg different.symm)

theorem current_setCrtc_self {crtcId : UInt32} {slot : CrtcSlot} (surface : IOSurface) (x y : Int32)
    (found : backend.crtcs.lookup crtcId = some slot) :
    (backend.setCrtc crtcId surface x y).current crtcId = some surface := by
  have looked := backend.crtcs.lookup_modify_self (k := crtcId) (fun slot => slot.crtcId_show surface x y)
  rw [found] at looked
  rw [Backend.current, Backend.setCrtc, looked]
  rfl

theorem current_setCrtc_of_ne {crtcId other : UInt32} (surface : IOSurface) (x y : Int32) (different : other ≠ crtcId) :
    (backend.setCrtc crtcId surface x y).current other = backend.current other := by
  have looked := backend.crtcs.lookup_modify_of_ne (fun slot => slot.crtcId_show surface x y) different
  rw [Backend.current, Backend.setCrtc, looked, Backend.current]

theorem UpToDate.show (upToDate : UpToDate backend writes) {crtcId : UInt32} {slot : CrtcSlot} {after : Backend}
    (surface : IOSurface) (x y : Int32) (inited : after.inited = true) (found : after.crtcs.lookup crtcId = some slot)
    (keys : ∀ other, other ∈ after.crtcs.keys ↔ other = crtcId ∨ other ∈ backend.crtcs.keys)
    (others : ∀ other, other ≠ crtcId → after.crtcs.lookup other = backend.crtcs.lookup other) :
    UpToDate (after.setCrtc crtcId surface x y) (writes ++ [(crtcId, surface)]) where
  inited := inited
  current other := by
    rw [lastValue_append]
    by_cases own : other = crtcId
    · subst own
      simp [current_setCrtc_self surface x y found, lastValue]
    · rw [current_setCrtc_of_ne surface x y own, Backend.current, others other own, ← Backend.current,
        upToDate.current]
      simp [lastValue, Ne.symm own]
  keys other := by
    have same : (after.setCrtc crtcId surface x y).crtcs.keys = after.crtcs.keys :=
      KeyedTable.keys_modify _ _ _ (fun slot => slot.crtcId_show surface x y)
    rw [same, keys, upToDate.keys]
    simp [or_comm]

theorem UpToDate.of_same {after : Backend} (upToDate : UpToDate backend writes) (inited : after.inited = backend.inited)
    (crtcs : after.crtcs = backend.crtcs) : UpToDate after writes where
  inited := inited.trans upToDate.inited
  current crtcId := by rw [← upToDate.current, Backend.current, crtcs, Backend.current]
  keys crtcId := by rw [crtcs, upToDate.keys]

/-- A present to a backend that is up, or comes up now. -/
theorem UpToDate.present (upToDate : UpToDate (backend.sdlBackendInit host) writes) {crtcId : UInt32}
    (surface : IOSurface) (x y : Int32) (room : HasSlot crtcId writes) :
    UpToDate (backend.sdlPresentIosurfaceForCrtc host surface crtcId x y) (writes ++ [(crtcId, surface)]) ∧
      (backend.sdlPresentIosurfaceForCrtc host surface crtcId x y).pendingSurface = backend.pendingSurface := by
  let handed : Backend := { backend with presented := backend.presented ++ [⟨surface, crtcId, x, y⟩] }
  have up : UpToDate (handed.sdlBackendInit host) writes := by
    apply upToDate.of_same <;> simp only [Backend.sdlBackendInit] <;> split <;> rfl
  have samePending : (handed.sdlBackendInit host).pendingSurface = backend.pendingSurface := by
    simp only [Backend.sdlBackendInit]
    split <;> rfl
  obtain ⟨slot, after, created, inited, pending, found, keys, others⟩ := up.getOrCreateCrtc room
  have result : backend.sdlPresentIosurfaceForCrtc host surface crtcId x y =
      ((after.cfReleaseOption slot.surface).cfRetain surface).setCrtc crtcId surface x y := by
    simp only [Backend.sdlPresentIosurfaceForCrtc]
    rw [if_pos up.inited, created]
  have sameCrtcs : ((after.cfReleaseOption slot.surface).cfRetain surface).crtcs = after.crtcs :=
    after.crtcs_cfReleaseOption slot.surface
  rw [result]
  refine ⟨up.show surface x y ?_ (by rw [sameCrtcs, found]) (by rwa [sameCrtcs]) (by rwa [sameCrtcs]), ?_⟩
  · cases slot.surface <;> exact inited
  · refine (after.pendingSurface_cfReleaseOption slot.surface).trans ?_
    rw [pending, samePending]

/-- What is due for each CRTC after the pump that takes the pending surface. -/
def replayed (pending : Option IOSurface) (writes : List (UInt32 × IOSurface)) : List (UInt32 × IOSurface) :=
  match pending with
  | none => writes
  | some surface => if HasSlot 1 writes then writes ++ [(1, surface)] else writes

theorem sdlBackendInit_of_inited (inited : backend.inited = true) : backend.sdlBackendInit host = backend := by
  rw [Backend.sdlBackendInit, if_pos inited]

theorem UpToDate.present_dropped (upToDate : UpToDate backend writes) (host : Host) {crtcId : UInt32}
    (surface : IOSurface) (x y : Int32) (noSlot : ¬ HasSlot crtcId writes) :
    UpToDate (backend.sdlPresentIosurfaceForCrtc host surface crtcId x y) writes ∧
      (backend.sdlPresentIosurfaceForCrtc host surface crtcId x y).pendingSurface = backend.pendingSurface := by
  obtain ⟨absent, full⟩ := not_or.mp noSlot
  have missing : backend.crtcs.lookup crtcId = none := by rwa [KeyedTable.lookup_eq_none_iff, upToDate.keys]
  have noRoom : backend.crtcs.full := upToDate.full_iff.mpr (not_lt.mp full)
  let handed : Backend := { backend with presented := backend.presented ++ [⟨surface, crtcId, x, y⟩] }
  have up : handed.sdlBackendInit host = handed := sdlBackendInit_of_inited upToDate.inited
  have same : backend.sdlPresentIosurfaceForCrtc host surface crtcId x y = handed := by
    simp only [Backend.sdlPresentIosurfaceForCrtc]
    rw [up, if_pos upToDate.inited]
    simp only [Backend.getOrCreateCrtc, handed, missing, if_pos noRoom]
  rw [same]
  exact ⟨upToDate.of_same rfl rfl, rfl⟩

theorem UpToDate.pump (upToDate : UpToDate backend writes) (host : Host) :
    UpToDate (backend.sdlBackendPumpEvents host) (replayed backend.pendingSurface writes) ∧
      (backend.sdlBackendPumpEvents host).pendingSurface = none := by
  rw [Backend.sdlBackendPumpEvents, if_pos upToDate.inited]
  cases pending : backend.pendingSurface with
  | none => exact ⟨upToDate, pending⟩
  | some surface =>
      have taken : UpToDate { backend with pendingSurface := none } writes := upToDate.of_same rfl rfl
      by_cases slot : HasSlot 1 writes
      · rw [replayed, if_pos slot]
        have up : UpToDate (Backend.sdlBackendInit host { backend with pendingSurface := none }) writes := by
          rwa [sdlBackendInit_of_inited taken.inited]
        have presented := up.present surface 0 0 slot
        exact ⟨presented.1.of_same rfl rfl, presented.2⟩
      · rw [replayed, if_neg slot]
        have presented := taken.present_dropped host surface 0 0 slot
        exact ⟨presented.1.of_same rfl rfl, presented.2⟩

/-- One operation other than a pump, while each CRTC finds a slot. -/
theorem UpToDate.run_direct (upToDate : UpToDate (backend.sdlBackendInit host) writes) {op : BackendOp}
    (other : op ≠ .pump) (acts : op.starts = true ∨ backend.inited = true)
    (few : crtcCount (writes ++ presents [op]) ≤ maxCrtcSlots) :
    UpToDate (op.run host backend) (writes ++ presents [op]) ∧
      (op.run host backend).pendingSurface = backend.pendingSurface := by
  cases op with
  | init =>
      refine ⟨by simpa [BackendOp.run, presents] using upToDate, ?_⟩
      simp only [BackendOp.run, Backend.sdlBackendInit]
      split <;> rfl
  | present surface crtcId x y =>
      cases surface with
      | none =>
          rw [sdlBackendInit_of_inited (acts.resolve_left (by simp [BackendOp.starts]))] at upToDate
          exact ⟨by simpa [BackendOp.run, presents] using upToDate, rfl⟩
      | some surface => exact upToDate.present surface x y (hasSlot_of_few few)
  | pump => exact absurd rfl other

theorem crtcCount_mono {first second : List (UInt32 × IOSurface)} (included : first ⊆ second) :
    crtcCount first ≤ crtcCount second :=
  Finset.card_le_card fun crtcId member => by
    rw [List.mem_toFinset] at member ⊢
    exact List.map_subset Prod.fst included member

theorem crtcCount_of_prefix {before rest : List BackendOp}
    (few : crtcCount (presents (before ++ rest)) ≤ maxCrtcSlots) : crtcCount (presents before) ≤ maxCrtcSlots := by
  rw [presents_append] at few
  exact (crtcCount_mono (List.subset_append_left _ _)).trans few

/-- A run from the start of SDL on, with no pump. -/
theorem UpToDate.run_all_direct (upToDate : UpToDate backend writes) (direct : ∀ op ∈ ops, op ≠ .pump)
    (few : crtcCount (writes ++ presents ops) ≤ maxCrtcSlots) :
    UpToDate (runOps host backend ops) (writes ++ presents ops) ∧
      (runOps host backend ops).pendingSurface = backend.pendingSurface := by
  induction ops generalizing backend writes with
  | nil => exact ⟨by simpa [runOps, presents] using upToDate, rfl⟩
  | cons op rest ih =>
      rw [presents_cons, ← List.append_assoc] at few ⊢
      have up : UpToDate (backend.sdlBackendInit host) writes := by rwa [sdlBackendInit_of_inited upToDate.inited]
      obtain ⟨next, pending⟩ := up.run_direct (direct op List.mem_cons_self) (.inr upToDate.inited)
        ((crtcCount_mono (List.subset_append_left _ _)).trans few)
      obtain ⟨last, kept⟩ := ih next (fun other member => direct other (List.mem_cons_of_mem _ member)) few
      exact ⟨last, kept.trans pending⟩

/-- A run with nothing pending. -/
theorem UpToDate.run_settled (upToDate : UpToDate backend writes) (host : Host) (settled : backend.pendingSurface = none)
    (few : crtcCount (writes ++ presents ops) ≤ maxCrtcSlots) :
    UpToDate (runOps host backend ops) (writes ++ presents ops) ∧ (runOps host backend ops).pendingSurface = none := by
  induction ops generalizing backend writes with
  | nil => exact ⟨by simpa [runOps, presents] using upToDate, settled⟩
  | cons op rest ih =>
      rw [presents_cons, ← List.append_assoc] at few ⊢
      by_cases pumps : op = .pump
      · subst pumps
        obtain ⟨next, pending⟩ := upToDate.pump host
        rw [settled, replayed] at next
        exact ih (by simpa [BackendOp.run, presents] using next) pending few
      · have up : UpToDate (backend.sdlBackendInit host) writes := by rwa [sdlBackendInit_of_inited upToDate.inited]
        obtain ⟨next, pending⟩ := up.run_direct pumps (.inr upToDate.inited)
          ((crtcCount_mono (List.subset_append_left _ _)).trans few)
        exact ih next (pending.trans settled) few

/-! A backend that is not up yet. -/

structure Waiting (backend : Backend) (writes : List (UInt32 × IOSurface)) : Prop where
  inited : backend.inited = false
  crtcs : backend.crtcs = .empty
  pendingSurface : backend.pendingSurface = writes.getLast?.map Prod.snd

theorem Waiting.initial : Waiting .initial [] := ⟨rfl, rfl, rfl⟩

theorem Waiting.start (waiting : Waiting backend writes) (succeeds : host.sdlInit backend.initAttempts = true) :
    UpToDate (backend.sdlBackendInit host) [] := by
  have up : backend.sdlBackendInit host = { backend with initAttempts := backend.initAttempts + 1, inited := true } := by
    simp [Backend.sdlBackendInit, waiting.inited, succeeds]
  rw [up]
  refine ⟨rfl, fun crtcId => ?_, fun crtcId => ?_⟩
  · rw [Backend.current, waiting.crtcs]
    rfl
  · rw [waiting.crtcs]
    rfl

theorem Waiting.run (waiting : Waiting backend writes) {op : BackendOp}
    (fails : op.starts = true → host.sdlInit backend.initAttempts = false) :
    Waiting (op.run host backend) (writes ++ presents [op]) ∧
      (op.run host backend).initAttempts = if op.starts then backend.initAttempts + 1 else backend.initAttempts := by
  cases op with
  | init =>
      simp only [BackendOp.run, Backend.sdlBackendInit, waiting.inited, Bool.false_eq_true, if_false, fails rfl]
      exact ⟨by simpa [presents] using ⟨rfl, waiting.crtcs, waiting.pendingSurface⟩, rfl⟩
  | present surface crtcId x y =>
      cases surface with
      | none => exact ⟨by simpa [BackendOp.run, presents] using waiting, rfl⟩
      | some surface =>
          simp only [BackendOp.run, Backend.sdlPresentIosurfaceForCrtc, Backend.sdlBackendInit, waiting.inited,
            Bool.false_eq_true, if_false, fails rfl]
          refine ⟨⟨?_, ?_, ?_⟩, ?_⟩
          · cases backend.pendingSurface <;> rfl
          · cases backend.pendingSurface <;> exact waiting.crtcs
          · simp [presents]
          · cases backend.pendingSurface <;> rfl
  | pump =>
      simp only [BackendOp.run, Backend.sdlBackendPumpEvents, waiting.inited, Bool.false_eq_true, if_false]
      exact ⟨by simpa [presents] using waiting, rfl⟩

theorem splitAtStart_start {attempts : ℕ} {op : BackendOp} (starts : op.starts = true)
    (succeeds : host.sdlInit attempts = true) (rest : List BackendOp) :
    splitAtStart host attempts (op :: rest) = ([], op :: rest) := by
  rw [splitAtStart, if_pos starts, if_pos succeeds]

theorem splitAtStart_early {attempts : ℕ} {op : BackendOp}
    (fails : op.starts = true → host.sdlInit attempts = false) (rest : List BackendOp) :
    splitAtStart host attempts (op :: rest) =
      (op :: (splitAtStart host (if op.starts then attempts + 1 else attempts) rest).1,
        (splitAtStart host (if op.starts then attempts + 1 else attempts) rest).2) := by
  rw [splitAtStart]
  cases starts : op.starts with
  | false => rfl
  | true => simp [fails starts]

/-- The operations before the start all find SDL down, and the next one starts it. -/
theorem Waiting.split (waiting : Waiting backend writes) (host : Host) (ops : List BackendOp) :
    (splitAtStart host backend.initAttempts ops).1 ++ (splitAtStart host backend.initAttempts ops).2 = ops ∧
      (∀ before, before <+: (splitAtStart host backend.initAttempts ops).1 →
        Waiting (runOps host backend before) (writes ++ presents before)) ∧
      ∀ op rest, (splitAtStart host backend.initAttempts ops).2 = op :: rest → op.starts = true ∧
        host.sdlInit (runOps host backend (splitAtStart host backend.initAttempts ops).1).initAttempts = true := by
  induction ops generalizing backend writes with
  | nil =>
      refine ⟨rfl, fun before start => ?_, fun op rest late => by cases late⟩
      obtain rfl := List.prefix_nil.mp start
      simpa [runOps, presents] using waiting
  | cons op rest ih =>
      by_cases started : op.starts = true ∧ host.sdlInit backend.initAttempts = true
      · rw [splitAtStart_start started.1 started.2]
        refine ⟨rfl, fun before start => ?_, fun first others late => ?_⟩
        · obtain rfl := List.prefix_nil.mp start
          simpa [runOps, presents] using waiting
        · cases late
          exact started
      · have fails : op.starts = true → host.sdlInit backend.initAttempts = false := by
          intro starts
          simpa [starts] using started
        obtain ⟨next, attempts⟩ := waiting.run fails
        rw [splitAtStart_early fails, ← attempts]
        obtain ⟨whole, early, late⟩ := ih next
        refine ⟨by simpa using whole, fun before start => ?_, late⟩
        cases before with
        | nil => simpa [runOps, presents] using waiting
        | cons first before =>
            obtain ⟨rfl, within⟩ := List.cons_prefix_cons.mp start
            rw [presents_cons, ← List.append_assoc]
            exact early before within

/-! The pump that takes the pending surface. -/

theorem lastValue_due (early direct : List (UInt32 × IOSurface)) {crtcId : UInt32} :
    lastValue crtcId direct = lastValue crtcId (early ++ direct) ↔
      (crtcId ∈ early.map Prod.fst → crtcId ∈ direct.map Prod.fst) := by
  rw [lastValue_append]
  by_cases later : crtcId ∈ direct.map Prod.fst
  · obtain ⟨surface, found⟩ := Option.isSome_iff_exists.mp (lastValue_isSome_iff.mpr later)
    simp [found, later]
  · rw [lastValue_eq_none later, Option.none_or]
    by_cases before : crtcId ∈ early.map Prod.fst
    · obtain ⟨surface, found⟩ := Option.isSome_iff_exists.mp (lastValue_isSome_iff.mpr before)
      simp [found, later, before]
    · simp [lastValue_eq_none before, before]

theorem not_mem_early_of_no_slot {crtcId : UInt32} (few : crtcCount (early ++ direct) ≤ maxCrtcSlots)
    (noSlot : ¬ HasSlot crtcId direct) : crtcId ∉ early.map Prod.fst := by
  intro before
  obtain ⟨absent, full⟩ := not_or.mp noSlot
  have more : insert crtcId (direct.map Prod.fst).toFinset ⊆ ((early ++ direct).map Prod.fst).toFinset := by
    intro other member
    rw [Finset.mem_insert, List.mem_toFinset] at member
    rw [List.mem_toFinset, List.map_append, List.mem_append]
    rcases member with rfl | later
    · exact .inl before
    · exact .inr later
  have larger := Finset.card_le_card more
  rw [Finset.card_insert_of_notMem (by rwa [List.mem_toFinset])] at larger
  simp only [crtcCount] at few full
  omega

/-- The pump that takes the pending surface leaves what is due for each CRTC
exactly when the replay is harmless. -/
theorem replayed_due_iff (few : crtcCount (early ++ direct) ≤ maxCrtcSlots) :
    (∀ crtcId,
      lastValue crtcId (replayed (early.getLast?.map Prod.snd) direct) = lastValue crtcId (early ++ direct)) ↔
      ReplayHarmless early direct := by
  cases pending : early.getLast? with
  | none =>
      rw [List.getLast?_eq_none_iff] at pending
      subst pending
      simp [replayed, ReplayHarmless]
  | some last =>
      have others : (∀ write ∈ early, write.1 ≠ 1 → write.1 ∈ direct.map Prod.fst) ↔
          ∀ crtcId, crtcId ≠ 1 → lastValue crtcId direct = lastValue crtcId (early ++ direct) := by
        simp only [lastValue_due, List.mem_map (f := Prod.fst) (l := early)]
        constructor
        · rintro again crtcId other ⟨write, member, rfl⟩
          exact again write member other
        · exact fun again write member other => again write.1 other ⟨write, member, rfl⟩
      simp only [ReplayHarmless, pending, Option.some.injEq, forall_eq', Option.map_some, replayed]
      rw [others]
      by_cases slot : HasSlot 1 direct
      · simp only [slot, if_true, not_true_eq_false, or_false]
        have own : lastValue 1 (direct ++ [(1, last.2)]) = some last.2 := by simp [lastValue_append, lastValue]
        have kept {crtcId : UInt32} (other : crtcId ≠ 1) :
            lastValue crtcId (direct ++ [(1, last.2)]) = lastValue crtcId direct := by
          simp [lastValue_append, lastValue, other.symm]
        constructor
        · intro due
          exact ⟨fun crtcId other => (kept other).symm.trans (due crtcId), (due 1).symm.trans own⟩
        · rintro ⟨due, dueOne⟩ crtcId
          by_cases one : crtcId = 1
          · rw [one, own, dueOne]
          · rw [kept one, due crtcId one]
      · simp only [slot, if_false, not_false_eq_true, or_true, and_true]
        constructor
        · exact fun due crtcId _ => due crtcId
        · intro due crtcId
          by_cases one : crtcId = 1
          · rw [one, lastValue_due]
            exact fun before => absurd before (not_mem_early_of_no_slot few slot)
          · exact due crtcId one

theorem cut_at_first {α : Type*} {first : α} {before before' rest rest' : List α} (absent : first ∉ before')
    (same : before ++ first :: rest = before' ++ first :: rest') :
    ∃ between, before ++ [first] = before' ++ first :: between := by
  induction before' generalizing before with
  | nil =>
      cases before with
      | nil => exact ⟨[], rfl⟩
      | cons head before =>
          obtain ⟨rfl, -⟩ := List.cons.inj same
          exact ⟨before ++ [head], rfl⟩
  | cons head before' ih =>
      cases before with
      | nil =>
          obtain ⟨rfl, -⟩ := List.cons.inj same
          exact absurd List.mem_cons_self absent
      | cons head' before =>
          obtain ⟨rfl, tails⟩ := List.cons.inj same
          obtain ⟨between, cut⟩ := ih (fun later => absent (List.mem_cons_of_mem _ later)) tails
          exact ⟨between, by rw [List.cons_append, cut, List.cons_append]⟩

theorem exists_pump {late : List BackendOp} (pumps : .pump ∈ late) :
    ∃ rest, late = late.takeWhile (fun op => op ≠ .pump) ++ .pump :: rest := by
  induction late with
  | nil => cases pumps
  | cons op rest ih =>
      by_cases pump : op = .pump
      · exact ⟨rest, by simp [pump]⟩
      · obtain ⟨after, cut⟩ := ih ((List.mem_cons.mp pumps).resolve_left (Ne.symm pump))
        exact ⟨after, by simpa [pump] using cut⟩

theorem direct_not_pump (host : Host) (ops : List BackendOp) : ∀ op ∈ directOps host ops, op ≠ .pump := by
  intro op member
  simpa using List.mem_takeWhile_imp member

/-- SDL comes up at the first of the direct operations. -/
theorem Waiting.run_direct (waiting : Waiting backend writes) {op : BackendOp} {rest : List BackendOp}
    (starts : op.starts = true) (succeeds : host.sdlInit backend.initAttempts = true)
    (direct : ∀ other ∈ op :: rest, other ≠ .pump) (few : crtcCount (presents (op :: rest)) ≤ maxCrtcSlots) :
    UpToDate (runOps host backend (op :: rest)) (presents (op :: rest)) ∧
      (runOps host backend (op :: rest)).pendingSurface = backend.pendingSurface := by
  have split : presents (op :: rest) = [] ++ presents [op] ++ presents rest := presents_cons op rest
  rw [split] at few ⊢
  obtain ⟨first, pending⟩ := (waiting.start succeeds).run_direct (direct op List.mem_cons_self) (.inl starts)
    ((crtcCount_mono (List.subset_append_left _ _)).trans few)
  obtain ⟨last, kept⟩ :=
    first.run_all_direct (fun other member => direct other (List.mem_cons_of_mem _ member)) few
  exact ⟨last, kept.trans pending⟩

/-- The state at the first pump that finds SDL up, and the one after it. -/
theorem runOps_first_pump {rest : List BackendOp} (few : crtcCount (presents ops) ≤ maxCrtcSlots)
    (late : lateOps host ops = directOps host ops ++ .pump :: rest) :
    ops = earlyOps host ops ++ directOps host ops ++ .pump :: rest ∧
      (runOps host .initial (earlyOps host ops ++ directOps host ops)).inited = true ∧
      UpToDate (runOps host .initial (earlyOps host ops ++ directOps host ops ++ [.pump]))
        (replayed ((presents (earlyOps host ops)).getLast?.map Prod.snd) (presents (directOps host ops))) ∧
      (runOps host .initial (earlyOps host ops ++ directOps host ops ++ [.pump])).pendingSurface = none := by
  obtain ⟨whole, early, start⟩ : earlyOps host ops ++ lateOps host ops = ops ∧ _ ∧
      ∀ op rest, lateOps host ops = op :: rest → op.starts = true ∧
        host.sdlInit (runOps host .initial (earlyOps host ops)).initAttempts = true := Waiting.initial.split host ops
  have waiting := early _ List.prefix_rfl
  rw [late] at whole start
  have notPump := direct_not_pump host ops
  cases cut : directOps host ops with
  | nil =>
      rw [cut] at start
      have started := (start _ _ rfl).1
      cases started
  | cons op others =>
      rw [cut] at whole start notPump
      obtain ⟨starts, succeeds⟩ := start _ _ rfl
      rw [← List.append_assoc] at whole
      have fewDirect : crtcCount (presents (op :: others)) ≤ maxCrtcSlots := by
        rw [← whole] at few
        have fewBefore := crtcCount_of_prefix few
        rw [presents_append] at fewBefore
        exact (crtcCount_mono (List.subset_append_right _ _)).trans fewBefore
      obtain ⟨upToDate, pending⟩ := waiting.run_direct starts succeeds notPump fewDirect
      rw [waiting.pendingSurface] at pending
      have pumped := upToDate.pump host
      rw [pending] at pumped
      refine ⟨whole.symm, ?_, ?_⟩
      · rw [runOps_append]
        exact upToDate.inited
      · rw [runOps_append, runOps_append]
        exact pumped

theorem late_of_inited {before rest : List BackendOp} (whole : ops = before ++ .pump :: rest)
    (inited : (runOps host .initial before).inited = true) :
    ∃ between, before = earlyOps host ops ++ between ∧ lateOps host ops = between ++ .pump :: rest := by
  obtain ⟨joined, early, -⟩ : earlyOps host ops ++ lateOps host ops = ops ∧
      (∀ before, before <+: earlyOps host ops →
        Waiting (runOps host .initial before) ([] ++ presents before)) ∧ _ :=
    Waiting.initial.split host ops
  rw [whole] at joined early
  rw [whole]
  rcases List.append_eq_append_iff.mp joined with ⟨between, cut, late⟩ | ⟨between, cut, -⟩
  · exact ⟨between, cut, late⟩
  · rw [(early before ⟨between, cut.symm⟩).inited] at inited
    cases inited

/-- After a pump with SDL up, each CRTC has the surface presented for it last
exactly when the first such pump replays nothing harmful. -/
theorem presentation_survives_iff (host : Host) (ops : List BackendOp) (few : crtcCount (presents ops) ≤ maxCrtcSlots) :
    PresentationSurvives host ops ↔
      (.pump ∈ lateOps host ops → ReplayHarmless (presents (earlyOps host ops)) (presents (directOps host ops))) := by
  constructor
  · intro survives pumps
    obtain ⟨rest, late⟩ := exists_pump pumps
    obtain ⟨whole, inited, upToDate, -⟩ := runOps_first_pump few late
    have fewDue : crtcCount (presents (earlyOps host ops) ++ presents (directOps host ops)) ≤ maxCrtcSlots := by
      rw [whole] at few
      rw [← presents_append]
      exact crtcCount_of_prefix few
    rw [← replayed_due_iff fewDue]
    intro crtcId
    rw [← upToDate.current, survives _ rest whole inited, presents_append]
  · intro harmless before rest whole inited crtcId
    obtain ⟨between, cut, late⟩ := late_of_inited whole inited
    have pumps : .pump ∈ lateOps host ops := by simp [late]
    obtain ⟨others, firstPump⟩ := exists_pump pumps
    obtain ⟨after, since⟩ :=
      cut_at_first (fun member => direct_not_pump host ops _ member rfl) (late.symm.trans firstPump)
    obtain ⟨-, -, upToDate, settled⟩ := runOps_first_pump few firstPump
    have done : before ++ [.pump] = earlyOps host ops ++ directOps host ops ++ [.pump] ++ after := by
      rw [cut, List.append_assoc, since]
      simp [directOps]
    have fewBefore : crtcCount (presents (before ++ [.pump])) ≤ maxCrtcSlots := by
      rw [whole, ← List.singleton_append, ← List.append_assoc] at few
      exact crtcCount_of_prefix few
    have split : presents (before ++ [.pump]) =
        presents (earlyOps host ops) ++ presents (directOps host ops) ++ presents after := by
      rw [done, presents_append, presents_append, presents_append]
      simp [presents]
    have same : presents before = presents (before ++ [.pump]) := by simp [presents]
    rw [split] at fewBefore
    have due := (replayed_due_iff ((crtcCount_mono (List.subset_append_left _ _)).trans fewBefore)).mpr (harmless pumps)
    have last := ((upToDate.congr due).run_settled host settled fewBefore).1
    rw [done, runOps_append, last.current, same, split]

/-- SDL comes up at the second attempt. -/
def secondAttempt : Host := { Host.uniform 2 with sdlInit := fun attempt => decide (attempt ≠ 0) }

def firstForOne : List BackendOp := [.present (some 7) 1 0 0, .present (some 8) 2 0 0, .pump]

theorem presentation_survives_iff_same_crtc : PresentationSurvives secondAttempt firstForOne := by
  apply (presentation_survives_iff secondAttempt firstForOne (by decide)).mpr
  intro _ last pending
  cases pending
  exact ⟨by decide, .inl (by decide)⟩

/-- CRTC 1 gets the surface that was presented for CRTC 2. -/
theorem early_surface_changes_crtc :
    ¬ ∀ host ops, crtcCount (presents ops) ≤ maxCrtcSlots → PresentationSurvives host ops := by
  intro survives
  have shown := survives secondAttempt [.present (some 7) 2 0 0, .init, .pump] (by decide)
    [.present (some 7) 2 0 0, .init] [] rfl (by decide) 2
  have lost : (runOps secondAttempt .initial [.present (some 7) 2 0 0, .init, .pump]).current 2 = none := by decide
  have due : lastValue 2 (presents [.present (some 7) 2 0 0, .init]) = some 7 := by decide
  rw [due] at shown
  exact absurd (lost.symm.trans shown) (by decide)

end Iland.Sdl

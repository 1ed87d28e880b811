import Iland.Buffers.Steps

namespace Iland.Buffers

open Iland.Data
open Iland.Drm
open Iland.Gbm
open Iland.Sdl

/-! User data of buffers.

`gbm_bo_set_user_data` stores a pointer and a callback in the buffer.  The
pointer can be read back; no function reads the callback.  Client data and
callbacks can be anything.
-/

variable {δ γ : Type*}

/-- `user_data` and `destroy_user_data` of a `struct gbm_bo`. -/
structure BoFields (δ γ : Type*) where
  userData : Option δ
  destroyUserData : Option γ

def BoFields.zero : BoFields δ γ := ⟨none, none⟩

structure Invocation (δ γ : Type*) where
  callback : γ
  bo : ℕ
  data : Option δ

structure Client (δ γ : Type*) where
  program : Program
  /-- What the memory of a buffer holds, by address. -/
  fields : ℕ → BoFields δ γ
  /-- The framebuffers that the callbacks of the buffers destroyed so far were
  to remove; the code keeps no such list. -/
  due : List UInt32

def Client.initial : Client δ γ := ⟨.initial, fun _ => .zero, []⟩

inductive ClientOp (δ γ : Type*) where
  | does (op : Op)
  | setUserData (bo : Option ℕ) (data : Option δ) (destroy : Option γ)
  | getUserData (bo : Option ℕ)

inductive ClientResult (δ : Type*) where
  | did (result : Result)
  | userData (data : Option δ)
  | done

/-- The buffers that `calloc` clears. -/
def calloced : Op → List ℕ
  | .boCreate created => (created.map Bo.address).toList
  | .surfaceCreate (some _) created => ((List.ofFn created).takeWhile Option.isSome).filterMap (Option.map Bo.address)
  | _ => []

/-- The buffers that an operation destroys. -/
def destroyed (p : Program) : Op → List ℕ
  | .boDestroy bo => bo.toList
  | .surfaceDestroy (some address) =>
      match p.surfaces.find? (fun surface => surface.address == address) with
      | none => []
      | some surface => surface.bos
  | _ => []

def gbmBoSetUserData (s : Client δ γ) (data : Option δ) (destroy : Option γ) : Option ℕ → Except Stop (Client δ γ)
  | none => .ok s
  | some address =>
      if s.program.bos.any (fun bo => bo.address == address) then
        .ok { s with fields := Function.update s.fields address ⟨data, destroy⟩ }
      else .error .destroyed

def gbmBoGetUserData (s : Client δ γ) : Option ℕ → Except Stop (Option δ)
  | none => .ok none
  | some address =>
      if s.program.bos.any (fun bo => bo.address == address) then .ok (s.fields address).userData
      else .error .destroyed

/-- The callbacks set on the buffers that an operation destroys, with their data. -/
def Client.destructors (s : Client δ γ) (op : Op) : List (Invocation δ γ) :=
  (destroyed s.program op).filterMap fun address =>
    (s.fields address).destroyUserData.map fun callback => ⟨callback, address, (s.fields address).userData⟩

variable (host : Host) (ioSurfaceGetID : IOSurface → UInt32) (removes : Invocation δ γ → List UInt32)

/-- One operation, what it returns, and the callbacks of buffers that the
library calls meanwhile.  `removes` says which framebuffers a callback removes. -/
def clientStep (s : Client δ γ) : ClientOp δ γ → Except Stop (Client δ γ × ClientResult δ × List (Invocation δ γ))
  | .does op => (step host ioSurfaceGetID s.program op).map fun (program, result) =>
      ({ program
         fields := fun address => if address ∈ calloced op then .zero else s.fields address
         due := s.due ++ (s.destructors op).flatMap removes }, .did result, [])
  | .setUserData bo data destroy => (gbmBoSetUserData s data destroy bo).map fun s => (s, .done, [])
  | .getUserData bo => (gbmBoGetUserData s bo).map fun data => (s, .userData data, [])

def ClientOp.destructors (s : Client δ γ) : ClientOp δ γ → List (Invocation δ γ)
  | .does op => s.destructors op
  | _ => []

/-- Once all buffers are destroyed, no framebuffer is left that a callback was
to remove. -/
def LeavesNoFramebuffer (s : Client δ γ) : Prop :=
  s.program.bos = [] → ∀ fbId ∈ s.due, fbId ≠ 0 → ∀ i, (s.program.dev.gFbs i).fbId ≠ fbId

/-- The callback of each buffer destroyed is called once, with its data. -/
def DestructorsRun (s : Client δ γ) (op : ClientOp δ γ) : Prop :=
  ∀ after result invoked, clientStep host ioSurfaceGetID removes s op = .ok (after, result, invoked) →
    invoked.Perm (op.destructors s) ∧ LeavesNoFramebuffer after

/-- No buffer is destroyed while it has a callback. -/
def NoneSet (s : Client δ γ) : ClientOp δ γ → Prop
  | .does op => ∀ address ∈ destroyed s.program op, (s.fields address).destroyUserData = none
  | _ => True

variable {host ioSurfaceGetID removes} {s after : Client δ γ} {op : ClientOp δ γ} {result : ClientResult δ}
  {invoked : List (Invocation δ γ)}

theorem noneSet_iff : NoneSet s op ↔ op.destructors s = [] := by
  cases op with
  | does op => simp [NoneSet, ClientOp.destructors, Client.destructors]
  | setUserData bo data destroy => simp [NoneSet, ClientOp.destructors]
  | getUserData bo => simp [NoneSet, ClientOp.destructors]

theorem program_of_does {op : Op}
    (stepped : clientStep host ioSurfaceGetID removes s (.does op) = .ok (after, result, invoked)) :
    ∃ program out, step host ioSurfaceGetID s.program op = .ok (program, out) ∧ invoked = [] ∧
      after = { program
                fields := fun address => if address ∈ calloced op then .zero else s.fields address
                due := s.due ++ (s.destructors op).flatMap removes } := by
  simp only [clientStep] at stepped
  cases done : step host ioSurfaceGetID s.program op with
  | error reason => simp [done, Except.map] at stepped
  | ok next =>
      simp only [done, Except.map] at stepped
      cases stepped
      exact ⟨_, _, rfl, rfl, rfl⟩

/-- No step calls a callback. -/
theorem clientStep_ok (stepped : clientStep host ioSurfaceGetID removes s op = .ok (after, result, invoked)) :
    invoked = [] ∧ after.due = s.due ++ (op.destructors s).flatMap removes := by
  cases op with
  | does op =>
      obtain ⟨program, out, -, rfl, rfl⟩ := program_of_does stepped
      exact ⟨rfl, rfl⟩
  | setUserData bo data destroy =>
      have noneDue : s.due ++ ((ClientOp.setUserData bo data destroy).destructors s).flatMap removes = s.due :=
        List.append_nil _
      rw [noneDue]
      cases bo with
      | none =>
          cases stepped
          exact ⟨rfl, rfl⟩
      | some address =>
          simp only [clientStep, gbmBoSetUserData] at stepped
          split at stepped
          · cases stepped
            exact ⟨rfl, rfl⟩
          · cases stepped
  | getUserData bo =>
      have noneDue : s.due ++ ((ClientOp.getUserData bo).destructors s).flatMap removes = s.due := List.append_nil _
      rw [noneDue]
      simp only [clientStep] at stepped
      cases done : gbmBoGetUserData s bo with
      | error reason => simp [done, Except.map] at stepped
      | ok data =>
          simp only [done, Except.map] at stepped
          cases stepped
          exact ⟨rfl, rfl⟩

theorem destructorsRun_iff (none : s.due = [])
    (stepped : clientStep host ioSurfaceGetID removes s op = .ok (after, result, invoked)) :
    DestructorsRun host ioSurfaceGetID removes s op ↔ NoneSet s op := by
  rw [noneSet_iff]
  constructor
  · intro runs
    have calls := (runs after result invoked stepped).1
    rw [(clientStep_ok stepped).1] at calls
    exact calls.symm.eq_nil
  · intro noneSet after' result' invoked' stepped'
    obtain ⟨calls, due⟩ := clientStep_ok stepped'
    rw [none, noneSet] at due
    refine ⟨by rw [calls, noneSet], fun _ fbId member => ?_⟩
    rw [due] at member
    cases member

/-- A framebuffer that a callback was to remove is left behind if it was there
when the last buffers were destroyed. -/
theorem leavesNoFramebuffer_iff {address : Option ℕ} {destroy : Op}
    (kind : destroy = .boDestroy address ∨ destroy = .surfaceDestroy address)
    (stepped : clientStep host ioSurfaceGetID removes s (.does destroy) = .ok (after, result, invoked)) :
    LeavesNoFramebuffer after ↔ (after.program.bos = [] → ∀ fbId ∈ s.due ++ (s.destructors destroy).flatMap removes,
      fbId ≠ 0 → ∀ i, (s.program.dev.gFbs i).fbId ≠ fbId) := by
  obtain ⟨next, out, done, -, rfl⟩ := program_of_does stepped
  have kept : next.dev.gFbs = s.program.dev.gFbs := by
    rcases gbm_cases done with ⟨a, session, out, act, -⟩ | ⟨surface, crtcId, x, y, present, -⟩ |
      ⟨b, surfaces, rfl, gbm⟩
    · rcases kind with rfl | rfl <;> cases act
    · rcases kind with rfl | rfl <;> cases present
    · change b.dev.gFbs = s.program.buffers.dev.gFbs
      rw [gbm.frame]
  simp only [LeavesNoFramebuffer, kept]

/-- The callbacks of destroyed buffers run, and no framebuffer is left, exactly
when no buffer is ever destroyed while it has a callback. -/
theorem destructors_run_iff {ops : List (ClientOp δ γ)} {last : Client δ γ}
    {outs : List (ClientResult δ × List (Invocation δ γ))}
    (run : runActions (clientStep host ioSurfaceGetID removes) .initial ops = .ok (last, outs)) :
    Along (clientStep host ioSurfaceGetID removes) (DestructorsRun host ioSurfaceGetID removes) .initial ops ↔
      Along (clientStep host ioSurfaceGetID removes) NoneSet .initial ops := by
  have start : (Client.initial : Client δ γ).due = [] := rfl
  refine along_iff_along_of_run (fun s op after out (none : s.due = []) stepped => destructorsRun_iff none stepped) ?_
    start run
  intro s op after out none noneSet stepped
  rw [(clientStep_ok stepped).2, none, noneSet_iff.mp noneSet]
  rfl

/-! A client whose data are framebuffers and whose callback removes them. -/

def removesFb (call : Invocation UInt32 Unit) : List UInt32 := call.data.toList

def idOf (surface : IOSurface) : UInt32 := UInt32.ofNat (surface + 4)

abbrev clientSteps := clientStep (.uniform 1) idOf removesFb

def unset : List (ClientOp UInt32 Unit) :=
  [.does (.boCreate (some ⟨16, 8⟩)), .setUserData (some 16) (some 1) (some ()), .setUserData (some 16) none none,
    .does (.boDestroy (some 16))]

theorem destructors_run_iff_unset :
    ∃ last outs, runActions clientSteps .initial unset = .ok (last, outs) ∧
      (Along clientSteps (DestructorsRun (.uniform 1) idOf removesFb) .initial unset ↔
        Along clientSteps NoneSet .initial unset) := by
  have run : runActions clientSteps .initial unset = .ok (_, _) := rfl
  exact ⟨_, _, run, destructors_run_iff run⟩

/-- A surface of four buffers, one of them with a framebuffer. -/
def shown : List (ClientOp UInt32 Unit) :=
  [.does (.surfaceCreate (some 100) fun i => some ⟨16 + i, 8 + i⟩),
    .does (.act (.call (.addFB drmVirtualFd 12 true))), .setUserData (some 16) (some 1) (some ())]

/-- The framebuffer is there after the surface is destroyed. -/
theorem destructor_never_runs :
    (∃ last outs, runActions clientSteps .initial (shown ++ [.does (.surfaceDestroy (some 100))]) = .ok (last, outs) ∧
      last.program.bos = [] ∧ ∃ i, (last.program.dev.gFbs i).fbId = 1) ∧
      ¬ Along clientSteps (DestructorsRun (.uniform 1) idOf removesFb) .initial
        (shown ++ [.does (.surfaceDestroy (some 100))]) := by
  refine ⟨⟨_, _, rfl, rfl, ⟨0, by decide⟩, rfl⟩, ?_⟩
  have early : runActions clientSteps .initial shown = .ok (_, _) := rfl
  refine not_along_of_last early fun runs => ?_
  have calls := (runs _ _ _ rfl).1.length_eq
  exact absurd calls (by decide)

end Iland.Buffers

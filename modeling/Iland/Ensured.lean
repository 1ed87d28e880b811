import Iland.Drm.ObjArrays
import Iland.Invariant

namespace Iland

open Iland.Data
open Iland.Drm

/-! `ensure_obj_properties` in a run: its first call makes the default records,
and no later one changes anything.
-/

variable {host : Host} {session next : Session} {a : Action} {out : Output}

namespace Session

variable (session : Session)

def objs : ObjArrays.Objs := ObjArrays.ofTable session.world.dev.gObjProps

def withTable (table : ObjTable) : Session := session.withDev (session.world.dev.withTable table)

end Session

/-- `ensure_obj_properties`, a number of times. -/
def ensureTimes (n : ℕ) : ℕ → ObjArrays.Objs → Except Fault ObjArrays.Objs
  | 0, objs => .ok objs
  | times + 1, objs => do
      let objs ← ObjArrays.ensureObjProperties n objs
      ensureTimes n times objs

theorem ensureTimes_of_fixed {n : ℕ} {objs : ObjArrays.Objs} (fixed : ObjArrays.ensureObjProperties n objs = .ok objs)
    (times : ℕ) : ensureTimes n times objs = .ok objs := by
  induction times with
  | zero => rfl
  | succ times ih =>
      rw [ensureTimes, fixed]
      exact ih

/-- The default records are there. -/
def Filled (host : Host) (session : Session) : Prop := Ensured host.getDisplayCount session.world.dev.gObjProps

theorem filled_step (session : Session) (a : Action) (next : Session) (out : Output) (ensured : Filled host session)
    (done : step host session a = .ok (next, out)) : Filled host next := by
  rw [Filled] at ensured ⊢
  rcases step_cases done with ⟨c, reply, _, _, called, _⟩ | ⟨event, handler, dev, _, _, taken, rfl⟩ | ⟨_, _, _, world⟩
  · exact exec_ensured ensured called
  · change Ensured host.getDisplayCount dev.gObjProps
    rwa [(dequeueFlipEvent_some taken).1]
  · rwa [world]

theorem fixed_of_ensured {n : ℕ} {table : ObjTable} (ensured : Ensured n table) :
    ObjArrays.ensureObjProperties n (ObjArrays.ofTable table) = .ok (ObjArrays.ofTable table) := by
  rw [ObjArrays.ensureObjProperties_ofTable, ensured.ensure]
  rfl

/-- After its first call, whatever the client does, `ensure_obj_properties`
changes nothing, and the store can be read and written by keys throughout. -/
theorem ensure_idempotent (fits : 3 * host.getDisplayCount ≤ maxObjProps) (reachable : ReachableSession host session) :
    ObjArrays.Lawful session.objs ∧
      ∃ table, ObjArrays.ensureObjProperties host.getDisplayCount session.objs = .ok (ObjArrays.ofTable table) ∧
        (session.objs ≠ [] → table = session.world.dev.gObjProps) ∧
        ∀ actions last outs, runActions (step host) (session.withTable table) actions = .ok (last, outs) →
          ObjArrays.Lawful last.objs ∧ ∀ times, ensureTimes host.getDisplayCount times last.objs = .ok last.objs := by
  have inv := (sessionInv_of_reachable reachable).table
  obtain ⟨table, ensures, ensured⟩ := inv.ensure_fits fits
  refine ⟨ObjArrays.lawful_ofTable _, table, ?_, fun used => ?_, fun actions last outs run => ?_⟩
  · rw [Session.objs, ObjArrays.ensureObjProperties_ofTable, ensures]
    rfl
  · rcases inv with empty | already
    · exact absurd (by rw [Session.objs, empty]; rfl) used
    · rw [already.ensure, Except.ok.injEq] at ensures
      exact ensures.symm
  · have start : Filled host (session.withTable table) := ensured
    have final : Filled host last := (runActions_reachable .start run).invariant start filled_step
    exact ⟨ObjArrays.lawful_ofTable _, ensureTimes_of_fixed (fixed_of_ensured final)⟩

theorem ensure_idempotent_one :
    ObjArrays.Lawful Session.initial.objs ∧
      ∃ table, ObjArrays.ensureObjProperties 1 Session.initial.objs = .ok (ObjArrays.ofTable table) ∧
        (Session.initial.objs ≠ [] → table = Session.initial.world.dev.gObjProps) ∧
        ∀ actions last outs,
          runActions (step (.uniform 1)) (Session.initial.withTable table) actions = .ok (last, outs) →
          ObjArrays.Lawful last.objs ∧ ∀ times, ensureTimes 1 times last.objs = .ok last.objs :=
  @ensure_idempotent (.uniform 1) .initial (by decide) .start

end Iland

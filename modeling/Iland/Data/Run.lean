import Mathlib

namespace Iland.Data

/-! Runs of a deterministic machine whose steps can stop it.

A step takes a state and an action to the next state and what the action
returned, or reports why the machine cannot go on.  Nothing here depends on
what the states or the actions are.
-/

variable {σ α ο ε : Type*} {step : σ → α → Except ε (σ × ο)} {start : σ}

/-- Perform the actions in order.  The first action that stops the machine
ends the run; otherwise the outputs are listed in order. -/
def runActions (step : σ → α → Except ε (σ × ο)) : σ → List α → Except ε (σ × List ο)
  | state, [] => .ok (state, [])
  | state, action :: rest =>
      match step state action with
      | .error reason => .error reason
      | .ok (next, out) =>
          match runActions step next rest with
          | .error reason => .error reason
          | .ok (last, outs) => .ok (last, out :: outs)

inductive Reachable (step : σ → α → Except ε (σ × ο)) (start : σ) : σ → Prop
  | start : Reachable step start start
  | next {state action after out} : Reachable step start state →
      step state action = .ok (after, out) → Reachable step start after

/-- Every step of the run that performs the actions meets a condition on the
state it starts in. -/
def Along (step : σ → α → Except ε (σ × ο)) (P : σ → α → Prop) : σ → List α → Prop
  | _, [] => True
  | state, action :: rest =>
      P state action ∧ ∀ next out, step state action = .ok (next, out) → Along step P next rest

theorem forall_next_iff {state next : σ} {action : α} {out : ο} (stepped : step state action = .ok (next, out))
    {Q : σ → Prop} : (∀ next' out', step state action = .ok (next', out') → Q next') ↔ Q next := by
  simp [stepped]

theorem Along.cons {P : σ → α → Prop} {state next : σ} {action : α} {rest : List α} {out : ο}
    (stepped : step state action = .ok (next, out)) (holds : P state action) (along : Along step P next rest) :
    Along step P state (action :: rest) :=
  ⟨holds, (forall_next_iff stepped).mpr along⟩

theorem Reachable.invariant {Inv : σ → Prop} (initial : Inv start)
    (kept : ∀ state action after out, Inv state → step state action = .ok (after, out) → Inv after)
    {state : σ} (reachable : Reachable step start state) : Inv state := by
  induction reachable with
  | start => exact initial
  | next _ stepped ih => exact kept _ _ _ _ ih stepped

theorem runActions_cons_ok {state last : σ} {action : α} {rest : List α} {outs : List ο}
    (run : runActions step state (action :: rest) = .ok (last, outs)) :
    ∃ next out tail, step state action = .ok (next, out) ∧
      runActions step next rest = .ok (last, tail) ∧ outs = out :: tail := by
  simp only [runActions] at run
  cases stepped : step state action with
  | error reason => simp [stepped] at run
  | ok result =>
      obtain ⟨next, out⟩ := result
      cases remaining : runActions step next rest with
      | error reason => simp [stepped, remaining] at run
      | ok result =>
          obtain ⟨final, tail⟩ := result
          simp only [stepped, remaining, Except.ok.injEq, Prod.mk.injEq] at run
          obtain ⟨rfl, rfl⟩ := run
          exact ⟨next, out, tail, rfl, remaining, rfl⟩

theorem runActions_total (total : ∀ state action, ∃ after out, step state action = .ok (after, out)) (state : σ)
    (actions : List α) : ∃ last outs, runActions step state actions = .ok (last, outs) := by
  induction actions generalizing state with
  | nil => exact ⟨state, [], rfl⟩
  | cons action rest ih =>
      obtain ⟨next, out, stepped⟩ := total state action
      obtain ⟨last, outs, remaining⟩ := ih next
      exact ⟨last, out :: outs, by simp only [runActions, stepped, remaining]⟩

theorem runActions_append_ok {state middle last : σ} {first second : List α} {outs more : List ο}
    (early : runActions step state first = .ok (middle, outs))
    (late : runActions step middle second = .ok (last, more)) :
    runActions step state (first ++ second) = .ok (last, outs ++ more) := by
  induction first generalizing state outs with
  | nil =>
      simp only [runActions, Except.ok.injEq, Prod.mk.injEq] at early
      obtain ⟨rfl, rfl⟩ := early
      exact late
  | cons action rest ih =>
      obtain ⟨next, out, tail, stepped, remaining, rfl⟩ := runActions_cons_ok early
      simp only [List.cons_append, runActions, stepped, ih remaining]

theorem runActions_cons_error {state next : σ} {action : α} {rest : List α} {out : ο} {reason : ε}
    (stepped : step state action = .ok (next, out)) :
    runActions step state (action :: rest) = .error reason ↔ runActions step next rest = .error reason := by
  simp only [runActions, stepped]
  cases runActions step next rest <;> simp

theorem runActions_reachable {actions : List α} {state last : σ} {outs : List ο}
    (reachable : Reachable step start state)
    (run : runActions step state actions = .ok (last, outs)) : Reachable step start last := by
  induction actions generalizing state outs with
  | nil =>
      simp only [runActions, Except.ok.injEq, Prod.mk.injEq] at run
      exact run.1 ▸ reachable
  | cons action rest ih =>
      obtain ⟨next, out, tail, stepped, remaining, _⟩ := runActions_cons_ok run
      exact ih (reachable.next stepped) remaining

theorem Along.invariant {Inv : σ → Prop} {P : σ → α → Prop}
    (kept : ∀ state action after out, P state action → Inv state → step state action = .ok (after, out) → Inv after)
    {actions : List α} {state last : σ} {outs : List ο} (along : Along step P state actions) (holds : Inv state)
    (run : runActions step state actions = .ok (last, outs)) : Inv last := by
  induction actions generalizing state outs with
  | nil =>
      simp only [runActions, Except.ok.injEq, Prod.mk.injEq] at run
      exact run.1 ▸ holds
  | cons action rest ih =>
      obtain ⟨next, out, tail, stepped, remaining, _⟩ := runActions_cons_ok run
      exact ih (along.2 next out stepped) (kept _ _ _ _ along.1 holds stepped) remaining

/-- If no step that meets a condition is stopped, then neither is a run of them. -/
theorem Along.goesOn {Inv : σ → Prop} {P : σ → α → Prop}
    (steps : ∀ state action, P state action → Inv state →
      ∃ after out, step state action = .ok (after, out) ∧ Inv after)
    {state : σ} {actions : List α} (along : Along step P state actions) (holds : Inv state) :
    ∃ last outs, runActions step state actions = .ok (last, outs) := by
  induction actions generalizing state with
  | nil => exact ⟨state, [], rfl⟩
  | cons action rest ih =>
      obtain ⟨next, out, stepped, kept⟩ := steps _ _ along.1 holds
      obtain ⟨last, outs, run⟩ := ih (along.2 next out stepped) kept
      exact ⟨last, out :: outs, by simp only [runActions, stepped, run]⟩

theorem Along.and {P Q : σ → α → Prop} {state : σ} {actions : List α} (first : Along step P state actions)
    (second : Along step Q state actions) : Along step (fun state action => P state action ∧ Q state action) state actions := by
  induction actions generalizing state with
  | nil => trivial
  | cons action rest ih =>
      exact ⟨⟨first.1, second.1⟩, fun next out stepped => ih (first.2 next out stepped) (second.2 next out stepped)⟩

theorem Along.imp {P Q : σ → α → Prop} (implies : ∀ state action, P state action → Q state action) {state : σ}
    {actions : List α} (along : Along step P state actions) : Along step Q state actions := by
  induction actions generalizing state with
  | nil => trivial
  | cons action rest ih => exact ⟨implies state action along.1, fun next out stepped => ih (along.2 next out stepped)⟩

theorem along_of_forall {P : α → Prop} (state : σ) {actions : List α} (all : ∀ action ∈ actions, P action) :
    Along step (fun _ action => P action) state actions := by
  induction actions generalizing state with
  | nil => trivial
  | cons action rest ih =>
      exact ⟨all action (List.mem_cons_self ..), fun next _ _ => ih next fun a member => all a (List.mem_cons_of_mem _ member)⟩

theorem along_of_reachable {P : σ → α → Prop} {actions : List α}
    (all : ∀ state action, Reachable step start state → action ∈ actions → P state action) {state : σ}
    (reachable : Reachable step start state) : Along step P state actions := by
  induction actions generalizing state with
  | nil => trivial
  | cons action rest ih =>
      refine ⟨all state action reachable (List.mem_cons_self ..), fun next out stepped => ?_⟩
      exact ih (fun state other reached member => all state other reached (List.mem_cons_of_mem _ member))
        (reachable.next stepped)

theorem Along.after {P : σ → α → Prop} {first second : List α} {state middle : σ} {outs : List ο}
    (along : Along step P state (first ++ second)) (early : runActions step state first = .ok (middle, outs)) :
    Along step P middle second := by
  induction first generalizing state outs with
  | nil =>
      simp only [runActions, Except.ok.injEq, Prod.mk.injEq] at early
      exact early.1 ▸ along
  | cons action rest ih =>
      obtain ⟨next, out, tail, stepped, remaining, _⟩ := runActions_cons_ok early
      exact ih (along.2 next out stepped) remaining

theorem not_along_of_last {P : σ → α → Prop} {first : List α} {state middle : σ} {action : α} {outs : List ο}
    (early : runActions step state first = .ok (middle, outs)) (fails : ¬ P middle action) :
    ¬ Along step P state (first ++ [action]) :=
  fun along => fails (along.after early).1

/-- What each step of the run was allowed to add, one batch for each action. -/
def Accounts {β : Type*} (step : σ → α → Except ε (σ × ο)) (Allows : σ → α → ο → List β → Prop) :
    σ → List α → List (List β) → Prop
  | _, [], [] => True
  | state, action :: rest, batch :: batches =>
      ∃ next out, step state action = .ok (next, out) ∧ Allows state action out batch ∧
        Accounts step Allows next rest batches
  | _, _, _ => False

theorem Accounts.nil {β : Type*} {Allows : σ → α → ο → List β → Prop} {state : σ} {batches : List (List β)}
    (accounts : Accounts step Allows state [] batches) : batches = [] := by
  cases batches with
  | nil => rfl
  | cons batch rest => exact accounts.elim

theorem Accounts.cons {β : Type*} {Allows : σ → α → ο → List β → Prop} {state : σ} {action : α} {rest : List α}
    {batches : List (List β)} (accounts : Accounts step Allows state (action :: rest) batches) :
    ∃ batch later next out, batches = batch :: later ∧ Allows state action out batch ∧
      Accounts step Allows next rest later := by
  cases batches with
  | nil => exact accounts.elim
  | cons batch later =>
      obtain ⟨next, out, _, allowed, onward⟩ := accounts
      exact ⟨batch, later, next, out, rfl, allowed, onward⟩

/-- If every step gives away and keeps no more than what it found and was
allowed to add, in order, then so does a whole run. -/
theorem runActions_ledger {β : Type*} (content : σ → List β) (given : ο → List β) {Allows : σ → α → ο → List β → Prop}
    {P : σ → α → Prop}
    (kept : ∀ state action after out, P state action → step state action = .ok (after, out) →
      ∃ batch, Allows state action out batch ∧ (given out ++ content after).Sublist (content state ++ batch))
    {actions : List α} {state last : σ} {outs : List ο} (along : Along step P state actions)
    (run : runActions step state actions = .ok (last, outs)) :
    ∃ batches, Accounts step Allows state actions batches ∧
      (outs.flatMap given ++ content last).Sublist (content state ++ batches.flatten) := by
  induction actions generalizing state outs with
  | nil =>
      simp only [runActions, Except.ok.injEq, Prod.mk.injEq] at run
      obtain ⟨rfl, rfl⟩ := run
      exact ⟨[], trivial, by simp⟩
  | cons action rest ih =>
      obtain ⟨next, out, tail, stepped, remaining, rfl⟩ := runActions_cons_ok run
      obtain ⟨batch, allowed, first⟩ := kept _ _ _ _ along.1 stepped
      obtain ⟨batches, all, later⟩ := ih (along.2 next out stepped) remaining
      refine ⟨batch :: batches, ⟨next, out, stepped, allowed, all⟩, ?_⟩
      have behind := later.append_left (given out)
      have front := first.append_right batches.flatten
      rw [List.append_assoc] at front
      simpa only [List.flatMap_cons, List.flatten_cons, List.append_assoc] using behind.trans front

/-- If every step adds to an amount what it takes in and takes from it what it
gives out, then so does a whole run. -/
theorem runActions_balance {M : Type*} [AddCommMonoid M] {Inv : σ → Prop} (amount : σ → M) (taken given : ο → M)
    (kept : ∀ state action after out, Inv state → step state action = .ok (after, out) →
      Inv after ∧ amount after + given out = amount state + taken out)
    {actions : List α} {state last : σ} {outs : List ο} (inv : Inv state)
    (run : runActions step state actions = .ok (last, outs)) :
    amount last + (outs.map given).sum = amount state + (outs.map taken).sum := by
  induction actions generalizing state outs with
  | nil =>
      simp only [runActions, Except.ok.injEq, Prod.mk.injEq] at run
      obtain ⟨rfl, rfl⟩ := run
      simp
  | cons action rest ih =>
      obtain ⟨next, out, tail, stepped, remaining, rfl⟩ := runActions_cons_ok run
      obtain ⟨later, once⟩ := kept _ _ _ _ inv stepped
      have onward := ih later remaining
      rw [List.map_cons, List.map_cons, List.sum_cons, List.sum_cons]
      calc amount last + (given out + (tail.map given).sum)
          = amount last + (tail.map given).sum + given out := by abel
        _ = amount next + given out + (tail.map taken).sum := by rw [onward]; abel
        _ = amount state + (taken out + (tail.map taken).sum) := by rw [once]; abel

/-- An invariant may speak of all that the steps gave out before. -/
theorem Along.accumulate {M : Type*} [AddMonoid M] {Inv : σ → M → Prop} {P : σ → α → Prop} (given : ο → M)
    (kept : ∀ state action after out total, P state action → Inv state total →
      step state action = .ok (after, out) → Inv after (total + given out))
    {actions : List α} {state last : σ} {outs : List ο} {total : M} (along : Along step P state actions)
    (inv : Inv state total) (run : runActions step state actions = .ok (last, outs)) :
    Inv last (total + (outs.map given).sum) := by
  induction actions generalizing state outs total with
  | nil =>
      simp only [runActions, Except.ok.injEq, Prod.mk.injEq] at run
      obtain ⟨rfl, rfl⟩ := run
      simpa using inv
  | cons action rest ih =>
      obtain ⟨next, out, tail, stepped, remaining, rfl⟩ := runActions_cons_ok run
      have later := ih (along.2 next out stepped) (kept _ _ _ _ _ along.1 inv stepped) remaining
      rw [List.map_cons, List.sum_cons, ← add_assoc]
      exact later

/-- If, wherever an invariant holds, a step fails badly exactly when it misses
a condition, then a run fails badly exactly when one of its steps does. -/
theorem no_bad_error_iff_along {Inv : σ → Prop} {bad : ε → Prop} {P : σ → α → Prop}
    (kept : ∀ state action after out, Inv state → step state action = .ok (after, out) → Inv after)
    (exact : ∀ state action, Inv state →
      ((∀ reason, bad reason → step state action ≠ .error reason) ↔ P state action))
    {state : σ} (inv : Inv state) (actions : List α) :
    (∀ reason, bad reason → runActions step state actions ≠ .error reason) ↔ Along step P state actions := by
  induction actions generalizing state with
  | nil => simp [runActions, Along]
  | cons action rest ih =>
      have first := exact state action inv
      cases stepped : step state action with
      | error cause =>
          simp only [runActions, Along, stepped, ne_eq, Except.error.injEq, reduceCtorEq, false_imp_iff,
            implies_true, and_true] at first ⊢
          exact first
      | ok result =>
          obtain ⟨next, out⟩ := result
          have fine : P state action := first.mp (by simp [stepped])
          have onward : Along step P state (action :: rest) ↔ Along step P next rest := by
            rw [Along, forall_next_iff stepped]
            exact and_iff_right fine
          rw [onward, ← ih (kept _ _ _ _ inv stepped)]
          simp only [ne_eq, runActions_cons_error stepped]

def Throughout (step : σ → α → Except ε (σ × ο)) (Good : σ → Prop) : σ → List α → Prop
  | state, [] => Good state
  | state, action :: rest =>
      Good state ∧ ∀ next out, step state action = .ok (next, out) → Throughout step Good next rest

theorem Throughout.head {Good : σ → Prop} {state : σ} {actions : List α}
    (all : Throughout step Good state actions) : Good state := by
  cases actions with
  | nil => exact all
  | cons action rest => exact all.1

theorem Throughout.last {Good : σ → Prop} {actions : List α} {state last : σ} {outs : List ο}
    (all : Throughout step Good state actions) (run : runActions step state actions = .ok (last, outs)) : Good last := by
  induction actions generalizing state outs with
  | nil =>
      simp only [runActions, Except.ok.injEq, Prod.mk.injEq] at run
      exact run.1 ▸ all
  | cons action rest ih =>
      obtain ⟨next, out, tail, stepped, remaining, _⟩ := runActions_cons_ok run
      exact ih (all.2 next out stepped) remaining

theorem Throughout.cons {Good : σ → Prop} {state next : σ} {action : α} {rest : List α} {out : ο} (good : Good state)
    (stepped : step state action = .ok (next, out)) (all : Throughout step Good next rest) :
    Throughout step Good state (action :: rest) :=
  ⟨good, (forall_next_iff stepped).mpr all⟩

theorem Throughout.imp {Inv Good Better : σ → Prop} {P : σ → α → Prop}
    (implies : ∀ state, Inv state → Good state → Better state)
    (kept : ∀ state action after out, P state action → Inv state → step state action = .ok (after, out) → Good after →
      Inv after)
    {state : σ} {actions : List α} (inv : Inv state) (along : Along step P state actions)
    (all : Throughout step Good state actions) : Throughout step Better state actions := by
  induction actions generalizing state with
  | nil => exact implies state inv all
  | cons action rest ih =>
      refine ⟨implies state inv all.1, fun next out stepped => ?_⟩
      have onward := all.2 next out stepped
      exact ih (kept state action next out along.1 inv stepped onward.head) (along.2 next out stepped) onward

/-- If, from states with an invariant, a step leads to a good state exactly when
it meets a condition, and then keeps the invariant, then all states of a run
are good exactly when all its steps meet the condition. -/
theorem throughout_iff_along {Inv Good : σ → Prop} {P : σ → α → Prop} (good : ∀ state, Inv state → Good state)
    (exact : ∀ state action after out, Inv state → step state action = .ok (after, out) →
      (Good after ↔ P state action) ∧ (P state action → Inv after))
    {actions : List α} {state last : σ} {outs : List ο} (inv : Inv state)
    (run : runActions step state actions = .ok (last, outs)) :
    Throughout step Good state actions ↔ Along step P state actions := by
  induction actions generalizing state outs with
  | nil => simp [Throughout, Along, good state inv]
  | cons action rest ih =>
      obtain ⟨next, out, tail, stepped, remaining, _⟩ := runActions_cons_ok run
      obtain ⟨exactly, kept⟩ := exact state action next out inv stepped
      simp only [Throughout, Along, good state inv, true_and, forall_next_iff stepped]
      constructor
      · intro all
        have meets := exactly.mp all.head
        exact ⟨meets, (ih (kept meets) remaining).mp all⟩
      · intro along
        exact (ih (kept along.1) remaining).mpr along.2

/-- The same of the runs whose steps all meet a further condition, with which
they keep the invariant. -/
theorem throughout_iff_along_within {Inv Good : σ → Prop} {P Q : σ → α → Prop} (good : ∀ state, Inv state → Good state)
    (exact : ∀ state action, Inv state → Q state action →
      ((∀ next out, step state action = .ok (next, out) → Good next) ↔ P state action))
    (kept : ∀ state action next out, Inv state → Q state action → P state action →
      step state action = .ok (next, out) → Inv next)
    {state : σ} (inv : Inv state) {actions : List α} (within : Along step Q state actions) :
    Throughout step Good state actions ↔ Along step P state actions := by
  induction actions generalizing state with
  | nil => exact iff_of_true (good state inv) trivial
  | cons action rest ih =>
      constructor
      · rintro ⟨_, later⟩
        have meets := (exact state action inv within.1).mp fun next out stepped => (later next out stepped).head
        refine ⟨meets, fun next out stepped => ?_⟩
        exact (ih (kept _ _ _ _ inv within.1 meets stepped) (within.2 next out stepped)).mp (later next out stepped)
      · rintro ⟨meets, later⟩
        refine ⟨good state inv, fun next out stepped => ?_⟩
        exact (ih (kept _ _ _ _ inv within.1 meets stepped) (within.2 next out stepped)).mpr (later next out stepped)

/-- If, in states with an invariant, a step meets one condition exactly when it
meets another, which keeps the invariant, then the steps of a run do. -/
theorem along_iff_along {Inv : σ → Prop} {P Q : σ → α → Prop}
    (exact : ∀ state action, Inv state → (P state action ↔ Q state action))
    (kept : ∀ state action after out, Inv state → Q state action → step state action = .ok (after, out) → Inv after)
    {state : σ} (inv : Inv state) (actions : List α) : Along step P state actions ↔ Along step Q state actions := by
  induction actions generalizing state with
  | nil => exact Iff.rfl
  | cons action rest ih =>
      simp only [Along, exact state action inv]
      refine and_congr_right fun meets => ?_
      exact forall_congr' fun next => forall_congr' fun out => imp_congr_right fun stepped =>
        ih (kept state action next out inv meets stepped)

/-- The same of a run that goes through, for conditions that agree only where
the step does. -/
theorem along_iff_along_of_run {Inv : σ → Prop} {P Q : σ → α → Prop}
    (exact : ∀ state action after out, Inv state → step state action = .ok (after, out) →
      (P state action ↔ Q state action))
    (kept : ∀ state action after out, Inv state → Q state action → step state action = .ok (after, out) → Inv after)
    {actions : List α} {state last : σ} {outs : List ο} (inv : Inv state)
    (run : runActions step state actions = .ok (last, outs)) :
    Along step P state actions ↔ Along step Q state actions := by
  induction actions generalizing state outs with
  | nil => exact Iff.rfl
  | cons action rest ih =>
      obtain ⟨next, out, tail, stepped, remaining, _⟩ := runActions_cons_ok run
      simp only [Along, exact state action next out inv stepped]
      refine and_congr_right fun meets => ?_
      rw [forall_next_iff stepped, forall_next_iff stepped]
      exact ih (kept state action next out inv meets stepped) remaining

/-! Machines with a record. -/

section Recorded

variable {ρ : Type*} {note : σ → α → ο → ρ → ρ}

/-- The machine together with a record of what its steps did. -/
def recorded (step : σ → α → Except ε (σ × ο)) (note : σ → α → ο → ρ → ρ) :
    σ × ρ → α → Except ε ((σ × ρ) × ο)
  | (state, record), action =>
      (step state action).map fun (next, out) => ((next, note state action out record), out)

theorem recorded_eq_ok {pair after : σ × ρ} {action : α} {out : ο} :
    recorded step note pair action = .ok (after, out) ↔
      step pair.1 action = .ok (after.1, out) ∧ note pair.1 action out pair.2 = after.2 := by
  obtain ⟨next, record⟩ := after
  simp only [recorded]
  cases stepped : step pair.1 action with
  | error reason => simp [Except.map]
  | ok result =>
      obtain ⟨next', out'⟩ := result
      simp only [Except.map, Except.ok.injEq, Prod.mk.injEq]
      constructor
      · rintro ⟨⟨rfl, rfl⟩, rfl⟩
        exact ⟨⟨rfl, rfl⟩, rfl⟩
      · rintro ⟨⟨rfl, rfl⟩, rfl⟩
        exact ⟨⟨rfl, rfl⟩, rfl⟩

/-- A record can be kept of every run. -/
theorem runActions_recorded {actions : List α} {state last : σ} {outs : List ο}
    (run : runActions step state actions = .ok (last, outs)) (record : ρ) :
    ∃ final, runActions (recorded step note) (state, record) actions = .ok ((last, final), outs) := by
  induction actions generalizing state outs record with
  | nil =>
      simp only [runActions, Except.ok.injEq, Prod.mk.injEq] at run
      obtain ⟨rfl, rfl⟩ := run
      exact ⟨record, rfl⟩
  | cons action rest ih =>
      obtain ⟨next, out, tail, stepped, remaining, rfl⟩ := runActions_cons_ok run
      obtain ⟨final, later⟩ := ih remaining (note state action out record)
      have first : recorded step note (state, record) action = .ok ((next, note state action out record), out) :=
        recorded_eq_ok.mpr ⟨stepped, rfl⟩
      exact ⟨final, by simp only [runActions, first, later]⟩

end Recorded

end Iland.Data

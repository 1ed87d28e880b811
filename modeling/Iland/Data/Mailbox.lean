import Iland.Data.Run

namespace Iland.Data

/-! Queues whose producers ring a bell.

A producer appends and owes a byte until it has written it; the consumer takes
bytes and then elements until there is none.  A mailbox is closed while it has no
descriptor to take bytes from.  `Signalled` is what keeps the consumer from
sleeping next to a queue that is not empty.
-/

structure Mailbox (ι α : Type*) where
  queue : List α
  /-- The bytes not yet taken, unless there is no descriptor. -/
  unread : Option ℕ
  /-- The producers that have appended and not yet written their byte. -/
  owing : ι → Bool
  /-- The consumer has started to look and not yet found the queue empty. -/
  draining : Bool

namespace Mailbox

variable {ι α : Type*} [DecidableEq ι] {box after : Mailbox ι α}

/-- Someone is going to look at the queue, or to make the consumer look. -/
def Attended (box : Mailbox ι α) : Prop := (∃ p, box.owing p = true) ∨ box.draining = true

inductive Step (box : Mailbox ι α) : Mailbox ι α → Prop
  /-- What an append does to the queue is up to the producer: it may discard. -/
  | append (p : ι) (queue : List α) :
      Step box { box with queue := queue, owing := Function.update box.owing p true }
  | announce (p : ι) :
      Step box { box with unread := box.unread.map (· + 1), owing := Function.update box.owing p false }
  | look : Step box { box with draining := true }
  | take {unread : ℕ} (left : ℕ) (bytes : box.unread = some unread) (fewer : left < unread)
      (draining : box.draining = true) : Step box { box with unread := some left }
  | remove (queue : List α) (draining : box.draining = true) : Step box { box with queue := queue }
  | finish (empty : box.queue = []) : Step box { box with draining := false }
  | close : Step box { box with unread := none }
  | open (attended : box.queue = [] ∨ box.Attended) : Step box { box with unread := some 0 }

/-- No lost wakeup: an open mailbox with a queue has a byte, or is attended. -/
def Signalled (box : Mailbox ι α) : Prop :=
  ∀ unread, box.unread = some unread → box.queue ≠ [] → 0 < unread ∨ box.Attended

theorem Step.signalled (stepped : box.Step after) : after.Signalled := by
  intro unread bytes busy
  cases stepped with
  | append p queue => exact .inr (.inl ⟨p, Function.update_self p true box.owing⟩)
  | announce p =>
      obtain ⟨before, _, rfl⟩ := Option.map_eq_some_iff.mp bytes
      exact .inl (Nat.succ_pos before)
  | look => exact .inr (.inr rfl)
  | take left bytes fewer draining => exact .inr (.inr draining)
  | remove queue draining => exact .inr (.inr draining)
  | finish empty => exact absurd empty busy
  | close => contradiction
  | «open» attended => exact .inr (attended.resolve_left busy)

theorem Signalled.run (inv : box.Signalled) (run : Relation.ReflTransGen Step box after) :
    after.Signalled := by
  induction run with
  | refl => exact inv
  | tail _ stepped _ => exact stepped.signalled

omit [DecidableEq ι] in
theorem Signalled.readable (inv : box.Signalled) (settled : ∀ p, box.owing p = false)
    (asleep : box.draining = false) {unread : ℕ} (bytes : box.unread = some unread)
    (busy : box.queue ≠ []) : 0 < unread := by
  rcases inv unread bytes busy with positive | ⟨p, owing⟩ | draining
  · exact positive
  · rw [settled p] at owing
    contradiction
  · rw [asleep] at draining
    contradiction

end Mailbox

/-- If every step that meets a condition is a run of another machine, seen
through `view`, then so is every run whose steps meet it. -/
theorem Along.simulation {σ τ α ο ε : Type*} {step : σ → α → Except ε (σ × ο)} {P : σ → α → Prop}
    {view : σ → τ} {R : τ → τ → Prop}
    (simulated : ∀ state action after out, P state action → step state action = .ok (after, out) →
      Relation.ReflTransGen R (view state) (view after))
    {actions : List α} {start last : σ} {outs : List ο} (along : Along step P start actions)
    (run : runActions step start actions = .ok (last, outs)) : Relation.ReflTransGen R (view start) (view last) := by
  induction actions generalizing start outs with
  | nil =>
      simp only [runActions, Except.ok.injEq, Prod.mk.injEq] at run
      exact run.1 ▸ .refl
  | cons action rest ih =>
      obtain ⟨next, out, tail, stepped, remaining, _⟩ := runActions_cons_ok run
      exact (simulated _ _ _ _ along.1 stepped).trans (ih (along.2 next out stepped) remaining)

theorem Reachable.simulation {σ τ α ο ε : Type*} {step : σ → α → Except ε (σ × ο)} {start state : σ}
    {view : σ → τ} {R : τ → τ → Prop}
    (simulated : ∀ state action after out, step state action = .ok (after, out) →
      Relation.ReflTransGen R (view state) (view after))
    (reachable : Reachable step start state) : Relation.ReflTransGen R (view start) (view state) := by
  induction reachable with
  | start => exact .refl
  | next _ stepped ih => exact ih.trans (simulated _ _ _ _ stepped)

end Iland.Data

import Iland.Data.Run

namespace Iland.Data

/-! What holds when a computation that can stop comes to its end.

Only the reasons for which it may stop are told; a computation that never stops
for another reason is safe.
-/

universe u

variable {ε : Type*} {α β : Type u} {stops : ε → Prop} {good : α → Prop}

/-- The computation ends in a good state, or stops for one of the reasons. -/
def Ends (stops : ε → Prop) (good : α → Prop) : Except ε α → Prop
  | .ok result => good result
  | .error reason => stops reason

theorem Ends.mono {weaker : α → Prop} {x : Except ε α} (ends : Ends stops good x)
    (weaken : ∀ result, good result → weaker result) : Ends stops weaker x := by
  cases x with
  | ok result => exact weaken result ends
  | error reason => exact ends

theorem Ends.bind {after : β → Prop} {x : Except ε α} {f : α → Except ε β} (first : Ends stops good x)
    (then_ : ∀ result, good result → Ends stops after (f result)) : Ends stops after (x >>= f) := by
  cases x with
  | ok result => exact then_ result first
  | error reason => exact first

theorem Ends.map {after : β → Prop} {x : Except ε α} {f : α → β} (first : Ends stops good x)
    (then_ : ∀ result, good result → after (f result)) : Ends stops after (x.map f) := by
  cases x with
  | ok result => exact then_ result first
  | error reason => exact first

theorem Ends.of_ok {x : Except ε α} (ends : Ends stops good x) {result : α} (ok : x = .ok result) : good result := by
  subst ok
  exact ends

theorem Ends.of_error {x : Except ε α} (ends : Ends stops good x) {reason : ε} (stopped : x = .error reason) :
    stops reason := by
  subst stopped
  exact ends

/-- If each step ends in a good state, so does a run. -/
theorem runActions_ends {σ γ ο : Type*} {step : σ → γ → Except ε (σ × ο)} {Inv : σ → Prop} {P : γ → Prop}
    (steps : ∀ state action, P action → Inv state → Ends stops (fun result => Inv result.1) (step state action))
    {actions : List γ} (all : ∀ action ∈ actions, P action) {state : σ} (holds : Inv state) :
    Ends stops (fun result => Inv result.1) (runActions step state actions) := by
  induction actions generalizing state with
  | nil => exact holds
  | cons action rest ih =>
      have first := steps state action (all action (List.mem_cons_self ..)) holds
      rw [runActions]
      cases stepped : step state action with
      | error reason => exact first.of_error stepped
      | ok result =>
          have later := ih (fun other member => all other (List.mem_cons_of_mem _ member)) (first.of_ok stepped)
          simp only
          cases remaining : runActions step result.1 rest with
          | error reason => exact later.of_error remaining
          | ok last =>
              rw [remaining] at later
              exact later

end Iland.Data

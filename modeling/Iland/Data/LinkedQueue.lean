import Mathlib.Data.List.Basic
import Mathlib.Data.List.Nodup

namespace Iland.Data

/-! Queues of linked cells, with a pointer to the first and to the last one.

A cell is appended by linking the last one to it, and taken by following the
link of the first one.  The links of all other cells are arbitrary.
-/

variable {ι : Type*} {next next' : ι → Option ι} {head tail : Option ι} {cells : List ι}

/-- Following the links from a pointer visits these cells and ends. -/
def Path (next : ι → Option ι) : Option ι → List ι → Prop
  | start, [] => start = none
  | start, cell :: rest => start = some cell ∧ Path next (next cell) rest

theorem Path.unique {start : Option ι} {others : List ι} (path : Path next start cells)
    (other : Path next start others) : cells = others := by
  induction cells generalizing start others with
  | nil =>
      obtain rfl := path
      cases others with
      | nil => rfl
      | cons => simp [Path] at other
  | cons cell rest ih =>
      obtain ⟨rfl, onward⟩ := path
      cases others with
      | nil => simp [Path] at other
      | cons first more =>
          obtain ⟨same, later⟩ := other
          obtain rfl := Option.some.inj same
          rw [ih onward later]

theorem Path.after {start : Option ι} {front back : List ι} {cell : ι}
    (path : Path next start (front ++ cell :: back)) : Path next (some cell) (cell :: back) := by
  induction front generalizing start with
  | nil => exact ⟨rfl, path.2⟩
  | cons _ _ ih => exact ih path.2

/-- A path that ends visits no cell twice. -/
theorem Path.nodup {start : Option ι} (path : Path next start cells) : cells.Nodup := by
  induction cells generalizing start with
  | nil => exact .nil
  | cons cell rest ih =>
      refine List.nodup_cons.mpr ⟨fun again => ?_, ih path.2⟩
      -- From the second visit the path would have to go on as from the first.
      obtain ⟨front, back, rfl⟩ := List.append_of_mem again
      have shorter := congrArg List.length (path.2.after.2.unique path.2)
      simp only [List.length_append, List.length_cons] at shorter
      omega

theorem Path.congr {start : Option ι} (path : Path next start cells) (same : ∀ cell ∈ cells, next' cell = next cell) :
    Path next' start cells := by
  induction cells generalizing start with
  | nil => exact path
  | cons cell rest ih =>
      refine ⟨path.1, ?_⟩
      rw [same cell List.mem_cons_self]
      exact ih path.2 fun other member => same other (List.mem_cons_of_mem cell member)

theorem Path.concat {start : Option ι} {last cell : ι} (path : Path next start cells)
    (ends : cells.getLast? = some last) (same : ∀ other ∈ cells, other ≠ last → next' other = next other)
    (linked : next' last = some cell) (final : next' cell = none) : Path next' start (cells ++ [cell]) := by
  induction cells generalizing start with
  | nil => simp at ends
  | cons first rest ih =>
      refine ⟨path.1, ?_⟩
      cases rest with
      | nil =>
          obtain rfl : first = last := by simpa using ends
          exact ⟨linked, final⟩
      | cons second more =>
          have later : (second :: more).getLast? = some last := by rwa [List.getLast?_cons_cons] at ends
          have early : first ≠ last := by
            rintro rfl
            exact (List.nodup_cons.mp path.nodup).1 (List.mem_of_getLast? later)
          rw [same first List.mem_cons_self early]
          exact ih path.2 later fun other member => same other (List.mem_cons_of_mem first member)

/-- The cells from the first one on, of which `tail` is the last. -/
structure Queued (next : ι → Option ι) (head tail : Option ι) (cells : List ι) : Prop where
  path : Path next head cells
  tail : tail = cells.getLast?

namespace Queued

theorem empty (next : ι → Option ι) : Queued next none none [] := ⟨rfl, rfl⟩

theorem head_eq (queued : Queued next head tail cells) : head = cells.head? := by
  cases cells with
  | nil => exact queued.path
  | cons cell rest => exact queued.path.1

theorem head_none_iff (queued : Queued next head tail cells) : head = none ↔ cells = [] := by
  rw [queued.head_eq, List.head?_eq_none_iff]

theorem tail_none_iff (queued : Queued next head tail cells) : tail = none ↔ cells = [] := by
  rw [queued.tail, List.getLast?_eq_none_iff]

/-- What happens to other cells does not matter. -/
theorem congr (queued : Queued next head tail cells) (same : ∀ cell ∈ cells, next' cell = next cell) :
    Queued next' head tail cells :=
  ⟨queued.path.congr same, queued.tail⟩

theorem first (queued : Queued next none tail cells) {cell : ι} (final : next' cell = none) :
    Queued next' (some cell) (some cell) (cells ++ [cell]) := by
  rw [queued.head_none_iff.mp rfl]
  exact ⟨⟨rfl, final⟩, rfl⟩

theorem push {last cell : ι} (queued : Queued next head (some last) cells)
    (same : ∀ other ∈ cells, other ≠ last → next' other = next other) (linked : next' last = some cell)
    (final : next' cell = none) : Queued next' head (some cell) (cells ++ [cell]) :=
  ⟨queued.path.concat queued.tail.symm same linked final, (List.getLast?_concat ..).symm⟩

theorem pop {cell : ι} (queued : Queued next (some cell) tail cells) :
    ∃ rest, cells = cell :: rest ∧ Queued next (next cell) (if next cell = none then none else tail) rest := by
  cases cells with
  | nil => exact absurd queued.path (by simp [Path])
  | cons other rest =>
      obtain ⟨⟨same, onward⟩, last⟩ := queued
      obtain rfl := Option.some.inj same
      refine ⟨rest, rfl, onward, ?_⟩
      cases rest with
      | nil => exact if_pos onward
      | cons second more =>
          have more' : next cell ≠ none := by simp [onward.1]
          rw [if_neg more', last, List.getLast?_cons_cons]

end Queued

end Iland.Data

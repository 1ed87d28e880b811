import Mathlib

namespace Iland.Data

/-! Ring buffers that discard their oldest element when full.

`head` is the next place to write, `tail` the oldest element, and equal
indices mean the ring is empty, so `cap` places hold `cap - 1` elements.
`toList` is the abstract queue, oldest element first.
-/

structure Ring (α : Type u) (cap : ℕ) where
  slots : ℕ → α
  head : ℕ
  tail : ℕ
  head_lt : head < cap
  tail_lt : tail < cap

/-- Append to a queue of at most `limit` elements, discarding from the front. -/
def pushBounded (limit : ℕ) (queue : List α) (x : α) : List α :=
  (queue ++ [x]).drop (queue.length + 1 - limit)

def pushAllBounded (limit : ℕ) (queue : List α) (batch : List α) : List α :=
  batch.foldl (pushBounded limit) queue

theorem length_pushBounded {limit : ℕ} {queue : List α} {x : α} (fits : queue.length ≤ limit) :
    (pushBounded limit queue x).length ≤ limit := by
  simp only [pushBounded, List.length_drop, List.length_append, List.length_singleton]
  omega

theorem pushAllBounded_eq {limit : ℕ} {queue batch : List α} (fits : queue.length ≤ limit) :
    pushAllBounded limit queue batch =
      (queue ++ batch).drop (queue.length + batch.length - limit) := by
  induction batch generalizing queue with
  | nil => simp [pushAllBounded, Nat.sub_eq_zero_of_le fits]
  | cons x rest ih =>
      change pushAllBounded limit (pushBounded limit queue x) rest = _
      rw [ih (length_pushBounded fits)]
      simp only [pushBounded, List.length_drop, List.length_append, List.length_cons]
      by_cases room : queue.length < limit
      · have kept : queue.length + 1 - limit = 0 := by omega
        rw [kept, List.drop_zero, List.append_assoc, List.singleton_append]
        congr 1
        simp only [List.length_nil]
        omega
      · have dropsOne : queue.length + 1 - limit = 1 := by omega
        rw [dropsOne]
        cases queue with
        | nil =>
            have limitZero : limit = 0 := by simpa using room
            subst limitZero
            simp
        | cons oldest queue =>
            have split : (oldest :: queue).length + (rest.length + 1) - limit =
                (oldest :: queue).length + 1 - 1 + rest.length - limit + 1 := by
              simp only [List.length_cons] at room fits ⊢
              omega
            rw [split]
            simp

theorem pushAllBounded_suffix {limit : ℕ} {queue batch : List α} (fits : queue.length ≤ limit)
    (small : batch.length ≤ limit) :
    ∃ kept, kept <:+ queue ∧ kept = queue.drop (queue.length + batch.length - limit) ∧
      pushAllBounded limit queue batch = kept ++ batch := by
  refine ⟨queue.drop (queue.length + batch.length - limit), List.drop_suffix _ _, rfl, ?_⟩
  rw [pushAllBounded_eq fits, List.drop_append_of_le_length (by omega)]

theorem pushAllBounded_sublist {limit : ℕ} {queue batch : List α} (fits : queue.length ≤ limit) :
    (pushAllBounded limit queue batch).Sublist (queue ++ batch) := by
  rw [pushAllBounded_eq fits]
  exact List.drop_sublist _ _

theorem pushAllBounded_ne_nil {limit : ℕ} {queue batch : List α} (fits : queue.length ≤ limit)
    (small : batch.length ≤ limit) (new : batch ≠ []) : pushAllBounded limit queue batch ≠ [] := by
  obtain ⟨kept, _, _, content⟩ := pushAllBounded_suffix fits small
  rw [content]
  exact List.append_ne_nil_of_right_ne_nil kept new

theorem pushAllBounded_perm {limit : ℕ} {queue batch other : List α} (fits : queue.length ≤ limit)
    (small : batch.length ≤ limit) (perm : batch.Perm other) :
    (pushAllBounded limit queue batch).Perm (pushAllBounded limit queue other) := by
  obtain ⟨kept, _, left, content⟩ := pushAllBounded_suffix fits small
  obtain ⟨otherKept, _, otherLeft, otherContent⟩ := pushAllBounded_suffix fits (perm.length_eq ▸ small)
  have sameKept : otherKept = kept := by rw [left, otherLeft, perm.length_eq]
  rw [content, otherContent, sameKept]
  exact perm.append_left kept

namespace Ring

variable {α : Type u} {cap : ℕ}

def next (cap i : ℕ) : ℕ := (i + 1) % cap

def count (ring : Ring α cap) : ℕ := (ring.head + cap - ring.tail) % cap

def toList (ring : Ring α cap) : List α :=
  (List.range ring.count).map (fun i => ring.slots ((ring.tail + i) % cap))

/-- Write at the head, discarding the oldest element if that fills the ring. -/
def enqueue (ring : Ring α cap) (x : α) : Ring α cap where
  slots := Function.update ring.slots ring.head x
  head := next cap ring.head
  tail := if next cap ring.head = ring.tail then next cap ring.tail else ring.tail
  head_lt := Nat.mod_lt _ (Nat.zero_lt_of_lt ring.head_lt)
  tail_lt := by
    split
    · exact Nat.mod_lt _ (Nat.zero_lt_of_lt ring.head_lt)
    · exact ring.tail_lt

def dequeue (ring : Ring α cap) : Option (α × Ring α cap) :=
  if ring.head = ring.tail then none
  else some (ring.slots ring.tail,
    { ring with
      tail := next cap ring.tail
      tail_lt := Nat.mod_lt _ (Nat.zero_lt_of_lt ring.head_lt) })

@[simp] theorem length_toList (ring : Ring α cap) : ring.toList.length = ring.count := by
  simp [toList]

theorem count_lt (ring : Ring α cap) : ring.count < cap :=
  Nat.mod_lt _ (Nat.zero_lt_of_lt ring.head_lt)

theorem count_cases (ring : Ring α cap) :
    ring.tail ≤ ring.head ∧ ring.count = ring.head - ring.tail ∨
      ring.head < ring.tail ∧ ring.count = ring.head + cap - ring.tail := by
  have headLt := ring.head_lt
  have tailLt := ring.tail_lt
  by_cases order : ring.tail ≤ ring.head
  · left
    refine ⟨order, ?_⟩
    have shifted : ring.head + cap - ring.tail = ring.head - ring.tail + cap := by omega
    rw [count, shifted, Nat.add_mod_right, Nat.mod_eq_of_lt (by omega)]
  · right
    exact ⟨by omega, Nat.mod_eq_of_lt (by omega)⟩

theorem next_cases {cap i : ℕ} (inside : i < cap) :
    i + 1 < cap ∧ next cap i = i + 1 ∨ i + 1 = cap ∧ next cap i = 0 := by
  by_cases last : i + 1 = cap
  · exact .inr ⟨last, by simp [next, last]⟩
  · exact .inl ⟨by omega, Nat.mod_eq_of_lt (by omega)⟩

theorem index_cases {cap tail i : ℕ} (tailLt : tail < cap) (inside : i < cap) :
    tail + i < cap ∧ (tail + i) % cap = tail + i ∨
      cap ≤ tail + i ∧ (tail + i) % cap = tail + i - cap := by
  by_cases wraps : tail + i < cap
  · exact .inl ⟨wraps, Nat.mod_eq_of_lt wraps⟩
  · exact .inr ⟨by omega, by rw [Nat.mod_eq_sub_mod (by omega), Nat.mod_eq_of_lt (by omega)]⟩

theorem toList_of_dequeue {ring rest : Ring α cap} {x : α} (taken : ring.dequeue = some (x, rest)) :
    ring.toList = x :: rest.toList := by
  have headLt := ring.head_lt
  have tailLt := ring.tail_lt
  have counts := ring.count_cases
  simp only [dequeue] at taken
  split at taken
  · contradiction
  · rename_i busy
    simp only [Option.some.injEq, Prod.mk.injEq] at taken
    obtain ⟨rfl, rfl⟩ := taken
    apply List.ext_getElem
    · have stepped := next_cases tailLt
      have restCounts := count_cases { ring with
        tail := next cap ring.tail, tail_lt := Nat.mod_lt _ (Nat.zero_lt_of_lt ring.head_lt) }
      simp only [length_toList, List.length_cons]
      dsimp only at restCounts
      omega
    · intro i left right
      cases i with
      | zero => simp [toList, Nat.mod_eq_of_lt tailLt]
      | succ i => simp [toList, next, Nat.mod_add_mod, Nat.add_right_comm, Nat.add_assoc]

theorem dequeue_eq_none_iff {ring : Ring α cap} : ring.dequeue = none ↔ ring.toList = [] := by
  have counts := ring.count_cases
  have headLt := ring.head_lt
  have tailLt := ring.tail_lt
  rw [← List.length_eq_zero_iff, length_toList]
  by_cases empty : ring.head = ring.tail
  · simp only [dequeue, if_pos empty, true_iff]
    omega
  · simp only [dequeue, if_neg empty, reduceCtorEq, false_iff]
    omega

theorem dequeue_of_toList {ring : Ring α cap} {x : α} {queue : List α}
    (content : ring.toList = x :: queue) :
    ∃ rest, ring.dequeue = some (x, rest) ∧ rest.toList = queue := by
  cases taken : ring.dequeue with
  | none => simp [dequeue_eq_none_iff.mp taken] at content
  | some pair =>
      obtain ⟨y, rest⟩ := pair
      rw [toList_of_dequeue taken, List.cons.injEq] at content
      exact ⟨rest, by rw [content.1], content.2⟩

theorem getElem_toList (ring : Ring α cap) {i : ℕ} (inside : i < ring.toList.length) :
    ring.toList[i] = ring.slots ((ring.tail + i) % cap) := by
  simp [toList]

theorem toList_enqueue_of_room {ring : Ring α cap} (x : α) (free : next cap ring.head ≠ ring.tail) :
    (ring.enqueue x).toList = ring.toList ++ [x] := by
  have headLt := ring.head_lt
  have tailLt := ring.tail_lt
  have counts := ring.count_cases
  have headStep := next_cases headLt
  have tailKept : (ring.enqueue x).tail = ring.tail := if_neg free
  have grown : (ring.enqueue x).count = ring.count + 1 := by
    have after := (ring.enqueue x).count_cases
    rw [tailKept, show (ring.enqueue x).head = next cap ring.head from rfl] at after
    omega
  apply List.ext_getElem (by simp [grown])
  intro i left _
  have bound := (ring.enqueue x).count_lt
  simp only [length_toList, grown] at left bound
  have place := index_cases (i := i) tailLt (by omega)
  rw [getElem_toList, tailKept, show (ring.enqueue x).slots = Function.update ring.slots ring.head x from rfl]
  by_cases last : i = ring.count
  · have atHead : (ring.tail + i) % cap = ring.head := by omega
    rw [List.getElem_append_right (by simp [last]), atHead]
    simp
  · have offHead : (ring.tail + i) % cap ≠ ring.head := by omega
    rw [List.getElem_append_left (by simp; omega), Function.update_of_ne offHead, getElem_toList]

theorem toList_enqueue_of_full {ring : Ring α cap} (x : α) (fills : next cap ring.head = ring.tail)
    (room : 1 < cap) : (ring.enqueue x).toList = ring.toList.tail ++ [x] := by
  have headLt := ring.head_lt
  have tailLt := ring.tail_lt
  have counts := ring.count_cases
  have headStep := next_cases headLt
  have tailStep := next_cases tailLt
  have tailMoved : (ring.enqueue x).tail = next cap ring.tail := if_pos fills
  have kept : (ring.enqueue x).count = ring.count := by
    have after := (ring.enqueue x).count_cases
    rw [tailMoved, show (ring.enqueue x).head = next cap ring.head from rfl] at after
    omega
  have busy : ring.count = cap - 1 := by omega
  apply List.ext_getElem (by simp [kept]; omega)
  intro i left _
  simp only [length_toList, kept] at left
  have place := index_cases (i := 1 + i) tailLt (by omega)
  have shifted : (next cap ring.tail + i) % cap = (ring.tail + (1 + i)) % cap := by
    simp [next, Nat.mod_add_mod, Nat.add_assoc]
  rw [getElem_toList, tailMoved, shifted,
    show (ring.enqueue x).slots = Function.update ring.slots ring.head x from rfl]
  by_cases last : 1 + i = ring.count
  · have atHead : (ring.tail + (1 + i)) % cap = ring.head := by omega
    rw [List.getElem_append_right (by simp; omega), atHead]
    simp
  · have offHead : (ring.tail + (1 + i)) % cap ≠ ring.head := by omega
    rw [List.getElem_append_left (by simp; omega), Function.update_of_ne offHead, List.getElem_tail,
      getElem_toList, Nat.add_comm 1 i]

theorem toList_enqueue (room : 1 < cap) (ring : Ring α cap) (x : α) :
    (ring.enqueue x).toList = pushBounded (cap - 1) ring.toList x := by
  have headLt := ring.head_lt
  have tailLt := ring.tail_lt
  have counts := ring.count_cases
  have headStep := next_cases headLt
  by_cases fills : next cap ring.head = ring.tail
  · have nonempty : ring.toList ≠ [] := by
      rw [← List.length_pos_iff, length_toList]
      omega
    have gone : ring.count + 1 - (cap - 1) = 1 := by omega
    rw [toList_enqueue_of_full x fills room, pushBounded, length_toList, gone, List.drop_one,
      List.tail_append_of_ne_nil nonempty]
  · have kept : ring.count + 1 - (cap - 1) = 0 := by omega
    rw [toList_enqueue_of_room x fills, pushBounded, length_toList, kept, List.drop_zero]

def enqueueAll (ring : Ring α cap) (batch : List α) : Ring α cap := batch.foldl enqueue ring

theorem toList_enqueueAll (room : 1 < cap) (ring : Ring α cap) (batch : List α) :
    (ring.enqueueAll batch).toList = pushAllBounded (cap - 1) ring.toList batch := by
  induction batch generalizing ring with
  | nil => rfl
  | cons x rest ih =>
      change (Ring.enqueueAll (ring.enqueue x) rest).toList = _
      rw [ih, toList_enqueue room]
      rfl

end Ring

end Iland.Data

import Mathlib

namespace Iland.Egl

/-! The attribute list that `eglChooseConfig` passes on.

A list is a run of names and values up to `EGL_NONE`.  The memory that a pointer
to it leads to goes on behind that.
-/

abbrev EGLint := Int32

def eglNone : EGLint := 0x3038
def eglSurfaceType : EGLint := 0x3033
def eglPbufferBit : EGLint := 1

def stackBufLength : ℕ := 65

/-- How many elements are before the `EGL_NONE`, of which every second is read;
`none` if there is none in the memory. -/
def countAttribs : List EGLint → Option ℕ
  | [] => none
  | [name] => if name = eglNone then some 0 else none
  | name :: _ :: rest => if name = eglNone then some 0 else (countAttribs rest).map (· + 2)

/-- The loop over the copied list: the first value of `EGL_SURFACE_TYPE`. -/
def rewriteSurfaceType : List EGLint → List EGLint
  | name :: value :: rest =>
      if name = eglNone then name :: value :: rest
      else if name = eglSurfaceType then name :: eglPbufferBit :: rest
      else name :: value :: rewriteSurfaceType rest
  | short => short

inductive Stop where
  /-- No `EGL_NONE` up to the end of the memory. -/
  | badAddress
  /-- `n_attribs` exceeds `INT_MAX`. -/
  | signedOverflow

structure Outcome where
  /-- How many elements of the list, from its first on, have been read or passed by. -/
  read : ℕ
  /-- The list that the real `eglChooseConfig` is called with, NULL as `none`, if
  it is called. -/
  passed : Option (Option (List EGLint))

/-- `eglChooseConfig`: `shim` says whether the display is one of this library,
and `stackBuf` is what happens to be in `stack_buf`. -/
def eglChooseConfig (shim : Bool) (attribList : Option (List EGLint)) (stackBuf : Vector EGLint stackBufLength)
    (malloc : Bool) : Except Stop Outcome :=
  if shim = false then .ok ⟨0, some attribList⟩
  else
    match attribList with
    | none => .ok ⟨0, some (some stackBuf.toList)⟩
    | some memory =>
        match countAttribs memory with
        | none => .error .badAddress
        | some before =>
            let nAttribs := before + 1
            if nAttribs + 1 ≥ 2 ^ 31 then .error .signedOverflow
            else if nAttribs + 1 > stackBufLength then
              if malloc = false then .ok ⟨nAttribs, none⟩
              else .ok ⟨nAttribs + 1, some (some (rewriteSurfaceType (memory.take (nAttribs + 1))))⟩
            else
              .ok ⟨nAttribs + 1, some (some (rewriteSurfaceType
                (memory.take (nAttribs + 1) ++ stackBuf.toList.drop (nAttribs + 1))))⟩

/-! What the client means. -/

abbrev Attrib := EGLint × EGLint

def elements (pairs : List Attrib) : List EGLint := pairs.flatMap fun pair => [pair.1, pair.2]

/-- The attributes that a list gives, up to its end. -/
def attribsOf : List EGLint → Option (List Attrib)
  | [] => none
  | [name] => if name = eglNone then some [] else none
  | name :: value :: rest => if name = eglNone then some [] else (attribsOf rest).map ((name, value) :: ·)

def toPbuffer (pair : Attrib) : Attrib := if pair.1 = eglSurfaceType then (pair.1, eglPbufferBit) else pair

/-- A client's list with whatever is behind it. -/
def memoryOf (pairs : List Attrib) (behind : List EGLint) : List EGLint := elements pairs ++ eglNone :: behind

/-- What is passed for NULL or a list. -/
def PassesFor : Option (List Attrib) → Option (List EGLint) → Prop
  | none, none => True
  | none, some list => attribsOf list = some []
  | some _, none => False
  | some pairs, some list => attribsOf list = some (pairs.map toPbuffer)

/-- The call reads nothing beyond the end of the list, and passes on its
attributes with pbuffers for surfaces. -/
structure PassesOn (shim : Bool) (pairs : Option (List Attrib)) (behind : List EGLint)
    (stackBuf : Vector EGLint stackBufLength) (malloc : Bool) : Prop where
  returns : ∃ outcome, eglChooseConfig shim (pairs.map (memoryOf · behind)) stackBuf malloc = .ok outcome
  within : ∀ outcome, eglChooseConfig shim (pairs.map (memoryOf · behind)) stackBuf malloc = .ok outcome →
    outcome.read ≤ ((pairs.map fun pairs => (elements pairs).length + 1).getD 0)
  passes : ∀ outcome list, eglChooseConfig shim (pairs.map (memoryOf · behind)) stackBuf malloc = .ok outcome →
    outcome.passed = some list → PassesFor pairs list

variable {shim malloc : Bool} {pairs : List Attrib} {behind : List EGLint} {stackBuf : Vector EGLint stackBufLength}

@[simp] theorem elements_cons (pair : Attrib) (rest : List Attrib) :
    elements (pair :: rest) = pair.1 :: pair.2 :: elements rest := rfl

theorem length_elements (pairs : List Attrib) : (elements pairs).length = 2 * pairs.length := by
  induction pairs with
  | nil => rfl
  | cons pair rest ih =>
      simp only [elements_cons, List.length_cons, ih]
      omega

/-- The attributes that are counted are those that the list gives. -/
theorem countAttribs_eq (memory : List EGLint) :
    countAttribs memory = (attribsOf memory).map (fun pairs => (elements pairs).length) := by
  induction memory using attribsOf.induct with
  | case1 => rfl
  | case2 => rfl
  | case3 name other =>
      simp only [countAttribs, attribsOf, other, if_false]
      rfl
  | case4 value rest => rfl
  | case5 name value rest other ih =>
      simp only [countAttribs, attribsOf, other, if_false, ih, Option.map_map]
      rfl

/-- A list ends at its own `EGL_NONE`, whatever is behind it. -/
theorem attribsOf_memoryOf (closed : ∀ pair ∈ pairs, pair.1 ≠ eglNone) (behind : List EGLint) :
    attribsOf (memoryOf pairs behind) = some pairs := by
  induction pairs with
  | nil => cases behind <;> rfl
  | cons pair rest ih =>
      have own := closed pair List.mem_cons_self
      have later := ih fun other member => closed other (List.mem_cons_of_mem _ member)
      simp only [memoryOf, elements_cons, List.cons_append, attribsOf, own, if_false] at later ⊢
      rw [later]
      rfl

theorem countAttribs_memoryOf (closed : ∀ pair ∈ pairs, pair.1 ≠ eglNone) (behind : List EGLint) :
    countAttribs (memoryOf pairs behind) = some (elements pairs).length := by
  rw [countAttribs_eq, attribsOf_memoryOf closed, Option.map_some]

/-- The list after the loop: only the first `EGL_SURFACE_TYPE` has changed. -/
def rewriteFirst : List Attrib → List Attrib
  | [] => []
  | pair :: rest => if pair.1 = eglSurfaceType then toPbuffer pair :: rest else pair :: rewriteFirst rest

theorem rewriteSurfaceType_memoryOf (closed : ∀ pair ∈ pairs, pair.1 ≠ eglNone) (behind : List EGLint) :
    rewriteSurfaceType (memoryOf pairs behind) = memoryOf (rewriteFirst pairs) behind := by
  induction pairs with
  | nil => cases behind <;> rfl
  | cons pair rest ih =>
      have own := closed pair List.mem_cons_self
      have later := ih fun other member => closed other (List.mem_cons_of_mem _ member)
      simp only [memoryOf, elements_cons, List.cons_append, rewriteSurfaceType, own, if_false, rewriteFirst,
        toPbuffer] at later ⊢
      split
      · simp
      · simp [later]

theorem take_memoryOf (pairs : List Attrib) (behind : List EGLint) :
    (memoryOf pairs behind).take ((elements pairs).length + 1 + 1) = memoryOf pairs (behind.take 1) := by
  rw [memoryOf, Nat.add_assoc, List.take_length_add_append]
  rfl

/-- A call for a display of this library and a list reads one element too many,
or makes no call. -/
theorem eglChooseConfig_list (closed : ∀ pair ∈ pairs, pair.1 ≠ eglNone) :
    eglChooseConfig true (some (memoryOf pairs behind)) stackBuf malloc =
      if 2 * pairs.length + 2 ≥ 2 ^ 31 then .error .signedOverflow
      else if 2 * pairs.length + 2 > stackBufLength ∧ malloc = false then .ok ⟨2 * pairs.length + 1, none⟩
      else .ok ⟨2 * pairs.length + 2, some (some (memoryOf (rewriteFirst pairs) (behind.take 1 ++
        if 2 * pairs.length + 2 > stackBufLength then [] else stackBuf.toList.drop (2 * pairs.length + 2))))⟩ := by
  have behindStack (junk : List EGLint) :
      memoryOf pairs (behind.take 1) ++ junk = memoryOf pairs (behind.take 1 ++ junk) := by
    simp only [memoryOf, List.append_assoc, List.cons_append]
  simp only [eglChooseConfig, Bool.true_eq_false, if_false, countAttribs_memoryOf closed, take_memoryOf, behindStack,
    rewriteSurfaceType_memoryOf closed]
  rw [length_elements]
  split
  · rfl
  · by_cases long : 2 * pairs.length + 2 > stackBufLength
    · simp only [long, true_and, if_true, List.append_nil]
    · simp only [long, false_and, if_false]

/-- What is passed for a list differs from it in the first `EGL_SURFACE_TYPE`. -/
theorem eglChooseConfig_passes (closed : ∀ pair ∈ pairs, pair.1 ≠ eglNone) {outcome : Outcome}
    {list : Option (List EGLint)}
    (returned : eglChooseConfig true (some (memoryOf pairs behind)) stackBuf malloc = .ok outcome)
    (passed : outcome.passed = some list) :
    ∃ elements, list = some elements ∧ attribsOf elements = some (rewriteFirst pairs) := by
  have stillClosed : ∀ pair ∈ rewriteFirst pairs, pair.1 ≠ eglNone := by
    clear returned passed
    induction pairs with
    | nil => simp [rewriteFirst]
    | cons pair rest ih =>
        have own := closed pair List.mem_cons_self
        have later := fun other member => closed other (List.mem_cons_of_mem _ member)
        intro other member
        simp only [rewriteFirst] at member
        split at member
        · rcases List.mem_cons.mp member with rfl | tail
          · simpa [toPbuffer] using by split <;> exact own
          · exact later other tail
        · rcases List.mem_cons.mp member with rfl | tail
          · exact own
          · exact ih later other tail
  rw [eglChooseConfig_list closed] at returned
  split at returned
  · contradiction
  · split at returned <;> cases returned <;> cases passed
    exact ⟨_, rfl, attribsOf_memoryOf stillClosed _⟩

/-- The list is NULL and the first element of `stack_buf` ends it, there is no
memory for the copy and so no call, or the display is foreign and the list asks
for pbuffers by itself. -/
def Avoids (shim : Bool) (pairs : Option (List Attrib)) (stackBuf : Vector EGLint stackBufLength)
    (malloc : Bool) : Prop :=
  match shim, pairs with
  | true, none => stackBuf.toList.head? = some eglNone
  | true, some pairs => malloc = false ∧ stackBufLength < 2 * pairs.length + 2 ∧ 2 * pairs.length + 2 < 2 ^ 31
  | false, none => True
  | false, some pairs => ∀ pair ∈ pairs, pair.1 = eglSurfaceType → pair.2 = eglPbufferBit

theorem attribsOf_eq_nil_iff {name value : EGLint} {rest : List EGLint} :
    attribsOf (name :: value :: rest) = some [] ↔ name = eglNone := by
  simp only [attribsOf]
  split
  · rename_i closes
    exact iff_of_true rfl closes
  · rename_i opens
    refine iff_of_false ?_ opens
    cases attribsOf rest <;> simp

theorem map_toPbuffer_eq_iff :
    pairs.map toPbuffer = pairs ↔ ∀ pair ∈ pairs, pair.1 = eglSurfaceType → pair.2 = eglPbufferBit := by
  have same : pairs.map toPbuffer = pairs ↔ ∀ pair ∈ pairs, toPbuffer pair = pair := by
    conv_lhs => rhs; rw [← List.map_id pairs]
    exact List.map_inj_left
  rw [same]
  refine forall₂_congr fun pair member => ?_
  simp only [toPbuffer]
  split
  · rename_i surface
    simp only [surface, true_imp_iff, Prod.ext_iff, true_and]
    exact eq_comm
  · rename_i other
    simp [other]

theorem passesOn_iff_of_ok {list : Option (List Attrib)} {outcome : Outcome}
    (returned : eglChooseConfig shim (list.map (memoryOf · behind)) stackBuf malloc = .ok outcome) :
    PassesOn shim list behind stackBuf malloc ↔
      outcome.read ≤ ((list.map fun pairs => (elements pairs).length + 1).getD 0) ∧
        ∀ passed, outcome.passed = some passed → PassesFor list passed := by
  constructor
  · intro passes
    exact ⟨passes.within outcome returned, fun passed => passes.passes outcome passed returned⟩
  · rintro ⟨within, passes⟩
    refine ⟨⟨outcome, returned⟩, fun other returned' => ?_, fun other passed returned' => ?_⟩
    · rw [returned, Except.ok.injEq] at returned'
      exact returned' ▸ within
    · rw [returned, Except.ok.injEq] at returned'
      exact returned' ▸ passes passed

/-- What is passed on is right, and nothing behind the list is read, exactly in
these cases. -/
theorem passes_on_iff {list : Option (List Attrib)} (closed : ∀ pairs ∈ list, ∀ pair ∈ pairs, pair.1 ≠ eglNone)
    (behind : List EGLint) (stackBuf : Vector EGLint stackBufLength) (malloc : Bool) :
    PassesOn shim list behind stackBuf malloc ↔ Avoids shim list stackBuf malloc := by
  cases shim with
  | false =>
      cases list with
      | none =>
          have returned : eglChooseConfig false none stackBuf malloc = .ok ⟨0, some none⟩ := rfl
          rw [passesOn_iff_of_ok returned]
          simp [Avoids, PassesFor]
      | some pairs =>
          have returned : eglChooseConfig false (some (memoryOf pairs behind)) stackBuf malloc =
              .ok ⟨0, some (some (memoryOf pairs behind))⟩ := rfl
          rw [passesOn_iff_of_ok returned]
          simp only [Nat.zero_le, true_and, Option.some.injEq, forall_eq', PassesFor,
            attribsOf_memoryOf (closed pairs rfl), Avoids]
          exact eq_comm.trans map_toPbuffer_eq_iff
  | true =>
      cases list with
      | none =>
          have returned : eglChooseConfig true none stackBuf malloc = .ok ⟨0, some (some stackBuf.toList)⟩ := rfl
          rw [passesOn_iff_of_ok returned]
          simp only [Nat.zero_le, true_and, Option.some.injEq, forall_eq', PassesFor, Avoids]
          have size : stackBuf.toList.length = stackBufLength := stackBuf.length_toList
          match buffer : stackBuf.toList, size with
          | name :: value :: rest, _ => simp [attribsOf_eq_nil_iff]
      | some pairs =>
          have own := closed pairs rfl
          have outcome : eglChooseConfig true (some (memoryOf pairs behind)) stackBuf malloc = _ :=
            eglChooseConfig_list own
          simp only [Avoids]
          split at outcome
          · rename_i overflow
            refine iff_of_false (fun passes => ?_) (by omega)
            obtain ⟨result, returned⟩ := passes.returns
            cases outcome.symm.trans returned
          · split at outcome
            · rename_i fits silent
              rw [passesOn_iff_of_ok outcome]
              simp [length_elements, silent.2]
              omega
            · rename_i fits calls
              rw [passesOn_iff_of_ok outcome]
              simp only [Option.map_some, Option.getD_some, length_elements]
              refine iff_of_false (by omega) ?_
              rintro ⟨noMemory, long, _⟩
              exact calls ⟨long, noMemory⟩

/-- A list of two pairs on this library's display, with more memory behind it. -/
theorem passes_on_iff_two :
    PassesOn true (some [(eglSurfaceType, 4), (0x3024, 8)]) [0x3023, 8] (Vector.replicate 65 0) true ↔
      Avoids true (some [(eglSurfaceType, 4), (0x3024, 8)]) (Vector.replicate 65 0) true :=
  passes_on_iff (by rintro _ ⟨⟩; simp [eglSurfaceType, eglNone]) _ _ true

/-- The empty list is read beyond its end. -/
theorem empty_list_read_beyond :
    (∃ passed, eglChooseConfig true (some [eglNone, 7]) (Vector.replicate 65 0) true = .ok ⟨2, passed⟩) ∧
      ¬ PassesOn true (some []) [7] (Vector.replicate 65 0) true := by
  have nothing : ∀ pair ∈ ([] : List Attrib), pair.1 ≠ eglNone := by simp
  have outcome : eglChooseConfig true (some (memoryOf [] [7])) (Vector.replicate 65 0) true = _ :=
    eglChooseConfig_list nothing
  simp only [List.length_nil, Nat.mul_zero, Nat.zero_add, Bool.true_eq_false, and_false, if_false] at outcome
  refine ⟨⟨_, outcome⟩, fun passes => ?_⟩
  have within := passes.within _ outcome
  revert within
  decide

end Iland.Egl

import Iland.Drm.Atomic

namespace Iland.Drm

open Iland.Data
open Iland.Sdl

variable {host : Host}

/-! What an atomic commit does, without its index checks.

The checks never fail but for one kind of triple, a position of an object 0
that has a record; `commitTriple_eq` and `commitTriple_stray` say so, and the
rest of the development reasons about the unchecked commit.
-/

def flipCrtc (host : Host) (objId : UInt32) (props : PropStore) : UInt32 :=
  if objId.toNat > host.getDisplayCount then
    let crtcVal := (props.get PropId.crtcId).getD 0
    if 0 < crtcVal then crtcVal.toUInt32 else 1
  else objId

theorem flipCrtc_of_le {objId : UInt32} (known : objId.toNat ≤ host.getDisplayCount) (props : PropStore) :
    flipCrtc host objId props = objId :=
  if_neg (not_lt.mpr known)

theorem scan_props (props : PropStore) (propId : UInt32) :
    scan .propArrays (fun pair => pair.1 == propId) props.entries = .ok (props.lookup propId) := by
  have sameTest : (fun pair : UInt32 × UInt64 => pair.1 == propId) = fun pair => decide (pair.1 = propId) := by
    funext pair
    simp [Bool.beq_eq_decide_eq]
  rw [scan_eq .propArrays props.bound, sameTest]
  rfl

theorem planeCrtc_eq (objId : UInt32) (props : PropStore) :
    planeCrtc host objId props = .ok (flipCrtc host objId props) := by
  simp only [planeCrtc, flipCrtc, scan_props, bind, Except.bind]
  split <;> rfl

def position (state : CrtcState) (props : PropStore) : Int32 × Int32 :=
  (((props.get PropId.crtcX).map toCInt).getD state.x, ((props.get PropId.crtcY).map toCInt).getD state.y)

theorem foldl_last_match {κ : Type u} {ν : Type v} {γ : Type w} [DecidableEq κ] (k : κ) (f : ν → γ)
    {pairs : List (κ × ν)} (distinct : (pairs.map Prod.fst).Nodup) (start : γ) :
    pairs.foldl (fun last pair => if pair.1 = k then f pair.2 else last) start =
      (((pairs.find? (fun pair => decide (pair.1 = k))).map Prod.snd).map f).getD start := by
  induction pairs generalizing start with
  | nil => rfl
  | cons pair rest ih =>
      simp only [List.map_cons, List.nodup_cons] at distinct
      by_cases same : pair.1 = k
      · have none : rest.find? (fun pair => decide (pair.1 = k)) = none := by
          apply List.find?_eq_none.mpr
          intro other member
          have different : other.1 ≠ k := fun equal =>
            distinct.1 (same.trans equal.symm ▸ List.mem_map_of_mem member)
          simpa using different
        simp [same, ih distinct.2, none]
      · simp [same, ih distinct.2]

theorem foldl_prod (f : β → α → β) (g : γ → α → γ) (start : β × γ) (xs : List α) :
    xs.foldl (fun both x => (f both.1 x, g both.2 x)) start = (xs.foldl f start.1, xs.foldl g start.2) := by
  induction xs generalizing start with
  | nil => rfl
  | cons x rest ih => exact ih _

theorem planePosition_eq (state : CrtcState) (props : PropStore) :
    planePosition state props = .ok (position state props) := by
  have separate := foldl_prod
    (fun (x : Int32) (pair : UInt32 × UInt64) => if pair.1 = PropId.crtcX then toCInt pair.2 else x)
    (fun (y : Int32) (pair : UInt32 × UInt64) => if pair.1 = PropId.crtcY then toCInt pair.2 else y)
    (state.x, state.y) props.entries
  rw [planePosition, each_eq .propArrays props.bound, separate,
    foldl_last_match _ _ props.distinct, foldl_last_match _ _ props.distinct]
  rfl

def addFlip (flipCrtcs : List UInt32) (crtcId : UInt32) : List UInt32 :=
  if flipCrtcs.length < 8 ∧ crtcId ∉ flipCrtcs then flipCrtcs ++ [crtcId] else flipCrtcs

theorem noteFlip_eq (crtcId : UInt32) (flipCrtcs : List UInt32) :
    noteFlip crtcId flipCrtcs = .ok (addFlip flipCrtcs crtcId) := by
  by_cases room : flipCrtcs.length < 8
  · simp only [noteFlip, if_pos room, scan_eq .flipCrtcs (Nat.le_of_lt room), bind, Except.bind, addFlip]
    cases hit : flipCrtcs.find? (· == crtcId) with
    | some other =>
        have same : other = crtcId := by simpa using List.find?_some hit
        have present : crtcId ∈ flipCrtcs := same ▸ List.mem_of_find?_eq_some hit
        simp [present, pure, Except.pure]
    | none =>
        have absent : crtcId ∉ flipCrtcs := by
          intro present
          simpa using List.find?_eq_none.mp hit crtcId present
        simp [room, absent, checkIndex_nat (show flipCrtcs.length < CArray.flipCrtcs.size from room), pure, Except.pure]
  · simp [noteFlip, addFlip, room, pure, Except.pure]

theorem length_addFlip {flipCrtcs : List UInt32} (few : flipCrtcs.length ≤ 8) (crtcId : UInt32) :
    (addFlip flipCrtcs crtcId).length ≤ 8 := by
  simp only [addFlip]
  split
  · simp only [List.length_append, List.length_singleton]
    omega
  · exact few

theorem nodup_addFlip {flipCrtcs : List UInt32} (distinct : flipCrtcs.Nodup) (crtcId : UInt32) :
    (addFlip flipCrtcs crtcId).Nodup := by
  simp only [addFlip]
  split
  · rename_i fresh
    refine List.nodup_append.mpr ⟨distinct, List.nodup_singleton crtcId, ?_⟩
    intro other member single last same
    exact fresh.2 (List.mem_singleton.mp last ▸ same ▸ member)
  · exact distinct

def showPlane (host : Host) (dev : Device) (crtcId fbId : UInt32) (props : PropStore) : Device :=
  match dev.fbIdToSurface fbId with
  | none => dev
  | some surf =>
      let idx := clampIndex (idIndex crtcId)
      let at' := position (dev.gState idx) props
      (dev.present host surf crtcId at'.1 at'.2).setState idx { dev.gState idx with crtcFbId := fbId }

theorem presentPlane_eq (dev : Device) (crtcId fbId : UInt32) (props : PropStore) :
    presentPlane host dev crtcId fbId props = .ok (showPlane host dev crtcId fbId props) := by
  simp only [presentPlane, showPlane, planePosition_eq, bind, Except.bind]
  cases dev.fbIdToSurface fbId <;> rfl

def moveCrtc (host : Host) (dev : Device) (t : Triple) : Device :=
  if t.objId.toNat > host.getDisplayCount then dev
  else
    let idx := clampIndex (idIndex t.objId)
    dev.setState idx { dev.gState idx with
      x := if t.propId = PropId.crtcX then toCInt t.value else (dev.gState idx).x
      y := if t.propId = PropId.crtcY then toCInt t.value else (dev.gState idx).y }

theorem idIndex_of_le {id : UInt32} (known : id.toNat ≤ maxCrtcs) : idIndex id = id.toNat - 1 := by
  rw [idIndex, toInt_toInt32 (known.trans_lt (by decide))]

theorem stateIndex_eq {id : UInt32} (known : id.toNat ≤ maxCrtcs) (some : id ≠ 0) :
    stateIndex (idIndex id) = .ok (clampIndex (idIndex id)) := by
  have positive : 0 < id.toNat := by
    rw [Nat.pos_iff_ne_zero]
    exact fun zero => some (UInt32.toNat_inj.mp zero)
  have inside : 0 ≤ idIndex id ∧ idIndex id < maxCrtcs := by
    rw [idIndex_of_le known]
    omega
  simp [stateIndex, clampIndex, inside]

theorem movePlane_eq {t : Triple} (some : t.objId ≠ 0) (dev : Device) :
    movePlane host dev t = .ok (moveCrtc host dev t) := by
  by_cases beyond : t.objId.toNat > host.getDisplayCount
  · simp [movePlane, moveCrtc, beyond, pure, Except.pure]
  · have known : t.objId.toNat ≤ maxCrtcs := (not_lt.mp beyond).trans host.getDisplayCount_le
    simp only [movePlane, moveCrtc, beyond, if_false, stateIndex_eq known some, bind, Except.bind]
    rfl

theorem movePlane_zero {t : Triple} (zero : t.objId = 0) (dev : Device) :
    movePlane host dev t = .error (.outOfBounds .gState (-1)) := by
  have beyond : ¬ (0 : UInt32).toNat > host.getDisplayCount := Nat.not_lt_zero _
  rw [movePlane, zero, if_neg beyond]
  rfl

def Committing.flip (host : Host) (s : Committing) (t : Triple) (props : PropStore) : Committing :=
  let crtcId := flipCrtc host t.objId props
  { dev := showPlane host s.dev crtcId t.value.toUInt32 props
    newFbId := t.value.toUInt32
    newPlaneId := t.objId
    flipCrtcs := addFlip s.flipCrtcs crtcId }

theorem flipPlane_eq (s : Committing) (t : Triple) (props : PropStore) :
    flipPlane host s t props = .ok (s.flip host t props) := by
  simp only [flipPlane, planeCrtc_eq, presentPlane_eq, noteFlip_eq, bind, Except.bind]
  rfl

def Committing.react (host : Host) (s : Committing) (t : Triple) (props : PropStore) : Committing :=
  if t.propId = PropId.fbId then s.flip host t props
  else if t.propId = PropId.crtcX ∨ t.propId = PropId.crtcY then s.withDev (moveCrtc host s.dev t)
  else s

/-- Store the value of a triple in the first record with its object id. -/
def ObjTable.applyTriple (table : ObjTable) (t : Triple) : ObjTable :=
  match table.first t.objId with
  | none => table
  | some op => table.setProps (fun record => record.objId == t.objId) (op.props.assign t.propId t.value)

def Committing.apply (host : Host) (s : Committing) (t : Triple) : Committing :=
  match s.dev.gObjProps.first t.objId with
  | none => s
  | some op =>
      (s.withTable (s.dev.gObjProps.applyTriple t)).react host t (op.props.assign t.propId t.value)

/-- The triples that reach `g_state[-1]`. -/
def Strays (table : ObjTable) (t : Triple) : Prop :=
  t.objId = 0 ∧ (t.propId = PropId.crtcX ∨ t.propId = PropId.crtcY) ∧ (table.first 0).isSome

instance (table : ObjTable) (t : Triple) : Decidable (Strays table t) := by
  unfold Strays; infer_instance

theorem fbId_not_position : PropId.fbId ≠ PropId.crtcX ∧ PropId.fbId ≠ PropId.crtcY := by decide

theorem scan_first (table : ObjTable) (objId : UInt32) :
    scan .gObjProps (fun record => record.objId == objId) table.entries = .ok (table.first objId) :=
  scan_eq .gObjProps table.bound

theorem commitTriple_eq {s : Committing} {t : Triple} (safe : ¬ Strays s.dev.gObjProps t) :
    commitTriple host s t = .ok (s.apply host t) := by
  simp only [commitTriple, Committing.apply, scan_first, setObjProp_eq, bind, Except.bind]
  cases found : s.dev.gObjProps.first t.objId with
  | none => rfl
  | some op =>
      simp only [flipPlane_eq, Committing.react, ObjTable.applyTriple, found]
      by_cases flips : t.propId = PropId.fbId
      · have fixed : ¬ (t.propId = PropId.crtcX ∨ t.propId = PropId.crtcY) := by
          rw [flips]
          exact not_or.mpr fbId_not_position
        simp only [if_pos flips, fixed, if_false]
        rfl
      · by_cases moves : t.propId = PropId.crtcX ∨ t.propId = PropId.crtcY
        · have nonzero : t.objId ≠ 0 := fun zero => safe ⟨zero, moves, by simp [← zero, found]⟩
          simp only [if_neg flips, if_pos moves, movePlane_eq nonzero, pure, Except.pure]
        · simp only [if_neg flips, if_neg moves, pure, Except.pure]

theorem commitTriple_stray {s : Committing} {t : Triple} (stray : Strays s.dev.gObjProps t) :
    commitTriple host s t = .error (.outOfBounds .gState (-1)) := by
  obtain ⟨zero, moves, present⟩ := stray
  obtain ⟨op, found⟩ := Option.isSome_iff_exists.mp present
  have still : t.propId ≠ PropId.fbId := by
    rintro same
    rw [same] at moves
    exact not_or.mpr fbId_not_position moves
  simp only [commitTriple, scan_first, setObjProp_eq, bind, Except.bind, zero, found, if_neg still, if_pos moves,
    pure, Except.pure]
  rw [movePlane_zero zero]

end Iland.Drm

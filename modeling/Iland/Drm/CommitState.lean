import Iland.Drm.CommitLoop

namespace Iland.Drm

open Iland.Data
open Iland.Sdl

variable {host : Host} {s : Committing} {t : Triple} {n : ℕ}

/-! What a commit does to the CRTC states and what it presents.

Of the fields of a CRTC state, the mode never changes, the position follows
the CRTC_X and CRTC_Y triples of the CRTC's own id, and the framebuffer id
follows the FB_ID triples whose framebuffer exists.
-/

def place (id : UInt32) : Fin maxCrtcs := clampIndex (idIndex id)

theorem place_eq {id : UInt32} (known : id ∈ objectIds host.getDisplayCount) : (place id).val = id.toNat - 1 := by
  obtain ⟨positive, few⟩ := (mem_objectIds host.getDisplayCount_le).mp known
  have inside := few.trans host.getDisplayCount_le
  have index := idIndex_of_le inside
  have bounds : 0 ≤ idIndex id ∧ idIndex id < maxCrtcs := by omega
  simp only [place, clampIndex, dif_pos bounds]
  omega

theorem crtcIndex_of_known {id : UInt32} (known : id ∈ objectIds host.getDisplayCount) :
    crtcIndex host id = some (place id) := by
  have inside := (mem_objectIds host.getDisplayCount_le).mp known
  rw [crtcIndex, dif_pos inside, Option.some.injEq, Fin.ext_iff, place_eq known]

/-- A `drmModeSetCrtc` of a display succeeds, and sets its CRTC state. -/
theorem drmModeSetCrtc_known {dev : Device} {id : UInt32} (known : id ∈ objectIds host.getDisplayCount)
    (fbId x y : UInt32) (mode : Option ModeInfo) :
    (drmModeSetCrtc host dev drmVirtualFd id fbId x y mode).1 = .ok () ∧
      (drmModeSetCrtc host dev drmVirtualFd id fbId x y mode).2.gState = Function.update dev.gState (place id)
        ⟨fbId, mode.getD (dev.gState (place id)).crtcMode, mode.isSome, x.toInt32, y.toInt32⟩ := by
  simp only [drmModeSetCrtc, checkFd, ne_eq, not_true_eq_false, if_false, crtcIndex_of_known known]
  split
  · split <;> exact ⟨rfl, rfl⟩
  · exact ⟨rfl, rfl⟩

theorem known_nonzero {n : ℕ} (few : n ≤ maxCrtcs) {id : UInt32} (known : id ∈ objectIds n) : id ≠ 0 := by
  rintro rfl
  simp [mem_objectIds few] at known

theorem place_inj {id other : UInt32} (known : id ∈ objectIds host.getDisplayCount)
    (otherKnown : other ∈ objectIds host.getDisplayCount) (same : place id = place other) : id = other := by
  have left := place_eq known
  have right := place_eq otherKnown
  obtain ⟨positive, _⟩ := (mem_objectIds host.getDisplayCount_le).mp known
  obtain ⟨otherPositive, _⟩ := (mem_objectIds host.getDisplayCount_le).mp otherKnown
  rw [← UInt32.toNat_inj]
  rw [same] at left
  omega

def Lands (table : ObjTable) (t : Triple) : Prop := (table.first t.objId).isSome

def Flips (table : ObjTable) (t : Triple) : Prop := t.propId = PropId.fbId ∧ Lands table t

def Shows (dev : Device) (t : Triple) : Prop :=
  Flips dev.gObjProps t ∧ (dev.fbIdToSurface t.value.toUInt32).isSome

def Moves (host : Host) (table : ObjTable) (t : Triple) : Prop :=
  (t.propId = PropId.crtcX ∨ t.propId = PropId.crtcY) ∧ Lands table t ∧ t.objId.toNat ≤ host.getDisplayCount

instance (table : ObjTable) (t : Triple) : Decidable (Lands table t) := by unfold Lands; infer_instance
instance (table : ObjTable) (t : Triple) : Decidable (Flips table t) := by unfold Flips; infer_instance
instance (dev : Device) (t : Triple) : Decidable (Shows dev t) := by unfold Shows; infer_instance
instance (table : ObjTable) (t : Triple) : Decidable (Moves host table t) := by unfold Moves; infer_instance

@[simp] theorem lands_applyTriple {table : ObjTable} {t other : Triple} :
    Lands (table.applyTriple t) other ↔ Lands table other := by
  have same := table.first_applyAll_isSome [t] other.objId
  rw [ObjTable.applyAll_cons, ObjTable.applyAll_nil] at same
  simp only [Lands, same]

@[simp] theorem shows_apply {other : Triple} : Shows (s.apply host t).dev other ↔ Shows s.dev other := by
  simp only [Shows, Flips, Committing.gObjProps_apply, lands_applyTriple,
    (s.frame_apply t).fbIdToSurface]

theorem known_of_moves {table : ObjTable} (moves : Moves host table t) (safe : ¬ Strays table t) :
    t.objId ∈ objectIds host.getDisplayCount := by
  obtain ⟨position, lands, few⟩ := moves
  rw [mem_objectIds host.getDisplayCount_le]
  refine ⟨Nat.pos_of_ne_zero fun zero => ?_, few⟩
  have isZero : t.objId = 0 := UInt32.toNat_inj.mp zero
  exact safe ⟨isZero, position, isZero ▸ lands⟩

namespace CrtcState

def withFb (state : CrtcState) (fbId : UInt32) : CrtcState := { state with crtcFbId := fbId }

def moved (state : CrtcState) (writes : List (UInt32 × UInt64)) : CrtcState :=
  { state with
    x := ((lastValue PropId.crtcX writes).map toCInt).getD state.x
    y := ((lastValue PropId.crtcY writes).map toCInt).getD state.y }

variable (state : CrtcState)

@[simp] theorem withFb_self : state.withFb state.crtcFbId = state := rfl

@[simp] theorem withFb_withFb (first second : UInt32) : (state.withFb first).withFb second = state.withFb second := rfl

@[simp] theorem moved_withFb (fbId : UInt32) (writes : List (UInt32 × UInt64)) :
    (state.withFb fbId).moved writes = (state.moved writes).withFb fbId := rfl

@[simp] theorem moved_nil : state.moved [] = state := rfl

theorem moved_append (first second : List (UInt32 × UInt64)) :
    state.moved (first ++ second) = (state.moved first).moved second := by
  simp only [moved, lastValue_append, Option.map_or, Option.getD_or]

theorem moved_of_still {write : UInt32 × UInt64} (still : ¬ (write.1 = PropId.crtcX ∨ write.1 = PropId.crtcY)) :
    state.moved [write] = state := by
  obtain ⟨notX, notY⟩ := not_or.mp still
  simp [moved, lastValue, notX, notY]

end CrtcState

/-! One triple. -/

theorem apply_of_not_lands (misses : ¬ Lands s.dev.gObjProps t) : s.apply host t = s := by
  have none : s.dev.gObjProps.first t.objId = none := by simpa [Lands] using misses
  simp only [Committing.apply, none]

theorem apply_of_lands {op : ObjProps} (found : s.dev.gObjProps.first t.objId = some op) :
    s.apply host t = (s.withTable (s.dev.gObjProps.applyTriple t)).react host t (op.props.assign t.propId t.value) := by
  simp only [Committing.apply, found]

theorem gState_showPlane (dev : Device) (crtcId fbId : UInt32) (props : PropStore) (idx : Fin maxCrtcs) :
    (showPlane host dev crtcId fbId props).gState idx = (dev.gState idx).withFb
      (if (dev.fbIdToSurface fbId).isSome ∧ place crtcId = idx then fbId else (dev.gState idx).crtcFbId) := by
  simp only [showPlane]
  cases dev.fbIdToSurface fbId with
  | none => simp
  | some surf =>
      by_cases here : place crtcId = idx
      · subst here
        simp [Device.setState, Device.present, place, CrtcState.withFb]
      · have elsewhere : idx ≠ clampIndex (idIndex crtcId) := Ne.symm here
        simp [Device.setState, Device.present, here, Function.update_of_ne elsewhere]

theorem gState_moveCrtc (dev : Device) (idx : Fin maxCrtcs) :
    (moveCrtc host dev t).gState idx =
      if t.objId.toNat ≤ host.getDisplayCount ∧ place t.objId = idx then
        (dev.gState idx).moved [(t.propId, t.value)]
      else dev.gState idx := by
  simp only [moveCrtc]
  by_cases beyond : t.objId.toNat > host.getDisplayCount
  · simp [beyond]
  · by_cases here : place t.objId = idx
    · subst here
      have moved (prop : UInt32) (old : Int32) :
          ((lastValue prop [(t.propId, t.value)]).map toCInt).getD old = if t.propId = prop then toCInt t.value else old := by
        by_cases same : t.propId = prop <;> simp [lastValue, same]
      simp [beyond, not_lt.mp beyond, Device.setState, place, CrtcState.moved, moved]
    · have elsewhere : idx ≠ clampIndex (idIndex t.objId) := Ne.symm here
      simp [beyond, here, Device.setState, Function.update_of_ne elsewhere]

theorem apply_of_flips {op : ObjProps} (found : s.dev.gObjProps.first t.objId = some op) (flips : t.propId = PropId.fbId) :
    s.apply host t = (s.withTable (s.dev.gObjProps.applyTriple t)).flip host t (op.props.assign t.propId t.value) := by
  rw [apply_of_lands found, Committing.react, if_pos flips]

theorem apply_of_not_flips (still : ¬ Flips s.dev.gObjProps t) :
    s.apply host t = (s.withTable (s.dev.gObjProps.applyTriple t)).withDev
      (if Moves host s.dev.gObjProps t then moveCrtc host (s.dev.withTable (s.dev.gObjProps.applyTriple t)) t
        else s.dev.withTable (s.dev.gObjProps.applyTriple t)) := by
  cases found : s.dev.gObjProps.first t.objId with
  | none =>
      have misses : ¬ Lands s.dev.gObjProps t := by simp [Lands, found]
      have moves : ¬ Moves host s.dev.gObjProps t := fun moves => misses moves.2.1
      rw [apply_of_not_lands misses, if_neg moves, ObjTable.applyTriple, found]
      rfl
  | some op =>
      have lands : Lands s.dev.gObjProps t := Option.isSome_of_eq_some found
      have notFb : t.propId ≠ PropId.fbId := fun flips => still ⟨flips, lands⟩
      rw [apply_of_lands found, Committing.react, if_neg notFb]
      by_cases position : t.propId = PropId.crtcX ∨ t.propId = PropId.crtcY
      · rw [if_pos position]
        by_cases known : t.objId.toNat ≤ host.getDisplayCount
        · rw [if_pos ⟨position, lands, known⟩]
          rfl
        · rw [if_neg fun moves => known moves.2.2, moveCrtc, if_pos (not_le.mp known)]
          rfl
      · rw [if_neg position, if_neg fun moves => position moves.1]
        rfl

theorem gState_apply_of_flips {op : ObjProps} (found : s.dev.gObjProps.first t.objId = some op)
    (flips : t.propId = PropId.fbId) (idx : Fin maxCrtcs) :
    (s.apply host t).dev.gState idx = (s.dev.gState idx).withFb
      (if (s.dev.fbIdToSurface t.value.toUInt32).isSome ∧
          place (flipCrtc host t.objId (op.props.assign t.propId t.value)) = idx then t.value.toUInt32
        else (s.dev.gState idx).crtcFbId) := by
  rw [apply_of_flips found flips]
  exact gState_showPlane _ _ _ _ _

theorem gState_apply_of_not_flips (still : ¬ Flips s.dev.gObjProps t) (idx : Fin maxCrtcs) :
    (s.apply host t).dev.gState idx =
      if Moves host s.dev.gObjProps t ∧ place t.objId = idx then (s.dev.gState idx).moved [(t.propId, t.value)]
      else s.dev.gState idx := by
  rw [apply_of_not_flips still]
  by_cases moves : Moves host s.dev.gObjProps t
  · have known := moves.2.2
    simp only [moves, true_and, if_true]
    refine (gState_moveCrtc _ idx).trans ?_
    simp only [known, true_and]
    rfl
  · simp only [moves, false_and, if_false]
    rfl

theorem sdl_apply_of_not_shows (quiet : ¬ Shows s.dev t) : (s.apply host t).dev.sdl = s.dev.sdl := by
  by_cases flips : Flips s.dev.gObjProps t
  · obtain ⟨op, found⟩ := Option.isSome_iff_exists.mp flips.2
    have dark : s.dev.fbIdToSurface t.value.toUInt32 = none := by
      simpa using fun live => quiet ⟨flips, live⟩
    have darkNow : (s.withTable (s.dev.gObjProps.applyTriple t)).dev.fbIdToSurface t.value.toUInt32 = none := dark
    rw [apply_of_flips found flips.1]
    simp only [Committing.flip, showPlane, darkNow]
    rfl
  · rw [apply_of_not_flips flips]
    split
    · simp only [Committing.withDev, moveCrtc]
      split <;> rfl
    · rfl

theorem presented_apply_of_flips {op : ObjProps} {surf : IOSurface}
    (found : s.dev.gObjProps.first t.objId = some op) (flips : t.propId = PropId.fbId)
    (live : s.dev.fbIdToSurface t.value.toUInt32 = some surf) :
    let props := op.props.assign t.propId t.value
    let crtcId := flipCrtc host t.objId props
    let at' := position (s.dev.gState (place crtcId)) props
    (s.apply host t).dev.sdl.presented = s.dev.sdl.presented ++ [⟨surf, crtcId, at'.1, at'.2⟩] := by
  have liveNow : (s.withTable (s.dev.gObjProps.applyTriple t)).dev.fbIdToSurface t.value.toUInt32 = some surf := live
  rw [apply_of_flips found flips]
  simp only [Committing.flip, showPlane, liveNow]
  exact Backend.presented_sdlPresentIosurfaceForCrtc host s.dev.sdl surf _ _ _

def lastFlip (table : ObjTable) (triples : List Triple) : Option Triple :=
  (triples.filter (fun t => Flips table t)).getLast?

theorem newFb_apply :
    ((s.apply host t).newFbId, (s.apply host t).newPlaneId) =
      if Flips s.dev.gObjProps t then (t.value.toUInt32, t.objId) else (s.newFbId, s.newPlaneId) := by
  by_cases flips : Flips s.dev.gObjProps t
  · obtain ⟨op, found⟩ := Option.isSome_iff_exists.mp flips.2
    rw [if_pos flips, apply_of_flips found flips.1]
    rfl
  · rw [if_neg flips, apply_of_not_flips flips]
    rfl

/-! All triples. -/

def DisplaysLand (host : Host) (table : ObjTable) : Prop :=
  ∀ id ∈ objectIds host.getDisplayCount, (table.first id).isSome

theorem Ensured.displaysLand {table : ObjTable} (ensured : Ensured host.getDisplayCount table) :
    DisplaysLand host table := by
  intro id known
  rw [ensured.first_eq known]
  obtain ⟨record, found, _⟩ := ensured.present (crtcRecord id)
    (List.mem_append_left _ (List.mem_flatMap.mpr ⟨id, known, by simp⟩))
  exact Option.isSome_of_eq_some found

theorem DisplaysLand.applyTriple {table : ObjTable} (displays : DisplaysLand host table) (t : Triple) :
    DisplaysLand host (table.applyTriple t) := by
  intro id known
  have same := table.first_applyAll_isSome [t] id
  rw [ObjTable.applyAll_cons, ObjTable.applyAll_nil] at same
  rw [same]
  exact displays id known

theorem gState_apply (displays : DisplaysLand host s.dev.gObjProps) (safe : ¬ Strays s.dev.gObjProps t) {id : UInt32}
    (known : id ∈ objectIds host.getDisplayCount) :
    ∃ fbId, (s.apply host t).dev.gState (place id) =
      ((s.dev.gState (place id)).moved (writesTo id [t])).withFb fbId := by
  by_cases flips : Flips s.dev.gObjProps t
  · obtain ⟨op, found⟩ := Option.isSome_iff_exists.mp flips.2
    have still : (s.dev.gState (place id)).moved (writesTo id [t]) = s.dev.gState (place id) := by
      by_cases own : t.objId = id
      · rw [writesTo_cons_self own]
        apply CrtcState.moved_of_still
        rw [flips.1]
        exact not_or.mpr fbId_not_position
      · rw [writesTo_cons_other own]
        rfl
    rw [still, gState_apply_of_flips found flips.1]
    exact ⟨_, rfl⟩
  · refine ⟨(s.dev.gState (place id)).crtcFbId, ?_⟩
    rw [gState_apply_of_not_flips flips]
    by_cases own : t.objId = id
    · subst own
      rw [writesTo_cons_self rfl]
      have few := ((mem_objectIds host.getDisplayCount_le).mp known).2
      split
      · rfl
      · rename_i notMoves
        rw [writesTo_nil, CrtcState.moved_of_still]
        · rfl
        · exact fun position => notMoves ⟨⟨position, displays _ known, few⟩, rfl⟩
    · rw [writesTo_cons_other own]
      split
      · rename_i moves
        exact absurd (place_inj (known_of_moves moves.1 safe) known moves.2) own
      · rfl

theorem gState_applyAll {triples : List Triple} (displays : DisplaysLand host s.dev.gObjProps)
    (safe : ∀ t ∈ triples, ¬ Strays s.dev.gObjProps t) {id : UInt32} (known : id ∈ objectIds host.getDisplayCount) :
    ∃ fbId, (s.applyAll host triples).dev.gState (place id) =
      ((s.dev.gState (place id)).moved (writesTo id triples)).withFb fbId := by
  induction triples generalizing s with
  | nil => exact ⟨_, rfl⟩
  | cons t rest ih =>
      obtain ⟨middle, first⟩ := gState_apply displays (safe t List.mem_cons_self) known
      have restSafe : ∀ other ∈ rest, ¬ Strays (s.apply host t).dev.gObjProps other := by
        intro other member
        rw [Committing.gObjProps_apply, strays_applyTriple]
        exact safe other (List.mem_cons_of_mem _ member)
      have restDisplays : DisplaysLand host (s.apply host t).dev.gObjProps := by
        rw [Committing.gObjProps_apply]
        exact displays.applyTriple t
      obtain ⟨fbId, later⟩ := ih restDisplays restSafe
      refine ⟨fbId, ?_⟩
      have split : writesTo id (t :: rest) = writesTo id [t] ++ writesTo id rest := writesTo_append id [t] rest
      rw [Committing.applyAll_cons, later, first, split, CrtcState.moved_append, CrtcState.moved_withFb,
        CrtcState.withFb_withFb]

theorem gState_applyAll_outside {triples : List Triple} (safe : ∀ t ∈ triples, ¬ Strays s.dev.gObjProps t)
    {idx : Fin maxCrtcs} (outside : ∀ id ∈ objectIds host.getDisplayCount, place id ≠ idx) :
    ∃ fbId, (s.applyAll host triples).dev.gState idx = (s.dev.gState idx).withFb fbId := by
  induction triples generalizing s with
  | nil => exact ⟨_, rfl⟩
  | cons t rest ih =>
      have restSafe : ∀ other ∈ rest, ¬ Strays (s.apply host t).dev.gObjProps other := by
        intro other member
        rw [Committing.gObjProps_apply, strays_applyTriple]
        exact safe other (List.mem_cons_of_mem _ member)
      obtain ⟨fbId, later⟩ := ih restSafe
      refine ⟨fbId, ?_⟩
      rw [Committing.applyAll_cons, later]
      by_cases flips : Flips s.dev.gObjProps t
      · obtain ⟨op, found⟩ := Option.isSome_iff_exists.mp flips.2
        rw [gState_apply_of_flips found flips.1, CrtcState.withFb_withFb]
      · rw [gState_apply_of_not_flips flips, if_neg]
        exact fun moves => outside _ (known_of_moves moves.1 (safe t List.mem_cons_self)) moves.2

theorem newFb_applyAll (triples : List Triple) :
    ((s.applyAll host triples).newFbId, (s.applyAll host triples).newPlaneId) =
      ((lastFlip s.dev.gObjProps triples).map (fun t => (t.value.toUInt32, t.objId))).getD (s.newFbId, s.newPlaneId) := by
  induction triples generalizing s with
  | nil => rfl
  | cons t rest ih =>
      have sameFlips : lastFlip (s.apply host t).dev.gObjProps rest = lastFlip s.dev.gObjProps rest := by
        simp only [lastFlip, Flips, Committing.gObjProps_apply, lands_applyTriple]
      rw [Committing.applyAll_cons, ih, sameFlips, newFb_apply]
      by_cases flips : Flips s.dev.gObjProps t
      · simp only [lastFlip, List.filter_cons, flips, decide_true, if_true, List.getLast?_cons, Option.map_some,
          Option.getD_some]
        cases (rest.filter (fun t => Flips s.dev.gObjProps t)).getLast? <;> rfl
      · simp [lastFlip, flips]

theorem quiet_applyAll {triples : List Triple} (quiet : ∀ t ∈ triples, ¬ Shows s.dev t) :
    (s.applyAll host triples).dev.sdl = s.dev.sdl ∧
      ∀ idx, ((s.applyAll host triples).dev.gState idx).crtcFbId = (s.dev.gState idx).crtcFbId := by
  induction triples generalizing s with
  | nil => exact ⟨rfl, fun _ => rfl⟩
  | cons t rest ih =>
      obtain ⟨sdl, fbIds⟩ := ih (s := s.apply host t) (fun other member => by
        rw [shows_apply]
        exact quiet other (List.mem_cons_of_mem _ member))
      have first := quiet t List.mem_cons_self
      refine ⟨sdl.trans (sdl_apply_of_not_shows first), fun idx => (fbIds idx).trans ?_⟩
      by_cases flips : Flips s.dev.gObjProps t
      · obtain ⟨op, found⟩ := Option.isSome_iff_exists.mp flips.2
        have dark : ¬ (s.dev.fbIdToSurface t.value.toUInt32).isSome := fun live => first ⟨flips, live⟩
        rw [gState_apply_of_flips found flips.1, if_neg fun both => dark both.1, CrtcState.withFb_self]
      · rw [gState_apply_of_not_flips flips]
        split <;> rfl

theorem length_presented_applyAll (triples : List Triple) :
    (s.applyAll host triples).dev.sdl.presented.length =
      s.dev.sdl.presented.length + (triples.filter (fun t => Shows s.dev t)).length := by
  induction triples generalizing s with
  | nil => rfl
  | cons t rest ih =>
      rw [Committing.applyAll_cons, ih]
      simp only [shows_apply, List.filter_cons]
      by_cases showsFb : Shows s.dev t
      · obtain ⟨op, found⟩ := Option.isSome_iff_exists.mp showsFb.1.2
        obtain ⟨surf, live⟩ := Option.isSome_iff_exists.mp showsFb.2
        rw [presented_apply_of_flips found showsFb.1.1 live]
        simp only [showsFb, decide_true, if_true, List.length_append, List.length_cons, List.length_nil]
        omega
      · rw [sdl_apply_of_not_shows showsFb]
        simp [showsFb]

/-! The whole commit. -/

variable {dev : Device} {triples : List Triple} {flags : UInt32} {userData : UInt64}

theorem gState_committed (idx : Fin maxCrtcs) :
    (committed host dev triples flags userData).gState idx =
      (recordLastFb ((Committing.start dev).applyAll host triples)).gState idx := by
  simp only [committed]
  split <;> rfl

theorem sdl_committed :
    (committed host dev triples flags userData).sdl = ((Committing.start dev).applyAll host triples).dev.sdl := by
  have recorded : (recordLastFb ((Committing.start dev).applyAll host triples)).sdl =
      ((Committing.start dev).applyAll host triples).dev.sdl := by
    simp only [recordLastFb]
    split <;> rfl
  simp only [committed]
  split <;> exact recorded

theorem gState_recordLastFb (s : Committing) (idx : Fin maxCrtcs) :
    (recordLastFb s).gState idx = (s.dev.gState idx).withFb
      (if 0 < s.newFbId ∧ place s.newPlaneId = idx then s.newFbId else (s.dev.gState idx).crtcFbId) := by
  simp only [recordLastFb]
  by_cases some : 0 < s.newFbId
  · by_cases here : place s.newPlaneId = idx
    · subst here
      simp [some, Device.setState, place, CrtcState.withFb]
    · have elsewhere : idx ≠ clampIndex (idIndex s.newPlaneId) := Ne.symm here
      simp [some, here, Device.setState, Function.update_of_ne elsewhere]
  · simp [some]

end Iland.Drm

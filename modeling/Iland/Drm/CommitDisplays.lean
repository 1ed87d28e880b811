import Iland.Data.StoreOrder
import Iland.Drm.CommitState

namespace Iland.Drm

open Iland.Data
open Iland.Sdl

variable {host : Host} {s : Committing} {t : Triple} {triples : List Triple}

/-! Requests on the objects of the displays.

Their framebuffers go to the CRTC with the object's own id, so what such a
request leaves behind has a closed form for each display.
-/

def OnDisplays (host : Host) (triples : List Triple) : Prop :=
  ∀ t ∈ triples, t.objId ∈ objectIds host.getDisplayCount

theorem OnDisplays.inside (known : OnDisplays host triples) (table : ObjTable) : ∀ t ∈ triples, ¬ Strays table t :=
  fun t member stray => known_nonzero host.getDisplayCount_le (known t member) stray.1

theorem flipCrtc_of_known {id : UInt32} (known : id ∈ objectIds host.getDisplayCount) (props : PropStore) :
    flipCrtc host id props = id :=
  flipCrtc_of_le ((mem_objectIds host.getDisplayCount_le).mp known).2 props

theorem place_eq_iff {id other : UInt32} (known : id ∈ objectIds host.getDisplayCount)
    (otherKnown : other ∈ objectIds host.getDisplayCount) : place id = place other ↔ id = other :=
  ⟨place_inj known otherKnown, congrArg place⟩

/-! Framebuffer ids. -/

theorem crtcFbId_apply (known : t.objId ∈ objectIds host.getDisplayCount) {id : UInt32}
    (idKnown : id ∈ objectIds host.getDisplayCount) :
    ((s.apply host t).dev.gState (place id)).crtcFbId =
      if t.objId = id ∧ Shows s.dev t then t.value.toUInt32 else (s.dev.gState (place id)).crtcFbId := by
  by_cases flips : Flips s.dev.gObjProps t
  · obtain ⟨op, found⟩ := Option.isSome_iff_exists.mp flips.2
    rw [gState_apply_of_flips found flips.1, flipCrtc_of_known known]
    simp only [CrtcState.withFb, place_eq_iff known idKnown, Shows, flips, true_and, and_comm]
  · have quiet : ¬ Shows s.dev t := fun showsFb => flips showsFb.1
    rw [if_neg (fun both : t.objId = id ∧ Shows s.dev t => quiet both.2), gState_apply_of_not_flips flips]
    split <;> rfl

def shownFb (dev : Device) (triples : List Triple) (id : UInt32) : Option UInt32 :=
  (requested (triples.filter (fun t => Shows dev t)) id PropId.fbId).map UInt64.toUInt32

theorem crtcFbId_applyAll (known : OnDisplays host triples) {id : UInt32}
    (idKnown : id ∈ objectIds host.getDisplayCount) :
    ((s.applyAll host triples).dev.gState (place id)).crtcFbId =
      (shownFb s.dev triples id).getD (s.dev.gState (place id)).crtcFbId := by
  induction triples generalizing s with
  | nil => rfl
  | cons t rest ih =>
      have sameShows : shownFb (s.apply host t).dev rest id = shownFb s.dev rest id := by
        simp only [shownFb, shows_apply]
      rw [Committing.applyAll_cons, ih fun other member => known other (List.mem_cons_of_mem _ member), sameShows,
        crtcFbId_apply (known t List.mem_cons_self) idKnown]
      by_cases showsFb : Shows s.dev t
      · by_cases own : t.objId = id
        · simp [shownFb, requested, showsFb, own, writesTo_cons_self, lastValue, showsFb.1.1]
        · simp [shownFb, requested, showsFb, own, writesTo_cons_other]
      · simp [shownFb, showsFb]

theorem shownFb_of_absent {dev : Device} {id : UInt32} (absent : ∀ t ∈ triples, t.objId = id → t.propId ≠ PropId.fbId) :
    shownFb dev triples id = none := by
  rw [shownFb, requested_eq_none, Option.map_none]
  exact fun t shown => absent t (List.mem_filter.mp shown).1

variable {dev : Device} {table : ObjTable} {flags : UInt32} {userData : UInt64}

def fbIdAfter (dev : Device) (triples : List Triple) (id : UInt32) : UInt32 :=
  match lastFlip dev.gObjProps triples with
  | some t =>
      if 0 < t.value.toUInt32 ∧ t.objId = id then t.value.toUInt32
      else (shownFb dev triples id).getD (dev.gState (place id)).crtcFbId
  | none => (dev.gState (place id)).crtcFbId

theorem lastFlip_mem {t : Triple} (last : lastFlip table triples = some t) : t ∈ triples ∧ Flips table t := by
  have member := List.mem_filter.mp (List.mem_of_getLast? last)
  exact ⟨member.1, of_decide_eq_true member.2⟩

theorem lastFlip_isSome {t : Triple} (member : t ∈ triples) (flips : Flips table t) : (lastFlip table triples).isSome := by
  rw [lastFlip, List.getLast?_isSome]
  exact List.ne_nil_of_mem (List.mem_filter.mpr ⟨member, decide_eq_true flips⟩)

theorem lastFlip_append (early : List Triple) {t : Triple} (flips : Flips table t) :
    lastFlip table (early ++ [t]) = some t := by
  have kept : [t].filter (fun t => Flips table t) = [t] := by simp [flips]
  rw [lastFlip, List.filter_append, kept, List.getLast?_concat]

theorem flips_of_known (displays : DisplaysLand host table) (known : OnDisplays host triples) {t : Triple}
    (member : t ∈ triples) (flips : t.propId = PropId.fbId) : Flips table t := ⟨flips, displays _ (known t member)⟩

theorem gState_committed_known (displays : DisplaysLand host dev.gObjProps) (known : OnDisplays host triples)
    {id : UInt32} (idKnown : id ∈ objectIds host.getDisplayCount) :
    (committed host dev triples flags userData).gState (place id) =
      ((dev.gState (place id)).moved (writesTo id triples)).withFb (fbIdAfter dev triples id) := by
  obtain ⟨fbId, loop⟩ := gState_applyAll (s := .start dev) displays (known.inside dev.gObjProps) idKnown
  have shown : (((Committing.start dev).applyAll host triples).dev.gState (place id)).crtcFbId =
      (shownFb dev triples id).getD (dev.gState (place id)).crtcFbId := crtcFbId_applyAll known idKnown
  have newFb : (((Committing.start dev).applyAll host triples).newFbId,
      ((Committing.start dev).applyAll host triples).newPlaneId) =
      ((lastFlip dev.gObjProps triples).map (fun t => (t.value.toUInt32, t.objId))).getD (0, 0) :=
    newFb_applyAll triples
  rw [gState_committed, gState_recordLastFb, shown, loop, CrtcState.withFb_withFb]
  congr 1
  cases last : lastFlip dev.gObjProps triples with
  | none =>
      rw [last] at newFb
      have noFlip (t : Triple) (member : t ∈ triples) : t.objId = id → t.propId ≠ PropId.fbId := by
        intro _ flips
        have some := lastFlip_isSome member (flips_of_known displays known member flips)
        simp [last] at some
      rw [(Prod.mk.inj newFb).1, shownFb_of_absent noFlip, fbIdAfter, last]
      simp
  | some t =>
      rw [last] at newFb
      have planeId : ((Committing.start dev).applyAll host triples).newPlaneId = t.objId := (Prod.mk.inj newFb).2
      rw [(Prod.mk.inj newFb).1, planeId, fbIdAfter, last]
      simp only [place_eq_iff (known t (lastFlip_mem last).1) idKnown]

/-! Flipped CRTCs. -/

/-- The CRTCs of the planes that flip, in order of first appearance: there are
never too many of them to be noted. -/
theorem flipCrtcs_applyAll
    (planes : ∀ t ∈ triples, Flips s.dev.gObjProps t → t.objId ∈ objectIds host.getDisplayCount)
    (before : ∀ id ∈ s.flipCrtcs, id ∈ objectIds host.getDisplayCount) (distinct : s.flipCrtcs.Nodup) :
    (s.applyAll host triples).flipCrtcs =
      s.flipCrtcs ++ freshKeys s.flipCrtcs ((triples.filter (fun t => Flips s.dev.gObjProps t)).map Triple.objId) := by
  induction triples generalizing s with
  | nil => simp [freshKeys]
  | cons t rest ih =>
      have sameFlips (u : Triple) : Flips (s.apply host t).dev.gObjProps u ↔ Flips s.dev.gObjProps u := by
        simp only [Flips, Committing.gObjProps_apply, lands_applyTriple]
      have restPlanes : ∀ u ∈ rest, Flips (s.apply host t).dev.gObjProps u → u.objId ∈ objectIds host.getDisplayCount :=
        fun u member flips => planes u (List.mem_cons_of_mem _ member) ((sameFlips u).mp flips)
      have later := ih (s := s.apply host t) restPlanes
      simp only [sameFlips] at later
      rw [Committing.applyAll_cons]
      by_cases flips : Flips s.dev.gObjProps t
      · have ownKnown := planes t List.mem_cons_self flips
        obtain ⟨op, found⟩ := Option.isSome_iff_exists.mp flips.2
        have noted : (s.apply host t).flipCrtcs = addFlip s.flipCrtcs t.objId := by
          rw [apply_of_flips found flips.1]
          change addFlip s.flipCrtcs (flipCrtc host t.objId _) = _
          rw [flipCrtc_of_known ownKnown]
        simp only [List.filter_cons, flips, decide_true, if_true, List.map_cons, freshKeys]
        rw [noted] at later
        by_cases old : t.objId ∈ s.flipCrtcs
        · have same : addFlip s.flipCrtcs t.objId = s.flipCrtcs := if_neg fun both => both.2 old
          rw [same] at later
          rw [if_pos old]
          exact later before distinct
        · have both : (t.objId :: s.flipCrtcs).Nodup := List.nodup_cons.mpr ⟨old, distinct⟩
          have inside : t.objId :: s.flipCrtcs ⊆ objectIds host.getDisplayCount := List.cons_subset.mpr ⟨ownKnown, before⟩
          have few : s.flipCrtcs.length < 8 := by
            have short := (both.subperm inside).length_le
            rw [length_objectIds, List.length_cons] at short
            exact Nat.lt_of_succ_le (short.trans host.getDisplayCount_le)
          have added : addFlip s.flipCrtcs t.objId = s.flipCrtcs ++ [t.objId] := if_pos ⟨few, old⟩
          rw [added, List.append_assoc, List.singleton_append] at later
          rw [if_neg old]
          refine later ?_ ?_
          · intro id member
            exact inside (by simpa [or_comm] using member)
          · exact added ▸ nodup_addFlip distinct t.objId
      · have same : (s.apply host t).flipCrtcs = s.flipCrtcs := by
          rw [apply_of_not_flips flips]
          rfl
        simp only [List.filter_cons, flips, decide_false, Bool.false_eq_true, if_false]
        rw [same] at later
        exact later before distinct

theorem flipped_eq (planes : ∀ t ∈ triples, Flips dev.gObjProps t → t.objId ∈ objectIds host.getDisplayCount) :
    flipped host dev triples =
      freshKeys [] ((triples.filter (fun t => Flips dev.gObjProps t)).map Triple.objId) :=
  flipCrtcs_applyAll (s := .start dev) planes (fun _ none => absurd none List.not_mem_nil) .nil

/-! Presentations. -/

def positionAfter (state : CrtcState) (props : PropStore) (writes : List (UInt32 × UInt64)) : Int32 × Int32 :=
  (((lastValue PropId.crtcX writes).map toCInt).getD (position state props).1,
    ((lastValue PropId.crtcY writes).map toCInt).getD (position state props).2)

theorem position_moved (state : CrtcState) (props : PropStore) (writes : List (UInt32 × UInt64)) :
    position (state.moved writes) (props.assignAll writes) = positionAfter state props writes := by
  have axis (propId : UInt32) (old : Int32) :
      (((props.assignAll writes).get propId).map toCInt).getD (((lastValue propId writes).map toCInt).getD old) =
        ((lastValue propId writes).map toCInt).getD (((props.get propId).map toCInt).getD old) := by
    by_cases present : propId ∈ (props.assignAll writes).keys
    · rw [props.get_assignAll present]
      cases lastValue propId writes <;> simp
    · have unknown : propId ∉ props.keys := fun old => present (props.mem_keys_assignAll old writes)
      rw [Store.get_assignAll_eq_none _ present, props.get_eq_none_iff.mpr unknown]
      rfl
  exact Prod.ext (axis PropId.crtcX state.x) (axis PropId.crtcY state.y)

theorem positionAfter_of_still {state : CrtcState} {props : PropStore} {writes : List (UInt32 × UInt64)}
    (still : ∀ write ∈ writes, positionAfter state props [write] = position state props) :
    positionAfter state props writes = position state props := by
  have alone (axis : UInt32) (value : UInt64) : lastValue axis [(axis, value)] = some value := by simp [lastValue]
  apply Prod.ext
  · cases last : lastValue PropId.crtcX writes with
    | none => simp [positionAfter, last]
    | some value =>
        have same := congrArg Prod.fst (still _ (lastValue_mem last))
        simpa [positionAfter, last, alone] using same
  · cases last : lastValue PropId.crtcY writes with
    | none => simp [positionAfter, last]
    | some value =>
        have same := congrArg Prod.snd (still _ (lastValue_mem last))
        simpa [positionAfter, last, alone] using same

/-- What a triple hands to the backend when others went before it. -/
def handedOver (dev : Device) (before : List Triple) (t : Triple) : Option Presented :=
  match dev.gObjProps.first t.objId, dev.fbIdToSurface t.value.toUInt32 with
  | some record, some surf =>
      if t.propId = PropId.fbId then
        let at' := positionAfter (dev.gState (place t.objId)) record.props (writesTo t.objId before)
        some ⟨surf, t.objId, at'.1, at'.2⟩
      else none
  | _, _ => none

def handedOvers (dev : Device) : List Triple → List Triple → List Presented
  | _, [] => []
  | before, t :: rest => (handedOver dev before t).toList ++ handedOvers dev (before ++ [t]) rest

theorem handedOver_eq {before : List Triple} {record : ObjProps} {surf : IOSurface}
    (found : dev.gObjProps.first t.objId = some record) (live : dev.fbIdToSurface t.value.toUInt32 = some surf)
    (flips : t.propId = PropId.fbId) :
    let at' := positionAfter (dev.gState (place t.objId)) record.props (writesTo t.objId before)
    handedOver dev before t = some ⟨surf, t.objId, at'.1, at'.2⟩ := by
  simp only [handedOver, found, live, if_pos flips]

theorem handedOver_some {before : List Triple} {shown : Presented} (handed : handedOver dev before t = some shown) :
    t.propId = PropId.fbId ∧ shown.crtcId = t.objId := by
  simp only [handedOver] at handed
  split at handed
  · simp only [Option.ite_none_right_eq_some, Option.some.injEq] at handed
    obtain ⟨flips, rfl⟩ := handed
    exact ⟨flips, rfl⟩
  · contradiction

theorem handedOver_isSome_iff {before : List Triple} :
    (handedOver dev before t).isSome ↔ Shows dev t := by
  simp only [handedOver, Shows, Flips, Lands]
  cases dev.gObjProps.first t.objId <;> cases dev.fbIdToSurface t.value.toUInt32 <;> simp

theorem shows_applyAll {other : Triple} : Shows (s.applyAll host triples).dev other ↔ Shows s.dev other := by
  induction triples generalizing s with
  | nil => rfl
  | cons t rest ih => rw [Committing.applyAll_cons, ih, shows_apply]

theorem writesTo_flip {before : List Triple} (flips : t.propId = PropId.fbId) (state : CrtcState) :
    state.moved (writesTo t.objId (before ++ [t])) = state.moved (writesTo t.objId before) := by
  have still : ¬ (t.propId = PropId.crtcX ∨ t.propId = PropId.crtcY) := by
    rw [flips]
    exact not_or.mpr fbId_not_position
  rw [writesTo_append, writesTo_cons_self rfl, writesTo_nil, CrtcState.moved_append, CrtcState.moved_of_still _ still]

theorem position_withFb (state : CrtcState) (fbId : UInt32) (props : PropStore) :
    position (state.withFb fbId) props = position state props := rfl

theorem positionAfter_flip {before : List Triple} (flips : t.propId = PropId.fbId) (state : CrtcState) (props : PropStore) :
    positionAfter state props (writesTo t.objId (before ++ [t])) = positionAfter state props (writesTo t.objId before) := by
  have skip (axis : UInt32) (other : t.propId ≠ axis) :
      lastValue axis (writesTo t.objId (before ++ [t])) = lastValue axis (writesTo t.objId before) := by
    rw [writesTo_append, writesTo_cons_self rfl, lastValue_append]
    simp [lastValue, other]
  simp only [positionAfter, skip PropId.crtcX (flips ▸ fbId_not_position.1), skip PropId.crtcY (flips ▸ fbId_not_position.2)]

theorem presented_apply {before : List Triple} (displays : DisplaysLand host dev.gObjProps)
    (beforeKnown : OnDisplays host before) (known : t.objId ∈ objectIds host.getDisplayCount) :
    (((Committing.start dev).applyAll host before).apply host t).dev.sdl.presented =
      ((Committing.start dev).applyAll host before).dev.sdl.presented ++ (handedOver dev before t).toList := by
  by_cases showsFb : Shows dev t
  · obtain ⟨record, found⟩ := Option.isSome_iff_exists.mp showsFb.1.2
    obtain ⟨surf, live⟩ := Option.isSome_iff_exists.mp showsFb.2
    have flips : t.propId = PropId.fbId := showsFb.1.1
    have foundNow : ((Committing.start dev).applyAll host before).dev.gObjProps.first t.objId =
        some (record.withProps (record.props.assignAll (writesTo t.objId before))) := by
      rw [Committing.gObjProps_applyAll, ObjTable.first_applyAll]
      exact congrArg (Option.map _) found
    have liveNow : ((Committing.start dev).applyAll host before).dev.fbIdToSurface t.value.toUInt32 = some surf := by
      rw [((Committing.start dev).frame_applyAll before).fbIdToSurface]
      exact live
    obtain ⟨fbId, state⟩ := gState_applyAll (s := .start dev) displays (beforeKnown.inside dev.gObjProps) known
    have assigned : (record.props.assignAll (writesTo t.objId before)).assign t.propId t.value =
        record.props.assignAll (writesTo t.objId (before ++ [t])) := by
      rw [writesTo_append, Store.assignAll_append, writesTo_cons_self rfl]
      rfl
    have spot : position (((Committing.start dev).applyAll host before).dev.gState (place t.objId))
        (record.props.assignAll (writesTo t.objId (before ++ [t]))) =
        positionAfter (dev.gState (place t.objId)) record.props (writesTo t.objId before) := by
      rw [state, position_withFb, ← writesTo_flip flips, position_moved, positionAfter_flip flips]
      rfl
    rw [presented_apply_of_flips foundNow flips liveNow]
    simp only [ObjProps.withProps, assigned, flipCrtc_of_known known, spot, handedOver_eq found live flips,
      Option.toList_some]
  · have quiet : ¬ Shows ((Committing.start dev).applyAll host before).dev t :=
      fun showsNow => showsFb (shows_applyAll.mp showsNow)
    have none : handedOver dev before t = none := by
      rw [← Option.not_isSome_iff_eq_none, handedOver_isSome_iff]
      exact showsFb
    rw [sdl_apply_of_not_shows quiet, none, Option.toList_none, List.append_nil]

theorem presented_applyAll {before : List Triple} (displays : DisplaysLand host dev.gObjProps)
    (beforeKnown : OnDisplays host before) (known : OnDisplays host triples) :
    ((Committing.start dev).applyAll host (before ++ triples)).dev.sdl.presented =
      ((Committing.start dev).applyAll host before).dev.sdl.presented ++ handedOvers dev before triples := by
  induction triples generalizing before with
  | nil => simp [handedOvers]
  | cons t rest ih =>
      have ownKnown := known t List.mem_cons_self
      have restKnown : OnDisplays host rest := fun other member => known other (List.mem_cons_of_mem _ member)
      have moreKnown : OnDisplays host (before ++ [t]) := by
        intro other member
        rcases List.mem_append.mp member with old | new
        · exact beforeKnown other old
        · exact List.mem_singleton.mp new ▸ ownKnown
      have later := ih moreKnown restKnown
      rw [List.append_assoc, List.singleton_append] at later
      rw [later, (Committing.start dev).applyAll_append before [t], Committing.applyAll_cons, Committing.applyAll_nil,
        presented_apply displays beforeKnown ownKnown, handedOvers, List.append_assoc]

theorem mem_handedOvers {before : List Triple} {shown : Presented} :
    shown ∈ handedOvers dev before triples ↔
      ∃ early t late, triples = early ++ t :: late ∧ handedOver dev (before ++ early) t = some shown := by
  induction triples generalizing before with
  | nil => simp [handedOvers]
  | cons first rest ih =>
      rw [handedOvers, List.mem_append, Option.mem_toList, ih]
      constructor
      · intro member
        rcases member with now | ⟨early, t, late, rfl, handed⟩
        · exact ⟨[], first, rest, rfl, by rw [List.append_nil]; exact now⟩
        · exact ⟨first :: early, t, late, rfl, by rw [List.append_assoc] at handed; exact handed⟩
      · intro split
        obtain ⟨early, t, late, equal, handed⟩ := split
        cases early with
        | nil =>
            obtain ⟨rfl, rfl⟩ := List.cons.inj equal
            exact .inl (by rw [List.append_nil] at handed; exact handed)
        | cons head early =>
            obtain ⟨rfl, rfl⟩ := List.cons.inj equal
            exact .inr ⟨early, t, late, rfl, by rw [List.append_assoc]; exact handed⟩

end Iland.Drm

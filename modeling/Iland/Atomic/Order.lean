import Iland.Atomic.Observed
import Iland.Drm.CommitDisplays

namespace Iland.Atomic

open Iland.Data
open Iland.Drm
open Iland.Sdl

/-! Requests whose triples come in another order.

A framebuffer is presented the moment its triple is seen, with the position
that the triples before it left; a framebuffer id that does not exist is
recorded only if it comes last; and the places of a record go to the properties
that come first.
-/

variable {host : Host} {dev : Device} {table : ObjTable} {triples other : List Triple} {flags : UInt32}
  {userData : UInt64}

def DistinctPairs (triples : List Triple) : Prop := (triples.map fun t => (t.objId, t.propId)).Nodup

structure SameEffect (host : Host) (before first second : Device) : Prop where
  properties : ∀ objectId objectType propId,
    reportedValue host first objectId objectType propId = reportedValue host second objectId objectType propId
  crtcs : ∀ id ∈ objectIds host.getDisplayCount, first.gState (place id) = second.gState (place id)
  presented : ∀ shown, shown ∈ first.sdl.presented.drop before.sdl.presented.length ↔
    shown ∈ second.sdl.presented.drop before.sdl.presented.length
  queued : first.queued.Perm second.queued

theorem SameEffect.symm {before first second : Device} (same : SameEffect host before first second) :
    SameEffect host before second first :=
  ⟨fun _ _ _ => (same.properties _ _ _).symm, fun _ known => (same.crtcs _ known).symm,
    fun _ => (same.presented _).symm, same.queued.symm⟩

theorem SameEffect.trans {before first second third : Device} (left : SameEffect host before first second)
    (right : SameEffect host before second third) : SameEffect host before first third :=
  ⟨fun _ _ _ => (left.properties _ _ _).trans (right.properties _ _ _),
    fun _ known => (left.crtcs _ known).trans (right.crtcs _ known),
    fun _ => (left.presented _).trans (right.presented _), left.queued.trans right.queued⟩

def SameOutcome (host : Host) (before : Device) :
    Except Fault (Except Errno Unit × Device) → Except Fault (Except Errno Unit × Device) → Prop
  | .ok (ret, first), .ok (ret', second) => ret = ret' ∧ SameEffect host before first second
  | .error fault, .error fault' => fault = fault'
  | _, _ => False

/-- The request has the same outcome in every order. -/
def OrderIndependent (host : Host) (dev : Device) (req : AtomicReq) (flags : UInt32) (userData : UInt64) : Prop :=
  ∀ other : AtomicReq, req.triples.Perm other.triples →
    SameOutcome host dev (drmModeAtomicCommit host dev drmVirtualFd (some req) flags userData)
      (drmModeAtomicCommit host dev drmVirtualFd (some other) flags userData)

/-- A request whose order cannot matter, for a device with this object table. -/
structure OrderFree (dev : Device) (table : ObjTable) (triples : List Triple) : Prop where
  /-- The new properties of each object all have a place, or none has. -/
  places : ∀ id record, table.first id = some record → record.props.Fits (writesTo id triples) ∨ record.props.full
  /-- An object that shows a framebuffer is not moved. -/
  positions : ∀ f ∈ triples, Shows (dev.withTable table) f → ∀ m ∈ triples, m.objId = f.objId →
    ∀ record, table.first f.objId = some record →
      positionAfter (dev.gState (place f.objId)) record.props [(m.propId, m.value)] =
        position (dev.gState (place f.objId)) record.props
  /-- A framebuffer id that does not exist is zero, or the one the CRTC has,
  or the only one of the request. -/
  fbIds : ∀ f ∈ triples, f.propId = PropId.fbId → dev.fbIdToSurface f.value.toUInt32 = none →
    f.value.toUInt32 = 0 ∨ (dev.gState (place f.objId)).crtcFbId = f.value.toUInt32 ∨
      ∀ g ∈ triples, g.propId = PropId.fbId → g = f

/-! Distinct pairs. -/

theorem DistinctPairs.perm (distinct : DistinctPairs triples) (perm : triples.Perm other) : DistinctPairs other :=
  (perm.map _).nodup_iff.mp distinct

theorem DistinctPairs.eq (distinct : DistinctPairs triples) {t u : Triple} (member : t ∈ triples) (uMember : u ∈ triples)
    (sameObj : t.objId = u.objId) (sameProp : t.propId = u.propId) : t = u :=
  List.inj_on_of_nodup_map distinct member uMember (by rw [sameObj, sameProp])

theorem DistinctPairs.nodup (distinct : DistinctPairs triples) : triples.Nodup := List.Nodup.of_map _ distinct

theorem DistinctPairs.writesTo (distinct : DistinctPairs triples) (id : UInt32) :
    ((writesTo id triples).map Prod.fst).Nodup := by
  rw [Drm.writesTo, List.map_map]
  apply List.Nodup.map_on _ (distinct.nodup.filter _)
  intro t member u uMember sameProp
  have own := List.mem_filter.mp member
  have uOwn := List.mem_filter.mp uMember
  simp only [decide_eq_true_eq] at own uOwn
  exact distinct.eq own.1 uOwn.1 (own.2.trans uOwn.2.symm) sameProp

theorem writesTo_perm (perm : triples.Perm other) (id : UInt32) : (writesTo id triples).Perm (writesTo id other) :=
  (perm.filter _).map _

theorem DistinctPairs.flips (distinct : DistinctPairs triples) (table : ObjTable) :
    ((triples.filter (fun t => Flips table t)).map Triple.objId).Nodup := by
  apply List.Nodup.map_on _ (distinct.nodup.filter _)
  intro t member u uMember sameObj
  have own := List.mem_filter.mp member
  have uOwn := List.mem_filter.mp uMember
  simp only [decide_eq_true_eq] at own uOwn
  exact distinct.eq own.1 uOwn.1 sameObj (own.2.1.trans uOwn.2.1.symm)

theorem OrderFree.perm (free : OrderFree dev table triples) (perm : triples.Perm other) : OrderFree dev table other where
  places id record found := (free.places id record found).imp_left (Store.fits_perm _ (writesTo_perm perm id)).mp
  positions f member showsFb m mMember := free.positions f (perm.mem_iff.mpr member) showsFb m (perm.mem_iff.mpr mMember)
  fbIds f member flips dark :=
    (free.fbIds f (perm.mem_iff.mpr member) flips dark).imp_right fun rest =>
      rest.imp_right fun only g gMember => only g (perm.mem_iff.mpr gMember)

/-! Framebuffer ids. -/

theorem shownFb_of_mem (distinct : DistinctPairs triples) {f : Triple} (member : f ∈ triples)
    (flips : f.propId = PropId.fbId) :
    shownFb dev triples f.objId = if Shows dev f then some f.value.toUInt32 else none := by
  by_cases showsFb : Shows dev f
  · have kept : f ∈ triples.filter (fun t => Shows dev t) := List.mem_filter.mpr ⟨member, decide_eq_true showsFb⟩
    have filtered : DistinctPairs (triples.filter (fun t => Shows dev t)) :=
      List.Nodup.sublist (List.filter_sublist.map _) distinct
    have last := lastValue_of_distinct (filtered.writesTo f.objId) (mem_writesTo_of_mem kept)
    rw [if_pos showsFb, shownFb, requested, ← flips, last]
    rfl
  · rw [if_neg showsFb, shownFb, requested_eq_none, Option.map_none]
    intro t shown sameObj sameProp
    obtain ⟨tMember, tShows⟩ := List.mem_filter.mp shown
    rw [distinct.eq tMember member sameObj (sameProp.trans flips.symm)] at tShows
    exact showsFb (of_decide_eq_true tShows)

theorem fbIdAfter_of_mem (distinct : DistinctPairs triples) {f : Triple} (member : f ∈ triples)
    (flips : f.propId = PropId.fbId) :
    fbIdAfter dev triples f.objId =
      if Shows dev f ∨ lastFlip dev.gObjProps triples = some f ∧ 0 < f.value.toUInt32 then f.value.toUInt32
      else (dev.gState (place f.objId)).crtcFbId := by
  have shown : shownFb dev triples f.objId = _ := shownFb_of_mem distinct member flips
  cases last : lastFlip dev.gObjProps triples with
  | none =>
      have quiet : ¬ Shows dev f := by
        intro showsFb
        simpa [last] using lastFlip_isSome member showsFb.1
      simp [fbIdAfter, last, quiet]
  | some t =>
      obtain ⟨tMember, tFlips⟩ := lastFlip_mem last
      have own : t.objId = f.objId ↔ t = f :=
        ⟨fun sameObj => distinct.eq tMember member sameObj (tFlips.1.trans flips.symm), fun same => same ▸ rfl⟩
      simp only [fbIdAfter, last, shown, own, Option.some.injEq]
      by_cases same : t = f
      · subst same
        by_cases showsFb : Shows dev t <;> simp [showsFb]
      · by_cases showsFb : Shows dev f <;> simp [showsFb, same]

theorem fbIdAfter_of_absent {id : UInt32} (absent : ∀ t ∈ triples, t.objId = id → t.propId ≠ PropId.fbId) :
    fbIdAfter dev triples id = (dev.gState (place id)).crtcFbId := by
  simp only [fbIdAfter, shownFb_of_absent absent, Option.getD_none]
  cases last : lastFlip dev.gObjProps triples with
  | none => rfl
  | some t =>
      obtain ⟨member, flips⟩ := lastFlip_mem last
      have elsewhere : t.objId ≠ id := fun own => absent t member own flips.1
      simp [elsewhere]

/-! Enough. -/

section Enough

variable (free : OrderFree dev table triples) (distinct : DistinctPairs triples) (known : OnDisplays host triples)
  (displays : DisplaysLand host table)

include free distinct known displays

theorem fbIdAfter_of_free {f : Triple} (member : f ∈ triples) (flips : f.propId = PropId.fbId) :
    fbIdAfter (dev.withTable table) triples f.objId =
      if Shows (dev.withTable table) f ∨ 0 < f.value.toUInt32 then f.value.toUInt32
      else (dev.gState (place f.objId)).crtcFbId := by
  have lands : Flips table f := flips_of_known displays known member flips
  have after : fbIdAfter (dev.withTable table) triples f.objId = _ := fbIdAfter_of_mem distinct member flips
  by_cases showsFb : Shows (dev.withTable table) f
  · simpa [showsFb] using after
  · have dark : dev.fbIdToSurface f.value.toUInt32 = none :=
      Option.not_isSome_iff_eq_none.mp fun live => showsFb ⟨lands, live⟩
    rcases free.fbIds f member flips dark with zero | same | only
    · simpa [showsFb, zero] using after
    · simpa [showsFb, same] using after
    · obtain ⟨g, last⟩ := Option.isSome_iff_exists.mp (lastFlip_isSome member lands)
      rw [only g (lastFlip_mem last).1 (lastFlip_mem last).2.1] at last
      have lastNow : lastFlip (dev.withTable table).gObjProps triples = some f := last
      rw [after, lastNow]
      simp only [showsFb, false_or, true_and]
      rfl

theorem fbIdAfter_perm (perm : triples.Perm other) (id : UInt32) :
    fbIdAfter (dev.withTable table) triples id = fbIdAfter (dev.withTable table) other id := by
  by_cases flips : ∃ f ∈ triples, f.objId = id ∧ f.propId = PropId.fbId
  · obtain ⟨f, member, rfl, fb⟩ := flips
    have otherKnown : OnDisplays host other := fun t tMember => known t (perm.mem_iff.mpr tMember)
    rw [fbIdAfter_of_free free distinct known displays member fb,
      fbIdAfter_of_free (free.perm perm) (distinct.perm perm) otherKnown displays (perm.mem_iff.mp member) fb]
  · have absent (t : Triple) (member : t ∈ triples) (own : t.objId = id) : t.propId ≠ PropId.fbId :=
      fun fb => flips ⟨t, member, own, fb⟩
    rw [fbIdAfter_of_absent absent, fbIdAfter_of_absent fun t member => absent t (perm.mem_iff.mpr member)]

omit known displays in
theorem get_applyAll_perm (perm : triples.Perm other) (key : UInt32 × UInt32) (propId : UInt32) :
    ((table.applyAll triples).lookup key).bind (fun record => record.props.get propId) =
      ((table.applyAll other).lookup key).bind (fun record => record.props.get propId) := by
  by_cases reached : ∃ record, table.first key.1 = some record ∧ record.key = key
  · obtain ⟨record, found, rfl⟩ := reached
    rw [table.lookup_applyAll_first triples found, table.lookup_applyAll_first other found]
    exact Store.get_assignAll_perm _ (writesTo_perm perm _) (distinct.writesTo _) (free.places _ record found) propId
  · have shadowed (record : ObjProps) (found : table.first key.1 = some record) : record.key ≠ key :=
      fun same => reached ⟨record, found, same⟩
    rw [table.lookup_applyAll_shadowed triples shadowed, table.lookup_applyAll_shadowed other shadowed]

omit distinct known displays in
theorem handedOver_of_free {early : List Triple} (inside : early ⊆ triples) {f : Triple} (member : f ∈ triples) :
    handedOver (dev.withTable table) early f = handedOver (dev.withTable table) [] f := by
  by_cases showsFb : Shows (dev.withTable table) f
  · obtain ⟨record, found⟩ := Option.isSome_iff_exists.mp showsFb.1.2
    have spot : positionAfter (dev.gState (place f.objId)) record.props (writesTo f.objId early) =
        position (dev.gState (place f.objId)) record.props := by
      apply positionAfter_of_still
      intro write written
      exact free.positions f member showsFb _ (inside (mem_writesTo.mp written)) rfl record found
    obtain ⟨surf, live⟩ := Option.isSome_iff_exists.mp showsFb.2
    rw [handedOver_eq found live showsFb.1.1, handedOver_eq found live showsFb.1.1]
    simp only [Device.gState_withTable, spot]
    rfl
  · have quiet (before : List Triple) : handedOver (dev.withTable table) before f = none := by
      rw [← Option.not_isSome_iff_eq_none, handedOver_isSome_iff]
      exact showsFb
    rw [quiet, quiet]

omit distinct known displays in
theorem mem_handedOvers_of_free {shown : Presented} :
    shown ∈ handedOvers (dev.withTable table) [] triples ↔
      ∃ t ∈ triples, handedOver (dev.withTable table) [] t = some shown := by
  rw [mem_handedOvers]
  constructor
  · intro split
    obtain ⟨early, t, late, rfl, handed⟩ := split
    have member : t ∈ early ++ t :: late := List.mem_append_right _ List.mem_cons_self
    have inside : [] ++ early ⊆ early ++ t :: late := List.subset_append_left _ _
    exact ⟨t, member, handedOver_of_free free inside member ▸ handed⟩
  · intro single
    obtain ⟨t, member, handed⟩ := single
    obtain ⟨early, late, rfl⟩ := List.append_of_mem member
    have inside : [] ++ early ⊆ early ++ t :: late := List.subset_append_left _ _
    exact ⟨early, t, late, rfl, (handedOver_of_free free inside member).trans handed⟩

end Enough

theorem drop_presented_committed (displays : DisplaysLand host dev.gObjProps) (known : OnDisplays host triples) :
    (committed host dev triples flags userData).sdl.presented.drop dev.sdl.presented.length =
      handedOvers dev [] triples := by
  have all : ((Committing.start dev).applyAll host triples).dev.sdl.presented =
      dev.sdl.presented ++ handedOvers dev [] triples :=
    presented_applyAll displays (show OnDisplays host [] from fun _ member => nomatch member) known
  rw [sdl_committed, all, List.drop_left]

theorem queued_committed (known : OnDisplays host triples) (distinct : DistinctPairs triples) :
    (committed host dev triples flags userData).queued =
      if flags &&& drmModePageFlipEvent ≠ 0 then
        pushAllBounded (maxFlipEvents - 1) dev.queued
          ((completions ((triples.filter (fun t => Flips dev.gObjProps t)).map Triple.objId)).map
            (fun crtcId => ⟨crtcId, userData⟩))
      else dev.queued := by
  have flips : flipped host dev triples = (triples.filter (fun t => Flips dev.gObjProps t)).map Triple.objId := by
    rw [flipped_eq fun t member _ => known t member]
    exact freshKeys_of_nodup (distinct.flips dev.gObjProps)
  rw [Device.queued, gFlipEvents_committed, flips]
  split
  · exact Ring.toList_enqueueAll (by decide) _ _
  · rfl
theorem completions_perm {crtcs others : List UInt32} (perm : crtcs.Perm others) :
    (completions crtcs).Perm (completions others) := by
  simp only [completions]
  by_cases none : crtcs = []
  · rw [if_pos none, if_pos (none ▸ perm).nil_eq.symm]
  · rw [if_neg none, if_neg fun otherNone => none (otherNone ▸ perm).eq_nil]
    exact perm

theorem length_completions_le (known : OnDisplays host triples) (distinct : DistinctPairs triples) (table : ObjTable) :
    (completions ((triples.filter (fun t => Flips table t)).map Triple.objId)).length ≤ maxCrtcs := by
  have inside : completions ((triples.filter (fun t => Flips table t)).map Triple.objId) ⊆
      objectIds host.getDisplayCount := by
    intro id member
    simp only [completions] at member
    split at member
    · rw [List.mem_singleton] at member
      rw [member, mem_objectIds host.getDisplayCount_le]
      exact ⟨Nat.one_pos, host.getDisplayCount_pos⟩
    · obtain ⟨t, kept, rfl⟩ := List.mem_map.mp member
      exact known t (List.mem_of_mem_filter kept)
  have few := ((nodup_completions (distinct.flips table)).subperm inside).length_le
  rw [length_objectIds] at few
  exact few.trans host.getDisplayCount_le

theorem sameEffect_of_free (ensured : Ensured host.getDisplayCount table)
    (free : OrderFree dev table triples) (distinct : DistinctPairs triples) (known : OnDisplays host triples)
    (perm : triples.Perm other) :
    SameEffect host dev (committed host (dev.withTable table) triples flags userData)
      (committed host (dev.withTable table) other flags userData) := by
  have otherKnown : OnDisplays host other := fun t member => known t (perm.mem_iff.mpr member)
  have otherDistinct := distinct.perm perm
  have displays : DisplaysLand host (dev.withTable table).gObjProps := ensured.displaysLand
  constructor
  case properties =>
    intro objectId objectType propId
    have ensures (triples : List Triple) : ensureObjProperties host.getDisplayCount
        (committed host (dev.withTable table) triples flags userData).gObjProps = .ok (table.applyAll triples) := by
      rw [gObjProps_committed]
      exact (ensured.grows (table.grows_applyAll triples)).ensure
    rw [reportedValue_eq (ensures triples), reportedValue_eq (ensures other)]
    exact get_applyAll_perm free distinct perm (objectId, objectType) propId
  case crtcs =>
    intro id idKnown
    have sameMove (state : CrtcState) : state.moved (writesTo id triples) = state.moved (writesTo id other) := by
      simp only [CrtcState.moved, lastValue_perm (writesTo_perm perm id) (distinct.writesTo id)]
    rw [gState_committed_known displays known idKnown, gState_committed_known displays otherKnown idKnown, sameMove,
      fbIdAfter_perm free distinct known displays perm]
  case presented =>
    intro shown
    have handed {triples : List Triple} (known : OnDisplays host triples) :
        (committed host (dev.withTable table) triples flags userData).sdl.presented.drop dev.sdl.presented.length =
          handedOvers (dev.withTable table) [] triples := drop_presented_committed displays known
    rw [handed known, handed otherKnown, mem_handedOvers_of_free free, mem_handedOvers_of_free (free.perm perm)]
    simp only [perm.mem_iff]
  case queued =>
    rw [queued_committed known distinct, queued_committed otherKnown otherDistinct]
    split
    · have flips := completions_perm ((perm.filter (fun t => Flips table t)).map Triple.objId)
      have fits : (dev.withTable table).queued.length ≤ maxFlipEvents - 1 := length_queued_le _
      have few := length_completions_le known distinct table
      apply pushAllBounded_perm fits _ (flips.map _)
      rw [List.length_map]
      exact few.trans (by decide)
    · exact .refl _

/-! Necessary. -/

theorem reportedValue_committed (ensured : Ensured host.getDisplayCount table) {id : UInt32} {record : ObjProps}
    (found : table.first id = some record) (propId : UInt32) :
    reportedValue host (committed host (dev.withTable table) triples flags userData) id record.objType propId =
      (record.props.assignAll (writesTo id triples)).get propId := by
  have ensures : ensureObjProperties host.getDisplayCount
      (committed host (dev.withTable table) triples flags userData).gObjProps = .ok (table.applyAll triples) := by
    rw [gObjProps_committed]
    exact (ensured.grows (table.grows_applyAll triples)).ensure
  have key : (id, record.objType) = record.key := by
    rw [← table.key_of_first found]
    rfl
  rw [reportedValue_eq ensures, key, table.lookup_applyAll_first triples found]
  rfl

def SameInAllOrders (host : Host) (dev : Device) (table : ObjTable) (triples : List Triple) (flags : UInt32)
    (userData : UInt64) : Prop :=
  ∀ first second : List Triple, triples.Perm first → triples.Perm second →
    SameEffect host dev (committed host (dev.withTable table) first flags userData)
      (committed host (dev.withTable table) second flags userData)

section Necessary

variable (same : SameInAllOrders host dev table triples flags userData) (ensured : Ensured host.getDisplayCount table)
  (distinct : DistinctPairs triples) (known : OnDisplays host triples)

include same ensured distinct

theorem places_of_same (id : UInt32) (record : ObjProps) (found : table.first id = some record) :
    record.props.Fits (writesTo id triples) ∨ record.props.full := by
  by_contra neither
  obtain ⟨tooMany, room⟩ := not_or.mp neither
  have new : ∃ t ∈ triples, t.objId = id ∧ t.propId ∉ record.props.keys := by
    by_contra old
    apply tooMany
    rw [Store.fits_iff]
    intro write member
    apply record.props.mem_keys_assignAll
    by_contra absent
    exact old ⟨_, mem_writesTo.mp member, rfl, absent⟩
  obtain ⟨t, member, rfl, absent⟩ := new
  have front : triples.Perm (t :: triples.erase t) := List.perm_cons_erase member
  have back : triples.Perm (triples.erase t ++ [t]) := front.trans (List.perm_append_singleton _ _).symm
  have writes : (writesTo t.objId triples).Perm ((t.propId, t.value) :: writesTo t.objId (triples.erase t)) := by
    rw [← writesTo_cons_self rfl]
    exact writesTo_perm front t.objId
  have once : t.propId ∉ (writesTo t.objId (triples.erase t)).map Prod.fst :=
    (List.nodup_cons.mp ((writes.map Prod.fst).nodup_iff.mp (distinct.writesTo t.objId))).1
  have stored : (record.props.assignAll ((t.propId, t.value) :: writesTo t.objId (triples.erase t))).get t.propId =
      some t.value := record.props.get_assignAll_first room once
  have dropped : (record.props.assignAll (writesTo t.objId (triples.erase t) ++ [(t.propId, t.value)])).get t.propId =
      none := record.props.get_assignAll_last (fun fits => tooMany ((record.props.fits_perm writes).mpr fits)) absent once
  have equal := (same _ _ front back).properties t.objId record.objType t.propId
  rw [reportedValue_committed ensured found, reportedValue_committed ensured found, writesTo_cons_self rfl,
    writesTo_append, writesTo_cons_self rfl, writesTo_nil, stored, dropped] at equal
  contradiction

include known

theorem positions_of_same {f : Triple} (member : f ∈ triples) (showsFb : Shows (dev.withTable table) f) {m : Triple}
    (mMember : m ∈ triples) (sameObj : m.objId = f.objId) {record : ObjProps}
    (found : table.first f.objId = some record) :
    positionAfter (dev.gState (place f.objId)) record.props [(m.propId, m.value)] =
      position (dev.gState (place f.objId)) record.props := by
  have flips : f.propId = PropId.fbId := showsFb.1.1
  obtain ⟨surf, live⟩ := Option.isSome_iff_exists.mp showsFb.2
  have displays : DisplaysLand host (dev.withTable table).gObjProps := ensured.displaysLand
  by_cases self : m = f
  · subst self
    have after : positionAfter (dev.gState (place m.objId)) record.props (writesTo m.objId ([] ++ [m])) = _ :=
      positionAfter_flip flips _ _
    rw [List.nil_append, writesTo_cons_self rfl] at after
    exact after
  · have behind : m ∈ triples.erase f := (List.mem_erase_of_ne self).mpr mMember
    have front : triples.Perm (f :: m :: (triples.erase f).erase m) :=
      (List.perm_cons_erase member).trans (.cons f (List.perm_cons_erase behind))
    have swapped : triples.Perm (m :: f :: (triples.erase f).erase m) := front.trans (.swap m f _)
    have handed (order : List Triple) (perm : triples.Perm order) :
        (committed host (dev.withTable table) order flags userData).sdl.presented.drop dev.sdl.presented.length =
          handedOvers (dev.withTable table) [] order :=
      drop_presented_committed displays fun t tMember => known t (perm.mem_iff.mpr tMember)
    have moved := (same _ _ swapped front).presented
    simp only [handed _ swapped, handed _ front, mem_handedOvers, List.nil_append] at moved
    obtain ⟨early, t, late, split, shown⟩ := (moved _).mp
      ⟨[m], f, (triples.erase f).erase m, rfl, handedOver_eq found live flips⟩
    obtain ⟨tFlips, sameObj'⟩ := handedOver_some shown
    have tMember : t ∈ triples := front.mem_iff.mpr (split ▸ List.mem_append_right _ List.mem_cons_self)
    have first := distinct.eq tMember member sameObj'.symm (tFlips.trans flips.symm)
    subst first
    have noEarly : early = [] := by
      cases early with
      | nil => rfl
      | cons e rest =>
          obtain ⟨rfl, tail⟩ := List.cons.inj split
          have nodup := front.nodup_iff.mp distinct.nodup
          rw [tail] at nodup
          exact absurd (List.mem_append_right rest List.mem_cons_self) (List.nodup_cons.mp nodup).1
    subst noEarly
    rw [handedOver_eq found live flips, writesTo_cons_self sameObj, Option.some.injEq] at shown
    exact (Prod.ext (congrArg Presented.x shown) (congrArg Presented.y shown)).symm

theorem fbIds_of_same {f : Triple} (member : f ∈ triples) (flips : f.propId = PropId.fbId)
    (dark : dev.fbIdToSurface f.value.toUInt32 = none) :
    f.value.toUInt32 = 0 ∨ (dev.gState (place f.objId)).crtcFbId = f.value.toUInt32 ∨
      ∀ g ∈ triples, g.propId = PropId.fbId → g = f := by
  by_contra none
  obtain ⟨nonzero, new, others⟩ : f.value.toUInt32 ≠ 0 ∧
      (dev.gState (place f.objId)).crtcFbId ≠ f.value.toUInt32 ∧ ∃ g ∈ triples, g.propId = PropId.fbId ∧ g ≠ f := by
    simpa only [not_or, not_forall, exists_prop] using none
  obtain ⟨g, gMember, gFlips, apart⟩ := others
  have displays : DisplaysLand host (dev.withTable table).gObjProps := ensured.displaysLand
  have quiet : ¬ Shows (dev.withTable table) f := fun showsFb => by
    have live : (dev.fbIdToSurface f.value.toUInt32).isSome := showsFb.2
    simp [dark] at live
  have fbId (order : List Triple) (perm : triples.Perm order) :
      ((committed host (dev.withTable table) order flags userData).gState (place f.objId)).crtcFbId =
        if lastFlip table order = some f then f.value.toUInt32 else (dev.gState (place f.objId)).crtcFbId := by
    have orderKnown : OnDisplays host order := fun t tMember => known t (perm.mem_iff.mpr tMember)
    rw [gState_committed_known displays orderKnown (known f member)]
    refine (fbIdAfter_of_mem (distinct.perm perm) (perm.mem_iff.mp member) flips).trans ?_
    have positive : 0 < f.value.toUInt32 := UInt32.pos_iff_ne_zero.mpr nonzero
    simp only [quiet, false_or, positive, and_true]
    rfl
  have last {t : Triple} (tMember : t ∈ triples) (tFlips : t.propId = PropId.fbId) :
      triples.Perm (triples.erase t ++ [t]) ∧ lastFlip table (triples.erase t ++ [t]) = some t :=
    ⟨(List.perm_cons_erase tMember).trans (List.perm_append_singleton _ _).symm,
      lastFlip_append _ (flips_of_known ensured.displaysLand known tMember tFlips)⟩
  obtain ⟨fPerm, fLast⟩ := last member flips
  obtain ⟨gPerm, gLast⟩ := last gMember gFlips
  have equal := congrArg CrtcState.crtcFbId ((same _ _ fPerm gPerm).crtcs f.objId (known f member))
  have other : ¬ some g = some f := fun same => apart (Option.some.inj same)
  rw [fbId _ fPerm, fbId _ gPerm, fLast, gLast, if_pos rfl, if_neg other] at equal
  exact new equal.symm

end Necessary

theorem orderFree_iff (ensured : Ensured host.getDisplayCount table) (distinct : DistinctPairs triples)
    (known : OnDisplays host triples) (flags : UInt32) (userData : UInt64) :
    SameInAllOrders host dev table triples flags userData ↔ OrderFree dev table triples := by
  constructor
  · intro same
    exact ⟨places_of_same same ensured distinct,
      fun f member showsFb m mMember sameObj record found =>
        positions_of_same same ensured distinct known member showsFb mMember sameObj found,
      fun f member flips dark => fbIds_of_same same ensured distinct known member flips dark⟩
  · intro free first second firstPerm secondPerm
    exact (sameEffect_of_free ensured free distinct known firstPerm).symm.trans
      (sameEffect_of_free ensured free distinct known secondPerm)

theorem orderIndependent_iff (inv : TableInv host.getDisplayCount dev.gObjProps) {req : AtomicReq}
    (known : OnDisplays host req.triples) (distinct : DistinctPairs req.triples) :
    OrderIndependent host dev req flags userData ↔
      ∀ table, ensureObjProperties host.getDisplayCount dev.gObjProps = .ok table → OrderFree dev table req.triples := by
  cases ensures : ensureObjProperties host.getDisplayCount dev.gObjProps with
  | error fault =>
      simp only [reduceCtorEq, false_imp_iff, implies_true, iff_true]
      intro other _
      rw [drmModeAtomicCommit_overflow ensures, drmModeAtomicCommit_overflow ensures]
      rfl
  | ok table =>
      have ensured := inv.ensured host.getDisplayCount_le ensures
      simp only [Except.ok.injEq, forall_eq']
      rw [← orderFree_iff ensured distinct known flags userData]
      have outcome (order : AtomicReq) (perm : req.triples.Perm order.triples) :
          drmModeAtomicCommit host dev drmVirtualFd (some order) flags userData =
            .ok (.ok (), committed host (dev.withTable table) order.triples flags userData) := by
        have orderKnown : OnDisplays host order.triples := fun t member => known t (perm.mem_iff.mpr member)
        exact drmModeAtomicCommit_eq flags userData ensures (orderKnown.inside table)
      constructor
      · intro independent
        have effect (order : List Triple) (perm : req.triples.Perm order) :
            SameEffect host dev
              (committed host (dev.withTable table) req.triples flags userData)
              (committed host (dev.withTable table) order flags userData) := by
          have both := independent ⟨order, perm.length_eq ▸ req.fits⟩ perm
          rw [outcome req (.refl _), outcome ⟨order, _⟩ perm] at both
          exact both.2
        intro first second firstPerm secondPerm
        exact (effect first firstPerm).symm.trans (effect second secondPerm)
      · intro same other perm
        rw [outcome req (.refl _), outcome other perm]
        exact ⟨rfl, same _ _ (.refl _) perm⟩

/-- In every state that a client can reach, a request that sets properties of
displays, each once, has the same outcome in every order exactly when the
device has too few records for any commit, or the request's order cannot matter. -/
theorem order_independent_iff {session : Session} (reachable : ReachableSession host session) {req : AtomicReq}
    (known : OnDisplays host req.triples) (distinct : DistinctPairs req.triples) (flags : UInt32)
    (userData : UInt64) :
    OrderIndependent host session.world.dev req flags userData ↔
      ∀ table, ensureObjProperties host.getDisplayCount session.world.dev.gObjProps = .ok table →
        OrderFree session.world.dev table req.triples :=
  orderIndependent_iff (sessionInv_of_reachable reachable).table known distinct

def showAndMove : AtomicReq := ⟨[⟨1, PropId.fbId, 1⟩, ⟨1, PropId.crtcX, 5⟩], by decide⟩

theorem order_independent_iff_showAndMove :
    OrderIndependent (.uniform 1) Session.initial.world.dev showAndMove 0 0 ↔
      ∀ table, ensureObjProperties 1 Session.initial.world.dev.gObjProps = .ok table →
        OrderFree Session.initial.world.dev table showAndMove.triples :=
  order_independent_iff .start (by unfold OnDisplays; decide) (by unfold DistinctPairs; decide) 0 0

def makeFramebuffer : List Action :=
  [.call (.createDumbBuffer drmVirtualFd (some ⟨5, 0, 0, 0⟩)), .call (.addFB drmVirtualFd 1 true)]

/-- The framebuffer is shown at 0 if its triple comes first, and at 5 otherwise. -/
theorem showAndMove_depends_on_order :
    ∃ session outs, runActions (step (.uniform 1)) .initial makeFramebuffer = .ok (session, outs) ∧
      OnDisplays (.uniform 1) showAndMove.triples ∧ DistinctPairs showAndMove.triples ∧
      ¬ OrderIndependent (.uniform 1) session.world.dev showAndMove 0 0 := by
  have known : OnDisplays (.uniform 1) showAndMove.triples := by unfold OnDisplays; decide
  have distinct : DistinctPairs showAndMove.triples := by unfold DistinctPairs; decide
  refine ⟨_, _, rfl, known, distinct, ?_⟩
  rw [orderIndependent_iff (.inl rfl) known distinct]
  intro free
  have positions := (free _ rfl).positions ⟨1, PropId.fbId, 1⟩ List.mem_cons_self
    (by decide +kernel) ⟨1, PropId.crtcX, 5⟩ (List.mem_cons_of_mem _ List.mem_cons_self) rfl _ rfl
  exact absurd positions (by decide +kernel)

end Iland.Atomic

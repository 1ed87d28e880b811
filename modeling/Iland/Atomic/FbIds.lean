import Iland.Atomic.Observed
import Iland.Drm.CommitDisplays

namespace Iland.Atomic

open Iland.Data
open Iland.Drm

/-! The framebuffer ids that the CRTCs report after a commit.

A page flip records whatever id it is given.  The loop of a commit records the
ids of framebuffers that exist, and after the loop the last FB_ID of the whole
request is recorded unless it is 0.
-/

variable {host : Host} {dev after : Device} {triples : List Triple} {req : AtomicReq} {flags : UInt32} {userData : UInt64}

/-- Each CRTC reports the last FB_ID of its plane, or what it reported before. -/
def FbIdsRecorded (host : Host) (before after : Device) (triples : List Triple) : Prop :=
  ∀ id ∈ objectIds host.getDisplayCount, ∃ was now,
    drmModeGetCrtc host before drmVirtualFd id = .ok was ∧ drmModeGetCrtc host after drmVirtualFd id = .ok now ∧
      now.bufferId = ((requested triples id PropId.fbId).map UInt64.toUInt32).getD was.bufferId

def lastFbId (triples : List Triple) : Option Triple := (triples.filter (fun t => t.propId = PropId.fbId)).getLast?

/-- `fbId`, the last FB_ID of plane `id`, names a framebuffer, or it is not 0
and the last FB_ID of the request, or the CRTC has it already and no FB_ID of
the plane names a framebuffer. -/
def Recordable (dev : Device) (triples : List Triple) (id fbId : UInt32) : Prop :=
  (dev.fbIdToSurface fbId).isSome ∨
  (fbId ≠ 0 ∧ (lastFbId triples).any (fun t => t.objId == id)) ∨
  ((dev.gState (place id)).crtcFbId = fbId ∧
    ∀ t ∈ triples, t.objId = id → t.propId = PropId.fbId → dev.fbIdToSurface t.value.toUInt32 = none)

theorem getCrtc_bufferId (dev : Device) {id : UInt32} (known : id ∈ objectIds host.getDisplayCount) :
    ∃ crtc, drmModeGetCrtc host dev drmVirtualFd id = .ok crtc ∧
      crtc.bufferId = (dev.gState (place id)).crtcFbId := by
  simp only [drmModeGetCrtc, checkFd, ne_eq, not_true_eq_false, if_false, crtcIndex_of_known known]
  exact ⟨_, rfl, rfl⟩

theorem fbIdsRecorded_iff :
    FbIdsRecorded host dev after triples ↔ ∀ id ∈ objectIds host.getDisplayCount,
      (after.gState (place id)).crtcFbId =
        ((requested triples id PropId.fbId).map UInt64.toUInt32).getD (dev.gState (place id)).crtcFbId := by
  refine forall_congr' fun id => forall_congr' fun known => ?_
  obtain ⟨was, reportedBefore, before⟩ := getCrtc_bufferId dev known
  obtain ⟨now, reportedAfter, now'⟩ := getCrtc_bufferId after known
  simp [reportedBefore, reportedAfter, before, now']

theorem lastFlip_eq_lastFbId (displays : DisplaysLand host dev.gObjProps) (known : OnDisplays host triples) :
    lastFlip dev.gObjProps triples = lastFbId triples := by
  rw [lastFlip, lastFbId]
  congr 1
  apply List.filter_congr
  intro t member
  have lands : Lands dev.gObjProps t := displays _ (known t member)
  simp [Flips, lands]

theorem requested_of_lastFbId {t : Triple} (last : lastFbId triples = some t) :
    requested triples t.objId PropId.fbId = some t.value := by
  obtain ⟨early, split⟩ := List.getLast?_eq_some_iff.mp last
  have member := List.mem_filter.mp (List.mem_of_getLast? last)
  have fbId : t.propId = PropId.fbId := of_decide_eq_true member.2
  have some := requested_isSome member.1
  rw [fbId] at some
  obtain ⟨value, asked⟩ := Option.isSome_iff_exists.mp some
  have kept := requested_filter (p := fun t => decide (t.propId = PropId.fbId)) asked (decide_eq_true rfl)
  rw [split, requested, writesTo_append, writesTo_cons_self rfl, lastValue_append, fbId] at kept
  simp only [writesTo_nil, lastValue, Option.none_or, if_true, Option.some_or, Option.some.injEq] at kept
  rw [asked, kept]

theorem shownFb_getD_iff {id fbId : UInt32} {value : UInt64} (displays : DisplaysLand host dev.gObjProps)
    (known : OnDisplays host triples) (asked : requested triples id PropId.fbId = some value)
    (same : value.toUInt32 = fbId) :
    (shownFb dev triples id).getD (dev.gState (place id)).crtcFbId = fbId ↔
      (dev.fbIdToSurface fbId).isSome ∨ ((dev.gState (place id)).crtcFbId = fbId ∧
        ∀ t ∈ triples, t.objId = id → t.propId = PropId.fbId → dev.fbIdToSurface t.value.toUInt32 = none) := by
  have shows {t : Triple} (member : t ∈ triples) (isFb : t.propId = PropId.fbId)
      (live : (dev.fbIdToSurface t.value.toUInt32).isSome) : Shows dev t :=
    ⟨flips_of_known displays known member isFb, live⟩
  by_cases live : (dev.fbIdToSurface fbId).isSome
  · have showsLast : Shows dev ⟨id, PropId.fbId, value⟩ := shows (mem_of_requested asked) rfl (same ▸ live)
    have shown := requested_filter (p := fun t => decide (Shows dev t)) asked (decide_eq_true showsLast)
    simp [shownFb, shown, same, live]
  · simp only [live, Bool.false_eq_true, false_or]
    cases shown : requested (triples.filter (fun t => Shows dev t)) id PropId.fbId with
    | some other =>
        obtain ⟨member, kept⟩ := List.mem_filter.mp (mem_of_requested shown)
        have otherLive : (dev.fbIdToSurface other.toUInt32).isSome := (of_decide_eq_true kept).2
        have different : other.toUInt32 ≠ fbId := fun equal => live (equal ▸ otherLive)
        have notNone : dev.fbIdToSurface other.toUInt32 ≠ none := Option.isSome_iff_ne_none.mp otherLive
        simp only [shownFb, shown, Option.map_some, Option.getD_some, different, false_iff, not_and]
        exact fun _ dark => notNone (dark _ member rfl rfl)
    | none =>
        have dark : ∀ t ∈ triples, t.objId = id → t.propId = PropId.fbId →
            dev.fbIdToSurface t.value.toUInt32 = none := by
          rintro t member rfl isFb
          by_contra live
          have showsNow : Shows dev t := shows member isFb (Option.isSome_iff_ne_none.mpr live)
          have kept : t ∈ triples.filter (fun t => Shows dev t) := List.mem_filter.mpr ⟨member, decide_eq_true showsNow⟩
          have some := requested_isSome kept
          simp [isFb, shown] at some
        simp only [shownFb, shown, Option.map_none, Option.getD_none]
        exact (and_iff_left dark).symm

theorem fbIdAfter_iff {id : UInt32} {value : UInt64} (displays : DisplaysLand host dev.gObjProps)
    (known : OnDisplays host triples) (asked : requested triples id PropId.fbId = some value) :
    fbIdAfter dev triples id = value.toUInt32 ↔ Recordable dev triples id value.toUInt32 := by
  have shown := shownFb_getD_iff displays known asked rfl
  rw [fbIdAfter, lastFlip_eq_lastFbId displays known, Recordable]
  cases last : lastFbId triples with
  | none =>
      have member := mem_of_requested asked
      have some := lastFlip_isSome member (flips_of_known displays known member rfl)
      simp [lastFlip_eq_lastFbId displays known, last] at some
  | some t =>
      have lastAsked := requested_of_lastFbId last
      by_cases own : t.objId = id
      · subst own
        rw [asked, Option.some.injEq] at lastAsked
        subst lastAsked
        by_cases zero : t.value.toUInt32 = 0
        · rw [zero] at shown
          simpa [zero] using shown
        · have positive : 0 < t.value.toUInt32 := UInt32.pos_iff_ne_zero.mpr zero
          simp [positive, zero]
      · simpa [own] using shown

theorem fbIdsRecorded_committed_iff (displays : DisplaysLand host dev.gObjProps) (known : OnDisplays host triples) :
    FbIdsRecorded host dev (committed host dev triples flags userData) triples ↔
      ∀ id ∈ objectIds host.getDisplayCount, ∀ value, requested triples id PropId.fbId = some value →
        Recordable dev triples id value.toUInt32 := by
  rw [fbIdsRecorded_iff]
  refine forall_congr' fun id => forall_congr' fun idKnown => ?_
  rw [gState_committed_known displays known idKnown]
  change fbIdAfter dev triples id = _ ↔ _
  cases asked : requested triples id PropId.fbId with
  | none =>
      have absent (t : Triple) (member : t ∈ triples) : t.objId = id → t.propId ≠ PropId.fbId := by
        rintro rfl isFb
        have some := requested_isSome member
        simp [isFb, asked] at some
      have old : fbIdAfter dev triples id = (dev.gState (place id)).crtcFbId := by
        simp only [fbIdAfter, shownFb_of_absent absent, Option.getD_none]
        split
        · rename_i t last
          have notOwn : t.objId ≠ id := fun own => absent t (lastFlip_mem last).1 own (lastFlip_mem last).2.1
          rw [if_neg fun both => notOwn both.2]
        · rfl
      simp [old]
  | some value => simpa using fbIdAfter_iff displays known asked

/-- A commit records the framebuffer ids as a page flip does exactly when the
last one of each plane can be recorded. -/
theorem fb_ids_recorded_iff {session : Session} (reachable : ReachableSession host session)
    (known : OnDisplays host req.triples)
    (done : drmModeAtomicCommit host session.world.dev drmVirtualFd (some req) flags userData = .ok (.ok (), after)) :
    FbIdsRecorded host session.world.dev after req.triples ↔
      ∀ id ∈ objectIds host.getDisplayCount, ∀ value, requested req.triples id PropId.fbId = some value →
        Recordable session.world.dev req.triples id value.toUInt32 := by
  have inv := (sessionInv_of_reachable reachable).table
  rcases drmModeAtomicCommit_ok done with ⟨e, failed, _⟩ | ⟨submitted, table, _, same, ensures, _, _, rfl⟩
  · contradiction
  · rw [← Option.some.inj same]
    have displays := (inv.ensured host.getDisplayCount_le ensures).displaysLand
    exact (fbIdsRecorded_committed_iff displays known : FbIdsRecorded _ (session.world.dev.withTable table) _ _ ↔ _)

def clearPlane : AtomicReq := ⟨[⟨1, PropId.fbId, 0⟩], by decide⟩

theorem fb_ids_recorded_iff_clearPlane :
    ∃ after, drmModeAtomicCommit (.uniform 1) Session.initial.world.dev drmVirtualFd (some clearPlane) 0 0 =
        .ok (.ok (), after) ∧
      (FbIdsRecorded (.uniform 1) Session.initial.world.dev after clearPlane.triples ↔
        ∀ id ∈ objectIds (Host.uniform 1).getDisplayCount, ∀ value,
          requested clearPlane.triples id PropId.fbId = some value →
            Recordable Session.initial.world.dev clearPlane.triples id value.toUInt32) := by
  have commits : ∃ after, drmModeAtomicCommit (.uniform 1) Session.initial.world.dev drmVirtualFd (some clearPlane) 0 0 =
      .ok (.ok (), after) := ⟨_, rfl⟩
  obtain ⟨after, done⟩ := commits
  exact ⟨after, done, fb_ids_recorded_iff .start (by unfold OnDisplays; decide) done⟩

/-- A page flip to framebuffer 7, which does not exist, is recorded, but the
commit that turns the plane off is not. -/
theorem clearPlane_leaves_fbId :
    ∃ last outs after, runActions (step (.uniform 1)) .initial [.call (.pageFlip drmVirtualFd 1 7 0 0)] = .ok (last, outs) ∧
      drmModeAtomicCommit (.uniform 1) last.world.dev drmVirtualFd (some clearPlane) 0 0 = .ok (.ok (), after) ∧
      ¬ FbIdsRecorded (.uniform 1) last.world.dev after clearPlane.triples := by
  refine ⟨_, _, _, rfl, rfl, ?_⟩
  intro recorded
  obtain ⟨was, now, reportedBefore, reportedAfter, same⟩ := recorded 1 (by decide)
  cases reportedBefore
  cases reportedAfter
  exact absurd same (by decide)

end Iland.Atomic

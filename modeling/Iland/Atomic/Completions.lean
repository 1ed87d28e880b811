import Iland.Atomic.Observed
import Iland.Drm.CommitDisplays

namespace Iland.Atomic

open Iland.Data
open Iland.Drm

/-! The completions of a commit that flips planes of the displays. -/

variable {host : Host} {dev : Device} {triples : List Triple} {req : AtomicReq} {flags : UInt32} {userData : UInt64}

/-- The planes whose FB_ID a request sets, in order of first appearance. -/
def flippedPlanes (triples : List Triple) : List UInt32 :=
  freshKeys [] ((triples.filter (fun t => t.propId = PropId.fbId)).map Triple.objId)

/-- One completion is queued for the CRTC of each flipped plane, and one byte
is written to the event pipe, if there is one. -/
structure Completed (host : Host) (before after : Device) (triples : List Triple) (userData : UInt64) : Prop where
  each : ∀ id, id ∈ flippedPlanes triples ↔ ∃ t ∈ triples, t.objId = id ∧ t.propId = PropId.fbId
  distinct : (flippedPlanes triples).Nodup
  known : ∀ id ∈ flippedPlanes triples, id ∈ objectIds host.getDisplayCount
  queued : after.gFlipEvents =
    before.gFlipEvents.enqueueAll ((flippedPlanes triples).map (fun crtcId => ⟨crtcId, userData⟩))
  signalled : after.eventPipe = before.eventPipe.map (· + 1)

/-- The commit succeeds and, if its flags ask for that, completes the flips;
otherwise it neither queues nor writes anything. -/
def FlipsCompleted (host : Host) (dev : Device) (req : AtomicReq) (flags : UInt32) (userData : UInt64) : Prop :=
  ∃ after, drmModeAtomicCommit host dev drmVirtualFd (some req) flags userData = .ok (.ok (), after) ∧
    if flags &&& drmModePageFlipEvent ≠ 0 then Completed host dev after req.triples userData
    else after.gFlipEvents = dev.gFlipEvents ∧ after.eventPipe = dev.eventPipe

theorem mem_flippedPlanes {id : UInt32} :
    id ∈ flippedPlanes triples ↔ ∃ t ∈ triples, t.objId = id ∧ t.propId = PropId.fbId := by
  simp [flippedPlanes, mem_freshKeys, and_assoc, and_comm]

theorem nodup_flippedPlanes (triples : List Triple) : (flippedPlanes triples).Nodup :=
  nodup_append_freshKeys .nil _

theorem flipped_eq_flippedPlanes (displays : DisplaysLand host dev.gObjProps)
    (planes : ∀ t ∈ triples, t.propId = PropId.fbId → t.objId ∈ objectIds host.getDisplayCount) :
    flipped host dev triples = flippedPlanes triples := by
  rw [flipped_eq fun t member flips => planes t member flips.1, flippedPlanes]
  congr 2
  apply List.filter_congr
  intro t member
  by_cases isFb : t.propId = PropId.fbId
  · have lands : Lands dev.gObjProps t := displays _ (planes t member isFb)
    simp [Flips, isFb, lands]
  · simp [Flips, isFb]

theorem completed_committed {table : ObjTable} (displays : DisplaysLand host table)
    (planes : ∀ t ∈ triples, t.propId = PropId.fbId → t.objId ∈ objectIds host.getDisplayCount)
    (flipsSome : ∃ t ∈ triples, t.propId = PropId.fbId) (asked : flags &&& drmModePageFlipEvent ≠ 0) :
    Completed host dev (committed host (dev.withTable table) triples flags userData) triples userData := by
  refine ⟨fun _ => mem_flippedPlanes, nodup_flippedPlanes triples, ?_, ?_, ?_⟩
  · intro id present
    obtain ⟨t, member, rfl, isFb⟩ := mem_flippedPlanes.mp present
    exact planes t member isFb
  · obtain ⟨t, member, isFb⟩ := flipsSome
    have some : flippedPlanes triples ≠ [] := List.ne_nil_of_mem (mem_flippedPlanes.mpr ⟨t, member, rfl, isFb⟩)
    have flips : flipped host (dev.withTable table) triples = flippedPlanes triples :=
      flipped_eq_flippedPlanes displays planes
    rw [gFlipEvents_committed, if_pos asked, flips, completions, if_neg some]
    rfl
  · rw [eventPipe_committed, if_pos asked, Device.eventPipe_withTable]

/-- A commit completes its flips exactly when the records of the displays fit
and no triple is a position of an object 0 with a record. -/
theorem flips_completed_iff {session : Session} (reachable : ReachableSession host session)
    (planes : ∀ t ∈ req.triples, t.propId = PropId.fbId → t.objId ∈ objectIds host.getDisplayCount)
    (flipsSome : ∃ t ∈ req.triples, t.propId = PropId.fbId) :
    FlipsCompleted host session.world.dev req flags userData ↔
      3 * host.getDisplayCount ≤ maxObjProps ∧ ∀ t ∈ req.triples, ¬ Strays session.world.dev.gObjProps t := by
  have inv := (sessionInv_of_reachable reachable).table
  constructor
  · rintro ⟨after, done, _⟩
    have noFault (fault : Fault) :
        ¬ (maxObjProps < 3 * host.getDisplayCount ∧ fault = .nullDeref ∨
          (∃ t ∈ req.triples, Strays session.world.dev.gObjProps t) ∧ fault = .outOfBounds .gState (-1)) := by
      rw [← commit_fault inv, done]
      simp
    refine ⟨not_lt.mp fun tooMany => noFault _ (.inl ⟨tooMany, rfl⟩), ?_⟩
    exact fun t member stray => noFault _ (.inr ⟨⟨t, member, stray⟩, rfl⟩)
  · rintro ⟨fits, inside⟩
    obtain ⟨table, ensures, ensured⟩ := inv.ensure_fits fits
    have safe : ∀ t ∈ req.triples, ¬ Strays table t := fun t member =>
      (not_congr (strays_ensure inv ensures t)).mpr (inside t member)
    refine ⟨_, drmModeAtomicCommit_eq flags userData ensures safe, ?_⟩
    split
    · rename_i asked
      exact completed_committed ensured.displaysLand planes flipsSome asked
    · rename_i notAsked
      rw [gFlipEvents_committed, eventPipe_committed, if_neg notAsked, if_neg notAsked]
      exact ⟨rfl, rfl⟩

def flipFirst : AtomicReq := ⟨[⟨1, PropId.fbId, 1⟩], by decide⟩

theorem flips_completed_iff_flipFirst :
    FlipsCompleted (.uniform 1) Session.initial.world.dev flipFirst drmModePageFlipEvent 0 ↔
      3 * (Host.uniform 1).getDisplayCount ≤ maxObjProps ∧
        ∀ t ∈ flipFirst.triples, ¬ Strays Session.initial.world.dev.gObjProps t :=
  flips_completed_iff .start (by decide) (by decide)

/-- With six displays the same request is not even committed. -/
theorem six_displays_complete_nothing :
    ¬ FlipsCompleted (.uniform 6) Session.initial.world.dev flipFirst drmModePageFlipEvent 0 := by
  rintro ⟨after, done, _⟩
  have fault : drmModeAtomicCommit (.uniform 6) Session.initial.world.dev drmVirtualFd (some flipFirst)
      drmModePageFlipEvent 0 = .error .nullDeref := rfl
  rw [fault] at done
  contradiction

end Iland.Atomic

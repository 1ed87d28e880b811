import Iland.Buffers.Tables

namespace Iland.Buffers

open Iland.Data
open Iland.Drm
open Iland.Ioctl
open Iland.Sdl

/-! The tables of dumb buffers and framebuffers as maps from their ids.

A free place has the id 0, and a search does not skip the free places.
-/

variable {host : Host} {dev : Device} {pair : Session × Ledgers} {h id : UInt32}

/-- The surface that `drmModeAddFB` finds among the dumb buffers. -/
def dumbSurface (dev : Device) (h : UInt32) : Option IOSurface :=
  (firstPlace (fun i => (dev.gDumb i).handle == h)).bind (fun i => (dev.gDumb i).surface)

/-- An entry that a step leaves alone reads the same afterwards. -/
def Undisturbed {α β : Type} (host : Host) (ledger : Ledgers → Ledger UInt32 α) (read : Device → β)
    (pair : Session × Ledgers) (id : UInt32) : Prop :=
  ∀ a next out, ledgered host pair a = .ok (next, out) → ((ledger pair.2).find id).isSome →
    ((ledger next.2).find id).isSome → read next.1.world.dev = read pair.1.world.dev

/-- The calls that fail change nothing. -/
def FailuresHarmless (host : Host) (world : World) (calls : Call → Bool) : Prop :=
  ∀ c after e, calls c = true → exec host world c = .ok (after, .error e) → after = world

def Call.onDumbs : Call → Bool
  | .createDumbBuffer .. | .destroyDumbBuffer .. => true
  | _ => false

def Call.onFbs : Call → Bool
  | .addFB .. | .rmFB .. => true
  | _ => false

/-- With regard to the handle `h`, the dumb buffers are the map that the ledger says. -/
structure DumbEntry (host : Host) (pair : Session × Ledgers) (h : UInt32) : Prop where
  map : drmModeMapDumbBuffer pair.1.world.dev drmVirtualFd h =
    match pair.2.dumbs.find h with
    | some (_, base) => .ok base
    | none => .error .ENOENT
  surface : dumbSurface pair.1.world.dev h = (pair.2.dumbs.find h).map Prod.fst
  destroy : (drmModeDestroyDumbBuffer pair.1.world.dev drmVirtualFd h).1 =
    if (pair.2.dumbs.find h).isSome then .ok () else .error .ENOENT
  undisturbed : Undisturbed host Ledgers.dumbs
    (fun dev => (drmModeMapDumbBuffer dev drmVirtualFd h, dumbSurface dev h)) pair h
  failures : FailuresHarmless host pair.1.world Call.onDumbs

/-- With regard to `id`, the framebuffers are the map that the ledger says. -/
structure FbEntryAt (host : Host) (pair : Session × Ledgers) (id : UInt32) : Prop where
  surface : pair.1.world.dev.fbIdToSurface id = pair.2.fbs.find id
  remove : (drmModeRmFB pair.1.world.dev drmVirtualFd id).1 =
    if (pair.2.fbs.find id).isSome then .ok () else .error .ENOENT
  undisturbed : Undisturbed host Ledgers.fbs (fun dev => dev.fbIdToSurface id) pair id
  failures : FailuresHarmless host pair.1.world Call.onFbs

/-! What the calls read. -/

theorem mapDumbBuffer_eq_seek : drmModeMapDumbBuffer dev drmVirtualFd h =
    match seek DumbBuf.handle dev.gDumb h with
    | some buf => .ok buf.map
    | none => .error .ENOENT := by
  simp only [drmModeMapDumbBuffer, checkFd, ne_eq, not_true_eq_false, if_false, seek, firstPlace]
  cases (List.finRange maxDumbBufs).find? (fun i => (dev.gDumb i).handle == h) <;> rfl

theorem dumbSurface_eq_seek : dumbSurface dev h = (seek DumbBuf.handle dev.gDumb h).bind DumbBuf.surface := by
  rw [seek, Option.bind_map]
  rfl

theorem destroyDumbBuffer_eq_seek : (drmModeDestroyDumbBuffer dev drmVirtualFd h).1 =
    if (seek DumbBuf.handle dev.gDumb h).isSome then .ok () else .error .ENOENT := by
  have sought : seek DumbBuf.handle dev.gDumb h = (firstPlace (fun i => (dev.gDumb i).handle == h)).map dev.gDumb := rfl
  rw [sought]
  cases found : firstPlace (fun i => (dev.gDumb i).handle == h) <;> simp [drmModeDestroyDumbBuffer, checkFd, found]

theorem fbIdToSurface_eq_seek : dev.fbIdToSurface id = (seek FbEntry.fbId dev.gFbs id).bind FbEntry.surface := by
  rw [seek, Option.bind_map]
  rfl

theorem rmFB_eq_seek : (drmModeRmFB dev drmVirtualFd id).1 =
    if (seek FbEntry.fbId dev.gFbs id).isSome then .ok () else .error .ENOENT := by
  have sought : seek FbEntry.fbId dev.gFbs id = (firstPlace (fun i => (dev.gFbs i).fbId == id)).map dev.gFbs := rfl
  rw [sought]
  cases found : firstPlace (fun i => (dev.gFbs i).fbId == id) <;> simp [drmModeRmFB, checkFd, found]

theorem failuresHarmless_onDumbs (world : World) : FailuresHarmless host world Call.onDumbs := by
  intro c after e onDumbs done
  cases c <;> simp only [Call.onDumbs, Bool.false_eq_true] at onDumbs <;>
    simp only [exec, World.update, Except.ok.injEq, Prod.mk.injEq] at done <;> obtain ⟨rfl, failed⟩ := done
  case createDumbBuffer fd created =>
    rcases createDumbBuffer_cases world.dev fd created with ⟨⟨e, same⟩, _⟩ | ⟨slot, info, _, _, _, made⟩
    · rw [same]
      rfl
    · simp [made, Except.map] at failed
  case destroyDumbBuffer fd handle =>
    rcases destroyDumbBuffer_cases world.dev fd handle with ⟨e, same⟩ | ⟨i, _, made⟩
    · rw [same]
      rfl
    · simp [made, Except.map] at failed

theorem failuresHarmless_onFbs (world : World) : FailuresHarmless host world Call.onFbs := by
  intro c after e onFbs done
  cases c <;> simp only [Call.onFbs, Bool.false_eq_true] at onFbs <;>
    simp only [exec, World.update, Except.ok.injEq, Prod.mk.injEq] at done <;> obtain ⟨rfl, failed⟩ := done
  case addFB fd boHandle hasId =>
    rcases addFB_cases world.dev fd boHandle hasId with ⟨⟨e, same⟩, _⟩ | ⟨slot, surf, _, _, _, _, made⟩
    · rw [same]
      rfl
    · simp [made, Except.map] at failed
  case rmFB fd bufId =>
    rcases rmFB_cases world.dev fd bufId with ⟨e, same⟩ | ⟨i, _, made⟩
    · rw [same]
      rfl
    · simp [made, Except.map] at failed

/-! The entries. -/

variable {l next : Ledgers} {a : Action} {out : Output} {after : Device}

theorem seek_dumbs_step (stepped : TableStep dev l a out after next) (marked : DumbsMarked dev l.dumbs)
    (few : l.dumbs.made < 2 ^ 32) (before : (l.dumbs.find h).isSome) (stays : (next.dumbs.find h).isSome) :
    seek DumbBuf.handle after.gDumb h = seek DumbBuf.handle dev.gDumb h := by
  have live := Ledger.mem_ids_of_find before
  have nonzero : (0 : UInt32) ≠ h := fun zero => marked.blank_not_live (zero ▸ live)
  cases stepped with
  | addDumb slot info free same =>
      rw [same.gDumb]
      refine seek_update_of_ne (free ▸ nonzero) ?_
      rintro rfl
      exact marked.tracks.unused_of_few few live
  | dropDumb i same =>
      rw [same.gDumb]
      exact seek_update_of_ne (Ledger.ne_of_find_destroy stays).symm nonzero
  | same same | addFb slot surf free same | dropFb i same | addBlob slot data free same | dropBlob i blob at' same =>
      exact congrArg (fun records => seek DumbBuf.handle records h) same.gDumb

theorem seek_fbs_step (stepped : TableStep dev l a out after next) (marked : FbsMarked dev l.fbs)
    (few : l.fbs.made < 2 ^ 32) (before : (l.fbs.find id).isSome) (stays : (next.fbs.find id).isSome) :
    seek FbEntry.fbId after.gFbs id = seek FbEntry.fbId dev.gFbs id := by
  have live := Ledger.mem_ids_of_find before
  have nonzero : (0 : UInt32) ≠ id := fun zero => marked.blank_not_live (zero ▸ live)
  cases stepped with
  | addFb slot surf free same =>
      rw [same.gFbs]
      refine seek_update_of_ne (free ▸ nonzero) ?_
      rintro rfl
      exact marked.tracks.unused_of_few few live
  | dropFb i same =>
      rw [same.gFbs]
      exact seek_update_of_ne (Ledger.ne_of_find_destroy stays).symm nonzero
  | same same | addDumb slot info free same | dropDumb i same | addBlob slot data free same | dropBlob i blob at' same =>
      exact congrArg (fun records => seek FbEntry.fbId records id) same.gFbs

theorem dumbEntry_iff (marked : DumbsMarked pair.1.world.dev pair.2.dumbs) (few : pair.2.dumbs.made < 2 ^ 32) :
    DumbEntry host pair h ↔ h ≠ 0 ∨ ∀ i, (pair.1.world.dev.gDumb i).handle ≠ 0 := by
  constructor
  · intro entry
    by_contra free
    simp only [not_or, not_not, not_forall] at free
    obtain ⟨rfl, i, zero⟩ := free
    obtain ⟨found, absent⟩ := marked.seek_mark zero
    have destroyed := entry.destroy
    change seek DumbBuf.handle pair.1.world.dev.gDumb 0 = _ at found
    change pair.2.dumbs.find 0 = none at absent
    simp [destroyDumbBuffer_eq_seek, found, absent] at destroyed
  · intro apart
    have undisturbed : Undisturbed host Ledgers.dumbs
        (fun dev => (drmModeMapDumbBuffer dev drmVirtualFd h, dumbSurface dev h)) pair h := by
      intro a next out done before stays
      simp only [mapDumbBuffer_eq_seek, dumbSurface_eq_seek,
        seek_dumbs_step (ledgered_cases done) marked few before stays]
    rcases marked.seek_cases apart with ⟨buf, ⟨surface, base⟩, found, stored, live⟩ | ⟨missing, dead⟩
    · obtain ⟨own, held, same⟩ := Option.map_eq_some_iff.mp stored
      cases same
      refine ⟨?_, ?_, ?_, undisturbed, failuresHarmless_onDumbs _⟩
      · rw [mapDumbBuffer_eq_seek, found, live]
      · rw [dumbSurface_eq_seek, found, live, Option.bind_some, held, Option.map_some]
      · rw [destroyDumbBuffer_eq_seek, found, live, Option.isSome_some, Option.isSome_some]
    · refine ⟨?_, ?_, ?_, undisturbed, failuresHarmless_onDumbs _⟩
      · rw [mapDumbBuffer_eq_seek, missing, dead]
      · rw [dumbSurface_eq_seek, missing, dead, Option.bind_none, Option.map_none]
      · rw [destroyDumbBuffer_eq_seek, missing, dead, Option.isSome_none, Option.isSome_none]

theorem fbEntryAt_iff (marked : FbsMarked pair.1.world.dev pair.2.fbs) (few : pair.2.fbs.made < 2 ^ 32) :
    FbEntryAt host pair id ↔ id ≠ 0 ∨ ∀ i, (pair.1.world.dev.gFbs i).fbId ≠ 0 := by
  constructor
  · intro entry
    by_contra free
    simp only [not_or, not_not, not_forall] at free
    obtain ⟨rfl, i, zero⟩ := free
    obtain ⟨found, absent⟩ := marked.seek_mark zero
    have removed := entry.remove
    change seek FbEntry.fbId pair.1.world.dev.gFbs 0 = _ at found
    change pair.2.fbs.find 0 = none at absent
    simp [rmFB_eq_seek, found, absent] at removed
  · intro apart
    have undisturbed : Undisturbed host Ledgers.fbs (fun dev => dev.fbIdToSurface id) pair id := by
      intro a next out done before stays
      simp only [fbIdToSurface_eq_seek, seek_fbs_step (ledgered_cases done) marked few before stays]
    rcases marked.seek_cases apart with ⟨entry, surface, found, stored, live⟩ | ⟨missing, dead⟩
    · refine ⟨?_, ?_, undisturbed, failuresHarmless_onFbs _⟩
      · rw [fbIdToSurface_eq_seek, found, live, Option.bind_some, stored]
      · rw [rmFB_eq_seek, found, live, Option.isSome_some, Option.isSome_some]
    · refine ⟨?_, ?_, undisturbed, failuresHarmless_onFbs _⟩
      · rw [fbIdToSurface_eq_seek, missing, dead, Option.bind_none]
      · rw [rmFB_eq_seek, missing, dead, Option.isSome_none, Option.isSome_none]

/-! Runs. -/

theorem dumbsMarked_of_reachable (reachable : Reachable (ledgered host) ledgersInitial pair)
    (few : pair.2.dumbs.made < 2 ^ 32) : DumbsMarked pair.1.world.dev pair.2.dumbs := by
  induction reachable with
  | start => exact dumbsMarked_initial
  | next _ done ih =>
      have stepped := ledgered_cases done
      have counted := stepped.counts.1
      have marked := ih (by omega)
      refine stepped.dumbsMarked marked fun made => ?_
      rw [if_pos made] at counted
      exact ⟨marked.tracks.ne_zero_of_few Nat.one_pos (by omega), marked.tracks.unused_of_few (by omega)⟩

theorem fbsMarked_of_reachable (reachable : Reachable (ledgered host) ledgersInitial pair)
    (few : pair.2.fbs.made < 2 ^ 32) : FbsMarked pair.1.world.dev pair.2.fbs := by
  induction reachable with
  | start => exact fbsMarked_initial
  | next _ done ih =>
      have stepped := ledgered_cases done
      have counted := stepped.counts.2.1
      have marked := ih (by omega)
      refine stepped.fbsMarked marked fun made => ?_
      rw [if_pos made] at counted
      exact ⟨marked.tracks.ne_zero_of_few Nat.one_pos (by omega), marked.tracks.unused_of_few (by omega)⟩

/-- With fewer than 2 ^ 32 creations, the tables are finite maps exactly as
far as 0 is not asked for while a place is free. -/
theorem tables_are_maps_iff (reachable : Reachable (ledgered host) ledgersInitial pair)
    (fewDumbs : pair.2.dumbs.made < 2 ^ 32) (fewFbs : pair.2.fbs.made < 2 ^ 32) (h : UInt32) :
    (DumbEntry host pair h ↔ h ≠ 0 ∨ ∀ i, (pair.1.world.dev.gDumb i).handle ≠ 0) ∧
      (FbEntryAt host pair h ↔ h ≠ 0 ∨ ∀ i, (pair.1.world.dev.gFbs i).fbId ≠ 0) :=
  ⟨dumbEntry_iff (dumbsMarked_of_reachable reachable fewDumbs) fewDumbs,
    fbEntryAt_iff (fbsMarked_of_reachable reachable fewFbs) fewFbs⟩

/-- Two dumb buffers and a framebuffer on the second; then the first is destroyed. -/
def bufferActions : List Action :=
  [.call (.createDumbBuffer drmVirtualFd (some ⟨7, 256, 1024, 4096⟩)),
    .call (.createDumbBuffer drmVirtualFd (some ⟨8, 256, 1024, 8192⟩)),
    .call (.addFB drmVirtualFd 2 true), .call (.destroyDumbBuffer drmVirtualFd 1)]

theorem tables_are_maps_iff_live : ∃ pair outs,
    runActions (ledgered (.uniform 1)) ledgersInitial bufferActions = .ok (pair, outs) ∧
      pair.2.dumbs.find 1 = none ∧ pair.2.dumbs.find 2 = some (8, 8192) ∧ pair.2.fbs.find 1 = some 8 ∧
      ∀ h ∈ [1, 2], (DumbEntry (.uniform 1) pair h ↔ h ≠ 0 ∨ ∀ i, (pair.1.world.dev.gDumb i).handle ≠ 0) ∧
        (FbEntryAt (.uniform 1) pair h ↔ h ≠ 0 ∨ ∀ i, (pair.1.world.dev.gFbs i).fbId ≠ 0) := by
  have performed : ∃ pair outs, runActions (ledgered (.uniform 1)) ledgersInitial bufferActions = .ok (pair, outs) ∧
      (pair.2.dumbs.made = 2 ∧ pair.2.fbs.made = 1) ∧
      pair.2.dumbs.find 1 = none ∧ pair.2.dumbs.find 2 = some (8, 8192) ∧ pair.2.fbs.find 1 = some 8 :=
    ⟨_, _, rfl, ⟨rfl, rfl⟩, rfl, rfl, rfl⟩
  obtain ⟨pair, outs, run, ⟨dumbs, fbs⟩, destroyed, live, framebuffer⟩ := performed
  have reachable := runActions_reachable .start run
  exact ⟨pair, outs, run, destroyed, live, framebuffer, fun h _ =>
    tables_are_maps_iff reachable (by rw [dumbs]; decide) (by rw [fbs]; decide) h⟩

/-- Before anything is created, the buffer 0 can be mapped and destroyed, and
the framebuffer 0 can be removed. -/
theorem zero_is_found :
    drmModeMapDumbBuffer ledgersInitial.1.world.dev drmVirtualFd 0 = .ok 0 ∧
      (drmModeDestroyDumbBuffer ledgersInitial.1.world.dev drmVirtualFd 0).1 = .ok () ∧
      (drmModeRmFB ledgersInitial.1.world.dev drmVirtualFd 0).1 = .ok () ∧
      ¬ DumbEntry (.uniform 1) ledgersInitial 0 ∧ ¬ FbEntryAt (.uniform 1) ledgersInitial 0 := by
  refine ⟨rfl, rfl, rfl, ?_, ?_⟩
  · intro entry
    cases entry.destroy
  · intro entry
    cases entry.remove

end Iland.Buffers

import Iland.Frames
import Iland.Sdl.Retains

namespace Iland.Buffers

open Iland.Atomic
open Iland.Data
open Iland.Drm
open Iland.Ioctl
open Iland.Sdl

variable {host : Host} {dev : Device} {world after : World} {c : Call} {reply : Reply}

/-! What each call does to the buffers, the framebuffers and what is retained. -/

/-- The buffer tables are as before, and the backend retains what it refers to
if it did before. -/
structure Presents (before after : Device) : Prop where
  gDumb : after.gDumb = before.gDumb
  gNextDumbHandle : after.gNextDumbHandle = before.gNextDumbHandle
  gGbmBufs : after.gGbmBufs = before.gGbmBufs
  gFbs : after.gFbs = before.gFbs
  gNextFbId : after.gNextFbId = before.gNextFbId
  surplus : ∀ x, after.sdl.surplus x = before.sdl.surplus x

theorem Presents.refl (dev : Device) : Presents dev dev := ⟨rfl, rfl, rfl, rfl, rfl, fun _ => rfl⟩

theorem presents_of_aside {after : Device} (aside : Aside dev after) : Presents dev after := by
  rw [aside]
  exact ⟨rfl, rfl, rfl, rfl, rfl, fun _ => rfl⟩

theorem presents_present (surface : IOSurface) (crtcId : UInt32) (x y : Int32) :
    Presents dev (dev.present host surface crtcId x y) :=
  ⟨rfl, rfl, rfl, rfl, rfl, fun s => Backend.surplus_sdlPresentIosurfaceForCrtc dev.sdl s crtcId x y⟩

theorem presents_setCrtc (fd : Int) (crtcId fbId x y : UInt32) (mode : Option ModeInfo) :
    Presents dev (drmModeSetCrtc host dev fd crtcId fbId x y mode).2 := by
  simp only [drmModeSetCrtc]
  repeat' split
  all_goals first
    | exact .refl dev
    | exact ⟨rfl, rfl, rfl, rfl, rfl, fun _ => rfl⟩
    | exact ⟨rfl, rfl, rfl, rfl, rfl, fun s => Backend.surplus_sdlPresentIosurfaceForCrtc _ s _ _ _⟩

theorem presents_pageFlip (fd : Int) (crtcId fbId flags : UInt32) (userData : UInt64) :
    Presents dev (drmModePageFlip host dev fd crtcId fbId flags userData).2 := by
  simp only [drmModePageFlip]
  repeat' split
  all_goals first
    | exact .refl dev
    | exact ⟨rfl, rfl, rfl, rfl, rfl, fun _ => rfl⟩
    | exact ⟨rfl, rfl, rfl, rfl, rfl, fun s => Backend.surplus_sdlPresentIosurfaceForCrtc _ s _ _ _⟩

theorem surplus_apply (s : Committing) (t : Triple) (x : IOSurface) :
    (s.apply host t).dev.sdl.surplus x = s.dev.sdl.surplus x := by
  by_cases flips : Flips s.dev.gObjProps t
  · obtain ⟨op, found⟩ := Option.isSome_iff_exists.mp flips.2
    rw [apply_of_flips found flips.1]
    simp only [Committing.flip, showPlane]
    split
    · rfl
    · exact Backend.surplus_sdlPresentIosurfaceForCrtc _ x _ _ _
  · rw [sdl_apply_of_not_shows fun showsFb => flips showsFb.1]

theorem surplus_applyAll (s : Committing) (triples : List Triple) (x : IOSurface) :
    (s.applyAll host triples).dev.sdl.surplus x = s.dev.sdl.surplus x := by
  induction triples generalizing s with
  | nil => rfl
  | cons t rest ih => rw [Committing.applyAll_cons, ih, surplus_apply]

theorem committed_keeps (host : Host) (dev : Device) (table : ObjTable) (triples : List Triple) (flags : UInt32)
    (userData : UInt64) : ∃ gObjProps gState gFlipEvents eventPipe sdl, committed host (dev.withTable table) triples flags userData =
      { dev with gObjProps, gState, gFlipEvents, eventPipe, sdl } := by
  obtain ⟨gObjProps, gState, sdl, same⟩ : ∃ gObjProps gState sdl,
      recordLastFb ((Committing.start (dev.withTable table)).applyAll host triples) =
        { dev with gObjProps, gState, sdl } := ⟨_, _, _, frame_loop triples⟩
  simp only [committed, same]
  split <;> exact ⟨_, _, _, _, _, rfl⟩

theorem presents_committed (table : ObjTable) (triples : List Triple) (flags : UInt32) (userData : UInt64) :
    Presents dev (committed host (dev.withTable table) triples flags userData) := by
  have sdl : ∀ x, (committed host (dev.withTable table) triples flags userData).sdl.surplus x = dev.sdl.surplus x := by
    intro x
    rw [sdl_committed, surplus_applyAll]
    rfl
  obtain ⟨_, _, _, _, _, same⟩ := committed_keeps host dev table triples flags userData
  refine ⟨?_, ?_, ?_, ?_, ?_, sdl⟩ <;> rw [same]

def addDumb (dev : Device) (slot : Fin maxDumbBufs) (info : SurfaceInfo) : Device :=
  { dev with
    gNextDumbHandle := dev.gNextDumbHandle + 1
    gDumb := Function.update dev.gDumb slot ⟨dev.gNextDumbHandle, some info.surface, info.base⟩
    sdl := dev.sdl.cfRetain info.surface }

def dropDumb (dev : Device) (i : Fin maxDumbBufs) : Device :=
  { dev with
    sdl := dev.sdl.cfReleaseOption (dev.gDumb i).surface
    gDumb := Function.update dev.gDumb i ⟨0, none, 0⟩ }

def addFb (dev : Device) (slot : Fin maxFbs) (surf : IOSurface) : Device :=
  { dev with
    gNextFbId := dev.gNextFbId + 1
    gFbs := Function.update dev.gFbs slot ⟨dev.gNextFbId, some surf⟩
    sdl := dev.sdl.cfRetain surf }

def dropFb (dev : Device) (i : Fin maxFbs) : Device :=
  { dev with
    sdl := dev.sdl.cfReleaseOption (dev.gFbs i).surface
    gFbs := Function.update dev.gFbs i ⟨0, none⟩ }

def boSurface (dev : Device) (boHandle : UInt32) : Option IOSurface :=
  ((firstPlace (fun i => (dev.gDumb i).handle == boHandle)).bind (fun i => (dev.gDumb i).surface)).or
    (lookupGbmBuffer dev boHandle)

theorem firstPlace_some {n : ℕ} {p : Fin n → Bool} {i : Fin n} (found : firstPlace p = some i) : p i = true :=
  List.find?_some found

theorem firstPlace_isSome {n : ℕ} {p : Fin n → Bool} {i : Fin n} (hit : p i = true) : (firstPlace p).isSome := by
  rw [firstPlace, List.find?_isSome]
  exact ⟨i, List.mem_finRange i, hit⟩

theorem firstPlace_none {n : ℕ} {p : Fin n → Bool} (missing : firstPlace p = none) (i : Fin n) : p i = false := by
  simpa using List.find?_eq_none.mp missing i (List.mem_finRange i)

theorem checkFd_ok_iff {fd : Int} {opened : Unit} : checkFd fd = .ok opened ↔ fd = drmVirtualFd := by
  simp [checkFd]

theorem createDumbBuffer_cases (dev : Device) (fd : Int) (created : Option SurfaceInfo) :
    ((∃ e, drmModeCreateDumbBuffer dev fd created = (.error e, dev)) ∧
        ¬ (fd = drmVirtualFd ∧ created.isSome ∧ ∃ i, (dev.gDumb i).handle = 0)) ∨
      ∃ slot info, fd = drmVirtualFd ∧ created = some info ∧ (dev.gDumb slot).handle = 0 ∧
        drmModeCreateDumbBuffer dev fd created =
          (.ok (dev.gNextDumbHandle, info.pitch, info.size), addDumb dev slot info) := by
  simp only [drmModeCreateDumbBuffer]
  cases opened : checkFd fd with
  | error e => exact .inl ⟨⟨e, rfl⟩, fun both => by simp [checkFd, both.1] at opened⟩
  | ok ok =>
      cases free : firstPlace (fun i => (dev.gDumb i).handle == 0) with
      | none =>
          refine .inl ⟨⟨_, rfl⟩, ?_⟩
          rintro ⟨_, _, i, zero⟩
          simpa [zero] using firstPlace_none free i
      | some slot =>
          cases created with
          | none => exact .inl ⟨⟨_, rfl⟩, by simp⟩
          | some info =>
              exact .inr ⟨slot, info, checkFd_ok_iff.mp opened, rfl, by simpa using firstPlace_some free, rfl⟩

theorem destroyDumbBuffer_cases (dev : Device) (fd : Int) (handle : UInt32) :
    (∃ e, drmModeDestroyDumbBuffer dev fd handle = (.error e, dev)) ∨
      ∃ i, (dev.gDumb i).handle = handle ∧ drmModeDestroyDumbBuffer dev fd handle = (.ok (), dropDumb dev i) := by
  simp only [drmModeDestroyDumbBuffer]
  cases checkFd fd with
  | error e => exact .inl ⟨e, rfl⟩
  | ok valid =>
      cases found : firstPlace (fun i => (dev.gDumb i).handle == handle) with
      | none => exact .inl ⟨_, rfl⟩
      | some i => exact .inr ⟨i, by simpa using firstPlace_some found, rfl⟩

theorem addFB_cases (dev : Device) (fd : Int) (boHandle : UInt32) (hasId : Bool) :
    ((∃ e, drmModeAddFB dev fd boHandle hasId = (.error e, dev)) ∧
        ¬ (fd = drmVirtualFd ∧ hasId = true ∧ (boSurface dev boHandle).isSome ∧ ∃ i, (dev.gFbs i).fbId = 0)) ∨
      ∃ slot surf, fd = drmVirtualFd ∧ hasId = true ∧ boSurface dev boHandle = some surf ∧ (dev.gFbs slot).fbId = 0 ∧
        drmModeAddFB dev fd boHandle hasId = (.ok dev.gNextFbId, addFb dev slot surf) := by
  simp only [drmModeAddFB]
  cases opened : checkFd fd with
  | error e => exact .inl ⟨⟨e, rfl⟩, fun both => by simp [checkFd, both.1] at opened⟩
  | ok ok =>
      have valid := checkFd_ok_iff.mp opened
      cases hasId with
      | false => exact .inl ⟨⟨_, rfl⟩, by simp⟩
      | true =>
          cases found : boSurface dev boHandle with
          | none =>
              rw [boSurface] at found
              simp only [found]
              exact .inl ⟨⟨_, rfl⟩, by simp⟩
          | some surf =>
              rw [boSurface] at found
              simp only [found]
              cases free : firstPlace (fun i => (dev.gFbs i).fbId == 0) with
              | none =>
                  refine .inl ⟨⟨_, rfl⟩, ?_⟩
                  rintro ⟨_, _, _, i, zero⟩
                  simpa [zero] using firstPlace_none free i
              | some slot => exact .inr ⟨slot, surf, valid, trivial, rfl, by simpa using firstPlace_some free, rfl⟩

theorem rmFB_cases (dev : Device) (fd : Int) (bufId : UInt32) :
    (∃ e, drmModeRmFB dev fd bufId = (.error e, dev)) ∨
      ∃ i, (dev.gFbs i).fbId = bufId ∧ drmModeRmFB dev fd bufId = (.ok (), dropFb dev i) := by
  simp only [drmModeRmFB]
  cases checkFd fd with
  | error e => exact .inl ⟨e, rfl⟩
  | ok valid =>
      cases found : firstPlace (fun i => (dev.gFbs i).fbId == bufId) with
      | none => exact .inl ⟨_, rfl⟩
      | some i => exact .inr ⟨i, by simpa using firstPlace_some found, rfl⟩

def Call.tables : Call → Bool
  | .createDumbBuffer .. | .destroyDumbBuffer .. | .registerGbmBuffer .. | .unregisterGbmBuffer .. | .addFB ..
  | .rmFB .. => true
  | _ => false

theorem exec_presents (other : Call.tables c = false) (done : exec host world c = .ok (after, reply)) :
    Presents world.dev after.dev := by
  have commits {flags : UInt32} {userData : UInt64} (isCommit : commitArguments c = some (flags, userData)) :
      Presents world.dev after.dev := by
    rcases exec_commit isCommit done with same | ⟨req, table, _, _, same⟩
    · rw [same]
      exact .refl world.dev
    · rw [same]
      exact presents_committed table req.triples flags userData
  cases aside : c.aside with
  | true => exact presents_of_aside (exec_aside aside done)
  | false =>
      cases c <;> simp only [Call.tables, Call.aside, Bool.true_eq_false] at other aside
      case atomicCommit => exact commits rfl
      case atomicIoctl => exact commits rfl
      all_goals
        simp only [exec, World.update, World.updateSdl, World.withDev, Except.ok.injEq, Prod.mk.injEq] at done
        obtain ⟨rfl, _⟩ := done
      case setCrtc => exact presents_setCrtc _ _ _ _ _ _
      case pageFlip => exact presents_pageFlip _ _ _ _ _
      case backendInit => exact ⟨rfl, rfl, rfl, rfl, rfl, Backend.surplus_sdlBackendInit _⟩
      case pumpEvents => exact ⟨rfl, rfl, rfl, rfl, rfl, Backend.surplus_sdlBackendPumpEvents _⟩
      case backendShutdown => exact ⟨rfl, rfl, rfl, rfl, rfl, Backend.surplus_sdlBackendShutdown _⟩

end Iland.Buffers

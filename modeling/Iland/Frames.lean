import Iland.Atomic.Observed

namespace Iland

open Iland.Atomic
open Iland.Data
open Iland.Drm
open Iland.Ioctl

variable {host : Host} {dev : Device} {world after : World} {c : Call} {reply : Reply}

/-! What each call leaves alone. -/

/-- `after` differs from `before` in the object table, the event pipe, the
capabilities and the blobs at most. -/
def Aside (before after : Device) : Prop :=
  after = { before with
    gObjProps := after.gObjProps
    eventPipe := after.eventPipe
    universalPlanes := after.universalPlanes
    atomic := after.atomic
    gBlobs := after.gBlobs
    gNextBlobId := after.gNextBlobId
    gInFormatsBlobId := after.gInFormatsBlobId }

theorem Aside.refl (dev : Device) : Aside dev dev := rfl

theorem SettingsOnly.aside {after : Device} (only : SettingsOnly dev after) : Aside dev after := by
  rw [Aside, only]

theorem aside_of_demanded {fd : Int} {objectId objectType : UInt32} {demanded : Device}
    (done : Demanded host dev fd objectId objectType demanded) : Aside dev demanded := by
  rcases done with ⟨_, rfl⟩ | ⟨table, _, _, rfl⟩
  · exact .refl demanded
  · rfl

def Call.aside : Call → Bool
  | .mapDumbBuffer .. | .getCrtc .. | .setClientCap .. | .getProperty .. | .objectGetProperties ..
  | .getPlaneResources .. | .getPlane .. | .getResources .. | .getConnector .. | .createPropertyBlob ..
  | .destroyPropertyBlob .. | .getPropertyBlob .. | .openEventPipe => true
  | _ => false

theorem exec_aside (aside : c.aside = true) (done : exec host world c = .ok (after, reply)) :
    Aside world.dev after.dev := by
  cases c <;> simp only [Call.aside, Bool.false_eq_true] at aside
  case objectGetProperties =>
    obtain ⟨dev, demanded, rfl⟩ := exec_ok done
    exact aside_of_demanded demanded
  case getPlane =>
    obtain ⟨dev, demanded, rfl⟩ := exec_ok done
    exact aside_of_demanded demanded
  all_goals
    simp only [exec, World.query, World.update, World.withDev, Except.ok.injEq, Prod.mk.injEq] at done
    obtain ⟨rfl, _⟩ := done
  case setClientCap => exact (settingsOnly_setClientCap _ _).aside
  case getProperty => exact (settingsOnly_getProperty _).aside
  case createPropertyBlob => exact (settingsOnly_createPropertyBlob _).aside
  case destroyPropertyBlob => exact (settingsOnly_destroyPropertyBlob _).aside
  all_goals rfl

def Call.showsCrtc : Call → Bool
  | .setCrtc .. | .pageFlip .. | .atomicCommit .. | .atomicIoctl .. => true
  | _ => false

theorem gState_exec (still : c.showsCrtc = false) (done : exec host world c = .ok (after, reply)) :
    after.dev.gState = world.dev.gState := by
  cases aside : c.aside with
  | true => rw [exec_aside aside done]
  | false =>
      cases c <;> simp only [Call.aside, Call.showsCrtc, Bool.true_eq_false] at aside still <;>
        simp only [exec, World.update, World.updateSdl, World.withDev, Except.ok.injEq, Prod.mk.injEq] at done <;>
        obtain ⟨rfl, _⟩ := done
      case createDumbBuffer => rw [buffersOnly_createDumbBuffer]
      case destroyDumbBuffer => rw [buffersOnly_destroyDumbBuffer]
      case registerGbmBuffer => rw [buffersOnly_registerGbmBuffer]
      case unregisterGbmBuffer => rw [buffersOnly_unregisterGbmBuffer]
      case addFB => rw [buffersOnly_addFB]
      case rmFB => rw [buffersOnly_rmFB]
      all_goals rfl

theorem exec_commit {flags : UInt32} {userData : UInt64} (commits : commitArguments c = some (flags, userData))
    (done : exec host world c = .ok (after, reply)) :
    after.dev = world.dev ∨
      ∃ req table, ensureObjProperties host.getDisplayCount world.dev.gObjProps = .ok table ∧
        (∀ t ∈ req.triples, ¬ Strays table t) ∧
        after.dev = committed host (world.dev.withTable table) (AtomicReq.triples req) flags userData := by
  cases submitted : c.request world with
  | none =>
      left
      obtain ⟨pool, ret, result⟩ := exec_of_no_request host commits submitted
      rw [result, Except.ok.injEq, Prod.mk.injEq] at done
      rw [← done.1]
  | some req =>
      obtain ⟨pool, result⟩ := exec_of_request host commits submitted
      rw [result] at done
      cases ended : drmModeAtomicCommit host world.dev drmVirtualFd (some req) flags userData with
      | error fault => simp [ended, Except.map] at done
      | ok pair =>
          simp only [ended, Except.map, Except.ok.injEq, Prod.mk.injEq] at done
          rw [← done.1]
          rcases drmModeAtomicCommit_ok ended with ⟨_, _, same, _⟩ | ⟨req, table, _, _, ensured, safe, _, same⟩
          · exact .inl same
          · exact .inr ⟨req, table, ensured, safe, same⟩

end Iland

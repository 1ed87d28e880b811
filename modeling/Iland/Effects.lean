import Iland.Session

namespace Iland

open Iland.Data
open Iland.Drm
open Iland.Ioctl

/-! What each call does to the object table, the completion ring and the
event pipe. -/

structure Untouched (before after : Device) : Prop where
  gObjProps : after.gObjProps = before.gObjProps
  gFlipEvents : after.gFlipEvents = before.gFlipEvents
  eventPipe : after.eventPipe = before.eventPipe

/-- Only the buffers, the framebuffers and the backend have changed. -/
def BuffersOnly (before after : Device) : Prop :=
  after = { before with
    gDumb := after.gDumb
    gNextDumbHandle := after.gNextDumbHandle
    gGbmBufs := after.gGbmBufs
    gFbs := after.gFbs
    gNextFbId := after.gNextFbId
    sdl := after.sdl }

/-- Only the capabilities and the blobs have changed. -/
def SettingsOnly (before after : Device) : Prop :=
  after = { before with
    universalPlanes := after.universalPlanes
    atomic := after.atomic
    gBlobs := after.gBlobs
    gNextBlobId := after.gNextBlobId
    gInFormatsBlobId := after.gInFormatsBlobId }

section Frames

variable {host : Host} {dev after : Device} {fd : Int}

theorem BuffersOnly.untouched (only : BuffersOnly dev after) : Untouched dev after := by
  rw [only]
  exact ⟨rfl, rfl, rfl⟩

theorem SettingsOnly.untouched (only : SettingsOnly dev after) : Untouched dev after := by
  rw [only]
  exact ⟨rfl, rfl, rfl⟩

theorem buffersOnly_createDumbBuffer (created : Option SurfaceInfo) :
    BuffersOnly dev (drmModeCreateDumbBuffer dev fd created).2 := by
  simp only [drmModeCreateDumbBuffer]
  repeat' split
  all_goals rfl

theorem buffersOnly_destroyDumbBuffer (handle : UInt32) :
    BuffersOnly dev (drmModeDestroyDumbBuffer dev fd handle).2 := by
  simp only [drmModeDestroyDumbBuffer]
  repeat' split
  all_goals rfl

theorem buffersOnly_registerGbmBuffer (handle : UInt32) (surface : Option Sdl.IOSurface) :
    BuffersOnly dev (drmRegisterGbmBuffer dev handle surface) := by
  simp only [drmRegisterGbmBuffer]
  repeat' split
  all_goals rfl

theorem buffersOnly_unregisterGbmBuffer (handle : UInt32) :
    BuffersOnly dev (drmUnregisterGbmBuffer dev handle) := by
  simp only [drmUnregisterGbmBuffer]
  split <;> rfl

theorem buffersOnly_addFB (boHandle : UInt32) (hasId : Bool) :
    BuffersOnly dev (drmModeAddFB dev fd boHandle hasId).2 := by
  simp only [drmModeAddFB]
  repeat' split
  all_goals rfl

theorem buffersOnly_rmFB (bufId : UInt32) : BuffersOnly dev (drmModeRmFB dev fd bufId).2 := by
  simp only [drmModeRmFB]
  repeat' split
  all_goals rfl

theorem untouched_setCrtc (crtcId fbId x y : UInt32) (mode : Option ModeInfo) :
    Untouched dev (drmModeSetCrtc host dev fd crtcId fbId x y mode).2 := by
  simp only [drmModeSetCrtc]
  repeat' split
  all_goals exact ⟨rfl, rfl, rfl⟩

theorem settingsOnly_setClientCap (capability value : UInt64) :
    SettingsOnly dev (drmSetClientCap dev fd capability value).2 := by
  simp only [drmSetClientCap]
  repeat' split
  all_goals rfl

theorem settingsOnly_storeBlob {data : List UInt8} {id : UInt32} (stored : storeBlob dev data = some (id, after)) :
    SettingsOnly dev after := by
  simp only [storeBlob, Option.map_eq_some_iff] at stored
  obtain ⟨slot, _, result⟩ := stored
  cases result
  rfl

theorem settingsOnly_getOrCreateInFormatsBlob : SettingsOnly dev (getOrCreateInFormatsBlob dev).2 := by
  simp only [getOrCreateInFormatsBlob, createInFormatsBlob]
  split
  · rfl
  · cases stored : storeBlob dev inFormatsData with
    | none => rfl
    | some result =>
        exact congrArg (fun dev : Device => { dev with gInFormatsBlobId := result.1 }) (settingsOnly_storeBlob stored)

theorem settingsOnly_getProperty (propertyId : UInt32) :
    SettingsOnly dev (drmModeGetProperty dev fd propertyId).2 := by
  simp only [drmModeGetProperty]
  repeat' split
  all_goals first
    | exact settingsOnly_getOrCreateInFormatsBlob
    | rfl

theorem settingsOnly_createPropertyBlob (data : Option (List UInt8)) :
    SettingsOnly dev (drmModeCreatePropertyBlob dev fd data).2 := by
  simp only [drmModeCreatePropertyBlob]
  split
  · rfl
  · rfl
  · split
    · rfl
    · rename_i stored
      exact settingsOnly_storeBlob stored

theorem settingsOnly_destroyPropertyBlob (blobId : UInt32) :
    SettingsOnly dev (drmModeDestroyPropertyBlob dev fd blobId).2 := by
  simp only [drmModeDestroyPropertyBlob]
  repeat' split
  all_goals rfl

end Frames

def Call.plain : Call → Bool
  | .pageFlip .. | .objectGetProperties .. | .getPlane .. | .atomicCommit .. | .atomicIoctl .. | .openEventPipe =>
      false
  | _ => true

variable {host : Host} {world after : World} {c : Call} {reply : Reply}

theorem exec_plain (plain : c.plain = true) (done : exec host world c = .ok (after, reply)) :
    Untouched world.dev after.dev ∧ after.pool = world.pool := by
  cases c <;> simp only [Call.plain, Bool.false_eq_true] at plain <;>
    simp only [exec, World.query, World.update, World.updateSdl, World.withDev, Except.ok.injEq,
      Prod.mk.injEq] at done <;>
    obtain ⟨rfl, _⟩ := done
  case createDumbBuffer => exact ⟨(buffersOnly_createDumbBuffer _).untouched, rfl⟩
  case destroyDumbBuffer => exact ⟨(buffersOnly_destroyDumbBuffer _).untouched, rfl⟩
  case registerGbmBuffer => exact ⟨(buffersOnly_registerGbmBuffer _ _).untouched, rfl⟩
  case unregisterGbmBuffer => exact ⟨(buffersOnly_unregisterGbmBuffer _).untouched, rfl⟩
  case addFB => exact ⟨(buffersOnly_addFB _ _).untouched, rfl⟩
  case rmFB => exact ⟨(buffersOnly_rmFB _).untouched, rfl⟩
  case setCrtc => exact ⟨untouched_setCrtc _ _ _ _ _, rfl⟩
  case setClientCap => exact ⟨(settingsOnly_setClientCap _ _).untouched, rfl⟩
  case getProperty => exact ⟨(settingsOnly_getProperty _).untouched, rfl⟩
  case createPropertyBlob => exact ⟨(settingsOnly_createPropertyBlob _).untouched, rfl⟩
  case destroyPropertyBlob => exact ⟨(settingsOnly_destroyPropertyBlob _).untouched, rfl⟩
  all_goals exact ⟨⟨rfl, rfl, rfl⟩, rfl⟩

/-! Page flips. -/

/-- The completion that a page flip queues: one, with or without the flag. -/
def pageFlipQueues (host : Host) (dev : Device) (fd : Int) (crtcId : UInt32) (userData : UInt64) :
    List FlipEvent :=
  if fd = drmVirtualFd ∧ (crtcIndex host crtcId).isSome ∧ dev.eventPipe.isSome then [⟨crtcId, userData⟩] else []

theorem pageFlip_effect (dev : Device) (fd : Int) (crtcId fbId flags : UInt32) (userData : UInt64) :
    (drmModePageFlip host dev fd crtcId fbId flags userData).2.gObjProps = dev.gObjProps ∧
    (drmModePageFlip host dev fd crtcId fbId flags userData).2.gFlipEvents =
      dev.gFlipEvents.enqueueAll (pageFlipQueues host dev fd crtcId userData) ∧
    (drmModePageFlip host dev fd crtcId fbId flags userData).2.eventPipe =
      dev.eventPipe.map (· + (pageFlipQueues host dev fd crtcId userData).length) := by
  by_cases valid : fd = drmVirtualFd
  · cases known : crtcIndex host crtcId with
    | none =>
        cases pipe : dev.eventPipe <;> simp [drmModePageFlip, pageFlipQueues, checkFd, valid, known, pipe, Ring.enqueueAll]
    | some idx =>
        simp only [drmModePageFlip, checkFd, valid, known, ne_eq, not_true_eq_false, if_false]
        cases pipe : dev.eventPipe <;>
          cases shown : (dev.setState idx { dev.gState idx with crtcFbId := fbId }).fbIdToSurface fbId <;>
          simp [pageFlipQueues, known, pipe, Device.setState, Device.present, Device.enqueueFlipEvent,
            Device.signalEvent, Ring.enqueueAll]
  · cases pipe : dev.eventPipe <;> simp [drmModePageFlip, pageFlipQueues, checkFd, valid, pipe, Ring.enqueueAll]

/-! Completions. -/

def commitQueues (host : Host) (dev : Device) (triples : List Triple) (flags : UInt32) (userData : UInt64) :
    List FlipEvent :=
  match ensureObjProperties host.getDisplayCount dev.gObjProps with
  | .error _ => []
  | .ok table =>
      if flags &&& drmModePageFlipEvent ≠ 0 then
        (completions (flipped host (dev.withTable table) triples)).map (fun crtcId => ⟨crtcId, userData⟩)
      else []

def Call.queues (host : Host) (world : World) : Call → List FlipEvent
  | .pageFlip fd crtcId _ _ userData => pageFlipQueues host world.dev fd crtcId userData
  | .atomicCommit fd (some req) flags userData =>
      if fd = drmVirtualFd then commitQueues host world.dev req.triples flags userData else []
  | .atomicIoctl ka memory =>
      match world.submission ka memory with
      | some req => commitQueues host world.dev req.triples ka.flags ka.userData
      | none => []
  | _ => []

theorem commit_ring {fd : Int} {request : Option AtomicReq} {flags : UInt32} {userData : UInt64}
    {ret : Except Errno Unit} {dev after : Device}
    (done : drmModeAtomicCommit host dev fd request flags userData = .ok (ret, after)) :
    after.gFlipEvents = dev.gFlipEvents.enqueueAll
      (match request with
        | some req => if fd = drmVirtualFd then commitQueues host dev req.triples flags userData else []
        | none => []) := by
  rcases drmModeAtomicCommit_ok done with ⟨e, _, rfl, refused⟩ | ⟨req, table, rfl, rfl, ensured, _, _, rfl⟩
  · rcases refused with wrong | rfl
    · cases request <;> simp [wrong, Ring.enqueueAll]
    · rfl
  · simp only [gFlipEvents_committed, if_true, commitQueues, ensured]
    split <;> rfl

theorem exec_ok (done : exec host world c = .ok (after, reply)) :
    match (motive := Call → Prop) c with
    | .pageFlip fd crtcId fbId flags userData =>
        after = world.withDev (drmModePageFlip host world.dev fd crtcId fbId flags userData).2
    | .objectGetProperties fd objectId objectType =>
        ∃ dev, Demanded host world.dev fd objectId objectType dev ∧ after = world.withDev dev
    | .getPlane fd planeId =>
        ∃ dev, Demanded host world.dev fd planeId drmModeObjectPlane dev ∧ after = world.withDev dev
    | .atomicCommit fd req flags userData =>
        ∃ ret dev, drmModeAtomicCommit host world.dev fd req flags userData = .ok (ret, dev) ∧
          after = world.withDev dev
    | .atomicIoctl ka memory =>
        ∃ ret, handleAtomic host world ka memory = .ok (ret, after)
    | .openEventPipe => after = world.withDev { world.dev with eventPipe := some (world.dev.eventPipe.getD 0) }
    | _ => Untouched world.dev after.dev ∧ after.pool = world.pool := by
  cases c
  case pageFlip =>
    simp only [exec, World.update, Except.ok.injEq, Prod.mk.injEq] at done
    exact done.1.symm
  case objectGetProperties fd objectId objectType =>
    cases result : drmModeObjectGetProperties host world.dev fd objectId objectType with
    | error fault => simp [exec, result, Except.map] at done
    | ok pair =>
        simp only [exec, result, Except.map, World.update, Except.ok.injEq, Prod.mk.injEq] at done
        exact ⟨pair.2, drmModeObjectGetProperties_ok result, done.1.symm⟩
  case getPlane fd planeId =>
    cases result : drmModeGetPlane host world.dev fd planeId with
    | error fault => simp [exec, result, Except.map] at done
    | ok pair =>
        simp only [exec, result, Except.map, World.update, Except.ok.injEq, Prod.mk.injEq] at done
        exact ⟨pair.2, drmModeGetPlane_ok result, done.1.symm⟩
  case atomicCommit fd req flags userData =>
    cases result : drmModeAtomicCommit host world.dev fd req flags userData with
    | error fault => simp [exec, result, Except.map] at done
    | ok pair =>
        simp only [exec, result, Except.map, World.update, Except.ok.injEq, Prod.mk.injEq] at done
        exact ⟨pair.1, pair.2, result, done.1.symm⟩
  case atomicIoctl ka memory =>
    cases result : handleAtomic host world ka memory with
    | error fault => simp [exec, result, Except.map] at done
    | ok pair =>
        simp only [exec, result, Except.map, Except.ok.injEq, Prod.mk.injEq] at done
        exact ⟨pair.1, by rw [result, ← done.1]⟩
  case openEventPipe =>
    simp only [exec, Except.ok.injEq, Prod.mk.injEq] at done
    exact done.1.symm
  all_goals exact exec_plain rfl done

theorem handleAtomic_ok {ka : DrmModeAtomic} {memory : Memory} {ret : Except Errno Unit}
    (done : handleAtomic host world ka memory = .ok (ret, after)) :
    world.submission ka memory = none ∧ after.dev = world.dev ∧ after.pool.slots = world.pool.slots ∨
      ∃ req, world.submission ka memory = some req ∧
        drmModeAtomicCommit host world.dev drmVirtualFd (some req) ka.flags ka.userData = .ok (ret, after.dev) := by
  cases submitted : world.submission ka memory with
  | none =>
      left
      obtain ⟨ret', pool, result, slots, _⟩ := handleAtomic_of_none host submitted
      rw [result, Except.ok.injEq, Prod.mk.injEq] at done
      obtain ⟨_, rfl⟩ := done
      exact ⟨rfl, rfl, slots⟩
  | some req =>
      right
      obtain ⟨pool, result⟩ := handleAtomic_of_some host submitted
      rw [result] at done
      cases committed : drmModeAtomicCommit host world.dev drmVirtualFd (some req) ka.flags ka.userData with
      | error fault => simp [committed, Except.map] at done
      | ok pair =>
          simp only [committed, Except.map, Except.ok.injEq, Prod.mk.injEq] at done
          obtain ⟨rfl, rfl⟩ := done
          exact ⟨req, rfl, committed⟩

theorem eventPipe_of_demanded {dev dev' : Device} {fd : Int} {objectId objectType : UInt32}
    (demanded : Demanded host dev fd objectId objectType dev') : dev'.eventPipe = dev.eventPipe := by
  rcases demanded with ⟨_, rfl⟩ | ⟨table, _, _, rfl⟩ <;> rfl

theorem gFlipEvents_of_demanded {dev dev' : Device} {fd : Int} {objectId objectType : UInt32}
    (demanded : Demanded host dev fd objectId objectType dev') : dev'.gFlipEvents = dev.gFlipEvents := by
  rcases demanded with ⟨_, rfl⟩ | ⟨table, _, _, rfl⟩ <;> rfl

theorem exec_ring (done : exec host world c = .ok (after, reply)) :
    after.dev.gFlipEvents = world.dev.gFlipEvents.enqueueAll (c.queues host world) := by
  have effect := exec_ok done
  cases c
  case pageFlip =>
    simp only [effect]
    exact (pageFlip_effect world.dev _ _ _ _ _).2.1
  case objectGetProperties =>
    obtain ⟨dev, demanded, rfl⟩ := effect
    exact gFlipEvents_of_demanded demanded
  case getPlane =>
    obtain ⟨dev, demanded, rfl⟩ := effect
    exact gFlipEvents_of_demanded demanded
  case atomicCommit fd req flags userData =>
    obtain ⟨ret, dev, committed, rfl⟩ := effect
    refine (commit_ring committed).trans ?_
    cases req <;> rfl
  case atomicIoctl ka memory =>
    obtain ⟨ret, handled⟩ := effect
    rcases handleAtomic_ok handled with ⟨nothing, same, _⟩ | ⟨req, submitted, committed⟩
    · simp only [Call.queues, nothing, same]
      rfl
    · simp only [Call.queues, submitted]
      exact (commit_ring committed).trans (by simp)
  case openEventPipe =>
    rw [effect]
    rfl
  all_goals exact effect.1.gFlipEvents

/-- What a call that queues completions adds to the pipe: one byte, however
many they are. -/
def bytesFor (queues : List FlipEvent) : ℕ := if queues = [] then 0 else 1

theorem commit_pipe {fd : Int} {request : Option AtomicReq} {flags : UInt32} {userData : UInt64}
    {ret : Except Errno Unit} {dev after : Device}
    (done : drmModeAtomicCommit host dev fd request flags userData = .ok (ret, after)) :
    after.eventPipe = dev.eventPipe.map (· + bytesFor
      (match request with
        | some req => if fd = drmVirtualFd then commitQueues host dev req.triples flags userData else []
        | none => [])) := by
  rcases drmModeAtomicCommit_ok done with ⟨e, _, rfl, refused⟩ | ⟨req, table, rfl, rfl, ensured, _, _, rfl⟩
  · rcases refused with wrong | rfl
    · cases request <;> simp [wrong, bytesFor]
    · simp [bytesFor]
  · have nonempty : completions (flipped host (dev.withTable table) req.triples) ≠ [] := by
      simp only [completions]
      split
      · exact List.cons_ne_nil 1 []
      · assumption
    simp only [eventPipe_committed, if_true, commitQueues, ensured]
    split
    · simp [bytesFor, nonempty]
    · simp [bytesFor]

theorem exec_pipe (done : exec host world c = .ok (after, reply)) (piped : world.dev.eventPipe.isSome) :
    after.dev.eventPipe = world.dev.eventPipe.map (· + bytesFor (c.queues host world)) := by
  have effect := exec_ok done
  have kept (pipe : Option ℕ) : pipe = pipe.map (· + bytesFor []) := by simp [bytesFor]
  cases c
  case pageFlip =>
    simp only [effect, Call.queues]
    refine (pageFlip_effect world.dev _ _ _ _ _).2.2.trans ?_
    simp only [pageFlipQueues]
    split <;> rfl
  case objectGetProperties =>
    obtain ⟨dev, demanded, rfl⟩ := effect
    exact (eventPipe_of_demanded demanded).trans (kept _)
  case getPlane =>
    obtain ⟨dev, demanded, rfl⟩ := effect
    exact (eventPipe_of_demanded demanded).trans (kept _)
  case atomicCommit fd req flags userData =>
    obtain ⟨ret, dev, committed, rfl⟩ := effect
    refine (commit_pipe committed).trans ?_
    cases req <;> rfl
  case atomicIoctl ka memory =>
    obtain ⟨ret, handled⟩ := effect
    rcases handleAtomic_ok handled with ⟨nothing, same, _⟩ | ⟨req, submitted, committed⟩
    · simp only [Call.queues, nothing, same]
      exact kept _
    · simp only [Call.queues, submitted]
      exact (commit_pipe committed).trans (by simp)
  case openEventPipe =>
    obtain ⟨unread, bytes⟩ := Option.isSome_iff_exists.mp piped
    rw [effect]
    simp [Call.queues, bytesFor, World.withDev, bytes]
  all_goals exact effect.1.eventPipe.trans (kept _)

theorem exec_queued (done : exec host world c = .ok (after, reply)) :
    after.dev.queued = pushAllBounded (maxFlipEvents - 1) world.dev.queued (c.queues host world) := by
  rw [Device.queued, exec_ring done, Ring.toList_enqueueAll (by decide)]
  rfl

theorem length_queued_le (dev : Device) : dev.queued.length ≤ maxFlipEvents - 1 := by
  have bound := dev.gFlipEvents.count_lt
  rw [Device.queued, Ring.length_toList]
  exact Nat.le_sub_one_of_lt bound

/-! The object table. -/

/-- The default records are there and the table has grown from them. -/
def Refilled (host : Host) (before after : ObjTable) : Prop :=
  ∃ table, ensureObjProperties host.getDisplayCount before = .ok table ∧ Grows table after

theorem table_of_demanded {dev dev' : Device} {fd : Int} {objectId objectType : UInt32}
    (demanded : Demanded host dev fd objectId objectType dev') :
    dev'.gObjProps = dev.gObjProps ∨ Refilled host dev.gObjProps dev'.gObjProps := by
  rcases demanded with ⟨_, rfl⟩ | ⟨table, _, ensured, rfl⟩
  · exact .inl rfl
  · exact .inr ⟨table, ensured, grows_demand table objectId objectType⟩

theorem table_of_commit {fd : Int} {request : Option AtomicReq} {flags : UInt32} {userData : UInt64}
    {ret : Except Errno Unit} {dev after : Device}
    (done : drmModeAtomicCommit host dev fd request flags userData = .ok (ret, after)) :
    after.gObjProps = dev.gObjProps ∨ Refilled host dev.gObjProps after.gObjProps := by
  rcases drmModeAtomicCommit_ok done with ⟨e, _, rfl, _⟩ | ⟨req, table, _, _, ensured, _, _, rfl⟩
  · exact .inl rfl
  · right
    rw [gObjProps_committed]
    exact ⟨table, ensured, table.grows_applyAll req.triples⟩

/-- A call leaves the object table alone, or fills it and lets it grow. -/
theorem exec_table (done : exec host world c = .ok (after, reply)) :
    after.dev.gObjProps = world.dev.gObjProps ∨ Refilled host world.dev.gObjProps after.dev.gObjProps := by
  have effect := exec_ok done
  cases c
  case pageFlip =>
    left
    rw [effect, World.withDev, (pageFlip_effect world.dev _ _ _ _ _).1]
  case objectGetProperties =>
    obtain ⟨dev, demanded, rfl⟩ := effect
    exact table_of_demanded demanded
  case getPlane =>
    obtain ⟨dev, demanded, rfl⟩ := effect
    exact table_of_demanded demanded
  case atomicCommit =>
    obtain ⟨ret, dev, committed, rfl⟩ := effect
    exact table_of_commit committed
  case atomicIoctl =>
    obtain ⟨ret, handled⟩ := effect
    rcases handleAtomic_ok handled with ⟨_, same, _⟩ | ⟨req, _, committed⟩
    · exact .inl (by rw [same])
    · exact table_of_commit committed
  case openEventPipe =>
    exact .inl (by rw [effect]; rfl)
  all_goals exact .inl effect.1.gObjProps

theorem exec_tableInv (inv : TableInv host.getDisplayCount world.dev.gObjProps)
    (done : exec host world c = .ok (after, reply)) : TableInv host.getDisplayCount after.dev.gObjProps := by
  rcases exec_table done with same | ⟨table, ensures, grows⟩
  · rwa [same]
  · exact .inr ((inv.ensured host.getDisplayCount_le ensures).grows grows)

theorem exec_ensured (ensured : Ensured host.getDisplayCount world.dev.gObjProps)
    (done : exec host world c = .ok (after, reply)) : Ensured host.getDisplayCount after.dev.gObjProps := by
  rcases exec_table done with same | ⟨table, ensures, grows⟩
  · rwa [same]
  · rw [ensured.ensure, Except.ok.injEq] at ensures
    exact ensured.grows (ensures ▸ grows)

/-- With more displays than the table has room for, no request is ever left
in the pool: the ioctl that would leave it stops the program. -/
theorem exec_noLeftover (tooMany : maxObjProps < 3 * host.getDisplayCount)
    (inv : TableInv host.getDisplayCount world.dev.gObjProps) (done : exec host world c = .ok (after, reply)) :
    after.pool.slots = world.pool.slots := by
  have effect := exec_ok done
  cases c
  case pageFlip =>
    rw [effect]
    rfl
  case objectGetProperties =>
    obtain ⟨dev, demanded, rfl⟩ := effect
    rfl
  case getPlane =>
    obtain ⟨dev, demanded, rfl⟩ := effect
    rfl
  case atomicCommit =>
    obtain ⟨ret, dev, committed, rfl⟩ := effect
    rfl
  case atomicIoctl =>
    obtain ⟨ret, handled⟩ := effect
    rcases handleAtomic_ok handled with ⟨_, _, slots⟩ | ⟨req, _, committed⟩
    · exact slots
    · rw [drmModeAtomicCommit_overflow (inv.ensure_overflow host.getDisplayCount_le tooMany).2] at committed
      contradiction
  case openEventPipe =>
    rw [effect]
    rfl
  all_goals rw [effect.2]

end Iland

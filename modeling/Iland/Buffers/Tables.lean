import Iland.Buffers.Effects
import Iland.Data.IdTable
import Iland.Invariant

namespace Iland.Buffers

open Iland.Atomic
open Iland.Data
open Iland.Drm
open Iland.Ioctl
open Iland.Sdl

/-! What is in the tables of dumb buffers, framebuffers and blobs. -/

structure Ledgers where
  /-- The surface and the address of each dumb buffer. -/
  dumbs : Ledger UInt32 (IOSurface × UInt64)
  fbs : Ledger UInt32 IOSurface
  /-- The IN_FORMATS blob is one of them, once it has been made. -/
  blobs : Ledger UInt32 (List UInt8)

inductive Kind where
  | dumb
  | fb
  | blob
  | inFormats
deriving DecidableEq

/-- What an action makes, if anything. -/
def makes (dev : Device) : Action → Option Kind
  | .call (.createDumbBuffer fd created) =>
      if fd = drmVirtualFd ∧ created.isSome ∧ ∃ i, (dev.gDumb i).handle = 0 then some .dumb else none
  | .call (.addFB fd boHandle hasId) =>
      if fd = drmVirtualFd ∧ hasId = true ∧ (boSurface dev boHandle).isSome ∧ ∃ i, (dev.gFbs i).fbId = 0 then some .fb
      else none
  | .call (.createPropertyBlob fd data) =>
      if fd = drmVirtualFd ∧ data.isSome ∧ ∃ i, (dev.gBlobs i).isNone then some .blob else none
  | .call (.getProperty fd propertyId) =>
      if fd = drmVirtualFd ∧ propertyId = lookupPropId "IN_FORMATS" ∧ dev.gInFormatsBlobId = 0 ∧
          ∃ i, (dev.gBlobs i).isNone then some .inFormats
      else none
  | _ => none

/-- The id that a creation returns. -/
def issued : Action → Output → Option (Kind × UInt32)
  | .call (.createDumbBuffer ..), .replied (.ok (.dumb handle _ _)) => some (.dumb, handle)
  | .call (.addFB ..), .replied (.ok (.id id)) => some (.fb, id)
  | .call (.createPropertyBlob ..), .replied (.ok (.id id)) => some (.blob, id)
  | _, _ => none

namespace Ledgers

def empty : Ledgers := ⟨.empty, .empty, .empty⟩

def note (session : Session) (a : Action) (out : Output) (l : Ledgers) : Ledgers :=
  match a, out with
  | .call (.createDumbBuffer _ (some info)), .replied (.ok (.dumb handle _ _)) =>
      { l with dumbs := l.dumbs.create handle (info.surface, info.base) }
  | .call (.destroyDumbBuffer _ handle), .replied (.ok _) => { l with dumbs := l.dumbs.destroy handle }
  | .call (.addFB _ boHandle _), .replied (.ok (.id id)) =>
      match boSurface session.world.dev boHandle with
      | some surf => { l with fbs := l.fbs.create id surf }
      | none => l
  | .call (.rmFB _ bufId), .replied (.ok _) => { l with fbs := l.fbs.destroy bufId }
  | .call (.createPropertyBlob _ (some data)), .replied (.ok (.id id)) => { l with blobs := l.blobs.create id data }
  | .call (.destroyPropertyBlob _ blobId), .replied (.ok _) => { l with blobs := l.blobs.destroy blobId }
  | .call (.getProperty fd propertyId), .replied (.ok (.property property)) =>
      match makes session.world.dev (.call (.getProperty fd propertyId)), property.blobIds with
      | some .inFormats, [id] => { l with blobs := l.blobs.create id inFormatsData }
      | _, _ => l
  | _, _ => l

end Ledgers

/-- The library with its ledgers. -/
def ledgered (host : Host) : Session × Ledgers → Action → Except Fault ((Session × Ledgers) × Output) :=
  recorded (Iland.step host) Ledgers.note

def ledgersInitial : Session × Ledgers := (.initial, .empty)

variable {host : Host} {dev after : Device} {world : World} {c : Call} {reply : Reply}

structure SameTables (before after : Device) : Prop where
  gDumb : after.gDumb = before.gDumb
  gNextDumbHandle : after.gNextDumbHandle = before.gNextDumbHandle
  gFbs : after.gFbs = before.gFbs
  gNextFbId : after.gNextFbId = before.gNextFbId
  gBlobs : after.gBlobs = before.gBlobs
  gNextBlobId : after.gNextBlobId = before.gNextBlobId

theorem SameTables.refl (dev : Device) : SameTables dev dev := ⟨rfl, rfl, rfl, rfl, rfl, rfl⟩

theorem sameTables_setCrtc (fd : Int) (crtcId fbId x y : UInt32) (mode : Option ModeInfo) :
    SameTables dev (drmModeSetCrtc host dev fd crtcId fbId x y mode).2 := by
  simp only [drmModeSetCrtc]
  repeat' split
  all_goals exact ⟨rfl, rfl, rfl, rfl, rfl, rfl⟩

theorem sameTables_pageFlip (fd : Int) (crtcId fbId flags : UInt32) (userData : UInt64) :
    SameTables dev (drmModePageFlip host dev fd crtcId fbId flags userData).2 := by
  simp only [drmModePageFlip]
  repeat' split
  all_goals exact ⟨rfl, rfl, rfl, rfl, rfl, rfl⟩

theorem sameTables_setClientCap (fd : Int) (capability value : UInt64) :
    SameTables dev (drmSetClientCap dev fd capability value).2 := by
  simp only [drmSetClientCap]
  repeat' split
  all_goals exact ⟨rfl, rfl, rfl, rfl, rfl, rfl⟩

theorem sameTables_registerGbmBuffer (handle : UInt32) (surface : Option IOSurface) :
    SameTables dev (drmRegisterGbmBuffer dev handle surface) := by
  simp only [drmRegisterGbmBuffer]
  repeat' split
  all_goals exact ⟨rfl, rfl, rfl, rfl, rfl, rfl⟩

theorem sameTables_unregisterGbmBuffer (handle : UInt32) : SameTables dev (drmUnregisterGbmBuffer dev handle) := by
  simp only [drmUnregisterGbmBuffer]
  split <;> exact ⟨rfl, rfl, rfl, rfl, rfl, rfl⟩

theorem sameTables_of_demanded {fd : Int} {objectId objectType : UInt32}
    (demanded : Demanded host dev fd objectId objectType after) : SameTables dev after := by
  rcases demanded with ⟨_, rfl⟩ | ⟨table, _, _, rfl⟩
  · exact .refl after
  · exact ⟨rfl, rfl, rfl, rfl, rfl, rfl⟩

theorem sameTables_committed (table : ObjTable) (triples : List Triple) (flags : UInt32) (userData : UInt64) :
    SameTables dev (committed host (dev.withTable table) triples flags userData) := by
  obtain ⟨_, _, _, _, _, same⟩ := committed_keeps host dev table triples flags userData
  rw [same]
  exact ⟨rfl, rfl, rfl, rfl, rfl, rfl⟩

def Call.keepsTables : Call → Bool
  | .createDumbBuffer .. | .destroyDumbBuffer .. | .addFB .. | .rmFB .. | .getProperty .. | .createPropertyBlob ..
  | .destroyPropertyBlob .. => false
  | _ => true

theorem exec_keepsTables (keeps : Call.keepsTables c = true) {next : World}
    (done : exec host world c = .ok (next, reply)) : SameTables world.dev next.dev := by
  have commits {flags : UInt32} {userData : UInt64} (isCommit : commitArguments c = some (flags, userData)) :
      SameTables world.dev next.dev := by
    rcases exec_commit isCommit done with same | ⟨req, table, _, _, same⟩
    · rw [same]
      exact .refl world.dev
    · rw [same]
      exact sameTables_committed table req.triples flags userData
  have effect := exec_ok done
  cases c <;> simp only [Call.keepsTables, Bool.false_eq_true] at keeps
  case objectGetProperties =>
    obtain ⟨dev, demanded, rfl⟩ := effect
    exact sameTables_of_demanded demanded
  case getPlane =>
    obtain ⟨dev, demanded, rfl⟩ := effect
    exact sameTables_of_demanded demanded
  case atomicCommit => exact commits rfl
  case atomicIoctl => exact commits rfl
  all_goals
    simp only [exec, World.query, World.update, World.updateSdl, World.withDev, Except.ok.injEq, Prod.mk.injEq] at done
    obtain ⟨rfl, _⟩ := done
  case registerGbmBuffer => exact sameTables_registerGbmBuffer _ _
  case unregisterGbmBuffer => exact sameTables_unregisterGbmBuffer _
  case setCrtc => exact sameTables_setCrtc _ _ _ _ _ _
  case pageFlip => exact sameTables_pageFlip _ _ _ _ _
  case setClientCap => exact sameTables_setClientCap _ _ _
  all_goals exact ⟨rfl, rfl, rfl, rfl, rfl, rfl⟩

/-! Blobs. -/

def dropBlob (dev : Device) (i : Fin maxBlobs) : Device := { dev with gBlobs := Function.update dev.gBlobs i none }

theorem storeBlob_cases (dev : Device) (data : List UInt8) :
    (storeBlob dev data = none ∧ ¬ ∃ i, (dev.gBlobs i).isNone) ∨
      ∃ slot, dev.gBlobs slot = none ∧ storeBlob dev data = some (dev.gNextBlobId, addBlob dev slot data) := by
  simp only [storeBlob]
  cases free : firstPlace (fun i => (dev.gBlobs i).isNone) with
  | none =>
      refine .inl ⟨rfl, ?_⟩
      rintro ⟨i, empty⟩
      simpa [empty] using firstPlace_none free i
  | some slot => exact .inr ⟨slot, by simpa using firstPlace_some free, rfl⟩

theorem createPropertyBlob_cases (dev : Device) (fd : Int) (data : Option (List UInt8)) :
    ((∃ e, drmModeCreatePropertyBlob dev fd data = (.error e, dev)) ∧
        ¬ (fd = drmVirtualFd ∧ data.isSome ∧ ∃ i, (dev.gBlobs i).isNone)) ∨
      ∃ slot bytes, fd = drmVirtualFd ∧ data = some bytes ∧ dev.gBlobs slot = none ∧
        drmModeCreatePropertyBlob dev fd data = (.ok dev.gNextBlobId, addBlob dev slot bytes) := by
  simp only [drmModeCreatePropertyBlob]
  cases opened : checkFd fd with
  | error e => exact .inl ⟨⟨e, rfl⟩, fun both => by simp [checkFd, both.1] at opened⟩
  | ok ok =>
      cases data with
      | none => exact .inl ⟨⟨_, rfl⟩, by simp⟩
      | some bytes =>
          rcases storeBlob_cases dev bytes with ⟨full, occupied⟩ | ⟨slot, free, stored⟩
          · simp only [full]
            exact .inl ⟨⟨_, rfl⟩, fun both => occupied both.2.2⟩
          · simp only [stored]
            exact .inr ⟨slot, bytes, checkFd_ok_iff.mp opened, rfl, free, rfl⟩

theorem destroyPropertyBlob_cases (dev : Device) (fd : Int) (blobId : UInt32) :
    (∃ e, drmModeDestroyPropertyBlob dev fd blobId = (.error e, dev)) ∨
      ∃ i blob, dev.gBlobs i = some blob ∧ blob.id = blobId ∧
        drmModeDestroyPropertyBlob dev fd blobId = (.ok (), dropBlob dev i) := by
  simp only [drmModeDestroyPropertyBlob]
  cases checkFd fd with
  | error e => exact .inl ⟨e, rfl⟩
  | ok ok =>
      cases found : blobPlace dev blobId with
      | none => exact .inl ⟨_, rfl⟩
      | some i =>
          have named := firstPlace_some found
          cases at' : dev.gBlobs i with
          | none => simp [at'] at named
          | some blob => exact .inr ⟨i, blob, at', by simpa [at'] using named, rfl⟩

theorem inFormats_iff {propertyId : UInt32} {pd : PropDef}
    (found : (if propertyId = 0 then none else gProps[propertyId.toNat - 1]?) = some pd) :
    (pd.name = "IN_FORMATS" ∧ pd.countBlobs = 0) ↔ propertyId = lookupPropId "IN_FORMATS" := by
  have only : ∀ pd ∈ gProps, (pd.name = "IN_FORMATS" ∧ pd.countBlobs = 0) ↔ pd.id = lookupPropId "IN_FORMATS" := by
    decide +kernel
  split at found
  · contradiction
  · rename_i positive
    have own : pd.id = propertyId := by
      have ids := congrArg (fun ids => ids[propertyId.toNat - 1]?) gProps_ids
      obtain ⟨inside, _⟩ := List.getElem?_eq_some_iff.mp found
      have nonzero : propertyId.toNat ≠ 0 := fun zero => positive (UInt32.toNat_inj.mp zero)
      simp only [List.getElem?_map, found, Option.map_some, List.getElem?_range inside, Option.some.injEq] at ids
      rw [ids, Nat.sub_add_cancel (Nat.one_le_iff_ne_zero.mpr nonzero), UInt32.ofNat_toNat]
    rw [only pd (List.mem_of_getElem? found), own]

theorem getProperty_cases (dev : Device) (fd : Int) (propertyId : UInt32) :
    (SameTables dev (drmModeGetProperty dev fd propertyId).2 ∧
        ¬ (fd = drmVirtualFd ∧ propertyId = lookupPropId "IN_FORMATS" ∧ dev.gInFormatsBlobId = 0 ∧
          ∃ i, (dev.gBlobs i).isNone)) ∨
      ∃ slot property, fd = drmVirtualFd ∧ propertyId = lookupPropId "IN_FORMATS" ∧ dev.gInFormatsBlobId = 0 ∧
        dev.gBlobs slot = none ∧ SameTables (addBlob dev slot inFormatsData) (drmModeGetProperty dev fd propertyId).2 ∧
        (drmModeGetProperty dev fd propertyId).1 = .ok property ∧ property.blobIds = [dev.gNextBlobId] := by
  simp only [drmModeGetProperty]
  cases opened : checkFd fd with
  | error e => exact .inl ⟨.refl dev, fun both => by simp [checkFd, both.1] at opened⟩
  | ok ok =>
      cases found : (if propertyId = 0 then none else gProps[propertyId.toNat - 1]?) with
      | none =>
          refine .inl ⟨.refl dev, ?_⟩
          rintro ⟨_, rfl, _⟩
          exact absurd found (by decide +kernel)
      | some pd =>
          simp only [inFormats_iff found]
          split
          · rename_i isInFormats
            simp only [getOrCreateInFormatsBlob, createInFormatsBlob]
            split
            · rename_i known
              exact .inl ⟨.refl dev, fun both => known both.2.2.1⟩
            · rename_i unknown
              rcases storeBlob_cases dev inFormatsData with ⟨full, occupied⟩ | ⟨slot, free, stored⟩
              · rw [full]
                exact .inl ⟨⟨rfl, rfl, rfl, rfl, rfl, rfl⟩, fun both => occupied both.2.2.2⟩
              · rw [stored]
                exact .inr ⟨slot, _, checkFd_ok_iff.mp opened, isInFormats, not_not.mp unknown, free,
                  ⟨rfl, rfl, rfl, rfl, rfl, rfl⟩, rfl, rfl⟩
          · rename_i other
            exact .inl ⟨.refl dev, fun both => other both.2.1⟩

/-! One step. -/

/-- What a step does to the tables and the ledgers. -/
inductive TableStep (dev : Device) (l : Ledgers) (a : Action) (out : Output) (after : Device) : Ledgers → Prop
  | same : SameTables dev after → makes dev a = none → issued a out = none → TableStep dev l a out after l
  | addDumb slot info : (dev.gDumb slot).handle = 0 → SameTables (addDumb dev slot info) after →
      makes dev a = some .dumb → issued a out = some (.dumb, dev.gNextDumbHandle) →
      TableStep dev l a out after { l with dumbs := l.dumbs.create dev.gNextDumbHandle (info.surface, info.base) }
  | dropDumb i : SameTables (dropDumb dev i) after → makes dev a = none → issued a out = none →
      TableStep dev l a out after { l with dumbs := l.dumbs.destroy (dev.gDumb i).handle }
  | addFb slot surf : (dev.gFbs slot).fbId = 0 → SameTables (addFb dev slot surf) after →
      makes dev a = some .fb → issued a out = some (.fb, dev.gNextFbId) →
      TableStep dev l a out after { l with fbs := l.fbs.create dev.gNextFbId surf }
  | dropFb i : SameTables (dropFb dev i) after → makes dev a = none → issued a out = none →
      TableStep dev l a out after { l with fbs := l.fbs.destroy (dev.gFbs i).fbId }
  | addBlob slot data : dev.gBlobs slot = none → SameTables (addBlob dev slot data) after →
      (makes dev a = some .blob ∧ issued a out = some (.blob, dev.gNextBlobId) ∨
        makes dev a = some .inFormats ∧ issued a out = none) →
      TableStep dev l a out after { l with blobs := l.blobs.create dev.gNextBlobId data }
  | dropBlob i blob : dev.gBlobs i = some blob → SameTables (dropBlob dev i) after → makes dev a = none →
      issued a out = none → TableStep dev l a out after { l with blobs := l.blobs.destroy blob.id }

theorem call_tables {session : Session} (l : Ledgers) {next : World}
    (done : exec host session.world c = .ok (next, reply)) :
    TableStep session.world.dev l (.call c) (.replied reply) next.dev
      (l.note session (.call c) (.replied reply)) := by
  cases keeps : Call.keepsTables c with
  | true =>
      have same := exec_keepsTables keeps done
      cases c <;> simp only [Call.keepsTables, Bool.false_eq_true] at keeps <;> exact .same same rfl rfl
  | false =>
      cases c <;> simp only [Call.keepsTables, Bool.true_eq_false] at keeps <;>
        simp only [exec, World.update, Except.ok.injEq, Prod.mk.injEq] at done <;> obtain ⟨rfl, rfl⟩ := done
      case createDumbBuffer fd created =>
        rcases createDumbBuffer_cases session.world.dev fd created with ⟨⟨e, failed⟩, cannot⟩ |
          ⟨slot, info, valid, rfl, free, made⟩
        · simp only [failed]
          cases created <;> exact .same (.refl _) (if_neg cannot) rfl
        · simp only [made]
          exact .addDumb slot info free (.refl _) (if_pos ⟨valid, rfl, slot, free⟩) rfl
      case destroyDumbBuffer fd handle =>
        rcases destroyDumbBuffer_cases session.world.dev fd handle with ⟨e, failed⟩ | ⟨i, rfl, made⟩
        · simp only [failed]
          exact .same (.refl _) rfl rfl
        · simp only [made]
          exact .dropDumb i (.refl _) rfl rfl
      case addFB fd boHandle hasId =>
        rcases addFB_cases session.world.dev fd boHandle hasId with ⟨⟨e, failed⟩, cannot⟩ |
          ⟨slot, surf, valid, isId, found, free, made⟩
        · simp only [failed]
          exact .same (.refl _) (if_neg cannot) rfl
        · have noted : l.note session (.call (.addFB fd boHandle hasId))
              (.replied (.ok (.id session.world.dev.gNextFbId))) =
              { l with fbs := l.fbs.create session.world.dev.gNextFbId surf } := by
            simp only [Ledgers.note, found]
          simp only [made, Except.map, noted]
          exact .addFb slot surf free (.refl _) (if_pos ⟨valid, isId, by simp [found], slot, free⟩) rfl
      case rmFB fd bufId =>
        rcases rmFB_cases session.world.dev fd bufId with ⟨e, failed⟩ | ⟨i, rfl, made⟩
        · simp only [failed]
          exact .same (.refl _) rfl rfl
        · simp only [made]
          exact .dropFb i (.refl _) rfl rfl
      case getProperty fd propertyId =>
        rcases getProperty_cases session.world.dev fd propertyId with ⟨same, cannot⟩ |
          ⟨slot, property, valid, isInFormats, unknown, free, same, replied, id⟩
        · have nothing : makes session.world.dev (.call (.getProperty fd propertyId)) = none := if_neg cannot
          cases (drmModeGetProperty session.world.dev fd propertyId).1 <;>
            simp only [Except.map, Ledgers.note, nothing] <;> exact .same same nothing rfl
        · have made : makes session.world.dev (.call (.getProperty fd propertyId)) = some .inFormats :=
            if_pos ⟨valid, isInFormats, unknown, slot, by simp [free]⟩
          simp only [replied, Except.map, Ledgers.note, made, id]
          exact .addBlob slot inFormatsData free same (.inr ⟨made, rfl⟩)
      case createPropertyBlob fd data =>
        rcases createPropertyBlob_cases session.world.dev fd data with ⟨⟨e, failed⟩, cannot⟩ |
          ⟨slot, bytes, valid, rfl, free, made⟩
        · simp only [failed]
          cases data <;> exact .same (.refl _) (if_neg cannot) rfl
        · simp only [made]
          exact .addBlob slot bytes free (.refl _) (.inl ⟨if_pos ⟨valid, rfl, slot, by simp [free]⟩, rfl⟩)
      case destroyPropertyBlob fd blobId =>
        rcases destroyPropertyBlob_cases session.world.dev fd blobId with ⟨e, failed⟩ | ⟨i, blob, at', rfl, made⟩
        · simp only [failed]
          exact .same (.refl _) rfl rfl
        · simp only [made]
          exact .dropBlob i blob at' (.refl _) rfl rfl

theorem ledgered_cases {pair next : Session × Ledgers} {a : Action} {out : Output}
    (done : ledgered host pair a = .ok (next, out)) :
    TableStep pair.1.world.dev pair.2 a out next.1.world.dev next.2 := by
  obtain ⟨stepped, noted⟩ := recorded_eq_ok.mp done
  rw [← noted]
  rcases step_cases stepped with ⟨c, reply, rfl, rfl, called, _⟩ | ⟨event, handler, dev, rfl, rfl, taken, same⟩ |
    ⟨pipe, noDelivery, noReply, world⟩
  · exact call_tables pair.2 called
  · obtain ⟨_, _, same'⟩ := dequeueFlipEvent_some taken
    refine .same ?_ rfl rfl
    rw [same]
    change SameTables pair.1.world.dev dev
    rw [same']
    exact ⟨rfl, rfl, rfl, rfl, rfl, rfl⟩
  · have same : SameTables pair.1.world.dev next.1.world.dev := by
      rw [world]
      exact ⟨rfl, rfl, rfl, rfl, rfl, rfl⟩
    cases a with
    | call c =>
        obtain ⟨reply, replied, _⟩ := step_call stepped
        exact absurd replied (noReply reply)
    | handleEvent fd evctx => exact .same same rfl rfl
    | round => exact .same same rfl rfl

/-- Every run of the library has its ledgers. -/
theorem exists_ledgers {actions : List Action} {last : Session} {outs : List Output}
    (run : runActions (Iland.step host) .initial actions = .ok (last, outs)) :
    ∃ ledgers, runActions (ledgered host) ledgersInitial actions = .ok ((last, ledgers), outs) :=
  runActions_recorded run Ledgers.empty

theorem TableStep.counts {l next : Ledgers} {a : Action} {out : Output} (stepped : TableStep dev l a out after next) :
    next.dumbs.made = l.dumbs.made + (if makes dev a = some .dumb then 1 else 0) ∧
      next.fbs.made = l.fbs.made + (if makes dev a = some .fb then 1 else 0) ∧
      next.blobs.made = l.blobs.made + (if makes dev a = some .blob ∨ makes dev a = some .inFormats then 1 else 0) := by
  cases stepped with
  | same _ made | dropDumb _ _ made | dropFb _ _ made | dropBlob _ _ _ _ made => simp [made]
  | addDumb _ _ _ _ made | addFb _ _ _ _ made => simp [made]
  | addBlob _ _ _ _ made => rcases made with ⟨made, _⟩ | ⟨made, _⟩ <;> simp [made]

/-! The tables hold what the ledgers say. -/

def DumbsMarked (dev : Device) (ledger : Ledger UInt32 (IOSurface × UInt64)) : Prop :=
  Marked DumbBuf.handle (fun buf => buf.surface.map (fun surface => (surface, buf.map))) ⟨0, none, 0⟩ (wrapped 1)
    dev.gDumb dev.gNextDumbHandle ledger

def FbsMarked (dev : Device) (ledger : Ledger UInt32 IOSurface) : Prop :=
  Marked FbEntry.fbId FbEntry.surface ⟨0, none⟩ (wrapped 1) dev.gFbs dev.gNextFbId ledger

def BlobsTracked (dev : Device) (ledger : Ledger UInt32 (List UInt8)) : Prop :=
  Tracks (wrapped 256) (Option.map (fun blob => (blob.id, blob.data)) ∘ dev.gBlobs) dev.gNextBlobId ledger

theorem dumbsMarked_initial : DumbsMarked .initial .empty where
  tracks := .empty
  blanks := fun _ _ => rfl
  filled := fun _ taken => absurd rfl taken

theorem fbsMarked_initial : FbsMarked .initial .empty where
  tracks := .empty
  blanks := fun _ _ => rfl
  filled := fun _ taken => absurd rfl taken

theorem blobsTracked_initial : BlobsTracked .initial .empty := .empty

variable {l next : Ledgers} {a : Action} {out : Output}

theorem SameTables.dumbs (same : SameTables dev after) {ledger : Ledger UInt32 (IOSurface × UInt64)} :
    DumbsMarked after ledger ↔ DumbsMarked dev ledger := by
  rw [DumbsMarked, same.gDumb, same.gNextDumbHandle, DumbsMarked]

theorem SameTables.fbs (same : SameTables dev after) {ledger : Ledger UInt32 IOSurface} :
    FbsMarked after ledger ↔ FbsMarked dev ledger := by
  rw [FbsMarked, same.gFbs, same.gNextFbId, FbsMarked]

theorem SameTables.blobs (same : SameTables dev after) {ledger : Ledger UInt32 (List UInt8)} :
    BlobsTracked after ledger ↔ BlobsTracked dev ledger := by
  rw [BlobsTracked, same.gBlobs, same.gNextBlobId, BlobsTracked]

theorem TableStep.dumbsMarked (stepped : TableStep dev l a out after next) (marked : DumbsMarked dev l.dumbs)
    (fresh : makes dev a = some .dumb → dev.gNextDumbHandle ≠ 0 ∧ dev.gNextDumbHandle ∉ l.dumbs.ids) :
    DumbsMarked after next.dumbs := by
  cases stepped with
  | same same => exact same.dumbs.mpr marked
  | addDumb slot info free same made =>
      obtain ⟨nonzero, unused⟩ := fresh made
      have created := Marked.create (r := ⟨dev.gNextDumbHandle, some info.surface, info.base⟩) marked free rfl nonzero
        rfl unused
      rw [← wrapped_succ, ← marked.tracks.counter] at created
      exact same.dumbs.mpr created
  | dropDumb i same => exact same.dumbs.mpr (marked.destroy i)
  | addFb slot surf free same => exact same.dumbs.mpr marked
  | dropFb i same => exact same.dumbs.mpr marked
  | addBlob slot data free same => exact same.dumbs.mpr marked
  | dropBlob i blob at' same => exact same.dumbs.mpr marked

theorem TableStep.fbsMarked (stepped : TableStep dev l a out after next) (marked : FbsMarked dev l.fbs)
    (fresh : makes dev a = some .fb → dev.gNextFbId ≠ 0 ∧ dev.gNextFbId ∉ l.fbs.ids) : FbsMarked after next.fbs := by
  cases stepped with
  | same same => exact same.fbs.mpr marked
  | addDumb slot info free same => exact same.fbs.mpr marked
  | dropDumb i same => exact same.fbs.mpr marked
  | addFb slot surf free same made =>
      obtain ⟨nonzero, unused⟩ := fresh made
      have created := Marked.create (r := ⟨dev.gNextFbId, some surf⟩) marked free rfl nonzero rfl unused
      rw [← wrapped_succ, ← marked.tracks.counter] at created
      exact same.fbs.mpr created
  | dropFb i same => exact same.fbs.mpr (marked.destroy i)
  | addBlob slot data free same => exact same.fbs.mpr marked
  | dropBlob i blob at' same => exact same.fbs.mpr marked

theorem TableStep.blobsTracked (stepped : TableStep dev l a out after next) (tracked : BlobsTracked dev l.blobs)
    (fresh : makes dev a = some .blob ∨ makes dev a = some .inFormats → dev.gNextBlobId ∉ l.blobs.ids) :
    BlobsTracked after next.blobs := by
  cases stepped with
  | same same => exact same.blobs.mpr tracked
  | addDumb slot info free same => exact same.blobs.mpr tracked
  | dropDumb i same => exact same.blobs.mpr tracked
  | addFb slot surf free same => exact same.blobs.mpr tracked
  | dropFb i same => exact same.blobs.mpr tracked
  | addBlob slot data free same made =>
      have unused := fresh (made.imp And.left And.left)
      have created : Tracks _ (Function.update _ slot (some (dev.gNextBlobId, data))) _ _ :=
        Tracks.create tracked (by simp [free]) unused
      rw [← wrapped_succ, ← tracked.counter] at created
      rw [same.blobs, BlobsTracked, Drm.addBlob, Function.comp_update]
      exact created
  | dropBlob i blob at' same =>
      have destroyed : Tracks _ (Function.update _ i none) _ (l.blobs.destroy blob.id) :=
        Tracks.destroy tracked (by rw [Function.comp_apply, at', Option.map_some])
      rw [same.blobs, BlobsTracked, Buffers.dropBlob, Function.comp_update]
      exact destroyed

end Iland.Buffers

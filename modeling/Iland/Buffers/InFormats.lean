import Iland.Buffers.Blobs

namespace Iland.Buffers

open Iland.Atomic
open Iland.Data
open Iland.Drm
open Iland.Ioctl

/-! The blob that the IN_FORMATS property names.

It is made when the property is first asked for, and its id is kept in
`g_in_formats_blob_id`.  Its place in the table is like that of the blobs that
clients make.
-/

variable {host : Host} {dev after : Device} {id : UInt32} {data : List UInt8}

/-- The table of formats, read under an id. -/
def formatsRes (id : UInt32) : PropertyBlobRes :=
  { id, length := UInt32.ofNat inFormatsData.length, data := inFormatsData }

/-- Whoever asks for the property reads the table of formats under the id that
it names. -/
def Readable (dev : Device) : Prop :=
  ∀ property after, drmModeGetProperty dev drmVirtualFd (lookupPropId "IN_FORMATS") = (.ok property, after) →
    ∀ id ∈ property.blobIds, drmModeGetPropertyBlob after drmVirtualFd id = .ok (formatsRes id)

/-- What a read returns of a blob with these bytes. -/
def reported (data : List UInt8) : List UInt8 := data.take (UInt32.ofNat data.length).toNat

def HoldsFormats (dev : Device) (id : UInt32) : Prop :=
  ∃ i blob, dev.gBlobs i = some blob ∧ blob.id = id ∧ reported blob.data = inFormatsData

/-- The blob that was made for the property is there, or there is a place to
make it in. -/
def Announced (dev : Device) : Prop :=
  if dev.gInFormatsBlobId = 0 then ∃ i, dev.gBlobs i = none else HoldsFormats dev dev.gInFormatsBlobId

/-- The counter does not come round to 0 or to a blob that is still there. -/
def NoReuse (session : Session) (a : Action) : Prop :=
  makes session.world.dev a = some .blob ∨ makes session.world.dev a = some .inFormats →
    session.world.dev.gNextBlobId + 1 ≠ 0 ∧
      ∀ i, blobId (session.world.dev.gBlobs i) ≠ some (session.world.dev.gNextBlobId + 1)

/-- The client does not destroy the blob that the property names; and before it
has been made, leaves a place for it. -/
def Spares (session : Session) : Action → Prop
  | .call (.destroyPropertyBlob fd blobId) =>
      fd = drmVirtualFd → session.world.dev.gInFormatsBlobId ≠ 0 → blobId ≠ session.world.dev.gInFormatsBlobId
  | .call (.createPropertyBlob fd data) =>
      makes session.world.dev (.call (.createPropertyBlob fd data)) = some .blob →
        session.world.dev.gInFormatsBlobId = 0 →
          ∃ i j, i ≠ j ∧ session.world.dev.gBlobs i = none ∧ session.world.dev.gBlobs j = none
  | _ => True

/-! What a step does to the blobs. -/

structure SameBlobs (before after : Device) : Prop where
  gBlobs : after.gBlobs = before.gBlobs
  gNextBlobId : after.gNextBlobId = before.gNextBlobId
  gInFormatsBlobId : after.gInFormatsBlobId = before.gInFormatsBlobId

theorem SameBlobs.refl (dev : Device) : SameBlobs dev dev := ⟨rfl, rfl, rfl⟩

@[simp] theorem gBlobs_addBlob (dev : Device) (slot : Fin maxBlobs) (data : List UInt8) :
    (addBlob dev slot data).gBlobs =
      Function.update dev.gBlobs slot (some ⟨dev.gNextBlobId, UInt32.ofNat data.length, data, rfl⟩) := rfl

@[simp] theorem gInFormatsBlobId_addBlob (dev : Device) (slot : Fin maxBlobs) (data : List UInt8) :
    (addBlob dev slot data).gInFormatsBlobId = dev.gInFormatsBlobId := rfl

@[simp] theorem gBlobs_dropBlob (dev : Device) (i : Fin maxBlobs) :
    (dropBlob dev i).gBlobs = Function.update dev.gBlobs i none := rfl

@[simp] theorem gInFormatsBlobId_dropBlob (dev : Device) (i : Fin maxBlobs) :
    (dropBlob dev i).gInFormatsBlobId = dev.gInFormatsBlobId := rfl

theorem BuffersOnly.sameBlobs (only : BuffersOnly dev after) : SameBlobs dev after := by
  rw [only]
  exact ⟨rfl, rfl, rfl⟩

theorem sameBlobs_of_demanded {fd : Int} {objectId objectType : UInt32}
    (demanded : Demanded host dev fd objectId objectType after) : SameBlobs dev after := by
  rcases demanded with ⟨_, rfl⟩ | ⟨table, _, _, rfl⟩
  · exact .refl after
  · exact ⟨rfl, rfl, rfl⟩

def Call.usesBlobs : Call → Bool
  | .getProperty .. | .createPropertyBlob .. | .destroyPropertyBlob .. => true
  | _ => false

theorem exec_sameBlobs {world next : World} {c : Call} {reply : Reply} (other : Call.usesBlobs c = false)
    (done : exec host world c = .ok (next, reply)) : SameBlobs world.dev next.dev := by
  have commits {flags : UInt32} {userData : UInt64} (isCommit : commitArguments c = some (flags, userData)) :
      SameBlobs world.dev next.dev := by
    rcases exec_commit isCommit done with same | ⟨req, table, _, _, same⟩
    · rw [same]
      exact .refl world.dev
    · obtain ⟨_, _, _, _, _, kept⟩ := committed_keeps host world.dev table req.triples flags userData
      rw [same, kept]
      exact ⟨rfl, rfl, rfl⟩
  cases c <;> simp only [Call.usesBlobs, Bool.true_eq_false] at other
  case objectGetProperties =>
    obtain ⟨dev, demanded, rfl⟩ := exec_ok done
    exact sameBlobs_of_demanded demanded
  case getPlane =>
    obtain ⟨dev, demanded, rfl⟩ := exec_ok done
    exact sameBlobs_of_demanded demanded
  case atomicCommit => exact commits rfl
  case atomicIoctl => exact commits rfl
  all_goals
    simp only [exec, World.query, World.update, World.updateSdl, World.withDev, Except.ok.injEq, Prod.mk.injEq] at done
    obtain ⟨rfl, _⟩ := done
  case createDumbBuffer => exact BuffersOnly.sameBlobs (buffersOnly_createDumbBuffer _)
  case destroyDumbBuffer => exact BuffersOnly.sameBlobs (buffersOnly_destroyDumbBuffer _)
  case registerGbmBuffer => exact BuffersOnly.sameBlobs (buffersOnly_registerGbmBuffer _ _)
  case unregisterGbmBuffer => exact BuffersOnly.sameBlobs (buffersOnly_unregisterGbmBuffer _)
  case addFB => exact BuffersOnly.sameBlobs (buffersOnly_addFB _ _)
  case rmFB => exact BuffersOnly.sameBlobs (buffersOnly_rmFB _)
  case setCrtc =>
    simp only [drmModeSetCrtc]
    repeat' split
    all_goals exact ⟨rfl, rfl, rfl⟩
  case pageFlip =>
    simp only [drmModePageFlip]
    repeat' split
    all_goals exact ⟨rfl, rfl, rfl⟩
  case setClientCap =>
    simp only [drmSetClientCap]
    repeat' split
    all_goals exact ⟨rfl, rfl, rfl⟩
  all_goals exact ⟨rfl, rfl, rfl⟩

/-- What a step does to the blobs; a destruction that does nothing finds none
with the id. -/
inductive BlobStep (dev : Device) (a : Action) (after : Device) : Prop
  | same : SameBlobs dev after → makes dev a ≠ some .blob → makes dev a ≠ some .inFormats →
      (∀ id, a = .call (.destroyPropertyBlob drmVirtualFd id) → ∀ i, blobId (dev.gBlobs i) ≠ some id) →
      BlobStep dev a after
  | created fd data slot : a = .call (.createPropertyBlob fd (some data)) → makes dev a = some .blob →
      dev.gBlobs slot = none → SameBlobs (addBlob dev slot data) after → BlobStep dev a after
  | formats fd propertyId slot : a = .call (.getProperty fd propertyId) → makes dev a = some .inFormats →
      dev.gInFormatsBlobId = 0 → dev.gBlobs slot = none →
      SameBlobs { addBlob dev slot inFormatsData with gInFormatsBlobId := dev.gNextBlobId } after → BlobStep dev a after
  | destroyed blob i : a = .call (.destroyPropertyBlob drmVirtualFd blob.id) → makes dev a = none →
      dev.gBlobs i = some blob → SameBlobs (dropBlob dev i) after → BlobStep dev a after

theorem blobPlace_none (missing : blobPlace dev id = none) (i : Fin maxBlobs) : blobId (dev.gBlobs i) ≠ some id := by
  have other := firstPlace_none missing i
  cases at' : dev.gBlobs i <;> simp_all [blobId]

theorem blobPlace_some {i : Fin maxBlobs} (found : blobPlace dev id = some i) :
    ∃ blob, dev.gBlobs i = some blob ∧ blob.id = id := by
  have named := firstPlace_some found
  cases at' : dev.gBlobs i with
  | none => simp [at'] at named
  | some blob => exact ⟨blob, rfl, by simpa [at'] using named⟩

theorem getProperty_inFormats (dev : Device) : ∃ property : PropertyRes,
    drmModeGetProperty dev drmVirtualFd (lookupPropId "IN_FORMATS") =
      (.ok property, (getOrCreateInFormatsBlob dev).2) ∧ property.blobIds = [(getOrCreateInFormatsBlob dev).1] := by
  cases found : (if lookupPropId "IN_FORMATS" = 0 then none else gProps[(lookupPropId "IN_FORMATS").toNat - 1]?) with
  | none => exact absurd found (by decide +kernel)
  | some pd =>
      have names := (inFormats_iff found).mpr rfl
      simp only [drmModeGetProperty, checkFd, ne_eq, not_true_eq_false, if_false, found, if_pos names]
      exact ⟨_, rfl, rfl⟩

theorem getProperty_other (dev : Device) {fd : Int} {propertyId : UInt32}
    (other : ¬ (fd = drmVirtualFd ∧ propertyId = lookupPropId "IN_FORMATS")) :
    (drmModeGetProperty dev fd propertyId).2 = dev := by
  simp only [drmModeGetProperty]
  cases opened : checkFd fd with
  | error e => rfl
  | ok ok =>
      have valid := checkFd_ok_iff.mp opened
      cases found : (if propertyId = 0 then none else gProps[propertyId.toNat - 1]?) with
      | none => rfl
      | some pd =>
          have foreign : ¬ (pd.name = "IN_FORMATS" ∧ pd.countBlobs = 0) :=
            fun names => other ⟨valid, (inFormats_iff found).mp names⟩
          simp only [if_neg foreign]

theorem getOrCreate_cases (dev : Device) :
    dev.gInFormatsBlobId ≠ 0 ∧ getOrCreateInFormatsBlob dev = (dev.gInFormatsBlobId, dev) ∨
      dev.gInFormatsBlobId = 0 ∧ (¬ ∃ i, dev.gBlobs i = none) ∧ getOrCreateInFormatsBlob dev = (0, dev) ∨
      dev.gInFormatsBlobId = 0 ∧ ∃ slot, dev.gBlobs slot = none ∧ getOrCreateInFormatsBlob dev =
        (dev.gNextBlobId, { addBlob dev slot inFormatsData with gInFormatsBlobId := dev.gNextBlobId }) := by
  rw [getOrCreateInFormatsBlob]
  by_cases made : dev.gInFormatsBlobId = 0
  · right
    rw [if_neg (not_not.mpr made), createInFormatsBlob]
    rcases storeBlob_cases dev inFormatsData with ⟨full, occupied⟩ | ⟨slot, free, stored⟩
    · rw [full]
      refine .inl ⟨made, by simpa using occupied, ?_⟩
      simp only [Option.getD_none, ← made]
    · rw [stored]
      exact .inr ⟨made, slot, free, rfl⟩
  · exact .inl ⟨made, if_pos made⟩

theorem getProperty_blobStep (dev : Device) (fd : Int) (propertyId : UInt32) :
    BlobStep dev (.call (.getProperty fd propertyId)) (drmModeGetProperty dev fd propertyId).2 := by
  by_cases asked : fd = drmVirtualFd ∧ propertyId = lookupPropId "IN_FORMATS"
  · obtain ⟨rfl, rfl⟩ := asked
    obtain ⟨property, got, _⟩ := getProperty_inFormats dev
    rw [got]
    rcases getOrCreate_cases dev with ⟨made, same⟩ | ⟨made, occupied, same⟩ | ⟨made, slot, free, same⟩
    · rw [same]
      exact .same (.refl dev) (by simp [makes]) (by simp [makes, made]) (by simp)
    · rw [same]
      exact .same (.refl dev) (by simp [makes]) (by simpa [makes, made] using occupied) (by simp)
    · rw [same]
      have makesIt : ∃ i, (dev.gBlobs i).isNone := ⟨slot, by simp [free]⟩
      exact .formats _ _ slot rfl (if_pos ⟨rfl, rfl, made, makesIt⟩) made free (.refl _)
  · rw [getProperty_other dev asked]
    have cannot : ¬ (fd = drmVirtualFd ∧ propertyId = lookupPropId "IN_FORMATS" ∧ dev.gInFormatsBlobId = 0 ∧
        ∃ i, (dev.gBlobs i).isNone) := fun all => asked ⟨all.1, all.2.1⟩
    exact .same (.refl dev) (by simp [makes]) (by simp only [makes, if_neg cannot]; simp) (by simp)

theorem createPropertyBlob_blobStep (dev : Device) (fd : Int) (data : Option (List UInt8)) :
    BlobStep dev (.call (.createPropertyBlob fd data)) (drmModeCreatePropertyBlob dev fd data).2 := by
  rcases createPropertyBlob_cases dev fd data with ⟨⟨e, failed⟩, cannot⟩ | ⟨slot, bytes, rfl, rfl, free, created⟩
  · rw [failed]
    exact .same (.refl dev) (by simp only [makes, if_neg cannot]; simp) (by simp [makes]) (by simp)
  · rw [created]
    have makesIt : ∃ i, (dev.gBlobs i).isNone := ⟨slot, by simp [free]⟩
    exact .created _ bytes slot rfl (if_pos ⟨rfl, rfl, makesIt⟩) free (.refl _)

theorem destroyPropertyBlob_blobStep (dev : Device) (fd : Int) (id : UInt32) :
    BlobStep dev (.call (.destroyPropertyBlob fd id)) (drmModeDestroyPropertyBlob dev fd id).2 := by
  simp only [drmModeDestroyPropertyBlob]
  cases opened : checkFd fd with
  | error e =>
      refine .same (.refl dev) (by simp [makes]) (by simp [makes]) fun other same => ?_
      simp only [Action.call.injEq, Call.destroyPropertyBlob.injEq] at same
      simp [checkFd, same.1] at opened
  | ok ok =>
      have valid := checkFd_ok_iff.mp opened
      cases found : blobPlace dev id with
      | none =>
          refine .same (.refl dev) (by simp [makes]) (by simp [makes]) fun other same => ?_
          simp only [Action.call.injEq, Call.destroyPropertyBlob.injEq] at same
          exact same.2 ▸ blobPlace_none found
      | some i =>
          obtain ⟨blob, here, rfl⟩ := blobPlace_some found
          exact .destroyed blob i (by rw [valid]) rfl here (.refl _)

theorem step_blobStep {session next : Session} {a : Action} {out : Output}
    (done : Iland.step host session a = .ok (next, out)) : BlobStep session.world.dev a next.world.dev := by
  rcases step_cases done with ⟨c, reply, rfl, _, called, _⟩ | ⟨event, handler, dev, rfl, _, taken, rfl⟩ |
    ⟨_, noEvent, noReply, world⟩
  · cases uses : Call.usesBlobs c with
    | false =>
        have same := exec_sameBlobs uses called
        cases c <;> simp only [Call.usesBlobs, Bool.true_eq_false] at uses
        all_goals exact .same same (by simp [makes]) (by simp [makes]) (by simp)
    | true =>
        cases c <;> simp only [Call.usesBlobs, Bool.false_eq_true] at uses <;>
          simp only [exec, World.update, Except.ok.injEq, Prod.mk.injEq] at called <;> obtain ⟨world, _⟩ := called <;>
          rw [← world]
        case getProperty => exact getProperty_blobStep _ _ _
        case createPropertyBlob => exact createPropertyBlob_blobStep _ _ _
        case destroyPropertyBlob => exact destroyPropertyBlob_blobStep _ _ _
  · obtain ⟨_, _, same⟩ := dequeueFlipEvent_some taken
    refine .same ?_ (by simp [makes]) (by simp [makes]) (by simp)
    change SameBlobs session.world.dev dev
    rw [same]
    exact ⟨rfl, rfl, rfl⟩
  · have same : SameBlobs session.world.dev next.world.dev := by
      rw [world]
      exact ⟨rfl, rfl, rfl⟩
    cases a with
    | call c =>
        obtain ⟨reply, replied, _⟩ := step_call done
        exact absurd replied (noReply reply)
    | handleEvent fd evctx => exact .same same (by simp [makes]) (by simp [makes]) (by simp)
    | round => exact .same same (by simp [makes]) (by simp [makes]) (by simp)

/-! Tables whose blobs differ in their ids. -/

def DistinctIds (blobs : Fin maxBlobs → Option Blob) : Prop :=
  ∀ i j id, blobId (blobs i) = some id → blobId (blobs j) = some id → i = j

/-- No two blobs share an id, none has the id 0, and the next id is in order. -/
structure Tidy (dev : Device) : Prop where
  distinct : DistinctIds dev.gBlobs
  nonzero : ∀ i, blobId (dev.gBlobs i) ≠ some 0
  nextNonzero : dev.gNextBlobId ≠ 0
  nextUnused : ∀ i, blobId (dev.gBlobs i) ≠ some dev.gNextBlobId

theorem blobId_update (blobs : Fin maxBlobs → Option Blob) (slot : Fin maxBlobs) (blob : Option Blob)
    (i : Fin maxBlobs) :
    blobId (Function.update blobs slot blob i) = if i = slot then blobId blob else blobId (blobs i) := by
  by_cases here : i = slot
  · subst here
    simp
  · simp [here]

theorem DistinctIds.add {blobs : Fin maxBlobs → Option Blob} (distinct : DistinctIds blobs) {blob : Blob}
    (unused : ∀ i, blobId (blobs i) ≠ some blob.id) (slot : Fin maxBlobs) :
    DistinctIds (Function.update blobs slot (some blob)) := by
  intro i j id first second
  rw [blobId_update] at first second
  by_cases inew : i = slot <;> by_cases jnew : j = slot
  · rw [inew, jnew]
  · rw [if_pos inew] at first
    rw [if_neg jnew, ← first] at second
    exact absurd second (unused j)
  · rw [if_pos jnew] at second
    rw [if_neg inew, ← second] at first
    exact absurd first (unused i)
  · rw [if_neg inew] at first
    rw [if_neg jnew] at second
    exact distinct i j id first second

theorem blobId_drop {blobs : Fin maxBlobs → Option Blob} {slot i : Fin maxBlobs}
    (named : blobId (Function.update blobs slot none i) = some id) : blobId (blobs i) = some id := by
  rw [blobId_update] at named
  split at named
  · simp [blobId] at named
  · exact named

theorem tidy_initial : Tidy .initial := by
  refine ⟨fun i j id named => ?_, fun i => ?_, by decide, fun i => ?_⟩ <;> simp [Device.initial, blobId] at *

theorem Tidy.congr (tidy : Tidy dev) (blobs : after.gBlobs = dev.gBlobs) (next : after.gNextBlobId = dev.gNextBlobId) :
    Tidy after := by
  refine ⟨?_, ?_, ?_, ?_⟩
  · rw [blobs]; exact tidy.distinct
  · rw [blobs]; exact tidy.nonzero
  · rw [next]; exact tidy.nextNonzero
  · rw [blobs, next]; exact tidy.nextUnused

theorem Tidy.add (tidy : Tidy dev) (slot : Fin maxBlobs) (data : List UInt8) (nonzero : dev.gNextBlobId + 1 ≠ 0)
    (unused : ∀ i, blobId (dev.gBlobs i) ≠ some (dev.gNextBlobId + 1)) : Tidy (addBlob dev slot data) := by
  refine ⟨tidy.distinct.add tidy.nextUnused slot, fun i named => ?_, nonzero, fun i named => ?_⟩ <;>
    rw [addBlob, blobId_update] at named <;> split at named
  · exact tidy.nextNonzero (by simpa [blobId] using named)
  · exact tidy.nonzero i named
  · simp [blobId] at named
  · exact unused i named

theorem Tidy.drop (tidy : Tidy dev) (i : Fin maxBlobs) : Tidy (dropBlob dev i) :=
  ⟨fun j k id first second => tidy.distinct j k id (blobId_drop first) (blobId_drop second),
    fun j named => tidy.nonzero j (blobId_drop named), tidy.nextNonzero,
    fun j named => tidy.nextUnused j (blobId_drop named)⟩

/-- A read of the id returns the table if the blob with the id holds it. -/
theorem getPropertyBlob_formats_iff (distinct : DistinctIds dev.gBlobs) (id : UInt32) :
    drmModeGetPropertyBlob dev drmVirtualFd id = .ok (formatsRes id) ↔ HoldsFormats dev id := by
  simp only [drmModeGetPropertyBlob, formatsRes, checkFd, ne_eq, not_true_eq_false, if_false]
  cases found : blobPlace dev id with
  | none =>
      refine iff_of_false (by simp) ?_
      rintro ⟨i, blob, here, named, _⟩
      exact blobPlace_none found i (by rw [here, ← named]; rfl)
  | some j =>
      obtain ⟨blob, there, named⟩ := blobPlace_some found
      have whole : blob.data.take blob.size.toNat = reported blob.data := by rw [reported, blob.sized]
      simp only [Option.bind_some, there, Except.ok.injEq, PropertyBlobRes.mk.injEq, true_and, whole]
      constructor
      · rintro ⟨_, same⟩
        exact ⟨j, blob, there, named, same⟩
      · rintro ⟨i, other, here, own, same⟩
        obtain rfl : i = j := distinct i j id (by rw [here, ← own]; rfl) (by rw [there, ← named]; rfl)
        obtain rfl : other = blob := Option.some.inj (here.symm.trans there)
        refine ⟨?_, same⟩
        -- The size in 32 bits is at most the length, so the table is all that is read.
        have length := congrArg List.length same
        have wrapped : (UInt32.ofNat other.data.length).toNat ≤ other.data.length := by
          rw [UInt32.toNat_ofNat']
          exact Nat.mod_le _ _
        rw [reported, List.length_take, Nat.min_eq_left wrapped] at length
        rw [other.sized, ← length, UInt32.ofNat_toNat]

theorem reported_formats : reported inFormatsData = inFormatsData := by
  decide

theorem holdsFormats_add (dev : Device) (slot : Fin maxBlobs) :
    HoldsFormats (addBlob dev slot inFormatsData) dev.gNextBlobId :=
  ⟨slot, _, Function.update_self .., rfl, reported_formats⟩

theorem readable_iff (tidy : Tidy dev) : Readable dev ↔ Announced dev := by
  obtain ⟨property, got, named⟩ := getProperty_inFormats dev
  have reads : Readable dev ↔ drmModeGetPropertyBlob (getOrCreateInFormatsBlob dev).2 drmVirtualFd
      (getOrCreateInFormatsBlob dev).1 = .ok (formatsRes (getOrCreateInFormatsBlob dev).1) := by
    simp only [Readable, got, Prod.mk.injEq, Except.ok.injEq]
    constructor
    · intro readable
      exact readable property _ ⟨rfl, rfl⟩ _ (by rw [named]; exact List.mem_singleton_self _)
    · rintro read _ _ ⟨rfl, rfl⟩ id member
      rw [named, List.mem_singleton] at member
      rwa [member]
  rw [reads, Announced]
  rcases getOrCreate_cases dev with ⟨made, same⟩ | ⟨made, occupied, same⟩ | ⟨made, slot, free, same⟩
  · rw [same, if_neg made]
    exact getPropertyBlob_formats_iff tidy.distinct _
  · rw [same, if_pos made, getPropertyBlob_formats_iff tidy.distinct]
    refine iff_of_false ?_ occupied
    rintro ⟨i, blob, here, zero, _⟩
    exact tidy.nonzero i (by rw [here, blobId, Option.map_some, zero])
  · rw [same, if_pos made]
    refine iff_of_true ((getPropertyBlob_formats_iff ?_ _).mpr ?_) ⟨slot, free⟩
    · exact tidy.distinct.add tidy.nextUnused slot
    · exact holdsFormats_add dev slot

/-! Runs. -/

variable {session next : Session} {a : Action} {out : Output} {slot i : Fin maxBlobs} {blob : Blob}

theorem announced_congr (same : SameBlobs dev after) : Announced after ↔ Announced dev := by
  obtain ⟨blobs, _, formats⟩ := same
  simp only [Announced, HoldsFormats, blobs, formats]

/-- A new blob takes the last place or does no harm. -/
theorem announced_add_iff (announced : Announced dev) (free : dev.gBlobs slot = none) (data : List UInt8) :
    Announced (addBlob dev slot data) ↔
      (dev.gInFormatsBlobId = 0 → ∃ i j, i ≠ j ∧ dev.gBlobs i = none ∧ dev.gBlobs j = none) := by
  simp only [Announced, gInFormatsBlobId_addBlob, HoldsFormats, gBlobs_addBlob] at announced ⊢
  by_cases made : dev.gInFormatsBlobId = 0
  · simp only [made, if_true, true_imp_iff]
    constructor
    · rintro ⟨i, empty⟩
      have different : i ≠ slot := by
        rintro rfl
        simp at empty
      exact ⟨i, slot, different, by simpa [different] using empty, free⟩
    · rintro ⟨i, j, different, iFree, jFree⟩
      by_cases here : i = slot
      · subst here
        exact ⟨j, by rw [Function.update_of_ne different.symm, jFree]⟩
      · exact ⟨i, by rw [Function.update_of_ne here, iFree]⟩
  · simp only [made, if_false, false_imp_iff, iff_true] at announced ⊢
    obtain ⟨i, blob, here, holds⟩ := announced
    have different : i ≠ slot := by
      rintro rfl
      simp [here] at free
    exact ⟨i, blob, by rw [Function.update_of_ne different, here], holds⟩

/-- So does a blob that goes, unless it is the announced one. -/
theorem announced_drop_iff (distinct : DistinctIds dev.gBlobs) (announced : Announced dev)
    (here : dev.gBlobs i = some blob) :
    Announced (dropBlob dev i) ↔ (dev.gInFormatsBlobId ≠ 0 → blob.id ≠ dev.gInFormatsBlobId) := by
  simp only [Announced, gInFormatsBlobId_dropBlob, HoldsFormats, gBlobs_dropBlob] at announced ⊢
  by_cases made : dev.gInFormatsBlobId = 0
  · simp only [made, if_true, ne_eq, not_true_eq_false, false_imp_iff, iff_true]
    exact ⟨i, Function.update_self ..⟩
  · simp only [made, if_false, ne_eq, not_false_eq_true, true_imp_iff] at announced ⊢
    obtain ⟨j, formats, there, own, holds⟩ := announced
    constructor
    · rintro ⟨k, other, kept, named, _⟩ names
      have known : blobId (Function.update dev.gBlobs i none k) = some blob.id := by
        rw [kept, blobId, Option.map_some, named, names]
      obtain rfl := distinct k i blob.id (blobId_drop known) (by rw [here]; rfl)
      simp at kept
    · intro spares
      have different : j ≠ i := by
        rintro rfl
        rw [here, Option.some.injEq] at there
        exact spares (there ▸ own)
      exact ⟨j, formats, by rw [Function.update_of_ne different, there], own, holds⟩

/-- A step with ids in order leaves the ids in order. -/
theorem tidy_step (tidy : Tidy session.world.dev) (fresh : NoReuse session a)
    (done : Iland.step host session a = .ok (next, out)) : Tidy next.world.dev := by
  cases step_blobStep done with
  | same same => exact tidy.congr same.gBlobs same.gNextBlobId
  | created fd data slot _ makesIt free same =>
      obtain ⟨nonzero, unused⟩ := fresh (.inl makesIt)
      exact (tidy.add slot data nonzero unused).congr same.gBlobs same.gNextBlobId
  | formats fd propertyId slot _ makesIt _ free same =>
      obtain ⟨nonzero, unused⟩ := fresh (.inr makesIt)
      exact (tidy.add slot inFormatsData nonzero unused).congr same.gBlobs same.gNextBlobId
  | destroyed blob i _ _ _ same => exact (tidy.drop i).congr same.gBlobs same.gNextBlobId

/-- A step from an announced table leaves it announced exactly if it spares
it. -/
theorem announced_step_iff (tidy : Tidy session.world.dev) (announced : Announced session.world.dev)
    (done : Iland.step host session a = .ok (next, out)) : Announced next.world.dev ↔ Spares session a := by
  cases step_blobStep done with
  | same same noBlob noFormats missing =>
      rw [announced_congr same]
      refine iff_of_true announced ?_
      cases a with
      | call c =>
          cases c
          case createPropertyBlob fd data => exact fun makesIt => absurd makesIt noBlob
          case destroyPropertyBlob fd id =>
            rintro rfl made rfl
            rw [Announced, if_neg made] at announced
            obtain ⟨i, blob, here, own, _⟩ := announced
            exact missing _ rfl i (by rw [here, ← own]; rfl)
          all_goals trivial
      | handleEvent => trivial
      | round => trivial
  | created fd data slot isCreate makesIt free same =>
      subst isCreate
      rw [announced_congr same, announced_add_iff announced free]
      exact ⟨fun spares _ => spares, fun spares => spares makesIt⟩
  | formats fd propertyId slot isGet makesIt unmade free same =>
      subst isGet
      rw [announced_congr same, Announced, if_neg tidy.nextNonzero]
      exact iff_of_true (holdsFormats_add session.world.dev slot) trivial
  | destroyed blob i isDestroy _ here same =>
      subst isDestroy
      rw [announced_congr same, announced_drop_iff tidy.distinct announced here]
      exact ⟨fun spares _ => spares, fun spares => spares rfl⟩

theorem spares_of_stops {fault : Fault} (stops : Iland.step host session a = .error fault) : Spares session a := by
  cases a with
  | call c => cases c <;> trivial
  | _ => trivial

structure InFormatsInv (session : Session) : Prop where
  tidy : Tidy session.world.dev
  announced : Announced session.world.dev

/-- In runs whose ids do not come round, the property always leads to the table
exactly if every step spares it. -/
theorem readable_throughout_iff {actions : List Action} (fresh : Along (Iland.step host) NoReuse .initial actions) :
    Throughout (Iland.step host) (fun session => Readable session.world.dev) .initial actions ↔
      Along (Iland.step host) Spares .initial actions := by
  have initial : InFormatsInv .initial := ⟨tidy_initial, ⟨⟨0, by decide⟩, rfl⟩⟩
  have good (session : Session) (inv : InFormatsInv session) : Readable session.world.dev :=
    (readable_iff inv.tidy).mpr inv.announced
  have exactly (session : Session) (a : Action) (inv : InFormatsInv session) (fresh : NoReuse session a) :
      (∀ next out, Iland.step host session a = .ok (next, out) → Readable next.world.dev) ↔ Spares session a := by
    cases done : Iland.step host session a with
    | error fault => simp [spares_of_stops done]
    | ok result =>
        obtain ⟨next, out⟩ := result
        rw [← announced_step_iff inv.tidy inv.announced done, ← readable_iff (tidy_step inv.tidy fresh done)]
        simp
  have kept (session : Session) (a : Action) (next : Session) (out : Output) (inv : InFormatsInv session)
      (fresh : NoReuse session a) (spares : Spares session a) (done : Iland.step host session a = .ok (next, out)) :
      InFormatsInv next :=
    ⟨tidy_step inv.tidy fresh done, (announced_step_iff inv.tidy inv.announced done).mpr spares⟩
  exact throughout_iff_along_within good exactly kept initial fresh

/-- A client that neither destroys the blob nor takes its place always reads the
table, while no id is given out again; and only such a client does. -/
theorem in_formats_always_readable (host : Host) (actions : List Action) :
    (Along (Iland.step host) (fun session a => NoReuse session a ∧ Spares session a) .initial actions →
        Throughout (Iland.step host) (fun session => Readable session.world.dev) .initial actions) ∧
      (Along (Iland.step host) NoReuse .initial actions →
        Throughout (Iland.step host) (fun session => Readable session.world.dev) .initial actions →
          Along (Iland.step host) Spares .initial actions) := by
  refine ⟨fun along => ?_, fun fresh => (readable_throughout_iff fresh).mp⟩
  have fresh := along.imp fun _ _ both => both.1
  exact (readable_throughout_iff fresh).mpr (along.imp fun _ _ both => both.2)

def asksForFormats : Action := .call (.getProperty drmVirtualFd (lookupPropId "IN_FORMATS"))

/-- The property is asked for between the blobs that clients make, of which one
is destroyed. -/
def amongBlobs : List Action :=
  [.call (.createPropertyBlob drmVirtualFd (some [1, 2, 3])), asksForFormats,
    .call (.createPropertyBlob drmVirtualFd (some [4])), .call (.destroyPropertyBlob drmVirtualFd 256), asksForFormats]

theorem in_formats_always_readable_among :
    Throughout (Iland.step (.uniform 1)) (fun session => Readable session.world.dev) .initial amongBlobs := by
  refine (in_formats_always_readable (.uniform 1) amongBlobs).1 ?_
  refine .cons rfl ⟨fun _ => ⟨by decide, by decide⟩, fun _ _ => ⟨⟨0, by decide⟩, ⟨1, by decide⟩, by decide, rfl, rfl⟩⟩
    (.cons rfl ⟨fun _ => ⟨by decide, by decide⟩, trivial⟩
      (.cons rfl ⟨fun _ => ⟨by decide, by decide⟩, fun _ unmade => ?_⟩
        (.cons rfl ⟨fun _ => ⟨by decide, by decide⟩, fun _ _ => by decide⟩
          (.cons rfl ⟨fun _ => ⟨by decide, by decide⟩, trivial⟩ trivial))))
  -- The blob of the property has an id by then.
  revert unmade
  decide

def destroysFormats : List Action := [asksForFormats, .call (.destroyPropertyBlob drmVirtualFd 256)]

/-- A client destroys the blob under the id that the property gave it. -/
theorem destroyed_formats_unreadable :
    ¬ Throughout (Iland.step (.uniform 1)) (fun session => Readable session.world.dev) .initial destroysFormats := by
  intro always
  have readable := (always.2 _ _ rfl).2 _ _ rfl
  have read := readable _ _ rfl 256 (by decide)
  exact absurd (congrArg Except.toBool read) (by decide)

end Iland.Buffers

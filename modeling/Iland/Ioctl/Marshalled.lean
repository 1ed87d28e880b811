import Iland.Ioctl.Queries

namespace Iland.Ioctl

open Iland.Drm

/-! What the array-returning ioctls store in the caller's memory.

No handler looks at the count that the caller passed in: `handle_get_resources`
compares with the count field that it has just overwritten, and the others
compare with nothing.  So an array is overrun exactly when its pointer is not
NULL and it is too short.
-/

variable {host : Host} {dev : Device} {request : Request}

structure UserArray where
  ptr : UInt64
  count : UInt32

def Request.array : Request → ArrayName → Option UserArray
  | .getResources res, .fbs => some ⟨res.fbIdPtr, res.countFbs⟩
  | .getResources res, .crtcs => some ⟨res.crtcIdPtr, res.countCrtcs⟩
  | .getResources res, .connectors => some ⟨res.connectorIdPtr, res.countConnectors⟩
  | .getResources res, .encoders => some ⟨res.encoderIdPtr, res.countEncoders⟩
  | .getConnector kc, .modes => some ⟨kc.modesPtr, kc.countModes⟩
  | .getConnector kc, .props => some ⟨kc.propsPtr, kc.countProps⟩
  | .getConnector kc, .propValues => some ⟨kc.propValuesPtr, kc.countProps⟩
  | .getConnector kc, .encoders => some ⟨kc.encodersPtr, kc.countEncoders⟩
  | .getPlaneResources res, .planes => some ⟨res.planeIdPtr, res.countPlanes⟩
  | .getPlane kp, .formats => some ⟨kp.formatTypePtr, kp.countFormatTypes⟩
  | .objGetProperties kp, .props => some ⟨kp.propsPtr, kp.countProps⟩
  | .objGetProperties kp, .propValues => some ⟨kp.propValuesPtr, kp.countProps⟩
  | .getProperty kp, .values => some ⟨kp.valuesPtr, kp.countValues⟩
  | .getProperty kp, .enumBlobs => some ⟨kp.enumBlobPtr, kp.countEnumBlobs⟩
  | .getPropBlob kb, .data => some ⟨kb.data, kb.length⟩
  | _, _ => none

/-- The lists that the arrays of a request are to be filled from, if there is
such an object. -/
def Request.truth (host : Host) (dev : Device) : Request → Option (ArrayName → List Element)
  | .getResources _ =>
      (drmModeGetResources host drmVirtualFd).toOption.map fun r => fun
        | .crtcs => r.crtcs.map .u32
        | .connectors => r.connectors.map .u32
        | .encoders => r.encoders.map .u32
        | _ => []
  | .getConnector kc =>
      (drmModeGetConnector host drmVirtualFd kc.connectorId).toOption.map fun c => fun
        | .modes => c.modes.map .mode
        | .props => c.props.map .u32
        | .propValues => c.propValues.map .u64
        | .encoders => c.encoders.map .u32
        | _ => []
  | .getPlaneResources _ =>
      (drmModeGetPlaneResources host dev drmVirtualFd).toOption.map fun r => fun
        | .planes => r.planes.map .u32
        | _ => []
  | .getPlane kp =>
      (drmModeGetPlane host dev drmVirtualFd kp.planeId).toOption.bind fun result =>
        result.1.toOption.map fun p => fun
          | .formats => p.formats.map .u32
          | _ => []
  | .objGetProperties kp =>
      (drmModeObjectGetProperties host dev drmVirtualFd kp.objId kp.objType).toOption.bind fun result =>
        result.1.toOption.map fun p => fun
          | .props => p.props.map .u32
          | .propValues => p.propValues.map .u64
          | _ => []
  | .getProperty kp =>
      (drmModeGetProperty dev drmVirtualFd kp.propId).1.toOption.map fun p => fun
        | .values => p.values.map .u64
        | .enumBlobs => if p.blobIds = [] then p.enums.map fun (value, name) => .enum value name else p.blobIds.map .u32
        | _ => []
  | .getPropBlob kb =>
      ((blobPlace dev kb.blobId).bind dev.gBlobs).map fun blob => fun
        | .data => blob.data.map .byte
        | _ => []

def written (writes : List Write) (array : ArrayName) : List (Element × ℕ) :=
  (writes.filter (fun w => w.array = array)).map fun w => (w.value, w.index)

structure Marshalled (truth : List Element) (given returned : UserArray) (stored : List (Element × ℕ)) : Prop where
  few : stored.length ≤ given.count.toNat
  inOrder : ∃ k, stored = (truth.take k).zipIdx
  notNull : given.ptr = 0 → stored = []
  total : returned.count.toNat = truth.length

/-- A successful ioctl fills each of its arrays as it should, and no other. -/
def Within (host : Host) (dev : Device) (request : Request) : Prop :=
  ∀ after writes next, request.handle host dev = .ok (.ok (after, writes), next) →
    ∃ truth, request.truth host dev = some truth ∧ ∀ array,
      match request.array array with
      | some given =>
          ∃ returned, after.array array = some returned ∧
            Marshalled (truth array) given returned (written writes array)
      | none => written writes array = []

def Request.Stores : Request → ArrayName → Prop
  | .getResources res, .crtcs => res.crtcIdPtr ≠ 0
  | .getResources res, .connectors => res.connectorIdPtr ≠ 0
  | .getResources res, .encoders => res.encoderIdPtr ≠ 0
  | .getConnector kc, .modes => kc.modesPtr ≠ 0
  | .getConnector kc, .props => kc.propsPtr ≠ 0 ∧ kc.propValuesPtr ≠ 0
  | .getConnector kc, .propValues => kc.propsPtr ≠ 0 ∧ kc.propValuesPtr ≠ 0
  | .getConnector kc, .encoders => kc.encodersPtr ≠ 0
  | .getPlaneResources res, .planes => res.planeIdPtr ≠ 0
  | .getPlane kp, .formats => kp.formatTypePtr ≠ 0
  | .objGetProperties kp, .props => kp.propsPtr ≠ 0 ∧ kp.propValuesPtr ≠ 0
  | .objGetProperties kp, .propValues => kp.propsPtr ≠ 0 ∧ kp.propValuesPtr ≠ 0
  | .getProperty kp, .values => kp.valuesPtr ≠ 0
  | .getPropBlob kb, .data => kb.data ≠ 0
  | _, _ => False

/-- Each array that the handler stores in has room for the whole list, and
every list can be counted in 32 bits. -/
def Fits (host : Host) (dev : Device) (request : Request) : Prop :=
  ∀ truth, request.truth host dev = some truth → ∀ array given, request.array array = some given →
    (truth array).length < 2 ^ 32 ∧ (request.Stores array → (truth array).length ≤ given.count.toNat)

/-! The stores of the loops. -/

@[simp] theorem written_nil (array : ArrayName) : written [] array = [] := rfl

@[simp] theorem written_append (left right : List Write) (array : ArrayName) :
    written (left ++ right) array = written left array ++ written right array := by
  simp [written]

theorem written_copyLoop (array : ArrayName) (n : ℕ) (src : List Element) (other : ArrayName) :
    written (copyLoop array n src) other = if other = array then (src.take n).zipIdx else [] := by
  by_cases same : other = array
  · simp [written, copyLoop, List.filter_map, Function.comp_def, same]
  · simp [written, copyLoop, List.filter_map, Function.comp_def, same, Ne.symm same]

theorem written_pairs {left right : ArrayName} (apart : left ≠ right) (pairs : List (Element × Element)) (start : ℕ)
    (array : ArrayName) :
    written ((pairs.zipIdx start).flatMap fun ((value, value'), i) => [⟨left, i, value⟩, ⟨right, i, value'⟩]) array =
      if array = left then (pairs.map Prod.fst).zipIdx start
      else if array = right then (pairs.map Prod.snd).zipIdx start
      else [] := by
  induction pairs generalizing start with
  | nil => simp
  | cons pair rest ih =>
      obtain ⟨value, value'⟩ := pair
      rw [List.zipIdx_cons, List.flatMap_cons, written_append, ih]
      by_cases isLeft : array = left
      · subst isLeft
        simp [written, Ne.symm apart]
      · by_cases isRight : array = right
        · subst isRight
          simp [written, isLeft, apart]
        · simp [written, isLeft, isRight, Ne.symm isLeft, Ne.symm isRight]

theorem written_copyPairs {left right : ArrayName} (apart : left ≠ right) (n : ℕ) {src src' : List Element}
    (sameLength : src.length = src'.length) (array : ArrayName) :
    written (copyPairs left right n src src') array =
      if array = left then (src.take n).zipIdx
      else if array = right then (src'.take n).zipIdx
      else [] := by
  rw [copyPairs, written_pairs apart, List.map_take, List.map_take, List.map_fst_zip sameLength.le,
    List.map_snd_zip sameLength.ge]

/-! The stores behind a check. -/

section Checked

variable {present : Prop} [Decidable present]

theorem written_checked (array : ArrayName) (n : ℕ) (src : List Element) (other : ArrayName) :
    written (if present then copyLoop array n src else []) other =
      if other = array ∧ present then (src.take n).zipIdx else [] := by
  by_cases there : present <;> simp [there, written_copyLoop]

theorem written_checkedPairs {left right : ArrayName} (apart : left ≠ right) (n : ℕ) {src src' : List Element}
    (sameLength : src.length = src'.length) (other : ArrayName) :
    written (if present then copyPairs left right n src src' else []) other =
      if other = left ∧ present then (src.take n).zipIdx
      else if other = right ∧ present then (src'.take n).zipIdx
      else [] := by
  by_cases there : present <;> simp [there, written_copyPairs apart n sameLength]

theorem checked_count {count : UInt32} (loop : ℕ → List Write) (none : loop 0 = []) :
    (if present ∧ 0 < count then loop count.toNat else []) = if present then loop count.toNat else [] := by
  by_cases zero : count = 0
  · simp [zero, none]
  · simp [UInt32.pos_iff_ne_zero.mpr zero]

theorem written_counted (array : ArrayName) (count : UInt32) (src : List Element) (other : ArrayName) :
    written (if present ∧ 0 < count then copyLoop array count.toNat src else []) other =
      if other = array ∧ present then (src.take count.toNat).zipIdx else [] := by
  rw [checked_count (fun n => copyLoop array n src) rfl, written_checked]

theorem written_countedPairs {left right : ArrayName} (apart : left ≠ right) (count : UInt32) {src src' : List Element}
    (sameLength : src.length = src'.length) (other : ArrayName) :
    written (if present ∧ 0 < count then copyPairs left right count.toNat src src' else []) other =
      if other = left ∧ present then (src.take count.toNat).zipIdx
      else if other = right ∧ present then (src'.take count.toNat).zipIdx
      else [] := by
  rw [checked_count (fun n => copyPairs left right n src src') rfl, written_checkedPairs apart _ sameLength]

end Checked

theorem written_copyIds {ids : List UInt32} (few : ids.length ≤ maxCrtcs) (array : ArrayName) (ptr : UInt64)
    (other : ArrayName) :
    written (copyIds array ptr (UInt32.ofNat ids.length) ids (UInt32.ofNat ids.length)) other =
      if other = array ∧ ptr ≠ 0 then ((ids.map Element.u32).take (UInt32.ofNat ids.length).toNat).zipIdx else [] := by
  simp only [maxCrtcs] at few
  have exact : (UInt32.ofNat ids.length).toNat = ids.length :=
    UInt32.toNat_ofNat_of_lt' (by simp only [UInt32.size]; omega)
  have bound : (UInt32.ofNat ids.length).toInt32.toInt.toNat = (UInt32.ofNat ids.length).toNat := by
    rw [toInt_toInt32 (by omega), Int.toNat_natCast]
  rw [copyIds, bound, Nat.min_self, written_counted]

/-! The handlers. -/

/-- What a handler does: it counts each list in full, and stores as many
elements in the arrays it stores in. -/
def Filled.From (request after : Request) (truth : ArrayName → List Element) (writes : List Write) : Prop :=
  ∀ array, match request.array array with
    | some _ =>
        ∃ returned, after.array array = some returned ∧
          returned.count = UInt32.ofNat (truth array).length ∧
          (request.Stores array → written writes array = ((truth array).take returned.count.toNat).zipIdx) ∧
          (¬ request.Stores array → written writes array = [])
    | none => written writes array = []

/-- The ioctl succeeds exactly if the object exists, and fills its arrays. -/
def Answers (host : Host) (dev : Device) (request : Request) : Prop :=
  match request.truth host dev with
  | some truth =>
      ∃ after writes next, request.handle host dev = .ok (.ok (after, writes), next) ∧
        Filled.From request after truth writes
  | none => ∀ after writes next, request.handle host dev ≠ .ok (.ok (after, writes), next)

theorem answers_getResources (res : DrmModeCardRes) : Answers host dev (.getResources res) := by
  let n := host.getDisplayCount
  have stored (array : ArrayName) (ptr : UInt64) (other : ArrayName) :
      written (copyIds array ptr (UInt32.ofNat n) (objectIds n) (UInt32.ofNat n)) other =
        if other = array ∧ ptr ≠ 0 then (((objectIds n).map Element.u32).take (UInt32.ofNat n).toNat).zipIdx else [] := by
    have copied := written_copyIds ((length_objectIds n).trans_le host.getDisplayCount_le) array ptr other
    rwa [length_objectIds] at copied
  refine ⟨_, _, _, rfl, ?_⟩
  intro array
  cases array <;> simp +contextual [Request.array, Request.Stores, stored, length_objectIds, n]

theorem drmModeGetConnector_counts {id : UInt32} {c : Connector}
    (got : drmModeGetConnector host drmVirtualFd id = .ok c) :
    c.countModes = UInt32.ofNat c.modes.length ∧ c.countProps = UInt32.ofNat c.props.length ∧
      c.propValues.length = c.props.length ∧ c.countEncoders = UInt32.ofNat c.encoders.length := by
  simp only [drmModeGetConnector, checkFd, ne_eq, not_true_eq_false, if_false] at got
  split at got
  · contradiction
  · cases got
    exact ⟨by rw [length_connectorModes], rfl, rfl, rfl⟩

theorem answers_getConnector (kc : DrmModeGetConnector) : Answers host dev (.getConnector kc) := by
  cases got : drmModeGetConnector host drmVirtualFd kc.connectorId with
  | error e =>
      simp [Answers, Request.truth, got, Except.toOption, Request.handle, handleGetConnector, fill, Except.map]
  | ok c =>
      obtain ⟨countModes, countProps, sameLength, countEncoders⟩ := drmModeGetConnector_counts got
      simp only [Answers, Request.truth, got, Except.toOption]
      refine ⟨_, _, _, by rw [Request.handle, handleGetConnector, got]; rfl, ?_⟩
      have pairs : (c.props.map Element.u32).length = (c.propValues.map Element.u64).length := by
        rw [List.length_map, List.length_map, sameLength]
      intro array
      simp only [← and_assoc, written_append, written_counted,
        written_countedPairs (show ArrayName.props ≠ .propValues by decide) c.countProps pairs, read_copyMode]
      cases array <;>
        simp +contextual [Request.array, Request.Stores, countModes, countProps, countEncoders, sameLength]

theorem answers_getPlaneResources (res : DrmModeGetPlaneRes) : Answers host dev (.getPlaneResources res) := by
  cases got : drmModeGetPlaneResources host dev drmVirtualFd with
  | error e =>
      simp [Answers, Request.truth, got, Except.toOption, Request.handle, handleGetPlaneResources, fill, Except.map]
  | ok r =>
      have counted : r.countPlanes = UInt32.ofNat r.planes.length := by
        simp only [drmModeGetPlaneResources, checkFd, ne_eq, not_true_eq_false, if_false] at got
        split at got
        · contradiction
        · cases got
          rw [length_objectIds]
      simp only [Answers, Request.truth, got, Except.toOption]
      refine ⟨_, _, _, by rw [Request.handle, handleGetPlaneResources, got]; rfl, ?_⟩
      intro array
      simp only [written_checked]
      cases array <;> simp +contextual [Request.array, Request.Stores, counted]

theorem answers_getPlane (kp : DrmModeGetPlane) : Answers host dev (.getPlane kp) := by
  cases got : drmModeGetPlane host dev drmVirtualFd kp.planeId with
  | error fault =>
      simp [Answers, Request.truth, got, Except.toOption, Request.handle, handleGetPlane, bind, Except.bind, Except.map]
  | ok result =>
      obtain ⟨ret, next⟩ := result
      cases ret with
      | error e =>
          simp [Answers, Request.truth, got, Except.toOption, Request.handle, handleGetPlane, bind, Except.bind,
            pure, Except.pure, fill, Except.map]
      | ok p =>
          obtain ⟨record, rfl⟩ := drmModeGetPlane_reported got
          have counted : (planeOf kp.planeId record).countFormats =
              UInt32.ofNat (planeOf kp.planeId record).formats.length := rfl
          simp only [Answers, Request.truth, got, Except.toOption]
          refine ⟨_, _, _, by simp only [Request.handle, handleGetPlane, got]; rfl, ?_⟩
          intro array
          simp only [written_checked]
          cases array <;> simp +contextual [Request.array, Request.Stores, counted]

theorem answers_objGetProperties (kp : DrmModeObjGetProperties) : Answers host dev (.objGetProperties kp) := by
  cases got : drmModeObjectGetProperties host dev drmVirtualFd kp.objId kp.objType with
  | error fault =>
      simp [Answers, Request.truth, got, Except.toOption, Request.handle, handleObjGetProperties, bind, Except.bind,
        Except.map]
  | ok result =>
      obtain ⟨ret, next⟩ := result
      cases ret with
      | error e =>
          simp [Answers, Request.truth, got, Except.toOption, Request.handle, handleObjGetProperties, bind, Except.bind,
            pure, Except.pure, fill, Except.map]
      | ok p =>
          obtain ⟨record, rfl⟩ := drmModeObjectGetProperties_reported got
          have countProps : record.reported.countProps = UInt32.ofNat record.reported.props.length := by
            simp [ObjProps.reported]
          have sameLength : record.reported.propValues.length = record.reported.props.length := by
            simp [ObjProps.reported]
          simp only [Answers, Request.truth, got, Except.toOption]
          refine ⟨_, _, _, by simp only [Request.handle, handleObjGetProperties, got]; rfl, ?_⟩
          have pairs : (record.reported.props.map Element.u32).length =
              (record.reported.propValues.map Element.u64).length := by
            rw [List.length_map, List.length_map, sameLength]
          intro array
          simp only [written_checkedPairs (show ArrayName.props ≠ .propValues by decide) _ pairs]
          cases array <;> simp +contextual [Request.array, Request.Stores, countProps, sameLength]

theorem drmModeGetProperty_counts {id : UInt32} {p : PropertyRes} {next : Device}
    (got : drmModeGetProperty dev drmVirtualFd id = (.ok p, next)) :
    p.countValues = UInt32.ofNat p.values.length ∧
      (if 0 < p.countBlobs ∧ p.flags &&& drmModePropBlob ≠ 0 then p.countBlobs else p.countEnums) =
        UInt32.ofNat (if p.blobIds = [] then p.enums.length else p.blobIds.length) := by
  cases found : (if id = 0 then none else gProps[id.toNat - 1]? : Option PropDef) with
  | none => simp [drmModeGetProperty, checkFd, found] at got
  | some pd =>
      have member : pd ∈ gProps := by
        simp only [Option.ite_none_left_eq_some] at found
        exact List.mem_of_getElem? found.2
      obtain ⟨values, enums, _, _, blob⟩ := gProps_counted pd member
      simp only [drmModeGetProperty, checkFd, ne_eq, not_true_eq_false, if_false, found] at got
      split at got
      · rename_i formats
        cases got
        exact ⟨values, by simp [blob formats.1]⟩
      · cases got
        exact ⟨values, by simp [enums]⟩

theorem answers_getProperty (kp : DrmModeGetProperty) : Answers host dev (.getProperty kp) := by
  cases got : drmModeGetProperty dev drmVirtualFd kp.propId with
  | mk ret next =>
      cases ret with
      | error e =>
          simp [Answers, Request.truth, got, Except.toOption, Request.handle, handleGetProperty, fill, Except.map]
      | ok p =>
          obtain ⟨countValues, countEnumBlobs⟩ := drmModeGetProperty_counts got
          simp only [Answers, Request.truth, got, Except.toOption]
          refine ⟨_, _, _, by simp only [Request.handle, handleGetProperty, got]; rfl, ?_⟩
          intro array
          simp only [written_checked, countEnumBlobs]
          cases array <;> simp +contextual [Request.array, Request.Stores, countValues]
          split <;> simp

theorem answers_getPropBlob (kb : DrmModeGetPropertyBlob) : Answers host dev (.getPropBlob kb) := by
  cases found : (blobPlace dev kb.blobId).bind dev.gBlobs with
  | none =>
      simp [Answers, Request.truth, found, Request.handle, handleGetPropBlob, drmModeGetPropertyBlob, checkFd, fill,
        Except.map]
  | some blob =>
      have got : drmModeGetPropertyBlob dev drmVirtualFd kb.blobId =
          .ok ⟨kb.blobId, blob.size, blob.data.take blob.size.toNat⟩ := by
        simp [drmModeGetPropertyBlob, checkFd, found]
      simp only [Answers, Request.truth, found]
      refine ⟨_, _, _, by rw [Request.handle, handleGetPropBlob, got]; rfl, ?_⟩
      intro array
      simp only [written_checked, List.map_take, List.take_take, Nat.min_self]
      cases array <;> simp +contextual [Request.array, Request.Stores, blob.sized]

theorem answers (host : Host) (dev : Device) (request : Request) : Answers host dev request := by
  cases request with
  | getResources res => exact answers_getResources res
  | getConnector kc => exact answers_getConnector kc
  | getPlaneResources res => exact answers_getPlaneResources res
  | getPlane kp => exact answers_getPlane kp
  | objGetProperties kp => exact answers_objGetProperties kp
  | getProperty kp => exact answers_getProperty kp
  | getPropBlob kb => exact answers_getPropBlob kb

/-! One array, and all of them. -/

theorem ptr_of_stores {array : ArrayName} {given : UserArray} (entry : request.array array = some given)
    (stores : request.Stores array) : given.ptr ≠ 0 := by
  cases request <;> cases array <;> simp only [Request.array, Option.some.injEq, reduceCtorEq] at entry <;>
    subst entry <;> simp only [Request.Stores] at stores <;> first | exact stores | exact stores.1 | exact stores.2

theorem toNat_ofNat_eq_iff {n : ℕ} : (UInt32.ofNat n).toNat = n ↔ n < 2 ^ 32 := by
  rw [UInt32.toNat_ofNat']
  exact Nat.mod_eq_iff_lt (by decide)

theorem marshalled_iff {array : ArrayName} {given returned : UserArray} {truth : List Element}
    {stored : List (Element × ℕ)} (entry : request.array array = some given)
    (count : returned.count = UInt32.ofNat truth.length)
    (stores : request.Stores array → stored = (truth.take returned.count.toNat).zipIdx)
    (leaves : ¬ request.Stores array → stored = []) :
    Marshalled truth given returned stored ↔
      truth.length < 2 ^ 32 ∧ (request.Stores array → truth.length ≤ given.count.toNat) := by
  rw [← toNat_ofNat_eq_iff, ← count]
  constructor
  · intro marshalled
    refine ⟨marshalled.total, fun storing => ?_⟩
    have few := marshalled.few
    rwa [stores storing, marshalled.total, List.take_length, List.length_zipIdx] at few
  · intro fits
    obtain ⟨total, room⟩ := fits
    by_cases storing : request.Stores array
    · have all : stored = truth.zipIdx := by rw [stores storing, total, List.take_length]
      exact ⟨by rw [all, List.length_zipIdx]; exact room storing, ⟨truth.length, by rw [all, List.take_length]⟩,
        fun null => absurd null (ptr_of_stores entry storing), total⟩
    · have none := leaves storing
      exact ⟨by rw [none]; exact Nat.zero_le _, ⟨0, by rw [none]; rfl⟩, fun _ => none, total⟩

/-- An ioctl stores no more than it may, in every device state, exactly when
every array that it stores in has room for the whole list. -/
theorem within_iff (host : Host) (dev : Device) (request : Request) :
    Within host dev request ↔ Fits host dev request := by
  have answer := answers host dev request
  cases truthful : request.truth host dev with
  | none =>
      simp only [Answers, truthful] at answer
      constructor
      · intro _ truth found
        simp [truthful] at found
      · intro _ after writes next handled
        exact absurd handled (answer after writes next)
  | some truth =>
      simp only [Answers, truthful] at answer
      obtain ⟨after, writes, next, handled, filled⟩ := answer
      simp only [Within, handled, Fits, truthful, Except.ok.injEq, Prod.mk.injEq, Option.some.injEq]
      constructor
      · intro within truth' same array given entry
        subst same
        obtain ⟨truth', same, marshalled⟩ := within after writes next ⟨⟨rfl, rfl⟩, rfl⟩
        subst same
        have here := marshalled array
        have was := filled array
        simp only [entry] at here was
        obtain ⟨returned, returnedEntry, count, stores, leaves⟩ := was
        obtain ⟨returned', sameEntry, done⟩ := here
        rw [returnedEntry, Option.some.injEq] at sameEntry
        subst sameEntry
        exact (marshalled_iff entry count stores leaves).mp done
      · intro fits after' writes' next' same
        obtain ⟨⟨rfl, rfl⟩, rfl⟩ := same
        refine ⟨truth, rfl, fun array => ?_⟩
        have was := filled array
        cases entry : request.array array with
        | none => simpa only [entry] using was
        | some given =>
            simp only [entry] at was
            obtain ⟨returned, returnedEntry, count, stores, leaves⟩ := was
            exact ⟨returned, returnedEntry, (marshalled_iff entry count stores leaves).mpr (fits truth rfl array given entry)⟩

def roomForOne : Request :=
  .getResources
    { fbIdPtr := 0, crtcIdPtr := 0x1000, connectorIdPtr := 0, encoderIdPtr := 0, countFbs := 0, countCrtcs := 1,
      countConnectors := 0, countEncoders := 0, minWidth := 0, maxWidth := 0, minHeight := 0, maxHeight := 0 }

/-- With two displays it gets two. -/
theorem two_crtcs_in_room_for_one : ¬ Within (.uniform 2) .initial roomForOne := by
  intro within
  obtain ⟨truth, _, marshalled⟩ := within _ _ _ rfl
  obtain ⟨returned, _, crtcs⟩ := marshalled .crtcs
  exact absurd crtcs.few (by decide +kernel)

end Iland.Ioctl

import Iland.Drm.Commit

namespace Iland.Drm

open Iland.Data
open Iland.Sdl

variable {host : Host}

/-! The loop over the triples of a request. -/

def writesTo (objId : UInt32) (triples : List Triple) : List (UInt32 × UInt64) :=
  (triples.filter (fun t => t.objId = objId)).map (fun t => (t.propId, t.value))

@[simp] theorem writesTo_nil (objId : UInt32) : writesTo objId [] = [] := rfl

theorem writesTo_append (objId : UInt32) (left right : List Triple) :
    writesTo objId (left ++ right) = writesTo objId left ++ writesTo objId right := by
  simp [writesTo]

theorem writesTo_cons_self {objId : UInt32} {t : Triple} (same : t.objId = objId) (rest : List Triple) :
    writesTo objId (t :: rest) = (t.propId, t.value) :: writesTo objId rest := by
  simp [writesTo, same]

theorem writesTo_cons_other {objId : UInt32} {t : Triple} (different : t.objId ≠ objId) (rest : List Triple) :
    writesTo objId (t :: rest) = writesTo objId rest := by
  simp [writesTo, different]

theorem mem_writesTo {objId : UInt32} {triples : List Triple} {write : UInt32 × UInt64} :
    write ∈ writesTo objId triples ↔ ⟨objId, write.1, write.2⟩ ∈ triples := by
  simp only [writesTo, List.mem_map, List.mem_filter, decide_eq_true_eq]
  constructor
  · rintro ⟨t, ⟨member, rfl⟩, rfl⟩
    exact member
  · intro member
    exact ⟨_, ⟨member, rfl⟩, rfl⟩

theorem mem_writesTo_of_mem {triples : List Triple} {t : Triple} (member : t ∈ triples) :
    (t.propId, t.value) ∈ writesTo t.objId triples :=
  mem_writesTo.mpr member

def requested (triples : List Triple) (objectId propId : UInt32) : Option UInt64 :=
  lastValue propId (writesTo objectId triples)

theorem requested_isSome {triples : List Triple} {t : Triple} (member : t ∈ triples) :
    (requested triples t.objId t.propId).isSome :=
  lastValue_isSome_iff.mpr (List.mem_map.mpr ⟨_, mem_writesTo_of_mem member, rfl⟩)

theorem requested_eq_none {triples : List Triple} {objectId propId : UInt32}
    (absent : ∀ t ∈ triples, t.objId = objectId → t.propId ≠ propId) : requested triples objectId propId = none := by
  apply lastValue_eq_none
  intro present
  obtain ⟨write, member, rfl⟩ := List.mem_map.mp present
  exact absent _ (mem_writesTo.mp member) rfl rfl

theorem writesTo_filter (objId : UInt32) (p : Triple → Bool) (triples : List Triple) :
    writesTo objId (triples.filter p) = (writesTo objId triples).filter (fun write => p ⟨objId, write.1, write.2⟩) := by
  induction triples with
  | nil => rfl
  | cons t rest ih =>
      by_cases own : t.objId = objId
      · subst own
        rw [writesTo_cons_self rfl, List.filter_cons, List.filter_cons]
        split
        · rw [writesTo_cons_self rfl, ih]
        · exact ih
      · rw [writesTo_cons_other own, ← ih, List.filter_cons]
        split
        · exact writesTo_cons_other own _
        · rfl

theorem requested_filter {triples : List Triple} {objectId propId : UInt32} {value : UInt64} {p : Triple → Bool}
    (asked : requested triples objectId propId = some value) (keeps : p ⟨objectId, propId, value⟩ = true) :
    requested (triples.filter p) objectId propId = some value := by
  rw [requested, writesTo_filter]
  exact lastValue_filter asked keeps

theorem mem_of_requested {triples : List Triple} {objectId propId : UInt32} {value : UInt64}
    (asked : requested triples objectId propId = some value) : ⟨objectId, propId, value⟩ ∈ triples :=
  mem_writesTo.mp (lastValue_mem asked)

namespace ObjTable

variable (table : ObjTable)

theorem first_setProps_self (objId : UInt32) (props : PropStore) :
    (table.setProps (fun record => record.objId == objId) props).first objId =
      (table.first objId).map (fun record => record.withProps props) :=
  find?_modifyFirst (f := fun record : ObjProps => record.withProps props)
    (p := fun record : ObjProps => record.objId == objId) (fun _ keeps => keeps) table.entries

theorem first_setProps_other {objId other : UInt32} (different : other ≠ objId) (props : PropStore) :
    (table.setProps (fun record => record.objId == objId) props).first other = table.first other := by
  apply find?_modifyFirst_of_miss
  intro record hit
  have key : record.objId = objId := by simpa using List.find?_some hit
  simp [ObjProps.withProps, key, Ne.symm different]

@[simp] theorem keys_applyTriple (t : Triple) : (table.applyTriple t).keys = table.keys := by
  simp only [applyTriple]
  split
  · rfl
  · exact keys_setProps _ _ _

theorem first_applyTriple_self (t : Triple) :
    (table.applyTriple t).first t.objId =
      (table.first t.objId).map (fun record => record.withProps (record.props.assign t.propId t.value)) := by
  simp only [applyTriple]
  cases found : table.first t.objId with
  | none => exact found
  | some record =>
      rw [first_setProps_self, found]
      rfl

theorem first_applyTriple_other {t : Triple} {objId : UInt32} (different : t.objId ≠ objId) :
    (table.applyTriple t).first objId = table.first objId := by
  simp only [applyTriple]
  split
  · rfl
  · exact first_setProps_other table (Ne.symm different) _

theorem grows_applyTriple (t : Triple) : Grows table (table.applyTriple t) := by
  simp only [applyTriple]
  split
  · exact .refl table
  · rename_i record found
    apply Grows.setProps found
    intro propId present
    have assigned := record.props.mem_keys_assignAll present [(t.propId, t.value)]
    simpa using assigned

def applyAll (triples : List Triple) : ObjTable := triples.foldl applyTriple table

@[simp] theorem applyAll_nil : table.applyAll [] = table := rfl

@[simp] theorem applyAll_cons (t : Triple) (rest : List Triple) :
    table.applyAll (t :: rest) = (table.applyTriple t).applyAll rest := rfl

@[simp] theorem keys_applyAll (triples : List Triple) : (table.applyAll triples).keys = table.keys := by
  induction triples generalizing table with
  | nil => rfl
  | cons t rest ih => rw [applyAll_cons, ih, keys_applyTriple]

theorem grows_applyAll (triples : List Triple) : Grows table (table.applyAll triples) := by
  induction triples generalizing table with
  | nil => exact .refl table
  | cons t rest ih => exact (table.grows_applyTriple t).trans (ih _)

theorem first_applyAll (triples : List Triple) (objId : UInt32) :
    (table.applyAll triples).first objId =
      (table.first objId).map (fun record => record.withProps (record.props.assignAll (writesTo objId triples))) := by
  induction triples generalizing table with
  | nil => cases found : table.first objId <;> simp [found, ObjProps.withProps]
  | cons t rest ih =>
      rw [applyAll_cons, ih]
      by_cases same : t.objId = objId
      · subst same
        rw [first_applyTriple_self, Option.map_map, writesTo_cons_self rfl]
        rfl
      · rw [first_applyTriple_other table same, writesTo_cons_other same]

theorem first_applyAll_isSome (triples : List Triple) (objId : UInt32) :
    ((table.applyAll triples).first objId).isSome = (table.first objId).isSome := by
  rw [first_applyAll, Option.isSome_map]

theorem key_of_first {objId : UInt32} {record : ObjProps} (found : table.first objId = some record) :
    record.objId = objId := by
  simpa using List.find?_some found

theorem lookup_of_first {objId : UInt32} {record : ObjProps} (found : table.first objId = some record) :
    table.lookup record.key = some record :=
  table.lookup_of_mem (List.mem_of_find?_eq_some found)

theorem lookup_applyTriple_shadowed {key : UInt32 × UInt32} (t : Triple)
    (shadowed : ∀ record, table.first key.1 = some record → record.key ≠ key) :
    (table.applyTriple t).lookup key = table.lookup key := by
  simp only [applyTriple]
  cases found : table.first t.objId with
  | none => rfl
  | some op =>
      apply find?_modifyFirst_of_miss
      intro record hit
      have sameRecord : some op = some record := found.symm.trans hit
      cases sameRecord
      have apart : op.key ≠ key := by
        intro same
        have id : key.1 = t.objId := by
          rw [← same, ← table.key_of_first found]
          rfl
        exact shadowed op (id ▸ found) same
      exact ⟨decide_eq_false apart, decide_eq_false apart⟩

theorem lookup_applyAll_shadowed {key : UInt32 × UInt32} (triples : List Triple)
    (shadowed : ∀ record, table.first key.1 = some record → record.key ≠ key) :
    (table.applyAll triples).lookup key = table.lookup key := by
  induction triples generalizing table with
  | nil => rfl
  | cons t rest ih =>
      rw [applyAll_cons, ih, table.lookup_applyTriple_shadowed t shadowed]
      intro record found
      by_cases same : t.objId = key.1
      · rw [← same, first_applyTriple_self, Option.map_eq_some_iff] at found
        obtain ⟨old, hit, rfl⟩ := found
        exact shadowed old (same ▸ hit)
      · rw [first_applyTriple_other table same] at found
        exact shadowed record found

theorem lookup_applyAll_first {objId : UInt32} {record : ObjProps} (triples : List Triple)
    (found : table.first objId = some record) :
    (table.applyAll triples).lookup record.key =
      some (record.withProps (record.props.assignAll (writesTo objId triples))) := by
  have after := table.first_applyAll triples objId
  rw [found, Option.map_some] at after
  exact (table.applyAll triples).lookup_of_first after

theorem applyAll_eq_self_iff (triples : List Triple) :
    table.applyAll triples = table ↔
      ∀ objId record, table.first objId = some record →
        record.props.assignAll (writesTo objId triples) = record.props := by
  constructor
  · intro same objId record found
    have after := table.first_applyAll triples objId
    rw [same, found, Option.map_some, Option.some.injEq] at after
    exact (congrArg ObjProps.props after).symm
  · intro settled
    apply KeyedTable.ext_lookup (table.keys_applyAll triples)
    intro key _
    cases found : table.first key.1 with
    | none => exact table.lookup_applyAll_shadowed triples (by simp [found])
    | some record =>
        by_cases same : record.key = key
        · have after := table.lookup_applyAll_first triples found
          rw [settled _ _ found] at after
          subst same
          rw [after, table.lookup_of_first found]
          rfl
        · apply table.lookup_applyAll_shadowed triples
          intro other hit
          rw [found, Option.some.injEq] at hit
          exact hit ▸ same

end ObjTable

/-! The rest of the device. -/

/-- `after` differs from `before` in the object table, the CRTC states and
the SDL backend only. -/
def Device.Frame (before after : Device) : Prop :=
  after = { before with gObjProps := after.gObjProps, gState := after.gState, sdl := after.sdl }

theorem Device.Frame.refl (dev : Device) : dev.Frame dev := rfl

theorem Device.Frame.trans {first second third : Device} (left : first.Frame second)
    (right : second.Frame third) : first.Frame third := by
  rw [Device.Frame] at left right ⊢
  rw [right, left]

theorem Device.Frame.gFbs {before after : Device} (frame : before.Frame after) : after.gFbs = before.gFbs := by
  rw [frame]

theorem Device.Frame.fbIdToSurface {before after : Device} (frame : before.Frame after) (fbId : UInt32) :
    after.fbIdToSurface fbId = before.fbIdToSurface fbId := by
  simp only [Device.fbIdToSurface, frame.gFbs]

theorem frame_showPlane (dev : Device) (crtcId fbId : UInt32) (props : PropStore) :
    dev.Frame (showPlane host dev crtcId fbId props) := by
  simp only [showPlane]
  split <;> rfl

theorem frame_moveCrtc (dev : Device) (t : Triple) : dev.Frame (moveCrtc host dev t) := by
  simp only [moveCrtc]
  split <;> rfl

@[simp] theorem gObjProps_showPlane (dev : Device) (crtcId fbId : UInt32) (props : PropStore) :
    (showPlane host dev crtcId fbId props).gObjProps = dev.gObjProps := by
  simp only [showPlane]
  split <;> rfl

@[simp] theorem gObjProps_moveCrtc (dev : Device) (t : Triple) :
    (moveCrtc host dev t).gObjProps = dev.gObjProps := by
  simp only [moveCrtc]
  split <;> rfl

namespace Committing

variable (s : Committing)

theorem frame_react (t : Triple) (props : PropStore) : s.dev.Frame (s.react host t props).dev := by
  simp only [react]
  split
  · exact frame_showPlane _ _ _ _
  · split
    · exact frame_moveCrtc _ _
    · exact .refl _

theorem frame_apply (t : Triple) : s.dev.Frame (s.apply host t).dev := by
  simp only [apply]
  split
  · exact .refl _
  · have stored : s.dev.Frame (s.withTable (s.dev.gObjProps.applyTriple t)).dev := rfl
    exact stored.trans (frame_react _ _ _)

@[simp] theorem gObjProps_react (t : Triple) (props : PropStore) :
    (s.react host t props).dev.gObjProps = s.dev.gObjProps := by
  simp only [react]
  split
  · exact gObjProps_showPlane _ _ _ _
  · split
    · exact gObjProps_moveCrtc _ _
    · rfl

@[simp] theorem gObjProps_apply (t : Triple) :
    (s.apply host t).dev.gObjProps = s.dev.gObjProps.applyTriple t := by
  cases found : s.dev.gObjProps.first t.objId with
  | none => simp only [apply, ObjTable.applyTriple, found]
  | some op =>
      simp only [apply, found, gObjProps_react]
      rfl

theorem flipCrtcs_apply (host : Host) (t : Triple) :
    (s.apply host t).flipCrtcs = s.flipCrtcs ∨ ∃ crtcId, (s.apply host t).flipCrtcs = addFlip s.flipCrtcs crtcId := by
  simp only [apply]
  split
  · exact .inl rfl
  · simp only [react]
    split
    · exact .inr ⟨_, rfl⟩
    · split <;> exact .inl rfl

def applyAll (host : Host) (triples : List Triple) : Committing := triples.foldl (apply host) s

@[simp] theorem applyAll_nil : s.applyAll host [] = s := rfl

@[simp] theorem applyAll_cons (t : Triple) (rest : List Triple) :
    s.applyAll host (t :: rest) = (s.apply host t).applyAll host rest := rfl

theorem applyAll_append (left right : List Triple) :
    s.applyAll host (left ++ right) = (s.applyAll host left).applyAll host right := by
  simp [applyAll]

@[simp] theorem gObjProps_applyAll (triples : List Triple) :
    (s.applyAll host triples).dev.gObjProps = s.dev.gObjProps.applyAll triples := by
  induction triples generalizing s with
  | nil => rfl
  | cons t rest ih => rw [applyAll_cons, ih, gObjProps_apply, ObjTable.applyAll_cons]

theorem frame_applyAll (triples : List Triple) : s.dev.Frame (s.applyAll host triples).dev := by
  induction triples generalizing s with
  | nil => exact .refl _
  | cons t rest ih => exact (s.frame_apply t).trans (ih _)

/-- What `addFlip` keeps holds of the list after the loop. -/
theorem flipCrtcs_invariant {P : List UInt32 → Prop}
    (added : ∀ flipCrtcs crtcId, P flipCrtcs → P (addFlip flipCrtcs crtcId)) (holds : P s.flipCrtcs)
    (triples : List Triple) : P (s.applyAll host triples).flipCrtcs := by
  induction triples generalizing s with
  | nil => exact holds
  | cons t rest ih =>
      apply ih
      rcases s.flipCrtcs_apply host t with same | ⟨crtcId, longer⟩
      · rwa [same]
      · rw [longer]
        exact added _ crtcId holds

end Committing

theorem strays_applyTriple {table : ObjTable} {t other : Triple} :
    Strays (table.applyTriple t) other ↔ Strays table other := by
  have same := table.first_applyAll_isSome [t] 0
  rw [ObjTable.applyAll_cons, ObjTable.applyAll_nil] at same
  simp only [Strays, same]

theorem commitLoop_eq {triples : List Triple} {s : Committing}
    (safe : ∀ t ∈ triples, ¬ Strays s.dev.gObjProps t) :
    triples.foldlM (commitTriple host) s = .ok (s.applyAll host triples) := by
  induction triples generalizing s with
  | nil => rfl
  | cons t rest ih =>
      rw [List.foldlM_cons, commitTriple_eq (safe t List.mem_cons_self)]
      apply ih
      intro other member
      rw [Committing.gObjProps_apply, strays_applyTriple]
      exact safe other (List.mem_cons_of_mem _ member)

theorem commitLoop_stray {triples : List Triple} {s : Committing}
    (stray : ∃ t ∈ triples, Strays s.dev.gObjProps t) :
    triples.foldlM (commitTriple host) s = .error (.outOfBounds .gState (-1)) := by
  induction triples generalizing s with
  | nil => simp at stray
  | cons t rest ih =>
      by_cases first : Strays s.dev.gObjProps t
      · rw [List.foldlM_cons, commitTriple_stray first]
        rfl
      · rw [List.foldlM_cons, commitTriple_eq first]
        apply ih
        obtain ⟨other, member, strays⟩ := stray
        refine ⟨other, (List.mem_cons.mp member).resolve_left ?_, ?_⟩
        · rintro rfl
          exact first strays
        · rwa [Committing.gObjProps_apply, strays_applyTriple]

def completions (flipCrtcs : List UInt32) : List UInt32 := if flipCrtcs = [] then [1] else flipCrtcs

theorem nodup_completions {flipCrtcs : List UInt32} (distinct : flipCrtcs.Nodup) : (completions flipCrtcs).Nodup := by
  simp only [completions]
  split
  · exact List.nodup_singleton 1
  · exact distinct

def Device.complete (dev : Device) (crtcs : List UInt32) (userData : UInt64) : Device :=
  { dev with
    gFlipEvents := dev.gFlipEvents.enqueueAll (crtcs.map (fun crtcId => ⟨crtcId, userData⟩))
    eventPipe := dev.eventPipe.map (· + 1) }

theorem sendFlipEvents_eq {flipCrtcs : List UInt32} (few : flipCrtcs.length ≤ 8) (dev : Device) (userData : UInt64) :
    sendFlipEvents dev flipCrtcs userData = .ok (dev.complete (completions flipCrtcs) userData) := by
  have enqueued (crtcs : List UInt32) (dev : Device) :
      crtcs.foldl (fun (dev : Device) crtcId => dev.enqueueFlipEvent crtcId userData) dev =
        { dev with gFlipEvents := dev.gFlipEvents.enqueueAll (crtcs.map (fun crtcId => ⟨crtcId, userData⟩)) } := by
    induction crtcs generalizing dev with
    | nil => rfl
    | cons crtcId rest ih => rw [List.foldl_cons, ih]; rfl
  cases flipCrtcs with
  | nil => rfl
  | cons crtcId rest =>
      have some : ¬ (crtcId :: rest).length = 0 := by simp
      simp only [sendFlipEvents, some, if_false, bind, Except.bind, pure, Except.pure,
        each_eq .flipCrtcs few, enqueued]
      rfl

/-- The device after a commit, from the device with the default records. -/
def committed (host : Host) (dev : Device) (triples : List Triple) (flags : UInt32) (userData : UInt64) : Device :=
  let s := (Committing.start dev).applyAll host triples
  if flags &&& drmModePageFlipEvent ≠ 0 then (recordLastFb s).complete (completions s.flipCrtcs) userData
  else recordLastFb s

variable {dev : Device} {table : ObjTable} {req : AtomicReq} {flags : UInt32} {userData : UInt64}

theorem drmModeAtomicCommit_eq (flags : UInt32) (userData : UInt64)
    (ensured : ensureObjProperties host.getDisplayCount dev.gObjProps = .ok table)
    (safe : ∀ t ∈ req.triples, ¬ Strays table t) :
    drmModeAtomicCommit host dev drmVirtualFd (some req) flags userData =
      .ok (.ok (), committed host (dev.withTable table) req.triples flags userData) := by
  have few : ((Committing.start (dev.withTable table)).applyAll host req.triples).flipCrtcs.length ≤ 8 :=
    (Committing.start (dev.withTable table)).flipCrtcs_invariant (P := fun flipCrtcs => flipCrtcs.length ≤ 8)
      (fun _ crtcId few => length_addFlip few crtcId) (Nat.zero_le 8) req.triples
  have loop : req.triples.foldlM (commitTriple host) (.start (dev.withTable table)) =
      .ok ((Committing.start (dev.withTable table)).applyAll host req.triples) := commitLoop_eq safe
  have cursor := scan_first table 2
  simp only [drmModeAtomicCommit, checkFd, ne_eq, not_true_eq_false, if_false, ensured, cursor, loop, bind,
    Except.bind, committed, sendFlipEvents_eq few]
  split <;> rfl

theorem drmModeAtomicCommit_stray (ensured : ensureObjProperties host.getDisplayCount dev.gObjProps = .ok table)
    (stray : ∃ t ∈ req.triples, Strays table t) :
    drmModeAtomicCommit host dev drmVirtualFd (some req) flags userData = .error (.outOfBounds .gState (-1)) := by
  have loop : req.triples.foldlM (commitTriple host) (.start (dev.withTable table)) =
      .error (.outOfBounds .gState (-1)) := commitLoop_stray stray
  have cursor := scan_first table 2
  simp only [drmModeAtomicCommit, checkFd, ne_eq, not_true_eq_false, if_false, ensured, cursor, loop, bind,
    Except.bind]

theorem drmModeAtomicCommit_overflow {fault : Fault}
    (failed : ensureObjProperties host.getDisplayCount dev.gObjProps = .error fault) :
    drmModeAtomicCommit host dev drmVirtualFd (some req) flags userData = .error fault := by
  simp only [drmModeAtomicCommit, checkFd, ne_eq, not_true_eq_false, if_false, failed, bind, Except.bind]

theorem drmModeAtomicCommit_ok {fd : Int} {request : Option AtomicReq} {ret : Except Errno Unit} {after : Device}
    (done : drmModeAtomicCommit host dev fd request flags userData = .ok (ret, after)) :
    (∃ e, ret = .error e ∧ after = dev ∧ (fd ≠ drmVirtualFd ∨ request = none)) ∨
      ∃ req table, fd = drmVirtualFd ∧ request = some req ∧
        ensureObjProperties host.getDisplayCount dev.gObjProps = .ok table ∧
        (∀ t ∈ req.triples, ¬ Strays table t) ∧ ret = .ok () ∧
        after = committed host (dev.withTable table) req.triples flags userData := by
  by_cases valid : fd = drmVirtualFd
  · subst valid
    cases request with
    | none =>
        left
        simp only [drmModeAtomicCommit, checkFd, ne_eq, not_true_eq_false, if_false, pure, Except.pure,
          Except.ok.injEq, Prod.mk.injEq] at done
        exact ⟨.EINVAL, done.1.symm, done.2.symm, .inr rfl⟩
    | some req =>
        right
        cases ensured : ensureObjProperties host.getDisplayCount dev.gObjProps with
        | error fault => simp [drmModeAtomicCommit_overflow ensured] at done
        | ok table =>
            by_cases safe : ∀ t ∈ req.triples, ¬ Strays table t
            · rw [drmModeAtomicCommit_eq flags userData ensured safe, Except.ok.injEq, Prod.mk.injEq] at done
              exact ⟨req, table, rfl, rfl, rfl, safe, done.1.symm, done.2.symm⟩
            · simp only [not_forall, not_not] at safe
              obtain ⟨t, member, strays⟩ := safe
              simp [drmModeAtomicCommit_stray ensured ⟨t, member, strays⟩] at done
  · left
    have refused : checkFd fd = .error .EBADF := by simp [checkFd, valid]
    simp only [drmModeAtomicCommit, refused, pure, Except.pure, Except.ok.injEq, Prod.mk.injEq] at done
    exact ⟨.EBADF, done.1.symm, done.2.symm, .inl valid⟩

/-! The parts of the device after a commit. -/

theorem frame_recordLastFb (s : Committing) : s.dev.Frame (recordLastFb s) := by
  simp only [recordLastFb]
  split <;> rfl

@[simp] theorem gObjProps_recordLastFb (s : Committing) : (recordLastFb s).gObjProps = s.dev.gObjProps := by
  simp only [recordLastFb]
  split <;> rfl

def flipped (host : Host) (dev : Device) (triples : List Triple) : List UInt32 :=
  ((Committing.start dev).applyAll host triples).flipCrtcs

theorem nodup_flipped (host : Host) (dev : Device) (triples : List Triple) : (flipped host dev triples).Nodup :=
  (Committing.start dev).flipCrtcs_invariant (P := List.Nodup) (fun _ crtcId distinct => nodup_addFlip distinct crtcId)
    .nil triples

@[simp] theorem gObjProps_committed (triples : List Triple) :
    (committed host dev triples flags userData).gObjProps = dev.gObjProps.applyAll triples := by
  have loop : (recordLastFb ((Committing.start dev).applyAll host triples)).gObjProps = dev.gObjProps.applyAll triples :=
    (gObjProps_recordLastFb _).trans ((Committing.start dev).gObjProps_applyAll triples)
  simp only [committed]
  split <;> exact loop

theorem frame_loop (triples : List Triple) :
    dev.Frame (recordLastFb ((Committing.start dev).applyAll host triples)) :=
  ((Committing.start dev).frame_applyAll triples).trans (frame_recordLastFb _)

theorem gFlipEvents_committed (triples : List Triple) :
    (committed host dev triples flags userData).gFlipEvents =
      if flags &&& drmModePageFlipEvent ≠ 0 then
        dev.gFlipEvents.enqueueAll
          ((completions (flipped host dev triples)).map (fun crtcId => ⟨crtcId, userData⟩))
      else dev.gFlipEvents := by
  have kept : (recordLastFb ((Committing.start dev).applyAll host triples)).gFlipEvents = dev.gFlipEvents := by
    rw [frame_loop triples]
  simp only [committed]
  split
  · simp only [Device.complete, kept]
    rfl
  · exact kept

theorem eventPipe_committed (triples : List Triple) :
    (committed host dev triples flags userData).eventPipe =
      if flags &&& drmModePageFlipEvent ≠ 0 then dev.eventPipe.map (· + 1) else dev.eventPipe := by
  have kept : (recordLastFb ((Committing.start dev).applyAll host triples)).eventPipe = dev.eventPipe := by
    rw [frame_loop triples]
  simp only [committed]
  split
  · simp only [Device.complete, kept]
  · exact kept

end Iland.Drm

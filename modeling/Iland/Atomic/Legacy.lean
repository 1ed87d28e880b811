import Iland.Drm.CommitDisplays
import Iland.Frames

namespace Iland.Atomic

open Iland.Data
open Iland.Drm
open Iland.Ioctl
open Iland.Sdl

variable {host : Host} {dev : Device} {table : ObjTable} {id fbId : UInt32} {surf : IOSurface} {userData : UInt64}

/-! Two ways to flip a CRTC.

A page flip shows the framebuffer at the position in `g_state`.  A commit shows
it at the CRTC_X and CRTC_Y of the object's first record, where earlier commits
have stored them, and `drmModeSetCrtc` moves the CRTC in `g_state` alone.
-/

def flipRequest (planeId fbId : UInt32) : AtomicReq := ⟨[⟨planeId, PropId.fbId, fbId.toUInt64⟩], by simp [maxAtomicProps]⟩

/-- From `dev`, both ways lead to the same presentation, CRTC state and completions. -/
structure FlipsAlike (dev : Device) (crtcId : UInt32) (surf : IOSurface) (legacy atomic : Device) : Prop where
  handed : ∃ x y, legacy.sdl.presented = dev.sdl.presented ++ [⟨surf, crtcId, x, y⟩] ∧
    atomic.sdl.presented = dev.sdl.presented ++ [⟨surf, crtcId, x, y⟩]
  state : legacy.gState (place crtcId) = atomic.gState (place crtcId)
  queued : legacy.gFlipEvents = atomic.gFlipEvents

/-- `drmModePageFlip` and a commit of the one triple succeed and do the same. -/
def FlipsAgree (host : Host) (dev : Device) (crtcId fbId : UInt32) (surf : IOSurface) (userData : UInt64) : Prop :=
  let legacy := drmModePageFlip host dev drmVirtualFd crtcId fbId drmModePageFlipEvent userData
  legacy.1 = .ok () ∧ ∃ atomic,
    drmModeAtomicCommit host dev drmVirtualFd (some (flipRequest crtcId fbId)) drmModePageFlipEvent userData =
      .ok (.ok (), atomic) ∧
    FlipsAlike dev crtcId surf legacy.2 atomic

/-- The record that a commit reads puts the CRTC where `g_state` has it. -/
def InStep (dev : Device) (crtcId : UInt32) : Prop :=
  ∀ record, dev.gObjProps.first crtcId = some record →
    position (dev.gState (place crtcId)) record.props =
      ((dev.gState (place crtcId)).x, (dev.gState (place crtcId)).y)

theorem pageFlip_live (known : id ∈ objectIds host.getDisplayCount) (live : dev.fbIdToSurface fbId = some surf)
    (flags : UInt32) (userData : UInt64) :
    let result := drmModePageFlip host dev drmVirtualFd id fbId flags userData
    let state := dev.gState (place id)
    result.1 = .ok () ∧
      result.2.sdl.presented = dev.sdl.presented ++ [⟨surf, id, state.x, state.y⟩] ∧
      result.2.gState (place id) = state.withFb fbId ∧
      result.2.gFlipEvents = if dev.eventPipe.isSome then dev.gFlipEvents.enqueue ⟨id, userData⟩ else dev.gFlipEvents := by
  have liveNow : (dev.setState (place id) { dev.gState (place id) with crtcFbId := fbId }).fbIdToSurface fbId = some surf :=
    live
  simp only [drmModePageFlip, checkFd, ne_eq, not_true_eq_false, if_false, crtcIndex_of_known known, liveNow]
  have pipe : ((dev.setState (place id) { dev.gState (place id) with crtcFbId := fbId }).present host surf id
      ((dev.setState (place id) { dev.gState (place id) with crtcFbId := fbId }).gState (place id)).x
      ((dev.setState (place id) { dev.gState (place id) with crtcFbId := fbId }).gState (place id)).y).eventPipe =
        dev.eventPipe := rfl
  rw [pipe]
  cases dev.eventPipe <;>
    simp [Device.setState, Device.present, Device.enqueueFlipEvent, Device.signalEvent, CrtcState.withFb]

theorem committed_live (displays : DisplaysLand host dev.gObjProps) (known : id ∈ objectIds host.getDisplayCount)
    (live : dev.fbIdToSurface fbId = some surf) {record : ObjProps} (found : dev.gObjProps.first id = some record)
    (userData : UInt64) :
    let result := committed host dev (flipRequest id fbId).triples drmModePageFlipEvent userData
    let state := dev.gState (place id)
    result.sdl.presented = dev.sdl.presented ++ [⟨surf, id, (position state record.props).1, (position state record.props).2⟩] ∧
      result.gState (place id) = state.withFb fbId ∧ result.gFlipEvents = dev.gFlipEvents.enqueue ⟨id, userData⟩ := by
  let t : Triple := ⟨id, PropId.fbId, fbId.toUInt64⟩
  have triples : (flipRequest id fbId).triples = [t] := rfl
  have onDisplays : OnDisplays host [t] := fun other member => List.mem_singleton.mp member ▸ known
  have flips : Flips dev.gObjProps t := flips_of_known displays onDisplays List.mem_cons_self rfl
  have value : t.value.toUInt32 = fbId := UInt32.toUInt32_toUInt64 fbId
  have liveValue : dev.fbIdToSurface t.value.toUInt32 = some surf := value ▸ live
  have still : ¬ (t.propId = PropId.crtcX ∨ t.propId = PropId.crtcY) := not_or.mpr fbId_not_position
  rw [triples]
  refine ⟨?_, ?_, ?_⟩
  · have handed : handedOver dev [] t = some ⟨surf, id, _, _⟩ := handedOver_eq found liveValue rfl
    have presented : ((Committing.start dev).applyAll host ([] ++ [t])).dev.sdl.presented = _ :=
      presented_applyAll displays (fun _ none => absurd none List.not_mem_nil) onDisplays
    simp only [List.nil_append, Committing.applyAll_nil, handedOvers, handed, Option.toList_some,
      List.append_nil] at presented
    rw [sdl_committed]
    exact presented
  · have last : lastFlip dev.gObjProps [t] = some t := lastFlip_append [] flips
    have shown : shownFb dev [t] id = some fbId := by
      have showsFb : Shows dev t := ⟨flips, Option.isSome_of_eq_some liveValue⟩
      simp [shownFb, requested, showsFb, writesTo, lastValue, t, value]
    have own : writesTo id [t] = [(t.propId, t.value)] := writesTo_cons_self rfl []
    rw [gState_committed_known displays onDisplays known, own, CrtcState.moved_of_still _ still]
    simp only [fbIdAfter, last, value, shown, Option.getD_some, ite_self]
  · have flipped : flipped host dev [t] = [id] := by
      rw [flipped_eq fun other member _ => onDisplays other member]
      simp [flips, freshKeys, t]
    have asked : drmModePageFlipEvent &&& drmModePageFlipEvent ≠ 0 := by decide
    rw [gFlipEvents_committed, if_pos asked, flipped]
    rfl

theorem position_crtcRecord (state : CrtcState) (id : UInt32) :
    position state (crtcRecord id).record.props = (state.x, state.y) := by
  have noX : (crtcRecord 0).record.props.get PropId.crtcX = none := by decide
  have noY : (crtcRecord 0).record.props.get PropId.crtcY = none := by decide
  have same : (crtcRecord id).record.props = (crtcRecord 0).record.props := rfl
  simp [position, same, noX, noY]

theorem inStep_ensure (inv : TableInv host.getDisplayCount dev.gObjProps)
    (done : ensureObjProperties host.getDisplayCount dev.gObjProps = .ok table)
    (known : id ∈ objectIds host.getDisplayCount) : InStep (dev.withTable table) id ↔ InStep dev id := by
  rcases inv with unused | ensured
  · have nothing : InStep dev id := by simp [InStep, unused, ObjTable.first]
    simp only [nothing, iff_true]
    have complete := TableInv.ensured host.getDisplayCount_le (.inl unused) done
    obtain ⟨created, ensures, entries, _⟩ := ensure_empty complete.fits
    rw [unused, ensures] at done
    cases done
    have member : (crtcRecord id).record ∈ table.entries :=
      entries ▸ List.mem_map_of_mem (List.mem_append_left _ (List.mem_flatMap.mpr ⟨id, known, by simp⟩))
    have found : table.first id = some (crtcRecord id).record :=
      (complete.first_eq known).trans (table.lookup_of_mem member)
    intro record first
    rw [Device.gState_withTable]
    cases found.symm.trans first
    exact position_crtcRecord _ id
  · rw [ensured.ensure] at done
    cases done
    rfl

theorem enqueue_ne (ring : Ring FlipEvent maxFlipEvents) (event : FlipEvent) : ring.enqueue event ≠ ring := by
  intro same
  have head : Ring.next maxFlipEvents ring.head = ring.head := congrArg Ring.head same
  have inside := ring.head_lt
  rcases Ring.next_cases inside with ⟨_, next⟩ | ⟨last, next⟩ <;> simp only [maxFlipEvents] at * <;> omega

theorem flipsAgree_iff (inv : TableInv host.getDisplayCount dev.gObjProps) (known : id ∈ objectIds host.getDisplayCount)
    (live : dev.fbIdToSurface fbId = some surf) :
    FlipsAgree host dev id fbId surf userData ↔
      3 * host.getDisplayCount ≤ maxObjProps ∧ dev.eventPipe.isSome ∧ InStep dev id := by
  by_cases fits : 3 * host.getDisplayCount ≤ maxObjProps
  · obtain ⟨table, ensures, ensured⟩ := inv.ensure_fits fits
    obtain ⟨record, found⟩ := Option.isSome_iff_exists.mp (ensured.displaysLand id known)
    have onDisplays : OnDisplays host (flipRequest id fbId).triples := fun t member => List.mem_singleton.mp member ▸ known
    have commits := drmModeAtomicCommit_eq drmModePageFlipEvent userData ensures (onDisplays.inside table)
    have liveNow : (dev.withTable table).fbIdToSurface fbId = some surf := live
    have foundNow : (dev.withTable table).gObjProps.first id = some record := found
    obtain ⟨handed, state, queued⟩ := committed_live ensured.displaysLand known liveNow foundNow userData
    obtain ⟨returns, legacyHanded, legacyState, legacyQueued⟩ :=
      pageFlip_live known live drmModePageFlipEvent userData
    have inStep : InStep dev id ↔ position (dev.gState (place id)) record.props =
        ((dev.gState (place id)).x, (dev.gState (place id)).y) := by
      rw [← inStep_ensure inv ensures known]
      simp only [InStep, foundNow, Option.some.injEq, forall_eq', Device.gState_withTable]
    rw [FlipsAgree, commits, inStep]
    simp only [returns, true_and, Except.ok.injEq, Prod.mk.injEq, exists_eq_left', fits]
    constructor
    · intro alike
      obtain ⟨x, y, legacyAt, atomicAt⟩ := alike.handed
      have spots := legacyHanded.symm.trans legacyAt
      have atomicSpots := handed.symm.trans atomicAt
      have rings := alike.queued
      rw [legacyQueued, queued] at rings
      refine ⟨?_, ?_⟩
      · by_contra closed
        rw [if_neg closed] at rings
        exact enqueue_ne _ _ rings.symm
      · simp only [Device.withTable, List.append_cancel_left_eq, List.cons.injEq, Presented.mk.injEq, true_and,
          and_true] at spots atomicSpots
        exact Prod.ext (atomicSpots.1.trans spots.1.symm) (atomicSpots.2.trans spots.2.symm)
    · intro both
      obtain ⟨opened, spot⟩ := both
      refine ⟨⟨_, _, legacyHanded, ?_⟩, legacyState.trans state.symm, ?_⟩
      · rw [handed, Device.gState_withTable, spot]
        rfl
      · rw [legacyQueued, if_pos opened, queued]
        rfl
  · have fails := (inv.ensure_overflow host.getDisplayCount_le (not_le.mp fits)).2
    simp [FlipsAgree, drmModeAtomicCommit_overflow fails, fits]

/-! Which runs keep all CRTCs in step. -/

/-- A move by `drmModeSetCrtc` goes where the record of the CRTC already is. -/
def KeepsPlace (host : Host) (session : Session) : Action → Prop
  | .call (.setCrtc fd crtcId _ x y _) =>
      fd = drmVirtualFd → crtcId ∈ objectIds host.getDisplayCount →
        ∀ record, session.world.dev.gObjProps.first crtcId = some record →
          (∀ value, record.props.get PropId.crtcX = some value → toCInt value = x.toInt32) ∧
            ∀ value, record.props.get PropId.crtcY = some value → toCInt value = y.toInt32
  | _ => True

def AllInStep (host : Host) (session : Session) : Prop :=
  ∀ id ∈ objectIds host.getDisplayCount, InStep session.world.dev id

theorem InStep.congr {before after : Device} {id : UInt32} (table : after.gObjProps.first id = before.gObjProps.first id)
    (state : (after.gState (place id)).x = (before.gState (place id)).x ∧
      (after.gState (place id)).y = (before.gState (place id)).y) : InStep after id ↔ InStep before id := by
  simp only [InStep, table, position, state]

theorem first_demand {objId objType : UInt32} (present : (table.first id).isSome) :
    (table.demand objId objType).2.first id = table.first id := by
  simp only [ObjTable.demand]
  cases found : table.lookup (objId, objType) with
  | some record => rfl
  | none =>
      by_cases full : table.full
      · simp [full]
      · have entries := KeyedTable.entries_insertNew
          (x := (⟨objId, objType, .empty⟩ : ObjProps)) (KeyedTable.lookup_eq_none_iff.mp found) full
        simp only [full, if_false, ObjTable.first, entries, List.find?_append]
        exact Option.or_of_isSome present

theorem inStep_demanded {fd : Int} {objectId objectType : UInt32} {demanded : Device}
    (inv : TableInv host.getDisplayCount dev.gObjProps) (known : id ∈ objectIds host.getDisplayCount)
    (done : Demanded host dev fd objectId objectType demanded) : InStep demanded id ↔ InStep dev id := by
  rcases done with ⟨_, rfl⟩ | ⟨table, _, ensures, rfl⟩
  · rfl
  · have present := (inv.ensured host.getDisplayCount_le ensures).displaysLand id known
    rw [← inStep_ensure inv ensures known]
    exact InStep.congr (first_demand present) ⟨rfl, rfl⟩

theorem InStep.committed {triples : List Triple} {flags : UInt32} (displays : DisplaysLand host dev.gObjProps)
    (safe : ∀ t ∈ triples, ¬ Strays dev.gObjProps t) (known : id ∈ objectIds host.getDisplayCount)
    (inStep : InStep dev id) : InStep (committed host dev triples flags userData) id := by
  obtain ⟨loopFb, loop⟩ := gState_applyAll (s := .start dev) displays safe known
  intro record found
  rw [gObjProps_committed, ObjTable.first_applyAll, Option.map_eq_some_iff] at found
  obtain ⟨old, first, rfl⟩ := found
  have before := inStep old first
  obtain ⟨lastFb, state⟩ : ∃ lastFb, (Drm.committed host dev triples flags userData).gState (place id) =
      ((dev.gState (place id)).moved (writesTo id triples)).withFb lastFb := by
    rw [gState_committed, gState_recordLastFb, loop]
    exact ⟨_, rfl⟩
  rw [state, position_withFb]
  refine (position_moved _ _ _).trans ?_
  rw [positionAfter, before]
  rfl

theorem gState_pageFlip (host : Host) (dev : Device) (fd : Int) (crtcId fbId flags : UInt32) (userData : UInt64)
    (idx : Fin maxCrtcs) :
    ∃ newFb, (drmModePageFlip host dev fd crtcId fbId flags userData).2.gState idx = (dev.gState idx).withFb newFb := by
  have moved (at' : Fin maxCrtcs) : ∃ newFb,
      (dev.setState at' { dev.gState at' with crtcFbId := fbId }).gState idx = (dev.gState idx).withFb newFb := by
    by_cases here : idx = at'
    · subst here
      exact ⟨fbId, by simp [Device.setState, CrtcState.withFb]⟩
    · exact ⟨(dev.gState idx).crtcFbId, Function.update_of_ne here _ _⟩
  simp only [drmModePageFlip]
  repeat' split
  all_goals first
    | exact moved _
    | exact ⟨_, (dev.gState idx).withFb_self.symm⟩

theorem InStep.exec {world after : World} {c : Call} {reply : Reply} (inv : TableInv host.getDisplayCount world.dev.gObjProps)
    (known : id ∈ objectIds host.getDisplayCount)
    (other : ∀ fd crtcId fbId x y mode, c ≠ .setCrtc fd crtcId fbId x y mode)
    (done : exec host world c = .ok (after, reply)) (inStep : InStep world.dev id) : InStep after.dev id := by
  have commits {flags : UInt32} {userData : UInt64} (isCommit : commitArguments c = some (flags, userData)) :
      InStep after.dev id := by
    rcases exec_commit isCommit done with same | ⟨req, table, ensures, safe, same⟩
    · rw [same]
      exact inStep
    · rw [same]
      have displays := (inv.ensured host.getDisplayCount_le ensures).displaysLand
      exact InStep.committed displays safe known ((inStep_ensure inv ensures known).mpr inStep)
  have effect := exec_ok done
  cases c
  case setCrtc => exact absurd rfl (other _ _ _ _ _ _)
  case pageFlip fd crtcId fbId flags userData =>
    simp only at effect
    subst effect
    have table : (drmModePageFlip host world.dev fd crtcId fbId flags userData).2.gObjProps = world.dev.gObjProps :=
      (pageFlip_effect _ _ _ _ _ _).1
    obtain ⟨newFb, state⟩ := gState_pageFlip host world.dev fd crtcId fbId flags userData (place id)
    refine (InStep.congr (congrArg (ObjTable.first · id) table) ?_).mpr inStep
    simp only [state]
    exact ⟨rfl, rfl⟩
  case objectGetProperties =>
    obtain ⟨dev, demanded, rfl⟩ := effect
    exact (inStep_demanded inv known demanded).mpr inStep
  case getPlane =>
    obtain ⟨dev, demanded, rfl⟩ := effect
    exact (inStep_demanded inv known demanded).mpr inStep
  case atomicCommit => exact commits rfl
  case atomicIoctl => exact commits rfl
  case openEventPipe =>
    rw [effect]
    exact inStep
  all_goals
    have state := gState_exec rfl done
    refine (InStep.congr (congrArg (ObjTable.first · id) effect.1.gObjProps) ?_).mpr inStep
    rw [state]
    exact ⟨rfl, rfl⟩

theorem inStep_iff : InStep dev id ↔ ∀ record, dev.gObjProps.first id = some record →
    (∀ value, record.props.get PropId.crtcX = some value → toCInt value = (dev.gState (place id)).x) ∧
      ∀ value, record.props.get PropId.crtcY = some value → toCInt value = (dev.gState (place id)).y := by
  refine forall₂_congr fun record _ => ?_
  rw [position, Prod.mk.injEq]
  cases record.props.get PropId.crtcX <;> cases record.props.get PropId.crtcY <;> simp

theorem allInStep_setCrtc {session after : Session} {fd : Int} {crtcId fbId x y : UInt32} {mode : Option ModeInfo}
    {reply : Reply} (inStep : AllInStep host session)
    (done : exec host session.world (.setCrtc fd crtcId fbId x y mode) = .ok (after.world, reply)) :
    AllInStep host after ↔ KeepsPlace host session (.call (.setCrtc fd crtcId fbId x y mode)) := by
  have table : after.world.dev.gObjProps = session.world.dev.gObjProps := (exec_ok done).1.gObjProps
  simp only [exec, World.update, Except.ok.injEq, Prod.mk.injEq] at done
  have dev : after.world.dev = (drmModeSetCrtc host session.world.dev fd crtcId fbId x y mode).2 := by
    rw [← done.1]
    rfl
  by_cases valid : fd = drmVirtualFd ∧ crtcId ∈ objectIds host.getDisplayCount
  · obtain ⟨rfl, known⟩ := valid
    have states : after.world.dev.gState = Function.update session.world.dev.gState (place crtcId)
        ⟨fbId, mode.getD (session.world.dev.gState (place crtcId)).crtcMode, mode.isSome, x.toInt32, y.toInt32⟩ := by
      rw [dev]
      exact (drmModeSetCrtc_known known fbId x y mode).2
    have others (id : UInt32) (idKnown : id ∈ objectIds host.getDisplayCount) (other : id ≠ crtcId) :
        InStep after.world.dev id := by
      have elsewhere : place id ≠ place crtcId := fun same => other (place_inj idKnown known same)
      refine (InStep.congr (congrArg (ObjTable.first · id) table) ?_).mpr (inStep id idKnown)
      rw [states, Function.update_of_ne elsewhere]
      exact ⟨rfl, rfl⟩
    have own : InStep after.world.dev crtcId ↔
        KeepsPlace host session (.call (.setCrtc drmVirtualFd crtcId fbId x y mode)) := by
      simp only [inStep_iff, table, states, Function.update_self, KeepsPlace, known, true_imp_iff]
    rw [← own]
    constructor
    · intro all
      exact all crtcId known
    · intro moved id idKnown
      cases decEq id crtcId with
      | isTrue same => exact same ▸ moved
      | isFalse other => exact others id idKnown other
  · have keeps : KeepsPlace host session (.call (.setCrtc fd crtcId fbId x y mode)) :=
      fun isDevice known => absurd ⟨isDevice, known⟩ valid
    have same : after.world.dev = session.world.dev := by
      rw [dev]
      by_cases isDevice : fd = drmVirtualFd
      · have unknown : crtcIndex host crtcId = none := by
          rw [crtcIndex, dif_neg]
          rw [← mem_objectIds host.getDisplayCount_le]
          exact fun known => valid ⟨isDevice, known⟩
        simp only [drmModeSetCrtc, checkFd, isDevice, ne_eq, not_true_eq_false, if_false, unknown]
      · simp only [drmModeSetCrtc, checkFd, ne_eq, isDevice, not_false_eq_true, if_true]
    simp only [keeps, iff_true, AllInStep, same]
    exact inStep

theorem allInStep_step (session : Session) (action : Action) (after : Session) (out : Output)
    (inv : SessionInv host session ∧ AllInStep host session) (done : step host session action = .ok (after, out)) :
    (AllInStep host after ↔ KeepsPlace host session action) ∧
      (KeepsPlace host session action → SessionInv host after ∧ AllInStep host after) := by
  obtain ⟨sessionInv, inStep⟩ := inv
  have exactly : AllInStep host after ↔ KeepsPlace host session action := by
    rcases step_cases done with ⟨c, reply, rfl, _, called, _⟩ | ⟨event, handler, dev, rfl, _, taken, rfl⟩ |
      ⟨pipe, _, noReply, world⟩
    · cases c with
      | setCrtc fd crtcId fbId x y mode => exact allInStep_setCrtc inStep called
      | _ =>
          exact iff_of_true (fun id known => (inStep id known).exec sessionInv.table known (by simp) called) trivial
    · obtain ⟨_, _, same⟩ := dequeueFlipEvent_some taken
      refine iff_of_true (fun id known => ?_) trivial
      rw [Session.withDev, World.withDev, same]
      exact inStep id known
    · have keeps : KeepsPlace host session action := by
        cases action with
        | call c =>
            cases result : exec host session.world c with
            | error fault => simp [step, result, Except.map] at done
            | ok pair =>
                simp only [step, result, Except.map, Except.ok.injEq, Prod.mk.injEq] at done
                exact absurd done.2.symm (noReply _)
        | _ => trivial
      refine iff_of_true (fun id known => ?_) keeps
      rw [world]
      exact inStep id known
  exact ⟨exactly, fun keeps => ⟨sessionInv_step session action after out sessionInv done, exactly.mpr keeps⟩⟩

/-- In a state that a run reaches, the two ways agree exactly when the records
fit, the pipe is open and the CRTC is in step; and all CRTCs are in step
throughout the run exactly when `drmModeSetCrtc` never moves one away from its
record. -/
theorem legacy_atomic_agree_iff {actions : List Action} {last : Session} {outs : List Output}
    (run : runActions (step host) .initial actions = .ok (last, outs)) :
    (∀ id ∈ objectIds host.getDisplayCount, ∀ fbId surf userData, last.world.dev.fbIdToSurface fbId = some surf →
      (FlipsAgree host last.world.dev id fbId surf userData ↔
        3 * host.getDisplayCount ≤ maxObjProps ∧ last.world.dev.eventPipe.isSome ∧ InStep last.world.dev id)) ∧
    (Throughout (step host) (AllInStep host) .initial actions ↔ Along (step host) (KeepsPlace host) .initial actions) := by
  refine ⟨?_, ?_⟩
  · intro id known fbId surf userData live
    have reachable : ReachableSession host last := runActions_reachable .start run
    exact flipsAgree_iff (sessionInv_of_reachable reachable).table known live
  · have unused : AllInStep host .initial := by
      intro id known record found
      contradiction
    exact throughout_iff_along (fun _ inv => inv.2) allInStep_step ⟨sessionInv_initial, unused⟩ run

/-- Open the pipe, make a framebuffer, and move CRTC 1 to 5 by a commit. -/
def movesByCommit : List Action :=
  [.call .openEventPipe, .call (.createDumbBuffer drmVirtualFd (some ⟨7, 0, 0, 0⟩)), .call (.addFB drmVirtualFd 1 true),
    .call (.atomicCommit drmVirtualFd (some ⟨[⟨1, PropId.crtcX, 5⟩], by decide⟩) 0 0)]

def movesTwice : List Action := movesByCommit ++ [.call (.setCrtc drmVirtualFd 1 1 100 0 none)]

theorem legacy_atomic_agree_iff_movesByCommit :
    ∃ last outs, runActions (step (.uniform 1)) .initial movesByCommit = .ok (last, outs) ∧
      (FlipsAgree (.uniform 1) last.world.dev 1 1 7 0 ↔
        3 * (Host.uniform 1).getDisplayCount ≤ maxObjProps ∧ last.world.dev.eventPipe.isSome ∧
          InStep last.world.dev 1) := by
  have run : runActions (step (.uniform 1)) .initial movesByCommit = .ok (_, _) := rfl
  exact ⟨_, _, run, (legacy_atomic_agree_iff run).1 1 (by decide) 1 7 0 rfl⟩

/-- After that, the page flip shows the framebuffer at 100 and the commit at 5. -/
theorem moved_crtc_flips_apart :
    ∃ last outs, runActions (step (.uniform 1)) .initial movesTwice = .ok (last, outs) ∧
      last.world.dev.fbIdToSurface 1 = some 7 ∧
      (drmModePageFlip (.uniform 1) last.world.dev drmVirtualFd 1 1 drmModePageFlipEvent 0).2.sdl.presented.getLast? =
        some ⟨7, 1, 100, 0⟩ ∧
      (∃ atomic, drmModeAtomicCommit (.uniform 1) last.world.dev drmVirtualFd (some (flipRequest 1 1))
        drmModePageFlipEvent 0 = .ok (.ok (), atomic) ∧ atomic.sdl.presented.getLast? = some ⟨7, 1, 5, 0⟩) ∧
      ¬ FlipsAgree (.uniform 1) last.world.dev 1 1 7 0 := by
  have run : runActions (step (.uniform 1)) .initial movesTwice = .ok (_, _) := rfl
  refine ⟨_, _, run, rfl, rfl, ⟨_, rfl, rfl⟩, ?_⟩
  have inv := (sessionInv_of_reachable (runActions_reachable .start run)).table
  rw [flipsAgree_iff inv (by decide) rfl]
  intro agree
  exact absurd (agree.2.2 _ rfl) (by decide +kernel)

end Iland.Atomic

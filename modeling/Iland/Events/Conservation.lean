import Iland.Atomic.Observed
import Iland.Drm.CommitDisplays

namespace Iland.Events

open Iland.Data
open Iland.Drm
open Iland.Ioctl

/-! Completions that a client receives, and those that it asked for.

An atomic commit queues completions only if its flags ask for them, but also
one for the first CRTC if it flips nothing.  A page flip queues one in any
case, once the event pipe exists.
-/

variable {host : Host} {world : World} {session after : Session}

/-- The CRTC that shows a plane: the planes of the displays have the numbers of
their CRTCs, and others name theirs in CRTC_ID. -/
def ShownOn (host : Host) (table : ObjTable) (plane crtcId : UInt32) : Prop :=
  plane ∈ objectIds host.getDisplayCount ∧ crtcId = plane ∨
    host.getDisplayCount < plane.toNat ∧ crtcId ≠ 0 ∧
      (table.first plane).bind (fun record => record.props.get PropId.crtcId) = some crtcId.toUInt64

/-- The request sets the FB_ID of a plane that the CRTC shows, the triples being
applied to the table one after the other. -/
def FlipsOn (host : Host) : ObjTable → List Triple → UInt32 → Prop
  | _, [], _ => False
  | table, t :: rest, crtcId =>
      (t.propId = PropId.fbId ∧ ShownOn host table t.objId crtcId) ∨ FlipsOn host (table.applyTriple t) rest crtcId

/-- The completions that a call asks for by its flags: one for a page flip,
and for a commit one for each CRTC that its request flips. -/
inductive Submits (host : Host) (world : World) : Call → Reply → List FlipEvent → Prop
  | nothing {c reply} : Submits host world c reply []
  | pageFlip {fd crtcId fbId flags userData value} : flags &&& drmModePageFlipEvent ≠ 0 →
      Submits host world (.pageFlip fd crtcId fbId flags userData) (.ok value) [⟨crtcId, userData⟩]
  | commit {c flags userData req table value batch} : Atomic.commitArguments c = some (flags, userData) →
      c.request world = some req → flags &&& drmModePageFlipEvent ≠ 0 →
      ensureObjProperties host.getDisplayCount world.dev.gObjProps = .ok table →
      (batch.map FlipEvent.crtcId).Nodup →
      (∀ event ∈ batch, event.data = userData ∧ FlipsOn host table req.triples event.crtcId) →
      Submits host world c (.ok value) batch

inductive Asks (host : Host) (session : Session) : Action → Output → List FlipEvent → Prop
  | nothing {action out} : Asks host session action out []
  | call {c reply batch} : Submits host session.world c reply batch →
      Asks host session (.call c) (.replied reply) batch

/-- The completions that the handlers receive are among those that the calls of
the run asked for, in order. -/
def OnlyAskedFor (host : Host) (actions : List Action) (outs : List Output) : Prop :=
  ∃ batches, Accounts (step host) (Asks host) .initial actions batches ∧ (delivered outs).Sublist batches.flatten

/-- The planes that the request flips are all shown on some CRTC. -/
def Placed (host : Host) : ObjTable → List Triple → Prop
  | _, [] => True
  | table, t :: rest =>
      (Flips table t → ∃ crtcId, ShownOn host table t.objId crtcId) ∧ Placed host (table.applyTriple t) rest

/-- A page flip that queues a completion has the flag, and a commit that has it
flips some plane, and only planes that are shown on some CRTC. -/
def AsksForFlips (host : Host) (session : Session) : Action → Prop
  | .call (.pageFlip fd crtcId _ flags userData) =>
      pageFlipQueues host session.world.dev fd crtcId userData ≠ [] → flags &&& drmModePageFlipEvent ≠ 0
  | .call c =>
      ∀ flags userData req table, Atomic.commitArguments c = some (flags, userData) →
        c.request session.world = some req → flags &&& drmModePageFlipEvent ≠ 0 →
        ensureObjProperties host.getDisplayCount session.world.dev.gObjProps = .ok table →
        (∃ t ∈ req.triples, Flips table t) ∧ Placed host table req.triples
  | _ => True

/-! What a commit completes. -/

theorem mem_addFlip {flipCrtcs : List UInt32} {crtcId id : UInt32} (member : id ∈ addFlip flipCrtcs crtcId) :
    id ∈ flipCrtcs ∨ id = crtcId := by
  simp only [addFlip] at member
  split at member
  · simpa using member
  · exact .inl member

theorem addFlip_ne_nil (flipCrtcs : List UInt32) (crtcId : UInt32) : addFlip flipCrtcs crtcId ≠ [] := by
  simp only [addFlip]
  split
  · simp
  · rename_i kept
    rintro rfl
    simp at kept

/-- The code finds the CRTC that shows the plane. -/
theorem flipCrtc_shownOn {table : ObjTable} {t : Triple} {op : ObjProps} {crtcId : UInt32}
    (found : table.first t.objId = some op) (flips : t.propId = PropId.fbId)
    (shown : ShownOn host table t.objId crtcId) : flipCrtc host t.objId (op.props.assign t.propId t.value) = crtcId := by
  rcases shown with ⟨known, rfl⟩ | ⟨beyond, nonzero, named⟩
  · exact flipCrtc_of_known known _
  · have apart : PropId.crtcId ≠ PropId.fbId := by decide
    rw [found, Option.bind_some] at named
    have positive : 0 < crtcId.toUInt64 := by
      rw [UInt64.lt_iff_toNat_lt, UInt32.toNat_toUInt64]
      exact Nat.pos_of_ne_zero fun zero => nonzero (UInt32.toNat_inj.mp zero)
    rw [flipCrtc, if_pos beyond, flips, op.props.get_assign_other apart, named, Option.getD_some, if_pos positive,
      UInt32.toUInt32_toUInt64]

theorem flipCrtcs_of_flips {s : Committing} {t : Triple} {op : ObjProps}
    (found : s.dev.gObjProps.first t.objId = some op) (flips : t.propId = PropId.fbId) :
    (s.apply host t).flipCrtcs = addFlip s.flipCrtcs (flipCrtc host t.objId (op.props.assign t.propId t.value)) := by
  rw [apply_of_flips found flips]
  rfl

theorem flipCrtcs_of_not_flips {s : Committing} {t : Triple} (still : ¬ Flips s.dev.gObjProps t) :
    (s.apply host t).flipCrtcs = s.flipCrtcs := by
  rw [apply_of_not_flips still]
  rfl

/-- Every CRTC that the loop notes is flipped by the request. -/
theorem flipsOn_of_flipped {s : Committing} {triples : List Triple} (placed : Placed host s.dev.gObjProps triples)
    {crtcId : UInt32} (member : crtcId ∈ (s.applyAll host triples).flipCrtcs) :
    crtcId ∈ s.flipCrtcs ∨ FlipsOn host s.dev.gObjProps triples crtcId := by
  induction triples generalizing s with
  | nil => exact .inl member
  | cons t rest ih =>
      have later : Placed host (s.apply host t).dev.gObjProps rest := by
        rw [Committing.gObjProps_apply]
        exact placed.2
      rw [Committing.applyAll_cons] at member
      rcases ih later member with noted | flipsLater
      · by_cases flips : Flips s.dev.gObjProps t
        · obtain ⟨op, found⟩ := Option.isSome_iff_exists.mp flips.2
          obtain ⟨shownOn, shown⟩ := placed.1 flips
          rw [flipCrtcs_of_flips found flips.1, flipCrtc_shownOn found flips.1 shown] at noted
          rcases mem_addFlip noted with old | rfl
          · exact .inl old
          · exact .inr (.inl ⟨flips.1, shown⟩)
        · rw [flipCrtcs_of_not_flips flips] at noted
          exact .inl noted
      · rw [Committing.gObjProps_apply] at flipsLater
        exact .inr (.inr flipsLater)

theorem flipCrtcs_ne_nil {s : Committing} (triples : List Triple) (some : s.flipCrtcs ≠ []) :
    (s.applyAll host triples).flipCrtcs ≠ [] :=
  s.flipCrtcs_invariant (P := (· ≠ [])) (fun flipCrtcs crtcId _ => addFlip_ne_nil flipCrtcs crtcId) some triples

theorem flipped_ne_nil {s : Committing} {triples : List Triple} (flips : ∃ t ∈ triples, Flips s.dev.gObjProps t) :
    (s.applyAll host triples).flipCrtcs ≠ [] := by
  induction triples generalizing s with
  | nil => simp at flips
  | cons t rest ih =>
      rw [Committing.applyAll_cons]
      by_cases own : Flips s.dev.gObjProps t
      · obtain ⟨op, found⟩ := Option.isSome_iff_exists.mp own.2
        refine flipCrtcs_ne_nil rest ?_
        rw [flipCrtcs_of_flips found own.1]
        exact addFlip_ne_nil _ _
      · obtain ⟨other, member, flipsOther⟩ := flips
        have later : other ∈ rest := by
          rcases List.mem_cons.mp member with rfl | later
          · exact absurd flipsOther own
          · exact later
        refine ih ⟨other, later, flipsOther.1, ?_⟩
        rw [Committing.gObjProps_apply, lands_applyTriple]
        exact flipsOther.2

theorem submits_commitQueues {c : Call} {flags : UInt32} {userData : UInt64} {req : AtomicReq}
    (commits : Atomic.commitArguments c = some (flags, userData)) (submitted : c.request world = some req)
    (asks : ∀ table, flags &&& drmModePageFlipEvent ≠ 0 →
      ensureObjProperties host.getDisplayCount world.dev.gObjProps = .ok table →
      (∃ t ∈ req.triples, Flips table t) ∧ Placed host table req.triples) (value : Value) :
    Submits host world c (.ok value) (commitQueues host world.dev req.triples flags userData) := by
  simp only [commitQueues]
  split
  · exact .nothing
  · rename_i table ensures
    split
    · rename_i flagged
      obtain ⟨flips, placed⟩ := asks table flagged ensures
      have some : flipped host (world.dev.withTable table) req.triples ≠ [] := flipped_ne_nil flips
      rw [completions, if_neg some]
      refine .commit commits submitted flagged ensures ?_ ?_
      · rw [List.map_map]
        exact (nodup_flipped host _ req.triples).map fun _ _ same => same
      · intro event member
        obtain ⟨crtcId, noted, rfl⟩ := List.mem_map.mp member
        refine ⟨rfl, ?_⟩
        rcases flipsOn_of_flipped placed noted with none | flipsOn
        · cases none
        · exact flipsOn
    · exact .nothing

theorem submits_queues_of_commit {c : Call} {reply : Reply} {after : World} {flags : UInt32} {userData : UInt64}
    (commits : Atomic.commitArguments c = some (flags, userData))
    (asks : ∀ req table, c.request world = some req → flags &&& drmModePageFlipEvent ≠ 0 →
      ensureObjProperties host.getDisplayCount world.dev.gObjProps = .ok table →
      (∃ t ∈ req.triples, Flips table t) ∧ Placed host table req.triples)
    (done : exec host world c = .ok (after, reply)) : Submits host world c reply (c.queues host world) := by
  rw [Atomic.queues_of_request commits]
  cases submitted : c.request world with
  | none => exact .nothing
  | some req =>
      obtain ⟨pool, result⟩ := Atomic.exec_of_request host commits submitted
      rw [result] at done
      cases committed : drmModeAtomicCommit host world.dev drmVirtualFd (some req) flags userData with
      | error fault => simp [committed, Except.map] at done
      | ok pair =>
          obtain ⟨ret, dev⟩ := pair
          simp only [committed, Except.map, Except.ok.injEq, Prod.mk.injEq] at done
          rcases drmModeAtomicCommit_ok committed with ⟨_, _, _, refused⟩ | ⟨_, _, _, _, _, _, succeeded, _⟩
          · rcases refused with wrong | missing
            · exact absurd rfl wrong
            · contradiction
          · rw [← done.2, succeeded]
            exact submits_commitQueues commits submitted (fun table => asks req table submitted) _

theorem pageFlip_ok {dev : Device} {fd : Int} {crtcId : UInt32} {userData : UInt64} (fbId flags : UInt32)
    (queues : pageFlipQueues host dev fd crtcId userData ≠ []) :
    (drmModePageFlip host dev fd crtcId fbId flags userData).1 = .ok () ∧
      pageFlipQueues host dev fd crtcId userData = [⟨crtcId, userData⟩] := by
  simp only [pageFlipQueues] at queues ⊢
  split at queues
  · rename_i effective
    obtain ⟨valid, known, piped⟩ := effective
    obtain ⟨idx, found⟩ := Option.isSome_iff_exists.mp known
    obtain ⟨unread, pipe⟩ := Option.isSome_iff_exists.mp piped
    refine ⟨?_, if_pos ⟨valid, known, piped⟩⟩
    simp only [drmModePageFlip, checkFd, valid, ne_eq, not_true_eq_false, if_false, found]
    split <;> rfl
  · contradiction

theorem submits_queues {c : Call} {reply : Reply} {after : World} (asks : AsksForFlips host session (.call c))
    (done : exec host session.world c = .ok (after, reply)) :
    Submits host session.world c reply (c.queues host session.world) := by
  cases c
  case pageFlip fd crtcId fbId flags userData =>
    by_cases nothing : pageFlipQueues host session.world.dev fd crtcId userData = []
    · rw [Call.queues, nothing]
      exact .nothing
    · obtain ⟨succeeded, queued⟩ := pageFlip_ok fbId flags nothing
      simp only [exec, World.update, Except.ok.injEq, Prod.mk.injEq, succeeded] at done
      rw [Call.queues, queued, ← done.2]
      exact .pageFlip (asks nothing)
  case atomicCommit fd req flags userData =>
    exact submits_queues_of_commit rfl (fun req table => asks flags userData req table rfl) done
  case atomicIoctl ka memory =>
    exact submits_queues_of_commit rfl (fun req table => asks ka.flags ka.userData req table rfl) done
  all_goals exact .nothing

theorem step_conserves {action : Action} {out : Output} (asks : AsksForFlips host session action)
    (done : step host session action = .ok (after, out)) :
    ∃ batch, Asks host session action out batch ∧
      (delivered [out] ++ after.world.dev.queued).Sublist (session.world.dev.queued ++ batch) := by
  rcases step_cases done with ⟨c, reply, rfl, rfl, called, _⟩ | ⟨event, handler, dev, _, rfl, taken, rfl⟩ |
    ⟨eventPipe, undelivered, _, world⟩
  · refine ⟨_, .call (submits_queues asks called), ?_⟩
    rw [exec_queued called]
    exact pushAllBounded_sublist (length_queued_le _)
  · refine ⟨[], .nothing, ?_⟩
    rw [(dequeueFlipEvent_some taken).2.1, List.append_nil]
    cases handler with
    | none => exact List.sublist_cons_self event dev.queued
    | some handler => exact List.Sublist.refl (event :: dev.queued)
  · refine ⟨[], .nothing, ?_⟩
    have nothing : delivered [out] = [] := by
      cases out with
      | delivered event handler => exact absurd rfl (undelivered event handler)
      | _ => rfl
    rw [nothing, world, List.append_nil]
    exact List.Sublist.refl session.world.dev.queued

theorem delivered_eq_flatMap (outs : List Output) : delivered outs = outs.flatMap (fun out => delivered [out]) := by
  rw [delivered, List.filterMap_eq_flatMap_toList]
  congr 1

/-- When every page flip that queues a completion asks for it, and every commit
that asks for completions flips planes that are shown, the handlers receive
only what was asked for. -/
theorem only_asked_for {actions : List Action} {outs : List Output}
    (run : runActions (step host) .initial actions = .ok (session, outs))
    (asks : Along (step host) (AsksForFlips host) .initial actions) : OnlyAskedFor host actions outs := by
  have conserves (state : Session) (action : Action) (after : Session) (out : Output)
      (asked : AsksForFlips host state action) (stepped : step host state action = .ok (after, out)) :=
    step_conserves asked stepped
  obtain ⟨batches, all, received⟩ := runActions_ledger (fun session : Session => session.world.dev.queued)
    (fun out => delivered [out]) conserves asks run
  refine ⟨batches, all, ?_⟩
  rw [delivered_eq_flatMap]
  exact (List.sublist_append_left _ _).trans received

/-- A call that queues something, and `drmHandleEvent` with one round. -/
def callAndReceive (c : Call) : List Action :=
  [.call .openEventPipe, .call c, .handleEvent drmVirtualFd (some ⟨2, true, false⟩), .round]

def received : List Output :=
  [.replied (.ok .unit), .replied (.ok .unit), .looping, .delivered ⟨1, 7⟩ (some .pageFlipHandler)]

def flip (flags : UInt32) : Call := .pageFlip drmVirtualFd 1 0 flags 7

/-- A commit of one triple on the object 1 that asks for completions. -/
def commitOne (propId : UInt32) : Call :=
  .atomicCommit drmVirtualFd (some ⟨[⟨1, propId, 1⟩], (by decide : 1 ≤ 64)⟩) drmModePageFlipEvent 7

theorem asksForFlips_commitOne (session : Session) (reachable : ReachableSession (.uniform 1) session) :
    AsksForFlips (.uniform 1) session (.call (commitOne PropId.fbId)) := by
  intro flags userData req table commits submitted _ ensures
  cases commits
  cases submitted
  have ensured := (sessionInv_of_reachable reachable).table.ensured (Host.uniform 1).getDisplayCount_le ensures
  have known : (1 : UInt32) ∈ objectIds (Host.uniform 1).getDisplayCount := by decide
  have flips : Flips table ⟨1, PropId.fbId, 1⟩ := ⟨rfl, ensured.displaysLand 1 known⟩
  exact ⟨⟨_, List.mem_singleton_self _, flips⟩, ⟨fun _ => ⟨1, .inl ⟨known, rfl⟩⟩, trivial⟩⟩

def askingActions : List Action :=
  callAndReceive (flip drmModePageFlipEvent) ++ callAndReceive (commitOne PropId.fbId)

theorem only_asked_for_two : ∃ session outs, runActions (step (.uniform 1)) .initial askingActions = .ok (session, outs) ∧
    delivered outs = [⟨1, 7⟩, ⟨1, 7⟩] ∧ OnlyAskedFor (.uniform 1) askingActions outs := by
  have performed : ∃ session outs, runActions (step (.uniform 1)) .initial askingActions = .ok (session, outs) ∧
      delivered outs = [⟨1, 7⟩, ⟨1, 7⟩] := ⟨_, _, rfl, rfl⟩
  obtain ⟨session, outs, run, delivers⟩ := performed
  refine ⟨session, outs, run, delivers, only_asked_for run (along_of_reachable ?_ .start)⟩
  intro state action reachable member
  simp only [askingActions, callAndReceive, List.cons_append, List.nil_append, List.mem_cons, List.not_mem_nil,
    or_false] at member
  rcases member with rfl | rfl | rfl | rfl | rfl | rfl | rfl | rfl
  · exact fun _ _ _ _ commits => by cases commits
  · exact fun _ => by decide
  · trivial
  · trivial
  · exact fun _ _ _ _ commits => by cases commits
  · exact asksForFlips_commitOne state reachable
  · trivial
  · trivial

theorem asks_nothing {session : Session} {c : Call} {out : Output} {batch : List FlipEvent}
    (unasked : c = .openEventPipe ∨ c = flip 0 ∨ c = commitOne PropId.active) (asks : Asks host session (.call c) out batch) :
    batch = [] := by
  cases asks with
  | nothing => rfl
  | call submits =>
      cases submits with
      | nothing => rfl
      | pageFlip flagged =>
          rcases unasked with opens | flips | commits
          · cases opens
          · cases flips
            exact absurd UInt32.zero_and flagged
          · cases commits
      | commit commits submitted flagged ensures distinct each =>
          rcases unasked with rfl | rfl | rfl
          · cases commits
          · cases commits
          · cases submitted
            refine List.eq_nil_iff_forall_not_mem.mpr fun event member => ?_
            rcases (each event member).2 with ⟨flips, _⟩ | none
            · exact absurd flips (by decide : ¬ PropId.active = PropId.fbId)
            · exact none

theorem not_asked_for {c : Call} (unasked : c = flip 0 ∨ c = commitOne PropId.active) :
    ¬ OnlyAskedFor host (callAndReceive c) received := by
  rintro ⟨batches, all, handed⟩
  obtain ⟨opened, later, _, _, rfl, opens, all⟩ := all.cons
  obtain ⟨called, later, _, _, rfl, calls, all⟩ := all.cons
  obtain ⟨handled, later, _, _, rfl, handles, all⟩ := all.cons
  obtain ⟨round, later, _, _, rfl, rounds, all⟩ := all.cons
  rw [asks_nothing (.inl rfl) opens, asks_nothing (.inr unasked) calls, all.nil] at handed
  cases handles
  cases rounds
  exact absurd handed (by decide)

/-- A flip without the flag is delivered all the same, and a commit that flips
nothing delivers one for the first CRTC. -/
theorem unasked_flips_are_delivered :
    ((∃ session, runActions (step (.uniform 1)) .initial (callAndReceive (flip 0)) = .ok (session, received)) ∧
        ¬ OnlyAskedFor (.uniform 1) (callAndReceive (flip 0)) received) ∧
      (∃ session, runActions (step (.uniform 1)) .initial (callAndReceive (commitOne PropId.active)) =
          .ok (session, received)) ∧
        ¬ OnlyAskedFor (.uniform 1) (callAndReceive (commitOne PropId.active)) received :=
  ⟨⟨⟨_, rfl⟩, not_asked_for (.inl rfl)⟩, ⟨_, rfl⟩, not_asked_for (.inr rfl)⟩

end Iland.Events

import Iland.Data.LinkedQueue
import Iland.Data.Run
import Iland.Libinput.Context

namespace Iland.Libinput

open Iland.Data

/-! The event queue as linked memory.

Threads allocate events, fill them and queue them; the client takes events and
destroys them.  `queue_event` and `libinput_get_event` hold `ev_lock` while they
use the queue, so each is one step, and the steps of all threads come in any
order.
-/

abbrev Addr := ℕ

/-- `struct libinput_event`. -/
structure EventNode where
  event : Event
  next : Option Addr
deriving DecidableEq

abbrev Heap := Addr → Option EventNode

inductive Stop where
  | nullDeref
  /-- Memory that is not allocated is used. -/
  | dangling
  /-- The allocator, a thread or the client does not do this now. -/
  | excluded
deriving DecidableEq

def load (heap : Heap) (p : Option Addr) : Except Stop EventNode :=
  match p with
  | none => .error .nullDeref
  | some addr =>
      match heap addr with
      | none => .error .dangling
      | some node => .ok node

/-- `p->next = ev`. -/
def setNext (heap : Heap) (p : Option Addr) (ev : Addr) : Except Stop Heap :=
  match p with
  | none => .error .nullDeref
  | some addr =>
      match heap addr with
      | none => .error .dangling
      | some node => .ok (Function.update heap addr (some { node with next := some ev }))

structure EventQueue where
  heap : Heap
  evHead : Option Addr
  evTail : Option Addr
  /-- The events that threads have allocated and not queued yet. -/
  unqueued : List Addr
  /-- The events that the client has taken and not destroyed yet. -/
  taken : List Addr

namespace EventQueue

def empty : EventQueue := ⟨fun _ => none, none, none, [], []⟩

variable (q : EventQueue)

/-- `alloc_event`, for which `calloc` gives this memory, and what its thread
then writes to the event. -/
def allocEvent (ev : Addr) (event : Event) : EventQueue :=
  { q with heap := Function.update q.heap ev (some ⟨event, none⟩), unqueued := ev :: q.unqueued }

def queueEvent (ev : Addr) : Except Stop EventQueue :=
  match q.evHead with
  | none => .ok { q with evHead := some ev, evTail := some ev }
  | some _ => do
      let heap ← setNext q.heap q.evTail ev
      .ok { q with heap := heap, evTail := some ev }

def getEvent : Except Stop (Option Addr × EventQueue) :=
  match q.evHead with
  | none => .ok (none, q)
  | some ev => do
      let node ← load q.heap (some ev)
      .ok (some ev, { q with evHead := node.next, evTail := if node.next = none then none else q.evTail })

def eventDestroy (ev : Addr) : EventQueue :=
  { q with heap := Function.update q.heap ev none, taken := q.taken.erase ev }

inductive Act where
  | allocEvent (ev : Addr) (event : Event)
  | queueEvent (ev : Addr)
  | getEvent
  | eventDestroy (ev : Addr)

inductive Out where
  | nothing
  | queued (ev : Addr) (event : Event)
  /-- The event that the client gets, if not NULL. -/
  | got (ev : Option (Addr × Event))
deriving DecidableEq

def step : Act → Except Stop (EventQueue × Out)
  | .allocEvent ev event =>
      if (q.heap ev).isSome then .error .excluded else .ok (q.allocEvent ev event, .nothing)
  | .queueEvent ev =>
      if ev ∉ q.unqueued then .error .excluded
      else do
        let node ← load q.heap (some ev)
        let after ← q.queueEvent ev
        .ok ({ after with unqueued := q.unqueued.erase ev }, .queued ev node.event)
  | .getEvent => do
      let (ev, after) ← q.getEvent
      match ev with
      | none => .ok (after, .got none)
      | some ev =>
          let node ← load after.heap (some ev)
          .ok ({ after with taken := ev :: q.taken }, .got (some (ev, node.event)))
  | .eventDestroy ev =>
      if ev ∉ q.taken then .error .excluded else .ok (q.eventDestroy ev, .nothing)

def queuedBy : Out → List (Addr × Event)
  | .queued ev event => [(ev, event)]
  | _ => []

def gotBy : Out → List (Addr × Event)
  | .got (some ev) => [ev]
  | _ => []

def next (ev : Addr) : Option Addr := (q.heap ev).bind EventNode.next

def eventAt (ev : Addr) : Option (Addr × Event) := (q.heap ev).map fun node => (ev, node.event)

/-- Every event that was queued has been taken, in order, or waits behind those
between `ev_head` and `ev_tail`; and NULL means that none waits. -/
structure InOrder (outs : List Out) : Prop where
  fifo : ∃ cells, Queued q.next q.evHead q.evTail cells ∧ cells.Nodup ∧
    outs.flatMap queuedBy = outs.flatMap gotBy ++ cells.filterMap q.eventAt
  ends : q.evHead = none ↔ q.evTail = none
  null : (∃ after, q.step .getEvent = .ok (after, .got none)) ↔ outs.flatMap queuedBy = outs.flatMap gotBy

/-! Who uses which memory. -/

/-- These are allocated, and different. -/
def Owns (heap : Heap) (addrs : List Addr) : Prop := addrs.Nodup ∧ ∀ addr ∈ addrs, (heap addr).isSome

variable {heap : Heap} {addrs others : List Addr} {addr : Addr}

theorem Owns.perm (owns : Owns heap addrs) (perm : addrs.Perm others) : Owns heap others :=
  ⟨perm.nodup_iff.mp owns.1, fun addr member => owns.2 addr (perm.mem_iff.mpr member)⟩

theorem Owns.alloc (owns : Owns heap addrs) (free : ¬ (heap addr).isSome) (node : EventNode) :
    Owns (Function.update heap addr (some node)) (addr :: addrs) := by
  refine ⟨List.nodup_cons.mpr ⟨fun member => free (owns.2 addr member), owns.1⟩, fun other member => ?_⟩
  rcases List.mem_cons.mp member with rfl | older
  · simp
  · have different : other ≠ addr := by
      rintro rfl
      exact free (owns.2 other older)
    rw [Function.update_of_ne different]
    exact owns.2 other older

theorem Owns.free (owns : Owns heap (addr :: addrs)) : Owns (Function.update heap addr none) addrs := by
  obtain ⟨new, distinct⟩ := List.nodup_cons.mp owns.1
  refine ⟨distinct, fun other member => ?_⟩
  have different : other ≠ addr := by
    rintro rfl
    exact new member
  rw [Function.update_of_ne different]
  exact owns.2 other (List.mem_cons_of_mem addr member)

theorem Owns.write (owns : Owns heap addrs) (node : EventNode) : Owns (Function.update heap addr (some node)) addrs := by
  refine ⟨owns.1, fun other member => ?_⟩
  by_cases same : other = addr
  · subst same
    simp
  · rw [Function.update_of_ne same]
    exact owns.2 other member

/-- The queue consists of these events; nobody else has them, and those to be
queued are not linked to anything. -/
structure Linked (q : EventQueue) (cells : List Addr) : Prop where
  queued : Queued q.next q.evHead q.evTail cells
  owns : Owns q.heap (cells ++ (q.unqueued ++ q.taken))
  unlinked : ∀ ev ∈ q.unqueued, q.next ev = none

theorem linked_empty : Linked empty [] :=
  ⟨.empty _, ⟨.nil, fun _ member => absurd member List.not_mem_nil⟩, fun _ member => absurd member List.not_mem_nil⟩

variable {q} {cells : List Addr} {ev : Addr}

theorem Linked.allocated (linked : Linked q cells) {addr : Addr}
    (member : addr ∈ cells ∨ addr ∈ q.unqueued ∨ addr ∈ q.taken) : ∃ node, q.heap addr = some node :=
  Option.isSome_iff_exists.mp (linked.owns.2 addr (by simpa using member))

theorem Linked.ne_of_unqueued (linked : Linked q cells) (mine : ev ∈ q.unqueued) {cell : Addr} (member : cell ∈ cells) :
    cell ≠ ev :=
  (List.nodup_append.mp linked.owns.1).2.2 cell member ev (List.mem_append_left _ mine)

theorem Linked.ne_of_taken (linked : Linked q cells) (mine : ev ∈ q.taken) {cell : Addr}
    (member : cell ∈ cells ∨ cell ∈ q.unqueued) : cell ≠ ev := by
  have apart : (cells ++ q.unqueued ++ q.taken).Nodup := by
    rw [List.append_assoc]
    exact linked.owns.1
  exact (List.nodup_append.mp apart).2.2 cell (List.mem_append.mpr member) ev mine

theorem load_some {node : EventNode} (found : q.heap ev = some node) : load q.heap (some ev) = .ok node := by
  simp only [load, found]

/-- `queue_event` links the event behind the others, whose contents stay. -/
theorem queueEvent_linked (linked : Linked q cells) (mine : ev ∈ q.unqueued) :
    ∃ after, q.queueEvent ev = .ok after ∧ after.taken = q.taken ∧ after.eventAt = q.eventAt ∧
      Linked { after with unqueued := q.unqueued.erase ev } (cells ++ [ev]) := by
  have moved : (cells ++ (q.unqueued ++ q.taken)).Perm (cells ++ [ev] ++ (q.unqueued.erase ev ++ q.taken)) := by
    rw [List.append_assoc]
    exact ((List.perm_cons_erase mine).append_right q.taken).append_left cells
  have final := linked.unlinked ev mine
  rw [queueEvent]
  cases head : q.evHead with
  | none =>
      have queued := head ▸ linked.queued
      exact ⟨_, rfl, rfl, rfl, queued.first final, linked.owns.perm moved,
        fun other member => linked.unlinked other (List.mem_of_mem_erase member)⟩
  | some first =>
      cases tail : q.evTail with
      | none =>
          have none : q.evHead = none := linked.queued.head_none_iff.mpr (linked.queued.tail_none_iff.mp tail)
          simp [head] at none
      | some last =>
          have inside : last ∈ cells := List.mem_of_getLast? (linked.queued.tail.symm.trans tail)
          obtain ⟨node, found⟩ := linked.allocated (.inl inside)
          have links (other : Addr) (different : other ≠ last) :
              ((Function.update q.heap last (some { node with next := some ev })) other).bind EventNode.next =
                q.next other := by
            rw [Function.update_of_ne different]
            rfl
          have other := linked.ne_of_unqueued mine inside
          simp only [setNext, found, bind, Except.bind]
          refine ⟨_, rfl, rfl, ?_, ?_, (linked.owns.write _).perm moved, fun free member => ?_⟩
          · funext addr
            by_cases same : addr = last
            · subst same
              simp [eventAt, found]
            · simp [eventAt, same]
          · have queued := head ▸ tail ▸ linked.queued
            refine queued.push (fun cell _ different => links cell different) ?_ ((links ev other.symm).trans final)
            simp [next]
          · have waiting := List.mem_of_mem_erase member
            exact (links free (linked.ne_of_unqueued waiting inside).symm).trans (linked.unlinked free waiting)

theorem eventAt_of_heap {after : EventQueue} (heap : after.heap = q.heap) : after.eventAt = q.eventAt := by
  funext addr
  rw [eventAt, eventAt, heap]

theorem getEvent_nil (linked : Linked q []) : q.getEvent = .ok (none, q) := by
  have head : q.evHead = none := linked.queued.head_eq
  simp only [getEvent, head]

/-- `libinput_get_event` takes the first event, and the others stay linked. -/
theorem getEvent_cons {rest : List Addr} (linked : Linked q (ev :: rest)) :
    ∃ after, q.getEvent = .ok (some ev, after) ∧ after.heap = q.heap ∧
      Linked { after with taken := ev :: q.taken } rest := by
  have head : q.evHead = some ev := linked.queued.head_eq
  obtain ⟨node, found⟩ := linked.allocated (.inl List.mem_cons_self)
  have link : q.next ev = node.next := by simp [next, found]
  simp only [getEvent, head, load_some found, bind, Except.bind]
  refine ⟨_, rfl, rfl, ?_, ?_, linked.unlinked⟩
  · obtain ⟨others, same, popped⟩ := (head ▸ linked.queued : Queued q.next (some ev) q.evTail (ev :: rest)).pop
    obtain rfl := List.tail_eq_of_cons_eq same
    rwa [link] at popped
  · refine linked.owns.perm ?_
    rw [← List.append_assoc, ← List.append_assoc]
    exact List.perm_middle.symm

/-- What happens to other memory does not matter to the queue. -/
theorem Linked.elsewhere {after : EventQueue} (linked : Linked q cells)
    (same : ∀ cell ∈ cells, after.heap cell = q.heap cell) (head : after.evHead = q.evHead)
    (tail : after.evTail = q.evTail) :
    Queued after.next after.evHead after.evTail cells ∧ cells.filterMap after.eventAt = cells.filterMap q.eventAt := by
  constructor
  · rw [head, tail]
    exact linked.queued.congr fun cell member => by rw [next, next, same cell member]
  · exact List.filterMap_congr fun cell member => by rw [eventAt, eventAt, same cell member]

theorem allocEvent_linked (linked : Linked q cells) (free : ¬ (q.heap ev).isSome) (event : Event) :
    Linked (q.allocEvent ev event) cells ∧
      cells.filterMap (q.allocEvent ev event).eventAt = cells.filterMap q.eventAt := by
  have same (cell : Addr) (member : cell ∈ cells) : (q.allocEvent ev event).heap cell = q.heap cell := by
    refine Function.update_of_ne ?_ ..
    rintro rfl
    exact free (linked.owns.2 cell (List.mem_append_left _ member))
  obtain ⟨queued, pending⟩ := linked.elsewhere same rfl rfl
  refine ⟨⟨queued, (linked.owns.alloc free _).perm List.perm_middle.symm, fun other member => ?_⟩, pending⟩
  by_cases own : other = ev
  · subst own
    simp [next, allocEvent]
  · have older := (List.mem_cons.mp member).resolve_left own
    simpa [next, allocEvent, own] using linked.unlinked other older

theorem eventDestroy_linked (linked : Linked q cells) (mine : ev ∈ q.taken) :
    Linked (q.eventDestroy ev) cells ∧ cells.filterMap (q.eventDestroy ev).eventAt = cells.filterMap q.eventAt := by
  have same (cell : Addr) (member : cell ∈ cells ∨ cell ∈ q.unqueued) : (q.eventDestroy ev).heap cell = q.heap cell :=
    Function.update_of_ne (linked.ne_of_taken mine member) ..
  have moved : (cells ++ (q.unqueued ++ q.taken)).Perm (ev :: (cells ++ (q.unqueued ++ q.taken.erase ev))) := by
    rw [← List.append_assoc, ← List.append_assoc]
    exact ((List.perm_cons_erase mine).append_left _).trans List.perm_middle
  obtain ⟨queued, pending⟩ := linked.elsewhere (fun cell member => same cell (.inl member)) rfl rfl
  refine ⟨⟨queued, (linked.owns.perm moved).free, fun other member => ?_⟩, pending⟩
  rw [next, same other (.inr member)]
  exact linked.unlinked other member

/-- Every step that is taken keeps the queue linked; what waits loses what the
step returns and gains what it queues. -/
theorem step_linked (linked : Linked q cells) (a : Act) :
    q.step a = .error .excluded ∨ ∃ after out cells', q.step a = .ok (after, out) ∧ Linked after cells' ∧
      cells.filterMap q.eventAt ++ queuedBy out = gotBy out ++ cells'.filterMap after.eventAt := by
  cases a with
  | allocEvent ev event =>
      by_cases used : (q.heap ev).isSome
      · exact .inl (if_pos used)
      · obtain ⟨linked', pending⟩ := allocEvent_linked linked used event
        exact .inr ⟨_, .nothing, cells, if_neg used, linked', by simp [queuedBy, gotBy, pending]⟩
  | queueEvent ev =>
      by_cases mine : ev ∈ q.unqueued
      · obtain ⟨node, found⟩ := linked.allocated (.inr (.inl mine))
        obtain ⟨after, queues, taken, events, linked'⟩ := queueEvent_linked linked mine
        right
        simp only [step, mine, not_true_eq_false, if_false, load_some found, queues, bind, Except.bind]
        refine ⟨_, _, cells ++ [ev], rfl, linked', ?_⟩
        change cells.filterMap q.eventAt ++ [(ev, node.event)] = [] ++ (cells ++ [ev]).filterMap after.eventAt
        rw [events, List.filterMap_append]
        simp [eventAt, found]
      · exact .inl (if_pos mine)
  | getEvent =>
      right
      cases cells with
      | nil =>
          simp only [step, getEvent_nil linked, bind, Except.bind]
          exact ⟨_, _, [], rfl, linked, rfl⟩
      | cons ev rest =>
          obtain ⟨node, found⟩ := linked.allocated (.inl List.mem_cons_self)
          obtain ⟨after, gets, heap, linked'⟩ := getEvent_cons linked
          have events : after.eventAt = q.eventAt := eventAt_of_heap heap
          simp only [step, gets, load_some (heap ▸ found : after.heap ev = some node), bind, Except.bind]
          refine ⟨_, _, rest, rfl, linked', ?_⟩
          change (ev :: rest).filterMap q.eventAt ++ [] = [(ev, node.event)] ++ rest.filterMap after.eventAt
          simp [events, eventAt, found]
  | eventDestroy ev =>
      by_cases mine : ev ∈ q.taken
      · obtain ⟨linked', pending⟩ := eventDestroy_linked linked mine
        exact .inr ⟨_, .nothing, cells, if_neg (not_not.mpr mine), linked', by simp [queuedBy, gotBy, pending]⟩
      · exact .inl (if_pos mine)

/-! Runs. -/

variable {actions : List Act} {last : EventQueue} {outs : List Out}

theorem run_linked (linked : Linked q cells) (run : runActions step q actions = .ok (last, outs)) :
    ∃ cells', Linked last cells' ∧
      cells.filterMap q.eventAt ++ outs.flatMap queuedBy = outs.flatMap gotBy ++ cells'.filterMap last.eventAt := by
  induction actions generalizing q cells outs with
  | nil =>
      simp only [runActions, Except.ok.injEq, Prod.mk.injEq] at run
      obtain ⟨rfl, rfl⟩ := run
      exact ⟨cells, linked, by simp⟩
  | cons a rest ih =>
      obtain ⟨next, out, tail, done, remaining, rfl⟩ := runActions_cons_ok run
      rcases step_linked linked a with excluded | ⟨after, out', middle, done', linked', first⟩
      · simp [done] at excluded
      · rw [done, Except.ok.injEq, Prod.mk.injEq] at done'
        obtain ⟨rfl, rfl⟩ := done'
        obtain ⟨final, linkedLast, later⟩ := ih linked' remaining
        refine ⟨final, linkedLast, ?_⟩
        rw [List.flatMap_cons, List.flatMap_cons, ← List.append_assoc, first, List.append_assoc, later,
          List.append_assoc]

theorem run_stops (linked : Linked q cells) {stop : Stop} (run : runActions step q actions = .error stop) :
    stop = .excluded := by
  induction actions generalizing q cells with
  | nil => simp [runActions] at run
  | cons a rest ih =>
      rcases step_linked linked a with excluded | ⟨after, out, middle, done, linked', _⟩
      · simpa [runActions, excluded] using run.symm
      · exact ih linked' ((runActions_cons_error done).mp run)

theorem Linked.pending_nil_iff (linked : Linked q cells) : cells.filterMap q.eventAt = [] ↔ cells = [] := by
  constructor
  · intro none
    cases cells with
    | nil => rfl
    | cons ev rest =>
        obtain ⟨node, found⟩ := linked.allocated (.inl List.mem_cons_self)
        simp [eventAt, found] at none
  · rintro rfl
    rfl

theorem Linked.got_none_iff (linked : Linked q cells) :
    (∃ after, q.step .getEvent = .ok (after, .got none)) ↔ cells = [] := by
  cases cells with
  | nil => exact iff_of_true ⟨q, by simp only [step, getEvent_nil linked, bind, Except.bind]⟩ rfl
  | cons ev rest =>
      obtain ⟨node, found⟩ := linked.allocated (.inl List.mem_cons_self)
      obtain ⟨after, gets, heap, _⟩ := getEvent_cons linked
      simp [step, gets, load_some (heap ▸ found : after.heap ev = some node), bind, Except.bind]

/-- In any order of the steps of any threads, events come out as they went in,
and no pointer is followed that should not be. -/
theorem event_queue_fifo (actions : List Act) :
    (∀ stop, runActions step empty actions = .error stop → stop = .excluded) ∧
      ∀ last outs, runActions step empty actions = .ok (last, outs) → InOrder last outs := by
  refine ⟨fun stop run => run_stops linked_empty run, fun last outs run => ?_⟩
  obtain ⟨cells, linked, ledger⟩ := run_linked linked_empty run
  rw [List.filterMap_nil, List.nil_append] at ledger
  refine ⟨⟨cells, linked.queued, linked.queued.path.nodup, ledger⟩, ?_, ?_⟩
  · rw [linked.queued.head_none_iff, linked.queued.tail_none_iff]
  · rw [linked.got_none_iff, ← linked.pending_nil_iff, ledger, List.append_right_eq_self]

def motion (dx : Double) : Event := .pointerMotion none dx 0 dx 0 0

def twoEvents : List Act :=
  [.allocEvent 16 (motion 1), .allocEvent 32 (motion 2), .queueEvent 32, .queueEvent 16, .getEvent, .eventDestroy 32,
    .allocEvent 32 (motion 3), .queueEvent 32, .getEvent, .getEvent, .getEvent]

theorem event_queue_fifo_two : ∃ last outs, runActions step empty twoEvents = .ok (last, outs) ∧ InOrder last outs :=
  ⟨_, _, rfl, (event_queue_fifo twoEvents).2 _ _ rfl⟩

/-! The list of events of the other modules. -/

/-- The list holds what is linked. -/
def Holds (q : EventQueue) (g : Globals) : Prop :=
  ∃ cells, Linked q cells ∧ g.events = (cells.filterMap q.eventAt).map Prod.snd

variable {g : Globals}

theorem queueEvent_append {node : EventNode} (holds : Holds q g) (mine : ev ∈ q.unqueued)
    (found : q.heap ev = some node) :
    ∃ after, q.queueEvent ev = .ok after ∧
      Holds { after with unqueued := q.unqueued.erase ev } (g.append node.event) := by
  obtain ⟨cells, linked, events⟩ := holds
  obtain ⟨after, queues, _, same, linked'⟩ := queueEvent_linked linked mine
  refine ⟨after, queues, cells ++ [ev], linked', ?_⟩
  change g.events ++ [node.event] = ((cells ++ [ev]).filterMap after.eventAt).map Prod.snd
  rw [events, same, List.filterMap_append, List.map_append]
  simp [eventAt, found]

theorem getEvent_getEvent (holds : Holds q g) :
    g.getEvent = none ∧ q.getEvent = .ok (none, q) ∨
      ∃ ev node rest after, g.getEvent = some (node.event, rest) ∧ q.getEvent = .ok (some ev, after) ∧
        after.heap ev = some node ∧ Holds { after with taken := ev :: q.taken } rest := by
  obtain ⟨cells, linked, events⟩ := holds
  cases cells with
  | nil => exact .inl ⟨by rw [Globals.getEvent, events]; rfl, getEvent_nil linked⟩
  | cons ev others =>
      obtain ⟨node, found⟩ := linked.allocated (.inl List.mem_cons_self)
      obtain ⟨after, gets, heap, linked'⟩ := getEvent_cons linked
      have split : g.events = node.event :: (others.filterMap q.eventAt).map Prod.snd := by
        rw [events]
        simp [eventAt, found]
      have same : after.eventAt = q.eventAt := eventAt_of_heap heap
      refine .inr ⟨ev, node, _, after, by rw [Globals.getEvent, split], gets, heap ▸ found, others, linked', ?_⟩
      change (others.filterMap q.eventAt).map Prod.snd = (others.filterMap after.eventAt).map Prod.snd
      rw [same]

end EventQueue

end Iland.Libinput

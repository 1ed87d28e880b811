import Iland.Epoll.EpollFDRegister

namespace Iland.Epoll

open Iland.Data EpollEvent

/-! What becomes of the whole of an epoll set when a node is added, changed or
removed.

Between two calls every node is settled: the queue holds for it what its flags
say.  During a call all but one are.
-/

/-- What is asked of a descriptor. -/
structure Interest where
  socket : Bool
  data : UInt64
  events : EpollEvents
  edgeTriggered : Bool
  oneshot : Bool
deriving DecidableEq

namespace RegisteredFDsNode

variable {n n' : RegisteredFDsNode} {kq : EpollKq} {pollFds : List ℕ}

def interest (n : RegisteredFDsNode) : Interest :=
  ⟨n.nodeType = .socket, n.data, n.events, n.isEdgeTriggered, n.isOneshot⟩

theorem Own.register (own : Own kq pollFds n) :
    Own kq pollFds { n with isRegistered := true } where
  typed := own.typed.congr rfl rfl fun _ => rfl
  flags := ⟨own.flags.except, own.flags.fifo, own.flags.kqueue, own.flags.other, own.flags.poll⟩
  knotes := own.knotes
  held := own.held
  users := fun u member mine triggered => (own.users u member mine triggered).imp_right fun retry =>
    ⟨retry.unwatched, retry.wanted⟩
  listed := own.listed
  onlyPoll := own.onlyPoll

theorem Same.interest (same : Same n n') : n'.interest = n.interest := by
  have socket : n'.nodeType = .socket ↔ n.nodeType = .socket := by
    rcases same.nodeType with kept | ⟨other, poll⟩
    · rw [kept]
    · simp [other, poll]
  simp only [RegisteredFDsNode.interest, same.data, same.events, same.isEdgeTriggered, same.isOneshot, socket]

end RegisteredFDsNode

namespace EpollFDCtx

open RegisteredFDsNode

variable {c c' : EpollFDCtx} {n m : RegisteredFDsNode} {answer : RegisterAnswer}

def ids (c : EpollFDCtx) : List ℕ := c.registeredFds.map (·.id)

/-- The table, and that all that refers to a node refers to one of the table. -/
structure Shape (c : EpollFDCtx) : Prop where
  ids : c.ids.Nodup
  fds : (c.registeredFds.map (·.fd)).Nodup
  next : ∀ id ∈ c.ids, id < c.next
  size : c.registeredFdsSize = c.registeredFds.length
  polls : c.PollList
  knotes : ∀ k ∈ c.kq.knotes, k.udata ∈ c.ids
  users : ∀ u ∈ c.kq.users, u.1 ∈ c.ids
  listed : ∀ id ∈ c.pollFds, id ∈ c.ids

structure Settled (c : EpollFDCtx) (m : RegisteredFDsNode) : Prop where
  own : Own c.kq c.pollFds m
  registered : m.isRegistered = true

structure Whole (c : EpollFDCtx) : Prop extends Shape c where
  settled : ∀ m ∈ c.registeredFds, c.Settled m

/-- The node has its place in the table, and all others are settled. -/
structure Around (n : RegisteredFDsNode) (c : EpollFDCtx) : Prop extends Shape c where
  place : ∃ m ∈ c.registeredFds, m.id = n.id ∧ m.fd = n.fd
  settled : ∀ m ∈ c.registeredFds, m.id ≠ n.id → c.Settled m

theorem Shape.eq_of_id (shape : c.Shape) (left : n ∈ c.registeredFds) (right : m ∈ c.registeredFds)
    (same : n.id = m.id) : n = m :=
  List.inj_on_of_nodup_map shape.ids left right same

theorem Shape.eq_of_fd (shape : c.Shape) (left : n ∈ c.registeredFds) (right : m ∈ c.registeredFds)
    (same : n.fd = m.fd) : n = m :=
  List.inj_on_of_nodup_map shape.fds left right same

theorem Shape.nodeAt_iff (shape : c.Shape) {id : ℕ} : c.nodeAt id = some n ↔ n ∈ c.registeredFds ∧ n.id = id :=
  find?_key_iff shape.ids

theorem Shape.find_iff (shape : c.Shape) {fd : ℕ} : c.find fd = some n ↔ n ∈ c.registeredFds ∧ n.fd = fd :=
  find?_key_iff shape.fds

theorem Shape.nodeAt (shape : c.Shape) {id : ℕ} (member : id ∈ c.ids) :
    ∃ n ∈ c.registeredFds, n.id = id ∧ c.nodeAt id = some n := by
  obtain ⟨n, within, rfl⟩ := List.mem_map.mp member
  exact ⟨n, within, rfl, shape.nodeAt_iff.mpr ⟨within, rfl⟩⟩

theorem find_eq_none {fd : ℕ} : c.find fd = none ↔ ∀ m ∈ c.registeredFds, m.fd ≠ fd := by
  simp [find]

theorem Around.fd_ne (around : Around n c) (member : m ∈ c.registeredFds) (other : m.id ≠ n.id) : m.fd ≠ n.fd := by
  obtain ⟨stored, within, id, fd⟩ := around.place
  intro same
  have equal := around.eq_of_fd member within (same.trans fd.symm)
  exact other (equal ▸ id)

theorem Around.fd_eq (around : Around n c) (member : m ∈ c.registeredFds) (same : m.id = n.id) : m.fd = n.fd := by
  obtain ⟨stored, within, id, fd⟩ := around.place
  rw [around.eq_of_id member within (same.trans id.symm), fd]

theorem Around.mem_ids (around : Around n c) : n.id ∈ c.ids := by
  obtain ⟨stored, within, id, _⟩ := around.place
  exact id ▸ List.mem_map_of_mem within

theorem Whole.around (whole : c.Whole) (member : n ∈ c.registeredFds) : Around n c where
  toShape := whole.toShape
  place := ⟨n, member, rfl, rfl⟩
  settled := fun m within _ => whole.settled m within

/-- Who the node is is all that counts. -/
theorem Around.of_same (around : Around n c) (id : m.id = n.id) (fd : m.fd = n.fd) : Around m c where
  toShape := around.toShape
  place := id ▸ fd ▸ around.place
  settled := id ▸ around.settled

theorem Around.leaves (around : Around n c) (leaves : Leaves n c c') : Around n c' := by
  have same : c'.ids = c.ids := by rw [EpollFDCtx.ids, leaves.registered, EpollFDCtx.ids]
  refine ⟨⟨?_, ?_, ?_, ?_, leaves.polls around.polls, ?_, ?_, ?_⟩, ?_, ?_⟩
  · exact same ▸ around.ids
  · exact leaves.registered ▸ around.fds
  · rw [same, leaves.next]
    exact around.next
  · rw [leaves.size, leaves.registered, around.size]
  · intro k member
    rw [same]
    rcases leaves.knotes k member with before | mine
    · exact around.knotes k before
    · exact mine ▸ around.mem_ids
  · intro u member
    rw [same]
    rcases leaves.users u member with before | mine
    · exact around.users u before
    · exact mine ▸ around.mem_ids
  · intro id member
    rw [same]
    rcases leaves.listed id member with before | rfl
    · exact around.listed id before
    · exact around.mem_ids
  · rw [leaves.registered]
    exact around.place
  · intro m member other
    rw [leaves.registered] at member
    obtain ⟨own, registered⟩ := around.settled m member other
    exact ⟨leaves.others m other (around.fd_ne member other) own, registered⟩

theorem Around.mem_store (around : Around n c) :
    m ∈ (c.store n).registeredFds ↔ m ∈ c.registeredFds ∧ m.id ≠ n.id ∨ m = n := by
  have present : n.id ∈ c.registeredFds.map (·.id) := around.mem_ids
  simp only [store, mem_put, present, and_true]

theorem Around.shape_store (around : Around n c) : (c.store n).Shape := by
  have sameIds : (c.store n).ids = c.ids := map_put fun _ _ same => same
  have sameFds : (c.store n).registeredFds.map (·.fd) = c.registeredFds.map (·.fd) := by
    exact map_put fun m member same => around.fd_eq member same
  refine ⟨?_, ?_, ?_, ?_, ⟨around.polls.nodup, around.polls.size⟩, ?_, ?_, ?_⟩
  · exact sameIds ▸ around.ids
  · exact sameFds ▸ around.fds
  · rw [sameIds]
    exact around.next
  · exact around.size.trans length_put.symm
  · rw [sameIds]
    exact around.knotes
  · rw [sameIds]
    exact around.users
  · rw [sameIds]
    exact around.listed

/-- A settled node takes its place. -/
theorem Around.store (around : Around n c) (settled : c.Settled n) : (c.store n).Whole where
  toShape := around.shape_store
  settled := by
    intro m member
    rcases around.mem_store.mp member with ⟨before, other⟩ | rfl
    · exact ⟨(around.settled m before other).own, (around.settled m before other).registered⟩
    · exact ⟨settled.own, settled.registered⟩

theorem Around.drop (around : Around n c) (detached : Detached c.kq c.pollFds n) :
    Whole { c with
      registeredFds := leaveOut (·.id) n.id c.registeredFds, registeredFdsSize := c.registeredFdsSize - 1 } := by
  set dropped := leaveOut (·.id) n.id c.registeredFds
  have mem_ids : ∀ id, id ∈ c.ids → id ≠ n.id → id ∈ dropped.map (·.id) := by
    intro id member other
    obtain ⟨m, within, rfl⟩ := List.mem_map.mp member
    exact List.mem_map_of_mem (mem_leaveOut.mpr ⟨within, other⟩)
  refine ⟨⟨?_, ?_, ?_, ?_, ⟨around.polls.nodup, around.polls.size⟩, ?_, ?_, ?_⟩, ?_⟩
  · exact around.ids.sublist (map_leaveOut_sublist _)
  · exact around.fds.sublist (map_leaveOut_sublist _)
  · exact fun id member => around.next id ((map_leaveOut_sublist _).subset member)
  · have shorter := length_leaveOut around.ids around.mem_ids
    rw [around.size]
    exact Nat.sub_eq_of_eq_add shorter.symm
  · exact fun k member => mem_ids _ (around.knotes k member) (detached.knotes k member)
  · exact fun u member => mem_ids _ (around.users u member) (detached.users u member)
  · exact fun id member => mem_ids id (around.listed id member) fun same => detached.unlisted (same ▸ member)
  · intro m member
    obtain ⟨within, other⟩ := mem_leaveOut.mp member
    exact ⟨(around.settled m within other).own, (around.settled m within other).registered⟩

theorem Around.removeNode (around : Around n c) (removable : Removable c.kq c.pollFds n) :
    ∃ c', c.removeNode n = .ok c' ∧ c'.Whole ∧ c'.registeredFds = leaveOut (·.id) n.id c.registeredFds := by
  obtain ⟨c', removed, leaves, detached⟩ := removeNodeFromKq_spec removable around.polls
  have around' := around.leaves leaves
  have some : c'.registeredFdsSize ≠ 0 := by
    obtain ⟨m, member, _⟩ := around'.place
    rw [around'.size]
    exact (List.length_pos_of_mem member).ne'
  have whole := (around'.of_same (m := n.unwatched) rfl rfl).drop (detached.of_same rfl)
  refine ⟨_, ?_, whole, ?_⟩
  · simp only [EpollFDCtx.removeNode, removed, bind, Except.bind, if_neg some]
    rfl
  · show leaveOut (·.id) n.unwatched.id c'.registeredFds = _
    rw [leaves.registered]
    rfl

theorem Whole.removeNode (whole : c.Whole) (member : n ∈ c.registeredFds) :
    ∃ c', c.removeNode n = .ok c' ∧ c'.Whole ∧ c'.registeredFds = leaveOut (·.id) n.id c.registeredFds :=
  (whole.around member).removeNode (whole.settled n member).own.removable

/-! ## What is asked of the set -/

/-- The descriptors of the set, with what is asked of each. -/
def interests (c : EpollFDCtx) (fd : ℕ) : Option Interest := (c.find fd).map (·.interest)

theorem interests_eq_some (shape : c.Shape) {fd : ℕ} {i : Interest} :
    c.interests fd = some i ↔ ∃ n ∈ c.registeredFds, n.fd = fd ∧ n.interest = i := by
  simp only [interests, Option.map_eq_some_iff, shape.find_iff, and_assoc]

theorem interests_eq_none {fd : ℕ} : c.interests fd = none ↔ ∀ m ∈ c.registeredFds, m.fd ≠ fd := by
  rw [interests, Option.map_eq_none_iff, find_eq_none]

theorem interests_congr (same : c'.registeredFds = c.registeredFds) : c'.interests = c.interests := by
  funext fd
  simp only [interests, find, same]

theorem Around.interests_store (around : Around n c) :
    (c.store n).interests = Function.update c.interests n.fd (some n.interest) := by
  funext fd
  refine Option.ext fun i => ?_
  rw [interests_eq_some around.shape_store]
  by_cases here : fd = n.fd
  · subst here
    rw [Function.update_self, Option.some.injEq]
    constructor
    · rintro ⟨m, member, fd, rfl⟩
      rcases around.mem_store.mp member with ⟨before, other⟩ | rfl
      · exact absurd fd (around.fd_ne before other)
      · rfl
    · rintro rfl
      exact ⟨n, around.mem_store.mpr (.inr rfl), rfl, rfl⟩
  · rw [Function.update_of_ne here, interests_eq_some around.toShape]
    constructor
    · rintro ⟨m, member, rfl, rfl⟩
      rcases around.mem_store.mp member with ⟨before, _⟩ | rfl
      · exact ⟨m, before, rfl, rfl⟩
      · exact absurd rfl here
    · rintro ⟨m, member, rfl, rfl⟩
      exact ⟨m, around.mem_store.mpr (.inl ⟨member, fun same => here (around.fd_eq member same)⟩), rfl, rfl⟩

theorem Around.interests_leaveOut (around : Around n c) (shape : c'.Shape)
    (left : c'.registeredFds = leaveOut (·.id) n.id c.registeredFds) :
    c'.interests = Function.update c.interests n.fd none := by
  funext fd
  refine Option.ext fun i => ?_
  rw [interests_eq_some shape, left]
  simp only [mem_leaveOut]
  by_cases here : fd = n.fd
  · subst here
    rw [Function.update_self]
    constructor
    · rintro ⟨m, ⟨before, other⟩, fd, _⟩
      exact absurd fd (around.fd_ne before other)
    · rintro ⟨⟩
  · rw [Function.update_of_ne here, interests_eq_some around.toShape]
    constructor
    · rintro ⟨m, ⟨before, _⟩, fd, asked⟩
      exact ⟨m, before, fd, asked⟩
    · rintro ⟨m, member, rfl, rfl⟩
      exact ⟨m, ⟨member, fun same => here (around.fd_eq member same)⟩, rfl, rfl⟩

/-! ## Registered, or removed again -/

/-- Between two calls nothing waits to be given out. -/
structure Quiet (c : EpollFDCtx) : Prop extends Whole c where
  silent : ∀ m ∈ c.registeredFds, m.revents = ∅

theorem Quiet.removeNode (quiet : c.Quiet) (member : n ∈ c.registeredFds) :
    ∃ c', c.removeNode n = .ok c' ∧ c'.Quiet ∧ c'.interests = Function.update c.interests n.fd none ∧
      c'.registeredFds = leaveOut (·.id) n.id c.registeredFds := by
  obtain ⟨c', removed, whole, left⟩ := quiet.toWhole.removeNode member
  refine ⟨c', removed, ⟨whole, fun m within => ?_⟩, (quiet.around member).interests_leaveOut whole.toShape left, left⟩
  rw [left] at within
  exact quiet.silent m (mem_leaveOut.mp within).1

/-- The kernel refused the node. -/
theorem Around.refused {n' : RegisteredFDsNode} {ec : Option Error} (around : Around n c)
    (silent : ∀ m ∈ c.registeredFds, m.id ≠ n.id → m.revents = ∅) (registered : Registered c n (c', n', ec)) :
    ∃ c'', c'.removeNode n' = .ok c'' ∧ c''.Quiet ∧ c''.interests = Function.update c.interests n.fd none := by
  obtain ⟨leaves, same, removable, _⟩ := registered
  have around' := (around.leaves leaves).of_same same.id same.fd
  obtain ⟨c'', removed, whole, left⟩ := around'.removeNode removable
  have left' : c''.registeredFds = leaveOut (·.id) n.id c.registeredFds := by
    rw [left, leaves.registered, same.id]
  refine ⟨c'', removed, ⟨whole, fun m within => ?_⟩, around.interests_leaveOut whole.toShape left'⟩
  rw [left'] at within
  obtain ⟨before, other⟩ := mem_leaveOut.mp within
  exact silent m before other

/-- The kernel took the node. -/
theorem Around.accepted {n' : RegisteredFDsNode} (around : Around n c)
    (silent : ∀ m ∈ c.registeredFds, m.id ≠ n.id → m.revents = ∅) (own : n.revents = ∅)
    (registered : Registered c n (c', n', none)) :
    (c'.store { n' with isRegistered := true }).Quiet ∧
      (c'.store { n' with isRegistered := true }).interests = Function.update c.interests n.fd (some n.interest) := by
  obtain ⟨leaves, same, _, settled⟩ := registered
  have around' : Around { n' with isRegistered := true } c' := (around.leaves leaves).of_same same.id same.fd
  refine ⟨⟨around'.store ⟨(settled rfl).register, rfl⟩, fun m member => ?_⟩, ?_⟩
  · rcases around'.mem_store.mp member with ⟨before, other⟩ | rfl
    · exact silent m (leaves.registered ▸ before) fun equal => other (equal.trans same.id.symm)
    · exact same.revents.trans own
  · rw [around'.interests_store, interests_congr leaves.registered]
    exact congr (congrArg _ same.fd) (congrArg some same.interest)

/-! ## The calls -/

/-- What a program asks of a descriptor; only sockets support `EPOLLRDHUP` and `EPOLLPRI`. -/
def EpollEventArg.asks (ev : EpollEventArg) (socket : Bool) : Interest :=
  ⟨socket, ev.data, ev.events ∩ (if socket then {epollin, epollpri, epollrdhup, epollout} else {epollin, epollout}),
    ev.edgeTriggered || ev.oneshot, ev.oneshot⟩

abbrev requested (n : RegisteredFDsNode) (ev : EpollEventArg) : RegisteredFDsNode :=
  n.updateFlagsFromEpollEvent ev.events ev.data ev.edgeTriggered ev.oneshot

theorem supported_interest (n : RegisteredFDsNode) (ev : EpollEventArg) :
    (supported (requested n ev)).interest = ev.asks (n.nodeType = .socket) := by
  by_cases socket : n.nodeType = .socket
  · simp [supported, socket, RegisteredFDsNode.interest, EpollEventArg.asks, updateFlagsFromEpollEvent]
  · have events : (ev.events ∩ {epollin, epollpri, epollrdhup, epollout}) \ {epollrdhup, epollpri} =
        ev.events ∩ {epollin, epollout} := by
      ext event
      cases event <;> simp
    simp [supported, socket, RegisteredFDsNode.interest, EpollEventArg.asks, updateFlagsFromEpollEvent, events]

/-- The request leaves who the node is. -/
theorem supported_same (n : RegisteredFDsNode) (ev : EpollEventArg) :
    (supported (requested n ev)).id = n.id ∧ (supported (requested n ev)).fd = n.fd ∧
      (supported (requested n ev)).revents = n.revents ∧ (supported (requested n ev)).nodeType = n.nodeType ∧
      (supported (requested n ev)).isRegistered = n.isRegistered ∧ (supported (requested n ev)).has = n.has ∧
      (supported (requested n ev)).eofState = n.eofState ∧
      (supported (requested n ev)).isOnPollfdList = n.isOnPollfdList := by
  rw [supported]
  split <;> exact ⟨rfl, rfl, rfl, rfl, rfl, rfl, rfl, rfl⟩

theorem supported_typed {ev : EpollEventArg} (pri : epollpri ∉ ev.events)
    (fifo : ∀ readable writable, n.nodeType = .fifo readable writable → readable = true ∨ writable = true)
    (kqueue : n.nodeType = .kqueue → n.eofState = .none) : (supported (requested n ev)).Typed := by
  obtain ⟨_, _, _, nodeType, _, _, eofState, _⟩ := supported_same n ev
  have asks := congrArg Interest.events (supported_interest n ev)
  have events : (supported (requested n ev)).events = (ev.asks (n.nodeType = .socket)).events := asks
  refine ⟨?_, ?_, ?_, ?_⟩
  · rw [nodeType, events]
    intro plain
    simp [EpollEventArg.asks, plain]
  · rw [events]
    simp [EpollEventArg.asks, pri]
  · rw [nodeType]
    exact fifo
  · rw [nodeType, eofState]
    exact kqueue

theorem insert_interests (n : RegisteredFDsNode) (c : EpollFDCtx) :
    (c.insert n).interests = Function.update c.interests n.fd (some n.interest) := by
  funext fd
  by_cases here : fd = n.fd
  · subst here
    simp [interests, find, insert]
  · have apart : n.fd ≠ fd := Ne.symm here
    simp [interests, find, insert, here, apart]

/-- A new node has its place, and nothing refers to it. -/
theorem Whole.insert (whole : c.Whole) (new : n.id = c.next) (absent : ∀ m ∈ c.registeredFds, m.fd ≠ n.fd) :
    Around n (c.insert n) ∧ Detached (c.insert n).kq (c.insert n).pollFds n := by
  have fresh : n.id ∉ c.ids := fun member => (whole.next n.id member).ne new
  have known : ∀ id ∈ c.ids, id ∈ (c.insert n).ids := fun id member => List.mem_cons_of_mem _ member
  refine ⟨⟨⟨?_, ?_, ?_, ?_, ⟨whole.polls.nodup, whole.polls.size⟩, ?_, ?_, ?_⟩, ⟨n, List.mem_cons_self .., rfl, rfl⟩, ?_⟩,
    ?_⟩
  · exact List.nodup_cons.mpr ⟨fresh, whole.ids⟩
  · refine List.nodup_cons.mpr ⟨fun member => ?_, whole.fds⟩
    obtain ⟨m, within, same⟩ := List.mem_map.mp member
    exact absent m within same
  · intro id member
    show id < c.next + 1
    rcases List.mem_cons.mp member with rfl | before
    · exact new ▸ Nat.lt_succ_self _
    · exact Nat.lt_succ_of_lt (whole.next id before)
  · exact congrArg (· + 1) whole.size
  · exact fun k member => known _ (whole.knotes k member)
  · exact fun u member => known _ (whole.users u member)
  · exact fun id member => known _ (whole.listed id member)
  · intro m member other
    rcases List.mem_cons.mp member with rfl | before
    · exact absurd rfl other
    · exact ⟨(whole.settled m before).own, (whole.settled m before).registered⟩
  · exact ⟨fun k member same => fresh (same ▸ whole.knotes k member),
      fun u member same => fresh (same ▸ whole.users u member), fun member => fresh (whole.listed n.id member)⟩

theorem StatAnswer.nodeType_spec {stat : StatAnswer} {nodeType : NodeType} (told : stat.nodeType = .ok nodeType) :
    (decide (nodeType = .socket) = (!stat.fifo && stat.socket)) ∧ nodeType ≠ .poll ∧
      ∀ readable writable, nodeType = .fifo readable writable → readable = true ∨ writable = true := by
  simp only [StatAnswer.nodeType] at told
  split at told <;> rename_i fifo
  · split at told
    · cases told
      exact ⟨by simp [fifo], by simp, by simp⟩
    · split at told
      · cases told
      · cases told
      · rename_i readable writable some _
        cases told
        refine ⟨by simp [fifo], by simp, ?_⟩
        rintro _ _ ⟨⟩
        by_contra neither
        rw [not_or, Bool.not_eq_true, Bool.not_eq_true] at neither
        exact some neither.1 neither.2
  · split at told <;> rename_i socket
    · cases told
      exact ⟨by simp [fifo, socket], by simp, by simp⟩
    · cases told
      exact ⟨by simp [fifo, socket], by simp, by simp⟩

/-- What there is of a node that the kernel took, or what is left where it did not. -/
structure Asked (c : EpollFDCtx) (fd : ℕ) (i : Interest) (refused : ℕ → Option Interest)
    (result : EpollFDCtx × Option Error) : Prop where
  quiet : result.1.Quiet
  interests : result.1.interests = match result.2 with
    | none => Function.update c.interests fd (some i)
    | some _ => refused

theorem Quiet.addNode (quiet : c.Quiet) {fd : ℕ} (absent : c.interests fd = none) {ev : EpollEventArg}
    (pri : epollpri ∉ ev.events) (stat : StatAnswer) (answer : RegisterAnswer) :
    Fine (Asked c fd (ev.asks (!stat.fifo && stat.socket)) c.interests) (c.addNode fd ev stat answer) := by
  rw [EpollFDCtx.addNode]
  split
  · exact ⟨quiet, rfl⟩
  cases told : stat.nodeType with
  | error ec => exact ⟨quiet, rfl⟩
  | ok nodeType =>
      obtain ⟨socket, notPoll, fifo⟩ := StatAnswer.nodeType_spec told
      have new : (c.find fd).isSome = false := by
        rw [Option.isSome_eq_false_iff, Option.isNone_iff_eq_none]
        exact Option.map_eq_none_iff.mp absent
      simp only [new, Bool.false_eq_true, if_false]
      set n := requested (registeredFdsNodeCreate c.next fd nodeType) ev with node
      obtain ⟨around, detached⟩ := quiet.toWhole.insert (n := n) rfl (interests_eq_none.mp absent)
      obtain ⟨id, fd', revents, nodeType', isRegistered, has, _, off⟩ :=
        supported_same (registeredFdsNodeCreate c.next fd nodeType) ev
      have around' : Around (supported n) (c.insert n) := around.of_same id fd'
      have detached' : Detached (c.insert n).kq (c.insert n).pollFds (supported n) := detached.of_same id
      have typed : (supported n).Typed := supported_typed pri fifo fun _ => rfl
      have unlisted : (supported n).id ∈ (c.insert n).pollFds ↔ (supported n).isOnPollfdList = true := by
        rw [off]
        simpa [registeredFdsNodeCreate] using detached'.unlisted
      have removable : Removable (c.insert n).kq (c.insert n).pollFds (supported n) := by
        refine ⟨typed, fun k member mine => absurd mine (detached'.knotes k member), fun poll => ?_, unlisted⟩
        exact absurd (nodeType'.symm.trans poll) notPoll
      have fresh : Fresh (c.insert n) (supported n) := ⟨detached', fun filter => congrFun has filter, off⟩
      have silent : ∀ m ∈ (c.insert n).registeredFds, m.id ≠ (supported n).id → m.revents = ∅ := by
        intro m member other
        rcases List.mem_cons.mp member with rfl | before
        · exact absurd id.symm other
        · exact quiet.silent m before
      have asks : (supported n).interest = ev.asks (!stat.fifo && stat.socket) := socket ▸ supported_interest _ ev
      have registered : Fine (Registered (c.insert n) (supported n)) ((c.insert n).registerEvents n answer) :=
        registerEvents_spec around.polls removable fun _ => ⟨notPoll, fresh⟩
      refine registered.bind ?_
      rintro ⟨c', n', _ | ec⟩ registered
      · obtain ⟨quiet', interests⟩ := around'.accepted silent revents registered
        refine ⟨quiet', ?_⟩
        show _ = Function.update c.interests fd (some (ev.asks (!stat.fifo && stat.socket)))
        rw [interests, insert_interests, fd', asks]
        exact Function.update_idem ..
      · obtain ⟨c'', removed, quiet', interests⟩ := around'.refused silent registered
        simp only [removed]
        refine ⟨quiet', ?_⟩
        show c''.interests = c.interests
        rw [interests, insert_interests, fd']
        refine (Function.update_idem ..).trans ?_
        show Function.update c.interests fd none = c.interests
        rw [← absent, Function.update_eq_self]

theorem Quiet.modifyNode (quiet : c.Quiet) (member : n ∈ c.registeredFds) {ev : EpollEventArg}
    (pri : epollpri ∉ ev.events) (answer : RegisterAnswer) :
    Fine (Asked c n.fd (ev.asks n.interest.socket) (Function.update c.interests n.fd none))
      (c.modifyNode n ev answer) := by
  obtain ⟨own, isRegistered⟩ := quiet.settled n member
  obtain ⟨id, fd, revents, nodeType, isRegistered', has, _, on⟩ := supported_same n ev
  have around : Around (supported (requested n ev)) c := (quiet.around member).of_same id fd
  have typed : (supported (requested n ev)).Typed := supported_typed pri own.typed.fifo own.typed.kqueue
  have removable : Removable c.kq c.pollFds (supported (requested n ev)) := by
    refine ⟨typed, ?_, ?_, ?_⟩
    · rw [id, fd, nodeType]
      exact own.removable.knotes
    · rw [nodeType, has]
      exact own.removable.poll
    · rw [id, on]
      exact own.listed
  have silent : ∀ m ∈ c.registeredFds, m.id ≠ (supported (requested n ev)).id → m.revents = ∅ :=
    fun m within _ => quiet.silent m within
  have registered : Fine (Registered c (supported (requested n ev))) (c.registerEvents (requested n ev) answer) :=
    registerEvents_spec quiet.polls removable fun unregistered => absurd (isRegistered.symm.trans unregistered) (by simp)
  rw [EpollFDCtx.modifyNode, if_neg (by simp [updateFlagsFromEpollEvent, isRegistered])]
  refine registered.bind ?_
  rintro ⟨c', n', _ | ec⟩ registered
  · obtain ⟨quiet', interests⟩ := around.accepted silent (revents.trans (quiet.silent n member)) registered
    have same : { n' with isRegistered := true } = n' := by
      have on : n'.isRegistered = true := registered.same.isRegistered.trans (isRegistered'.trans isRegistered)
      rw [← on]
    rw [same] at quiet' interests
    refine ⟨quiet', ?_⟩
    rw [interests, fd, supported_interest]
    rfl
  · obtain ⟨c'', removed, quiet', interests⟩ := around.refused silent registered
    simp only [removed]
    exact ⟨quiet', by rw [interests, fd]⟩

theorem Quiet.epollfdCtxRemoveFd (quiet : c.Quiet) (fd : ℕ) :
    ∃ c', c.epollfdCtxRemoveFd fd = .ok c' ∧ c'.Quiet ∧ c'.interests = Function.update c.interests fd none := by
  cases found : c.find fd with
  | none =>
      have absent : c.interests fd = none := by rw [EpollFDCtx.interests, found, Option.map_none]
      refine ⟨c, ?_, quiet, ?_⟩
      · rw [EpollFDCtx.epollfdCtxRemoveFd, found]
      · rw [← absent, Function.update_eq_self]
  | some n =>
      obtain ⟨member, rfl⟩ := quiet.find_iff.mp found
      obtain ⟨c', removed, quiet', interests, _⟩ := quiet.removeNode member
      refine ⟨c', ?_, quiet', interests⟩
      rw [EpollFDCtx.epollfdCtxRemoveFd, found]
      exact removed

/-- What becomes of what is asked of each descriptor. -/
def CtlSpec (before : ℕ → Option Interest) (kq : ℕ) (op : Op) (fd : ℕ) (ev : EpollEventArg)
    (fstat : Except Error StatAnswer) (after : ℕ → Option Interest) (result : Option Error) : Prop :=
  if kq = fd ∨ op ≠ .del ∧ ev.unsupported = true then after = before ∧ result = some .EINVAL
  else match fstat with
    | .error ec => after = Function.update before fd none ∧ result = some ec
    | .ok stat =>
        match op, before fd with
        | .add, none =>
            after = Function.update before fd (some (ev.asks (!stat.fifo && stat.socket))) ∧ result = none ∨
              after = before ∧ result ≠ none
        | .add, some _ => after = before ∧ result = some .EEXIST
        | .del, none => after = before ∧ result = some .ENOENT
        | .del, some _ => after = Function.update before fd none ∧ result = none
        | .mod, none => after = before ∧ result = some .ENOENT
        | .mod, some i =>
            after = Function.update before fd (some (ev.asks i.socket)) ∧ result = none ∨
              after = Function.update before fd none ∧ result ≠ none
        | .unknown, _ => after = before ∧ result = some .EINVAL

theorem Asked.either {fd : ℕ} {i : Interest} {refused : ℕ → Option Interest} {result : EpollFDCtx × Option Error}
    (asked : Asked c fd i refused result) :
    result.1.interests = Function.update c.interests fd (some i) ∧ result.2 = none ∨
      result.1.interests = refused ∧ result.2 ≠ none := by
  obtain ⟨c', _ | ec⟩ := result
  · exact .inl ⟨asked.interests, rfl⟩
  · exact .inr ⟨asked.interests, by simp⟩

theorem Quiet.epollfdCtxCtl (quiet : c.Quiet) (kq : ℕ) (op : Op) (fd : ℕ) {ev : EpollEventArg}
    (pri : op ≠ .del → epollpri ∉ ev.events) (fstat : Except Error StatAnswer) (answer : RegisterAnswer) :
    Fine (fun result => result.1.Quiet ∧ CtlSpec c.interests kq op fd ev fstat result.1.interests result.2)
      (c.epollfdCtxCtl kq op fd ev fstat answer) := by
  unfold EpollFDCtx.epollfdCtxCtl
  by_cases own : kq = fd
  · rw [if_pos own]
    exact ⟨quiet, by simp [CtlSpec, own]⟩
  rw [if_neg own]
  by_cases refused : op ≠ .del ∧ ev.unsupported = true
  · rw [if_pos refused]
    exact ⟨quiet, by simp [CtlSpec, refused]⟩
  rw [if_neg refused]
  have goesOn : ¬ (kq = fd ∨ op ≠ .del ∧ ev.unsupported = true) := not_or.mpr ⟨own, refused⟩
  simp only [CtlSpec, if_neg goesOn]
  cases fstat with
  | error ec =>
      obtain ⟨c', removed, quiet', interests⟩ := quiet.epollfdCtxRemoveFd fd
      rw [EpollFDCtx.epollfdCtxRemoveFd] at removed
      cases found : c.find fd with
      | none =>
          rw [found] at removed
          cases removed
          exact ⟨quiet', interests, rfl⟩
      | some n =>
          rw [found] at removed
          simp only [removed]
          exact ⟨quiet', interests, rfl⟩
  | ok stat =>
      cases found : c.find fd with
      | none =>
          have absent : c.interests fd = none := by rw [EpollFDCtx.interests, found, Option.map_none]
          simp only [absent]
          cases op with
          | add =>
              exact (quiet.addNode absent (pri (by decide)) stat answer).mono
                fun result asked => ⟨asked.quiet, asked.either⟩
          | del => exact ⟨quiet, rfl, rfl⟩
          | mod => exact ⟨quiet, rfl, rfl⟩
          | unknown => exact ⟨quiet, rfl, rfl⟩
      | some n =>
          obtain ⟨member, rfl⟩ := quiet.find_iff.mp found
          have present : c.interests n.fd = some n.interest := by rw [EpollFDCtx.interests, found, Option.map_some]
          simp only [present]
          cases op with
          | add => exact ⟨quiet, rfl, rfl⟩
          | del =>
              obtain ⟨c', removed, quiet', interests, _⟩ := quiet.removeNode member
              simp only [removed]
              exact ⟨quiet', interests, rfl⟩
          | mod =>
              exact (quiet.modifyNode member (pri (by decide)) answer).mono
                fun result asked => ⟨asked.quiet, asked.either⟩
          | unknown => exact ⟨quiet, rfl, rfl⟩

end EpollFDCtx

end Iland.Epoll

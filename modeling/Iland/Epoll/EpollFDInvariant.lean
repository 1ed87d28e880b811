import Iland.Epoll.EpollFD

namespace Iland.Epoll

open Iland.Data EpollEvent

/-! What holds of an epoll set between the calls.

Nobody asks for `EPOLLPRI` here: the filter for it stays in the queue when its
node is freed.
-/

namespace RegisteredFDsNode

variable {n : RegisteredFDsNode}

/-- The request fits the kind of descriptor. -/
structure Typed (n : RegisteredFDsNode) : Prop where
  plain : n.nodeType ≠ .socket → n.events ⊆ {epollin, epollout}
  pri : epollpri ∉ n.events
  fifo : ∀ readable writable, n.nodeType = .fifo readable writable → readable = true ∨ writable = true
  kqueue : n.nodeType = .kqueue → n.eofState = .none

/-- What the needed filters have to do with the kind of descriptor. -/
structure NeededFor (n : RegisteredFDsNode) (needed : NeededFilters) : Prop where
  watched : needed.evfiltRead ≠ .no ∨ needed.evfiltWrite ≠ .no
  except : needed.evfiltExcept = .no
  fifo : ∀ readable writable, n.nodeType = .fifo readable writable →
    (needed.evfiltRead ≠ .no → readable = true) ∧
      (needed.evfiltWrite ≠ .no ↔ writable = true ∧ (readable = true → epollout ∈ n.events))
  kqueue : n.nodeType = .kqueue → needed.evfiltWrite = .no
  other : n.nodeType = .other → needed.evfiltWrite ≠ .no → n.events ≠ ∅

theorem edge_eq_no {needed : Needed} : n.edge needed = .no ↔ needed = .no := by
  simp only [edge]
  split <;> rename_i pulse
  · simp [pulse.2]
  · rfl

theorem ofBool_eq_no {wanted : Bool} : Needed.ofBool wanted = .no ↔ wanted = false := by
  cases wanted <;> simp [Needed.ofBool]

theorem or_eq_no {needed other : Needed} : needed.or other = .no ↔ needed = .no ∧ other = .no := by
  cases needed <;> simp [Needed.or]

theorem hangupFilter_ne_no : n.hangupFilter ≠ .no := by
  simp only [hangupFilter]
  split <;> simp

theorem ofBool_wants {event : EpollEvent} : Needed.ofBool (n.wants event) = .no ↔ event ∉ n.events := by
  rw [ofBool_eq_no, wants, decide_eq_false_iff_not]

/-- Something watches a socket, whatever is asked for and has ended. -/
theorem socketFilters_watched : n.socketFilters.evfiltRead ≠ .no ∨ n.socketFilters.evfiltWrite ≠ .no := by
  simp only [socketFilters]
  generalize n.eofState = eofState
  obtain ⟨readEof, writeEof⟩ := eofState
  cases n.wants epollin <;> cases n.wants epollout <;> cases n.wants epollrdhup <;> cases readEof <;> cases writeEof <;>
    decide

/-- The filter for reading, where that is what watches for the end. -/
def readOrHangup (n : RegisteredFDsNode) : Needed :=
  if n.events = ∅ then n.hangupFilter else .ofBool (n.wants epollin)

theorem readOrHangup_eq_no : n.readOrHangup = .no ↔ n.events ≠ ∅ ∧ epollin ∉ n.events := by
  simp only [readOrHangup]
  split <;> rename_i none
  · simp [none, hangupFilter_ne_no]
  · simp [none, ofBool_wants]

theorem watched_of_plain (plain : n.events ⊆ {epollin, epollout}) :
    n.readOrHangup ≠ .no ∨ Needed.ofBool (n.wants epollout) ≠ .no := by
  by_contra deaf
  simp only [not_or, not_not, readOrHangup_eq_no, ofBool_wants] at deaf
  obtain ⟨⟨some, noIn⟩, noOut⟩ := deaf
  obtain ⟨event, member⟩ := Finset.nonempty_iff_ne_empty.mpr some
  have known := plain member
  simp only [Finset.mem_insert, Finset.mem_singleton] at known
  rcases known with rfl | rfl
  · exact noIn member
  · exact noOut member

theorem ofBool_wants_out : Needed.ofBool (n.wants epollout) ≠ .no ↔ epollout ∈ n.events := by
  rw [ne_eq, ofBool_wants, not_not]

theorem Typed.levelFilters (typed : n.Typed) : ∃ needed, n.levelFilters = some needed ∧ NeededFor n needed := by
  cases kind : n.nodeType with
  | fifo readable writable =>
      have way := typed.fifo readable writable kind
      have plain := typed.plain (by simp [kind])
      simp only [RegisteredFDsNode.levelFilters, kind]
      cases readable with
      | false =>
          cases writable with
          | false => simp at way
          | true =>
              have hangup : (Needed.ofBool (n.wants epollout)).or n.hangupFilter ≠ .no :=
                fun none => hangupFilter_ne_no (or_eq_no.mp none).2
              refine ⟨_, rfl, .inr hangup, rfl, ?_, by simp [kind], by simp [kind]⟩
              intro readable writable same
              cases kind.symm.trans same
              exact ⟨fun some => absurd rfl some, fun _ => ⟨rfl, by simp⟩, fun _ => hangup⟩
      | true =>
          cases writable with
          | false =>
              refine ⟨_, rfl, .inl fun none => hangupFilter_ne_no (or_eq_no.mp none).2, rfl, ?_, by simp [kind],
                by simp [kind]⟩
              intro readable writable same
              cases kind.symm.trans same
              exact ⟨fun _ => rfl, by simp⟩
          | true =>
              refine ⟨_, rfl, watched_of_plain plain, rfl, ?_, by simp [kind], by simp [kind]⟩
              intro readable writable same
              cases kind.symm.trans same
              refine ⟨fun _ => rfl, ?_⟩
              rw [ofBool_wants_out]
              simp
  | socket =>
      simp only [RegisteredFDsNode.levelFilters, kind]
      exact ⟨_, rfl, socketFilters_watched, ofBool_wants.mpr typed.pri, by simp [kind], by simp [kind], by simp [kind]⟩
  | kqueue =>
      simp only [RegisteredFDsNode.levelFilters, kind, typed.kqueue kind, if_true]
      exact ⟨_, rfl, .inl fun none => by simpa using (or_eq_no.mp none).2, rfl, by simp [kind], fun _ => rfl,
        by simp [kind]⟩
  | other =>
      simp only [RegisteredFDsNode.levelFilters, kind]
      refine ⟨_, rfl, watched_of_plain (typed.plain (by simp [kind])), rfl, by simp [kind], by simp [kind], ?_⟩
      exact fun _ writes => Finset.ne_empty_of_mem (ofBool_wants_out.mp writes)
  | poll =>
      simp only [RegisteredFDsNode.levelFilters, kind]
      exact ⟨_, rfl, watched_of_plain (typed.plain (by simp [kind])), rfl, by simp [kind], by simp [kind],
        by simp [kind]⟩

/-- The assertions of `get_needed_filters` hold. -/
theorem Typed.getNeededFilters (typed : n.Typed) : ∃ needed, n.getNeededFilters = some needed ∧ NeededFor n needed := by
  obtain ⟨needed, level, watched, except, fifo, kqueue, other⟩ := typed.levelFilters
  have either : ¬ (n.edge needed.evfiltRead = .no ∧ n.edge needed.evfiltWrite = .no) := by
    rw [edge_eq_no, edge_eq_no]
    tauto
  refine ⟨⟨n.edge needed.evfiltRead, n.edge needed.evfiltWrite, n.edge needed.evfiltExcept⟩, ?_, ?_⟩
  · simp only [RegisteredFDsNode.getNeededFilters, level, bind, Option.bind_some]
    rw [if_neg either]
  · constructor <;> simp only [ne_eq, edge_eq_no]
    · exact watched
    · exact except
    · exact fifo
    · exact kqueue
    · exact other

/-- The flags of the filters fit the kind of descriptor. -/
structure Flags (n : RegisteredFDsNode) : Prop where
  except : n.has .except = false
  fifo : ∀ readable writable, n.nodeType = .fifo readable writable →
    (n.has .read = true → readable = true) ∧ (n.has .write = true → writable = true)
  kqueue : n.nodeType = .kqueue → n.has .write = false
  other : n.nodeType = .other → n.has .write = true → n.events ≠ ∅
  poll : n.nodeType = .poll → ∀ filter, n.has filter = false

/-- The node waits to ask for the filter for writing again. -/
structure Retry (n : RegisteredFDsNode) : Prop where
  unwatched : ∀ filter, n.has filter = false
  wanted : ∃ readable, n.nodeType = .fifo readable true ∧ (readable = true → epollout ∈ n.events)

/-- What the queue and the list hold for a node. -/
structure Own (kq : EpollKq) (pollFds : List ℕ) (n : RegisteredFDsNode) : Prop where
  typed : n.Typed
  flags : n.Flags
  knotes : ∀ k ∈ kq.knotes, k.udata = n.id → k.fd = n.fd ∧ n.has k.filter = true
  held : ∀ filter, n.has filter = true → ∃ k ∈ kq.knotes, k.udata = n.id ∧ k.filter = filter
  users : ∀ u ∈ kq.users, u.1 = n.id → u.2 = true → n.nodeType = .poll ∨ n.Retry
  listed : n.id ∈ pollFds ↔ n.isOnPollfdList = true
  onlyPoll : n.isOnPollfdList = true → n.nodeType = .poll

/-- All that the queue holds for the node is found when it is removed. -/
structure Removable (kq : EpollKq) (pollFds : List ℕ) (n : RegisteredFDsNode) : Prop where
  typed : n.Typed
  knotes : ∀ k ∈ kq.knotes, k.udata = n.id → k.fd = n.fd ∧ k.filter ≠ .except ∧ n.nodeType ≠ .poll
  poll : n.nodeType = .poll → ∀ filter, n.has filter = false
  listed : n.id ∈ pollFds ↔ n.isOnPollfdList = true

/-- The node when nothing watches it any more. -/
def unwatched (n : RegisteredFDsNode) : RegisteredFDsNode := { n with isOnPollfdList := false, has := fun _ => false }

/-- Nothing is left of the node but its place. -/
structure Detached (kq : EpollKq) (pollFds : List ℕ) (n : RegisteredFDsNode) : Prop where
  knotes : ∀ k ∈ kq.knotes, k.udata ≠ n.id
  users : ∀ u ∈ kq.users, u.1 ≠ n.id
  unlisted : n.id ∉ pollFds

variable {kq : EpollKq} {pollFds : List ℕ} {m : RegisteredFDsNode}

theorem Own.removable (own : Own kq pollFds n) : Removable kq pollFds n where
  typed := own.typed
  knotes := by
    intro k member mine
    obtain ⟨fd, has⟩ := own.knotes k member mine
    refine ⟨fd, ?_, ?_⟩
    · intro except
      rw [except, own.flags.except] at has
      cases has
    · intro poll
      rw [own.flags.poll poll] at has
      cases has
  poll := own.flags.poll
  listed := own.listed

theorem Own.congr {kq' : EpollKq} {pollFds' : List ℕ} (own : Own kq pollFds m)
    (knotes : ∀ k, k.udata = m.id → (k ∈ kq'.knotes ↔ k ∈ kq.knotes))
    (users : ∀ u : ℕ × Bool, u.1 = m.id → (u ∈ kq'.users ↔ u ∈ kq.users)) (polls : m.id ∈ pollFds' ↔ m.id ∈ pollFds) :
    Own kq' pollFds' m where
  typed := own.typed
  flags := own.flags
  knotes := fun k member mine => own.knotes k ((knotes k mine).mp member) mine
  held := by
    intro filter has
    obtain ⟨k, member, mine, same⟩ := own.held filter has
    exact ⟨k, (knotes k mine).mpr member, mine, same⟩
  users := fun u member mine => own.users u ((users u mine).mp member) mine
  listed := polls.trans own.listed
  onlyPoll := own.onlyPoll

theorem Own.delete (own : Own kq pollFds m) {fd : ℕ} (apart : m.fd ≠ fd) (filter : Evfilt) :
    Own (kq.delete fd filter) pollFds m := by
  refine own.congr (fun k mine => ?_) (fun _ _ => Iff.rfl) Iff.rfl
  simp only [EpollKq.delete, List.mem_filter, and_iff_left_iff_imp]
  intro member
  have same := (own.knotes k member mine).1
  simp [same, apart]

theorem Own.add (own : Own kq pollFds m) {knote : Knote} (apart : m.fd ≠ knote.fd) (other : knote.udata ≠ m.id) :
    Own (kq.add knote) pollFds m := by
  refine (own.delete apart knote.filter).congr (fun k mine => ?_) (fun _ _ => Iff.rfl) Iff.rfl
  simp only [EpollKq.add, List.mem_cons, or_iff_right_iff_imp]
  rintro rfl
  exact absurd mine other

theorem Own.deleteUser (own : Own kq pollFds m) {id : ℕ} (other : m.id ≠ id) : Own (kq.deleteUser id) pollFds m := by
  refine own.congr (fun _ _ => Iff.rfl) (fun u mine => ?_) Iff.rfl
  simp only [EpollKq.deleteUser, List.mem_filter, and_iff_left_iff_imp]
  intro _
  simp [mine, other]

theorem Own.addUser (own : Own kq pollFds m) {id : ℕ} (other : m.id ≠ id) : Own (kq.addUser id) pollFds m := by
  simp only [EpollKq.addUser]
  split
  · exact own
  · refine own.congr (fun _ _ => Iff.rfl) (fun u mine => ?_) Iff.rfl
    simp only [List.mem_cons, or_iff_right_iff_imp]
    rintro rfl
    exact absurd mine.symm other

theorem Own.trigger (own : Own kq pollFds m) {id : ℕ} (other : m.id ≠ id) : Own (kq.trigger id) pollFds m := by
  refine own.congr (fun _ _ => Iff.rfl) (fun u mine => ?_) Iff.rfl
  have apart : u.1 ≠ id := mine ▸ other
  simp only [EpollKq.trigger, List.mem_map]
  constructor
  · rintro ⟨before, member, same⟩
    split at same
    · rw [← same] at apart
      exact absurd rfl apart
    · exact same ▸ member
  · intro member
    exact ⟨u, member, if_neg apart⟩

end RegisteredFDsNode

namespace EpollFDCtx

open RegisteredFDsNode

variable {c c' c'' : EpollFDCtx} {n m : RegisteredFDsNode}

structure PollList (c : EpollFDCtx) : Prop where
  nodup : c.pollFds.Nodup
  size : c.pollFdsSize = c.pollFds.length

/-- A step for one node leaves the others and the table as they are. -/
structure Leaves (n : RegisteredFDsNode) (c c' : EpollFDCtx) : Prop where
  registered : c'.registeredFds = c.registeredFds
  size : c'.registeredFdsSize = c.registeredFdsSize
  next : c'.next = c.next
  others : ∀ m, m.id ≠ n.id → m.fd ≠ n.fd → Own c.kq c.pollFds m → Own c'.kq c'.pollFds m
  knotes : ∀ k ∈ c'.kq.knotes, k ∈ c.kq.knotes ∨ k.udata = n.id
  users : ∀ u ∈ c'.kq.users, u ∈ c.kq.users ∨ u.1 = n.id
  polls : c.PollList → c'.PollList
  listed : ∀ id ∈ c'.pollFds, id ∈ c.pollFds ∨ id = n.id

theorem Leaves.refl (n : RegisteredFDsNode) (c : EpollFDCtx) : Leaves n c c :=
  ⟨rfl, rfl, rfl, fun _ _ _ own => own, fun _ member => .inl member, fun _ member => .inl member, id,
    fun _ member => .inl member⟩

theorem Leaves.trans (first : Leaves n c c') (second : Leaves n c' c'') : Leaves n c c'' where
  registered := second.registered.trans first.registered
  size := second.size.trans first.size
  next := second.next.trans first.next
  others := fun m id fd own => second.others m id fd (first.others m id fd own)
  knotes := by
    intro k member
    rcases second.knotes k member with before | mine
    · exact first.knotes k before
    · exact .inr mine
  users := by
    intro u member
    rcases second.users u member with before | mine
    · exact first.users u before
    · exact .inr mine
  polls := second.polls ∘ first.polls
  listed := by
    intro id member
    rcases second.listed id member with before | mine
    · exact first.listed id before
    · exact .inr mine

/-- Who the node is does not change. -/
theorem Leaves.of_same (leaves : Leaves n c c') (id : m.id = n.id) (fd : m.fd = n.fd) : Leaves m c c' where
  registered := leaves.registered
  size := leaves.size
  next := leaves.next
  others := id ▸ fd ▸ leaves.others
  knotes := id ▸ leaves.knotes
  users := id ▸ leaves.users
  polls := leaves.polls
  listed := id ▸ leaves.listed

theorem mem_delete {kq : EpollKq} {fd : ℕ} {filter : Evfilt} {k : Knote} :
    k ∈ (kq.delete fd filter).knotes ↔ k ∈ kq.knotes ∧ ¬ (k.fd = fd ∧ k.filter = filter) := by
  simp [EpollKq.delete, List.mem_filter, or_iff_not_imp_left]

theorem mem_deleteUser {kq : EpollKq} {id : ℕ} {u : ℕ × Bool} :
    u ∈ (kq.deleteUser id).users ↔ u ∈ kq.users ∧ u.1 ≠ id := by
  simp [EpollKq.deleteUser, List.mem_filter]

theorem leaves_kq (kq : EpollKq) (others : ∀ m, m.id ≠ n.id → m.fd ≠ n.fd → Own c.kq c.pollFds m → Own kq c.pollFds m)
    (knotes : ∀ k ∈ kq.knotes, k ∈ c.kq.knotes ∨ k.udata = n.id)
    (users : ∀ u ∈ kq.users, u ∈ c.kq.users ∨ u.1 = n.id) : Leaves n c { c with kq := kq } :=
  ⟨rfl, rfl, rfl, others, knotes, users, fun polls => ⟨polls.nodup, polls.size⟩, fun _ member => .inl member⟩

theorem unlist_spec (listed : n.id ∈ c.pollFds ↔ n.isOnPollfdList = true) (polls : c.PollList) :
    ∃ c', c.unlist n = .ok (c', { n with isOnPollfdList := false }) ∧ Leaves n c c' ∧ n.id ∉ c'.pollFds ∧
      c'.kq = c.kq := by
  by_cases on : n.isOnPollfdList = true
  · have member := listed.mpr on
    have some : c.pollFdsSize ≠ 0 := by
      rw [polls.size]
      exact (List.length_pos_of_mem member).ne'
    have gone : n.id ∉ c.pollFds.erase n.id := fun again => (polls.nodup.mem_erase_iff.mp again).1 rfl
    refine ⟨{ c with pollFds := c.pollFds.erase n.id, pollFdsSize := c.pollFdsSize - 1 }, ?_, ?_, gone, rfl⟩
    · rw [unlist, if_pos on, if_neg some]
    refine ⟨rfl, rfl, rfl, ?_, fun _ member => .inl member, fun _ member => .inl member, ?_, ?_⟩
    · exact fun m id _ own => own.congr (fun _ _ => Iff.rfl) (fun _ _ => Iff.rfl) (List.mem_erase_of_ne id)
    · refine fun _ => ⟨polls.nodup.erase _, ?_⟩
      simp only [polls.size, List.length_erase_of_mem member]
    · exact fun _ member => .inl (List.mem_of_mem_erase member)
  · have off : n.isOnPollfdList = false := by simpa using on
    refine ⟨c, ?_, .refl n c, fun member => on (listed.mp member), rfl⟩
    rw [unlist, if_neg on, ← off]

theorem removeNodeFromKq_spec (removable : Removable c.kq c.pollFds n) (polls : c.PollList) :
    ∃ c', c.removeNodeFromKq n = .ok (c', unwatched n) ∧ Leaves n c c' ∧ Detached c'.kq c'.pollFds n := by
  obtain ⟨c', unlisted, leaves, gone, same⟩ := unlist_spec removable.listed polls
  simp only [removeNodeFromKq, unlisted, bind, Except.bind]
  by_cases poll : n.nodeType = .poll
  · rw [if_pos poll]
    have bare : { n with isOnPollfdList := false } = unwatched n := by
      rw [unwatched, funext (removable.poll poll)]
    refine ⟨_, by rw [bare]; rfl, leaves.trans (leaves_kq (c'.kq.deleteUser n.id) ?_ ?_ ?_), ?_, ?_, gone⟩
    · exact fun m id _ own => own.deleteUser id
    · exact fun _ member => .inl member
    · exact fun u member => .inl (mem_deleteUser.mp member).1
    · exact fun k member mine => (removable.knotes k (same ▸ member) mine).2.2 poll
    · intro u member
      have within : u ∈ (c'.kq.deleteUser n.id).users := member
      exact (mem_deleteUser.mp within).2
  · rw [if_neg poll]
    refine ⟨_, rfl, leaves.trans (leaves_kq (((c'.kq.delete n.fd .read).delete n.fd .write).deleteUser n.id) ?_ ?_ ?_),
      ?_, ?_, gone⟩
    · exact fun m id fd own => ((own.delete fd .read).delete fd .write).deleteUser id
    · exact fun k member => .inl (mem_delete.mp (mem_delete.mp member).1).1
    · exact fun u member => .inl (mem_deleteUser.mp member).1
    · intro k member mine
      obtain ⟨within, writes⟩ := mem_delete.mp member
      obtain ⟨before, reads⟩ := mem_delete.mp within
      obtain ⟨fd, known, _⟩ := removable.knotes k (same ▸ before) mine
      cases filter : k.filter with
      | read => exact reads ⟨fd, filter⟩
      | write => exact writes ⟨fd, filter⟩
      | except => exact known filter
    · intro u member
      have within : u ∈ (((c'.kq.delete n.fd .read).delete n.fd .write).deleteUser n.id).users := member
      exact (mem_deleteUser.mp within).2

end EpollFDCtx

end Iland.Epoll

import Iland.Data.Outcome
import Iland.Epoll.EpollFDInvariant

namespace Iland.Epoll

open Iland.Data EpollEvent

/-! How the registration of a node ends.

Whatever the kernel answers, either all that it holds for the node is what the
node asked for, or what it holds is found when the node is removed.
-/

/-- Only the kernel can do what is not foreseen. -/
abbrev Fine {α : Type} (good : α → Prop) : Except Fault α → Prop := Ends (· = .kernel) good

namespace RegisteredFDsNode

variable {n n' n'' : RegisteredFDsNode} {kq : EpollKq} {pollFds : List ℕ}

/-- What the registration leaves of a node. -/
structure Same (n n' : RegisteredFDsNode) : Prop where
  id : n'.id = n.id
  fd : n'.fd = n.fd
  data : n'.data = n.data
  events : n'.events = n.events
  revents : n'.revents = n.revents
  got : n'.got = n.got
  isRegistered : n'.isRegistered = n.isRegistered
  isEdgeTriggered : n'.isEdgeTriggered = n.isEdgeTriggered
  isOneshot : n'.isOneshot = n.isOneshot
  nodeType : n'.nodeType = n.nodeType ∨ n.nodeType = .other ∧ n'.nodeType = .poll

theorem Same.refl (n : RegisteredFDsNode) : Same n n := ⟨rfl, rfl, rfl, rfl, rfl, rfl, rfl, rfl, rfl, .inl rfl⟩

theorem Same.trans (first : Same n n') (second : Same n' n'') : Same n n'' where
  id := second.id.trans first.id
  fd := second.fd.trans first.fd
  data := second.data.trans first.data
  events := second.events.trans first.events
  revents := second.revents.trans first.revents
  got := second.got.trans first.got
  isRegistered := second.isRegistered.trans first.isRegistered
  isEdgeTriggered := second.isEdgeTriggered.trans first.isEdgeTriggered
  isOneshot := second.isOneshot.trans first.isOneshot
  nodeType := by
    rcases first.nodeType with same | ⟨other, poll⟩
    · rcases second.nodeType with same' | ⟨other, poll⟩
      · exact .inl (same'.trans same)
      · exact .inr ⟨same ▸ other, poll⟩
    · rcases second.nodeType with same | ⟨other', _⟩
      · exact .inr ⟨other, same.trans poll⟩
      · rw [poll] at other'
        cases other'

theorem Same.of_unwatched (n : RegisteredFDsNode) : Same n n.unwatched :=
  ⟨rfl, rfl, rfl, rfl, rfl, rfl, rfl, rfl, rfl, .inl rfl⟩

/-- The kind of descriptor and the request are all that has to fit. -/
theorem Typed.congr (typed : n.Typed) (nodeType : n'.nodeType = n.nodeType) (events : n'.events = n.events)
    (eofState : n.nodeType = .kqueue → n'.eofState = n.eofState) : n'.Typed where
  plain := by
    rw [nodeType, events]
    exact typed.plain
  pri := events ▸ typed.pri
  fifo := nodeType ▸ typed.fifo
  kqueue := by
    rw [nodeType]
    intro kqueue
    rw [eofState kqueue, typed.kqueue kqueue]

theorem Detached.own (typed : n.Typed) (detached : Detached kq pollFds n) :
    Own kq pollFds n.unwatched where
  typed := typed.congr rfl rfl fun _ => rfl
  flags := ⟨rfl, by simp [unwatched], fun _ => rfl, by simp [unwatched], fun _ _ => rfl⟩
  knotes := fun k member mine => absurd mine (detached.knotes k member)
  held := by simp [unwatched]
  users := fun u member mine => absurd mine (detached.users u member)
  listed := by simpa [unwatched] using detached.unlisted
  onlyPoll := by simp [unwatched]

theorem Detached.of_same (detached : Detached kq pollFds n) (id : n'.id = n.id) : Detached kq pollFds n' := by
  constructor
  · exact id ▸ detached.knotes
  · exact id ▸ detached.users
  · exact id ▸ detached.unlisted

end RegisteredFDsNode

namespace EpollFDCtx

open RegisteredFDsNode

variable {c c' : EpollFDCtx} {n n' m : RegisteredFDsNode} {answer : RegisterAnswer}

structure Registered (c : EpollFDCtx) (n : RegisteredFDsNode)
    (result : EpollFDCtx × RegisteredFDsNode × Option Error) : Prop where
  leaves : Leaves n c result.1
  same : Same n result.2.1
  removable : Removable result.1.kq result.1.pollFds result.2.1
  own : result.2.2 = none → Own result.1.kq result.1.pollFds result.2.1

/-- What came before does not count, if it was about the same node. -/
theorem Registered.after {result : EpollFDCtx × RegisteredFDsNode × Option Error} (registered : Registered c' n' result)
    (leaves : Leaves n c c') (same : Same n n') : Registered c n result where
  leaves := leaves.trans (registered.leaves.of_same same.id.symm same.fd.symm)
  same := same.trans registered.same
  removable := registered.removable
  own := registered.own

theorem mem_addUser {kq : EpollKq} {id : ℕ} {u : ℕ × Bool} (member : u ∈ (kq.addUser id).users) :
    u ∈ kq.users ∨ u = (id, false) := by
  simp only [EpollKq.addUser] at member
  split at member
  · exact .inl member
  · simpa [or_comm] using member

theorem addUser_knotes (kq : EpollKq) (id : ℕ) : (kq.addUser id).knotes = kq.knotes := by
  simp only [EpollKq.addUser]
  split <;> rfl

theorem mem_trigger {kq : EpollKq} {id : ℕ} {u : ℕ × Bool} (member : u ∈ (kq.trigger id).users) :
    u ∈ kq.users ∨ u.1 = id := by
  simp only [EpollKq.trigger, List.mem_map] at member
  obtain ⟨before, within, rfl⟩ := member
  split
  · exact .inr rfl
  · exact .inl within

theorem leaves_addUser (n : RegisteredFDsNode) (c : EpollFDCtx) : Leaves n c { c with kq := c.kq.addUser n.id } := by
  refine leaves_kq (c.kq.addUser n.id) (fun m id _ own => own.addUser id) ?_ ?_
  · intro k member
    rw [addUser_knotes] at member
    exact .inl member
  · intro u member
    rcases mem_addUser member with before | rfl
    · exact .inl before
    · exact .inr rfl

theorem leaves_trigger (n : RegisteredFDsNode) (c : EpollFDCtx) : Leaves n c { c with kq := c.kq.trigger n.id } :=
  leaves_kq (c.kq.trigger n.id) (fun _ id _ own => own.trigger id) (fun _ member => .inl member)
    fun _ member => mem_trigger member

theorem leaves_enlist (fresh : n.id ∉ c.pollFds) :
    Leaves n c { c with pollFds := c.pollFds ++ [n.id], pollFdsSize := c.pollFdsSize + 1 } := by
  refine ⟨rfl, rfl, rfl, ?_, fun _ member => .inl member, fun _ member => .inl member, ?_, ?_⟩
  · exact fun m id _ own => own.congr (fun _ _ => Iff.rfl) (fun _ _ => Iff.rfl) (by simp [id])
  · intro polls
    refine ⟨?_, by simp [polls.size]⟩
    simpa [List.nodup_append, polls.nodup] using fun id member (same : id = n.id) => fresh (same ▸ member)
  · intro id member
    simpa using member

/-! ## A descriptor that only supports `poll` -/

/-- Nothing of a node that only supports `poll` is in the queue but its user event. -/
structure PollNode (kq : EpollKq) (pollFds : List ℕ) (n : RegisteredFDsNode) : Prop where
  typed : n.Typed
  nodeType : n.nodeType = .poll
  has : ∀ filter, n.has filter = false
  knotes : ∀ k ∈ kq.knotes, k.udata ≠ n.id

theorem PollNode.own (node : PollNode c.kq c.pollFds n) (listed : n.id ∈ c.pollFds ↔ n.isOnPollfdList = true) :
    Own c.kq c.pollFds n where
  typed := node.typed
  flags := by
    refine ⟨node.has _, ?_, ?_, ?_, fun _ => node.has⟩
    · simp [node.nodeType]
    · simp [node.nodeType]
    · simp [node.nodeType]
  knotes := fun k member mine => absurd mine (node.knotes k member)
  held := by simp [node.has]
  users := fun _ _ _ _ => .inl node.nodeType
  listed := listed
  onlyPoll := fun _ => node.nodeType

theorem registerPoll_spec (typed : n.Typed) (kind : n.nodeType = .other ∨ n.nodeType = .poll ∧ n.isRegistered = true)
    (knotes : ∀ k ∈ c.kq.knotes, k.udata ≠ n.id) (listed : n.id ∈ c.pollFds ↔ n.isOnPollfdList = true) :
    Fine (Registered c n) (c.registerPoll n answer) := by
  have notSocket : n.nodeType ≠ .socket := by
    rintro socket
    rcases kind with other | ⟨poll, _⟩ <;> simp_all
  have allowed : ¬ (¬ n.events ⊆ {epollin, epollout} ∨ (n.isRegistered = false ∧ n.nodeType ≠ .other)) := by
    rintro (wild | ⟨unregistered, notOther⟩)
    · exact wild (typed.plain notSocket)
    · rcases kind with other | ⟨_, registered⟩
      · exact notOther other
      · rw [registered] at unregistered
        cases unregistered
  rw [registerPoll, if_neg allowed]
  set polled : RegisteredFDsNode := { n with has := fun _ => false, nodeType := .poll }
  have same : Same n polled := by
    refine ⟨rfl, rfl, rfl, rfl, rfl, rfl, rfl, rfl, rfl, ?_⟩
    rcases kind with other | ⟨poll, _⟩
    · exact .inr ⟨other, rfl⟩
    · exact .inl poll.symm
  have typedPoll : polled.Typed := ⟨fun _ => typed.plain notSocket, typed.pri, by simp [polled], by simp [polled]⟩
  have node : PollNode c.kq c.pollFds polled := ⟨typedPoll, rfl, fun _ => rfl, knotes⟩
  cases answer.nodeTrigger with
  | some ec =>
      have refused : Registered c n (c, polled, some ec) :=
        ⟨.refl n c, same, (node.own listed).removable, fun none => by cases none⟩
      exact refused
  | none =>
      set c' : EpollFDCtx := { c with kq := c.kq.addUser n.id }
      have leaves : Leaves n c c' := leaves_addUser n c
      have knotes' : ∀ k ∈ c'.kq.knotes, k.udata ≠ n.id := by
        intro k member
        rw [addUser_knotes] at member
        exact knotes k member
      have node' : PollNode c'.kq c'.pollFds polled := ⟨typedPoll, rfl, fun _ => rfl, knotes'⟩
      have own : Own c'.kq c'.pollFds polled := node'.own listed
      simp only []
      by_cases on : n.isOnPollfdList = true
      · have present : Registered c n (c', polled, none) := ⟨leaves, same, own.removable, fun _ => own⟩
        rw [if_pos (show polled.isOnPollfdList = true from on)]
        exact present
      · rw [if_neg (show ¬ polled.isOnPollfdList = true from on)]
        cases answer.selfTrigger with
        | some ec =>
            have refused : Registered c n (c', polled, some ec) :=
              ⟨leaves, same, own.removable, fun none => by cases none⟩
            exact refused
        | none =>
            have fresh : n.id ∉ c'.pollFds := fun member => on (listed.mp member)
            set listed' : RegisteredFDsNode := { polled with isOnPollfdList := true }
            set c'' : EpollFDCtx := { c' with pollFds := c'.pollFds ++ [n.id], pollFdsSize := c'.pollFdsSize + 1 }
            have node'' : PollNode c''.kq c''.pollFds listed' :=
              ⟨typedPoll.congr rfl rfl fun _ => rfl, rfl, fun _ => rfl, knotes'⟩
            have own' : Own c''.kq c''.pollFds listed' := node''.own (by simp [listed', polled, c''])
            have same' : Same n listed' := same.trans ⟨rfl, rfl, rfl, rfl, rfl, rfl, rfl, rfl, rfl, .inl rfl⟩
            have entered : Registered c n (c'', listed', none) :=
              ⟨leaves.trans (leaves_enlist fresh), same', own'.removable, fun _ => own'⟩
            exact entered

/-! ## A descriptor with filters -/

theorem addAll_users (kq : EpollKq) (changes : List Knote) : (addAll kq changes).users = kq.users := by
  induction changes generalizing kq with
  | nil => rfl
  | cons change rest ih => exact ih (kq.add change)

theorem mem_add {kq : EpollKq} {change k : Knote} :
    k ∈ (kq.add change).knotes ↔ k = change ∨ k ∈ kq.knotes ∧ ¬ (k.fd = change.fd ∧ k.filter = change.filter) := by
  simp only [EpollKq.add, List.mem_cons, mem_delete]

theorem of_mem_addAll {kq : EpollKq} {changes : List Knote} {k : Knote} (member : k ∈ (addAll kq changes).knotes) :
    k ∈ changes ∨ k ∈ kq.knotes := by
  induction changes generalizing kq with
  | nil => exact .inr member
  | cons change rest ih =>
      rcases ih member with within | before
      · exact .inl (List.mem_cons_of_mem _ within)
      · rcases mem_add.mp before with rfl | ⟨old, _⟩
        · exact .inl (List.mem_cons_self ..)
        · exact .inr old

theorem mem_addAll_of_mem {kq : EpollKq} {changes : List Knote} {k : Knote} (member : k ∈ kq.knotes)
    (apart : ∀ change ∈ changes, k.filter ≠ change.filter) : k ∈ (addAll kq changes).knotes := by
  induction changes generalizing kq with
  | nil => exact member
  | cons change rest ih =>
      have other := apart change (List.mem_cons_self ..)
      exact ih (mem_add.mpr (.inr ⟨member, fun same => other same.2⟩))
        fun change within => apart change (List.mem_cons_of_mem _ within)

/-- Every change that is made is in the queue. -/
theorem mem_addAll {kq : EpollKq} {changes : List Knote} {k : Knote} (member : k ∈ changes)
    (apart : (changes.map (·.filter)).Nodup) : k ∈ (addAll kq changes).knotes := by
  induction changes generalizing kq with
  | nil => simp at member
  | cons change rest ih =>
      simp only [List.map_cons, List.nodup_cons, List.mem_map, not_exists, not_and] at apart
      rcases List.mem_cons.mp member with rfl | within
      · have now : k ∈ (kq.add k).knotes := mem_add.mpr (.inl rfl)
        have later : k ∈ (addAll (kq.add k) rest).knotes :=
          mem_addAll_of_mem now fun change within same => apart.1 change within same.symm
        exact later
      · exact ih within apart.2

theorem leaves_addAll {changes : List Knote} (fd : ∀ k ∈ changes, k.fd = n.fd) (udata : ∀ k ∈ changes, k.udata = n.id) :
    Leaves n c { c with kq := addAll c.kq changes } := by
  refine leaves_kq (addAll c.kq changes) ?_ ?_ ?_
  · intro m id fd'
    generalize c.kq = kq
    induction changes generalizing kq with
    | nil => exact fun own => own
    | cons change rest ih =>
        intro own
        refine ih (fun k within => fd k (List.mem_cons_of_mem _ within))
          (fun k within => udata k (List.mem_cons_of_mem _ within)) (kq.add change) (own.add ?_ ?_)
        · rw [fd change (List.mem_cons_self ..)]
          exact fd'
        · rw [udata change (List.mem_cons_self ..)]
          exact id.symm
  · intro k member
    rcases of_mem_addAll member with within | before
    · exact .inr (udata k within)
    · exact .inl before
  · intro u member
    rw [addAll_users] at member
    exact .inl member

def neededAt (needed : NeededFilters) : Evfilt → Needed
  | .read => needed.evfiltRead
  | .write => needed.evfiltWrite
  | .except => needed.evfiltExcept

theorem of_mem_changes {needed : NeededFilters} {k : Knote} (member : k ∈ changes n needed) :
    k.fd = n.fd ∧ k.udata = n.id ∧ neededAt needed k.filter ≠ .no := by
  simp only [changes, List.mem_filterMap, List.mem_cons, List.not_mem_nil, or_false] at member
  obtain ⟨⟨filter, wanted⟩, among, found⟩ := member
  split at found
  · cases found
  · rename_i some
    cases found
    refine ⟨rfl, rfl, ?_⟩
    rcases among with same | same | same <;> cases same <;> exact some

theorem changes_filter {needed : NeededFilters} {filter : Evfilt} (wanted : neededAt needed filter ≠ .no) :
    ∃ k ∈ changes n needed, k.filter = filter := by
  refine ⟨⟨n.fd, filter, neededAt needed filter = .clear || filter = .except, n.id⟩, ?_, rfl⟩
  refine List.mem_filterMap.mpr ⟨(filter, neededAt needed filter), ?_, if_neg wanted⟩
  cases filter <;> simp [neededAt]

theorem changes_nodup {needed : NeededFilters} : ((changes n needed).map (·.filter)).Nodup := by
  have within : (changes n needed).map (·.filter) =
      [Evfilt.read, .write, .except].filter fun filter => neededAt needed filter ≠ .no := by
    obtain ⟨read, write, except⟩ := needed
    cases read <;> cases write <;> cases except <;> rfl
  rw [within]
  exact List.Nodup.filter _ (by decide)

/-- The queue holds the filters that the kernel took, and the flags still tell
of those in `rest`. -/
structure Receiving (c : EpollFDCtx) (n : RegisteredFDsNode) (answer : RegisterAnswer) (rest : List Knote) : Prop where
  typed : n.Typed
  kind : n.nodeType ≠ .poll
  flags : n.Flags
  fd : ∀ k ∈ c.kq.knotes, k.udata = n.id → k.fd = n.fd
  has : ∀ filter, n.has filter = true ↔
    (∃ k ∈ c.kq.knotes, k.udata = n.id ∧ k.filter = filter) ∨ ∃ k ∈ rest, k.filter = filter
  apart : (rest.map (·.filter)).Nodup
  receipt : ∀ k ∈ rest, answer.receipt k.filter = none ↔ ∃ k' ∈ c.kq.knotes, k'.udata = n.id ∧ k'.filter = k.filter
  writes : ∀ k ∈ rest, k.filter = .write → ∀ readable writable, n.nodeType = .fifo readable writable →
    writable = true ∧ (readable = true → epollout ∈ n.events)
  users : ∀ u ∈ c.kq.users, u.1 ≠ n.id
  unlisted : n.id ∉ c.pollFds
  off : n.isOnPollfdList = false

namespace Receiving

variable {change : Knote} {rest : List Knote}

theorem removable (receiving : Receiving c n answer rest) : Removable c.kq c.pollFds n where
  typed := receiving.typed
  knotes := by
    intro k member mine
    refine ⟨receiving.fd k member mine, ?_, receiving.kind⟩
    intro except
    have has := (receiving.has .except).mpr (.inl ⟨k, member, mine, except⟩)
    rw [receiving.flags.except] at has
    cases has
  poll := fun poll => absurd poll receiving.kind
  listed := by simp [receiving.unlisted, receiving.off]

theorem own (receiving : Receiving c n answer []) : Own c.kq c.pollFds n where
  typed := receiving.typed
  flags := receiving.flags
  knotes := fun k member mine =>
    ⟨receiving.fd k member mine, (receiving.has k.filter).mpr (.inl ⟨k, member, mine, rfl⟩)⟩
  held := by
    intro filter has
    rcases (receiving.has filter).mp has with held | ⟨k, none, _⟩
    · exact held
    · simp at none
  users := fun u member mine => absurd mine (receiving.users u member)
  listed := by simp [receiving.unlisted, receiving.off]
  onlyPoll := by simp [receiving.off]

theorem accept (receiving : Receiving c n answer (change :: rest)) (taken : answer.receipt change.filter = none) :
    Receiving c n answer rest where
  typed := receiving.typed
  kind := receiving.kind
  flags := receiving.flags
  fd := receiving.fd
  has := by
    intro filter
    rw [receiving.has, List.exists_mem_cons_iff]
    have held := (receiving.receipt change (List.mem_cons_self ..)).mp taken
    constructor
    · rintro (held' | rfl | later)
      · exact .inl held'
      · exact .inl held
      · exact .inr later
    · exact Or.imp_right .inr
  apart := (List.nodup_cons.mp receiving.apart).2
  receipt := fun k within => receiving.receipt k (List.mem_cons_of_mem _ within)
  writes := fun k within => receiving.writes k (List.mem_cons_of_mem _ within)
  users := receiving.users
  unlisted := receiving.unlisted
  off := receiving.off

theorem broken_has {filter : Evfilt} : (broken n).has filter = true ↔ n.has filter = true ∧ filter ≠ .write := by
  simp only [broken]
  split <;> rename_i write
  · simp [write]
  · simp [write]

theorem broken_flags (flags : n.Flags) : (broken n).Flags where
  except := flags.except
  fifo := fun readable writable kind =>
    ⟨fun has => (flags.fifo readable writable kind).1 (broken_has.mp has).1,
      fun has => (flags.fifo readable writable kind).2 (broken_has.mp has).1⟩
  kqueue := fun _ => rfl
  other := fun kind has => flags.other kind (broken_has.mp has).1
  poll := by
    intro kind filter
    have none := flags.poll kind filter
    simp [broken, none]

theorem refuse (receiving : Receiving c n answer (change :: rest)) (refused : answer.receipt change.filter ≠ none)
    (write : change.filter = .write) (fifo : n.nodeType ≠ .kqueue) : Receiving c (broken n) answer rest where
  typed := receiving.typed.congr rfl rfl fun kqueue => absurd kqueue fifo
  kind := receiving.kind
  flags := broken_flags receiving.flags
  fd := receiving.fd
  has := by
    intro filter
    rw [broken_has, receiving.has, List.exists_mem_cons_iff, write]
    have unheld := fun held => refused ((receiving.receipt change (List.mem_cons_self ..)).mpr held)
    have others : ∀ k ∈ rest, k.filter ≠ .write := by
      intro k within same
      refine (List.nodup_cons.mp receiving.apart).1 (List.mem_map.mpr ⟨k, within, ?_⟩)
      exact same.trans write.symm
    constructor
    · rintro ⟨held | rfl | later, other⟩
      · exact .inl held
      · exact absurd rfl other
      · exact .inr later
    · rintro (held | later)
      · refine ⟨.inl held, ?_⟩
        rintro rfl
        rw [write] at unheld
        exact unheld held
      · refine ⟨.inr (.inr later), ?_⟩
        rintro rfl
        obtain ⟨k, within, same⟩ := later
        exact others k within same
  apart := (List.nodup_cons.mp receiving.apart).2
  receipt := fun k within => receiving.receipt k (List.mem_cons_of_mem _ within)
  writes := fun k within => receiving.writes k (List.mem_cons_of_mem _ within)
  users := receiving.users
  unlisted := receiving.unlisted
  off := receiving.off

/-- A fifo that nobody reads and that has no other filter waits for the next try. -/
theorem retry (receiving : Receiving c (broken n) answer rest) (silent : n.has .read = false)
    (wanted : ∃ readable, n.nodeType = .fifo readable true ∧ (readable = true → epollout ∈ n.events)) :
    Own ((c.kq.addUser n.id).trigger n.id) c.pollFds (broken n) := by
  have unwatched : ∀ filter, (broken n).has filter = false := by
    intro filter
    cases filter with
    | read => simpa [broken] using silent
    | write => rfl
    | except => exact receiving.flags.except
  have knotes : ∀ k ∈ c.kq.knotes, k.udata ≠ n.id := by
    intro k member mine
    have has := (receiving.has k.filter).mpr (.inl ⟨k, member, mine, rfl⟩)
    rw [unwatched] at has
    cases has
  refine ⟨receiving.typed, receiving.flags, ?_, ?_, ?_, ?_, ?_⟩
  · intro k member mine
    rw [EpollKq.trigger, addUser_knotes] at member
    exact absurd mine (knotes k member)
  · intro filter has
    rw [unwatched] at has
    cases has
  · exact fun _ _ _ _ => .inr ⟨unwatched, wanted⟩
  · simpa [receiving.off] using receiving.unlisted
  · simp [receiving.off]

end Receiving

theorem fifo_of_isFifo {nodeType : NodeType} (isFifo : nodeType.isFifo = true) :
    ∃ readable writable, nodeType = .fifo readable writable := by
  cases nodeType with
  | fifo readable writable => exact ⟨readable, writable, rfl⟩
  | _ => cases isFifo

theorem checkReceipts_spec {changes : List Knote} (receiving : Receiving c n answer changes) :
    Registered c n (c.checkReceipts n answer changes) := by
  induction changes generalizing n with
  | nil => exact ⟨.refl n c, .refl n, receiving.removable, fun _ => receiving.own⟩
  | cons change rest ih =>
      rw [checkReceipts]
      cases receipt : answer.receipt change.filter with
      | none => exact ih (receiving.accept receipt)
      | some ec =>
          simp only
          split
          · rename_i pipe
            obtain ⟨_, write, isFifo⟩ := pipe
            obtain ⟨readable, writable, kind⟩ := fifo_of_isFifo isFifo
            have refused : answer.receipt change.filter ≠ none := by simp [receipt]
            have next := receiving.refuse refused write (by simp [kind])
            have same : Same n (broken n) := ⟨rfl, rfl, rfl, rfl, rfl, rfl, rfl, rfl, rfl, .inl rfl⟩
            split
            · exact (ih next).after (.refl n c) same
            · rename_i silent
              have wanted := receiving.writes change (List.mem_cons_self ..) write readable writable kind
              have own := next.retry (by simpa using silent) ⟨readable, by rw [kind, wanted.1], wanted.2⟩
              cases answer.nodeTrigger with
              | some ec => exact ⟨.refl n c, same, next.removable, fun none => by cases none⟩
              | none =>
                  have leaves := (leaves_addUser n c).trans (leaves_trigger n { c with kq := c.kq.addUser n.id })
                  exact ⟨leaves, same, own.removable, fun _ => own⟩
          · exact ⟨.refl n c, .refl n, receiving.removable, fun none => by cases none⟩

/-- Whoever has none of the filters has nothing in the queue. -/
theorem coherent_enodev {filter : Evfilt} (fits : coherent answer = true) (none : answer.receipt filter = some enodev)
    (other : Evfilt) : answer.receipt other ≠ .none := by
  simp only [coherent, List.all_eq_true, Bool.or_eq_true, decide_eq_true_eq] at fits
  have all : ∀ filter : Evfilt, filter ∈ [Evfilt.read, .write, .except] := by
    intro filter
    cases filter <;> simp
  rcases fits filter (all filter) with some | refused
  · exact absurd none some
  · have taken := refused other (all other)
    rw [Option.isSome_iff_ne_none] at taken
    exact taken

/-- The node as it is when its filters are asked for. -/
def asking (n : RegisteredFDsNode) (needed : NeededFilters) : RegisteredFDsNode :=
  { n with has := fun filter => (changes n needed).any fun change => change.filter = filter }

theorem asking_has {needed : NeededFilters} {filter : Evfilt} :
    (asking n needed).has filter = true ↔ ∃ k ∈ changes n needed, k.filter = filter := by
  simp [asking]

theorem asking_needed {needed : NeededFilters} {filter : Evfilt} :
    (asking n needed).has filter = true ↔ neededAt needed filter ≠ .no := by
  rw [asking_has]
  constructor
  · rintro ⟨k, member, rfl⟩
    exact (of_mem_changes member).2.2
  · exact changes_filter

theorem asking_flags {needed : NeededFilters} (fits : NeededFor n needed) (kind : n.nodeType ≠ .poll) :
    (asking n needed).Flags where
  except := by
    rw [← Bool.not_eq_true, asking_needed, not_not]
    exact fits.except
  fifo := by
    intro readable writable fifo
    rw [asking_needed, asking_needed]
    obtain ⟨reads, writes⟩ := fits.fifo readable writable fifo
    exact ⟨reads, fun has => (writes.mp has).1⟩
  kqueue := by
    intro kqueue
    rw [← Bool.not_eq_true, asking_needed, not_not]
    exact fits.kqueue kqueue
  other := fun other has => fits.other other (asking_needed.mp has)
  poll := fun poll => absurd poll kind

/-- What the queue holds for a node that was not there before. -/
theorem receiving_of_detached {needed : NeededFilters} (typed : n.Typed) (fits : NeededFor n needed)
    (kind : n.nodeType ≠ .poll) (detached : Detached c.kq c.pollFds n) (off : n.isOnPollfdList = false)
    (accepted : List Knote)
    (taken : accepted = (changes n needed).filter fun change => (answer.receipt change.filter).isNone) :
    Receiving { c with kq := addAll c.kq accepted } (asking n needed) answer (changes n needed) := by
  have apart : (accepted.map (·.filter)).Nodup := by
    rw [taken]
    exact changes_nodup.sublist (List.Sublist.map _ List.filter_sublist)
  have mine : ∀ k ∈ (addAll c.kq accepted).knotes, k.udata = n.id → k ∈ accepted := by
    intro k member mine
    rcases of_mem_addAll member with within | before
    · exact within
    · exact absurd mine (detached.knotes k before)
  have asked : ∀ k ∈ accepted, k ∈ changes n needed ∧ answer.receipt k.filter = none := by
    intro k within
    rw [taken, List.mem_filter, Option.isNone_iff_eq_none] at within
    exact within
  refine ⟨typed.congr rfl rfl fun _ => rfl, kind, asking_flags fits kind, ?_, ?_, changes_nodup, ?_, ?_, ?_,
    detached.unlisted, off⟩
  · exact fun k member own => (of_mem_changes (asked k (mine k member own)).1).1
  · intro filter
    rw [asking_has]
    constructor
    · exact .inr
    · rintro (⟨k, member, own, same⟩ | asks)
      · exact ⟨k, (asked k (mine k member own)).1, same⟩
      · exact asks
  · intro k member
    constructor
    · intro none
      have within : k ∈ accepted := by
        rw [taken, List.mem_filter, Option.isNone_iff_eq_none]
        exact ⟨member, none⟩
      exact ⟨k, mem_addAll within apart, (of_mem_changes member).2.1, rfl⟩
    · rintro ⟨k', member', own, same⟩
      rw [← same]
      exact (asked k' (mine k' member' own)).2
  · intro k member write readable writable fifo
    have wanted := (of_mem_changes member).2.2
    rw [write] at wanted
    exact (fits.fifo readable writable fifo).2.mp wanted
  · intro u member
    rw [show (EpollFDCtx.kq { c with kq := addAll c.kq accepted }).users = c.kq.users from addAll_users ..] at member
    exact detached.users u member

/-- A node that has no filters and of which nothing is left. -/
structure Fresh (c : EpollFDCtx) (n : RegisteredFDsNode) : Prop where
  detached : Detached c.kq c.pollFds n
  has : ∀ filter, n.has filter = false
  off : n.isOnPollfdList = false

theorem watch_spec (typed : n.Typed) (kind : n.nodeType ≠ .poll) (fresh : Fresh c n) :
    Fine (Registered c n) (c.watch n answer) := by
  obtain ⟨detached, has, off⟩ := fresh
  obtain ⟨needed, some, fits⟩ := typed.getNeededFilters
  have bare : ¬ (n.has .read || n.has .write || n.has .except) = true := by simp [has]
  have same : Same n (asking n needed) := ⟨rfl, rfl, rfl, rfl, rfl, rfl, rfl, rfl, rfl, .inl rfl⟩
  rw [watch, if_neg bare, some]
  cases answer.kevent with
  | some ec =>
      have removable : Removable c.kq c.pollFds (asking n needed) := by
        refine ⟨typed.congr rfl rfl fun _ => rfl, fun k member mine => absurd mine (detached.knotes k member), ?_, ?_⟩
        · exact fun poll => absurd poll kind
        · simpa [asking, off] using detached.unlisted
      exact ⟨.refl n c, same, removable, fun none => by cases none⟩
  | none =>
      set accepted := (changes n needed).filter fun change => (answer.receipt change.filter).isNone with taken
      have leaves : Leaves n c { c with kq := addAll c.kq accepted } := by
        refine leaves_addAll ?_ ?_
        · exact fun k within => (of_mem_changes (List.mem_of_mem_filter within)).1
        · exact fun k within => (of_mem_changes (List.mem_of_mem_filter within)).2.1
      simp only
      split
      · exact rfl
      · rename_i fit
        split
        · rename_i bareOther
          obtain ⟨other, enodev⟩ := bareOther
          have none : accepted = [] := by
            obtain ⟨change, _, refused⟩ := Option.bind_eq_some_iff.mp enodev
            refine List.filter_eq_nil_iff.mpr fun k _ => ?_
            simpa using coherent_enodev (by simpa using fit) refused k.filter
          have knotes : ∀ k ∈ (addAll c.kq accepted).knotes, k.udata ≠ n.id := by
            rw [none]
            exact detached.knotes
          have unlisted : n.id ∈ c.pollFds ↔ n.isOnPollfdList = true := by simpa [off] using detached.unlisted
          have typed' : (asking n needed).Typed := typed.congr rfl rfl fun _ => rfl
          have ends : Fine (Registered { c with kq := addAll c.kq accepted } (asking n needed))
              (registerPoll { c with kq := addAll c.kq accepted } (asking n needed) answer) :=
            registerPoll_spec typed' (.inl other) knotes unlisted
          exact ends.mono fun result registered => registered.after leaves same
        · have receiving := receiving_of_detached typed fits kind detached off accepted taken
          exact (checkReceipts_spec receiving).after leaves same

theorem registerFilters_spec (kind : n.nodeType ≠ .poll) (polls : c.PollList) (removable : Removable c.kq c.pollFds n)
    (fresh : n.isRegistered = false → Fresh c n) : Fine (Registered c n) (c.registerFilters n answer) := by
  rw [registerFilters]
  split
  · obtain ⟨c', removed, leaves, detached⟩ := removeNodeFromKq_spec removable polls
    rw [removed]
    have typed : n.unwatched.Typed := removable.typed.congr rfl rfl fun _ => rfl
    exact (watch_spec typed kind ⟨detached.of_same rfl, fun _ => rfl, rfl⟩).mono
      fun result registered => registered.after leaves (.of_unwatched n)
  · rename_i unregistered
    exact watch_spec removable.typed kind (fresh (by simpa using unregistered))

/-- Whatever the kernel answers, no assertion fails while a node is registered,
and nothing of another node is touched. -/
theorem registerEvents_spec (polls : c.PollList) (removable : Removable c.kq c.pollFds (supported n))
    (fresh : n.isRegistered = false → n.nodeType ≠ .poll ∧ Fresh c (supported n)) :
    Fine (Registered c (supported n)) (c.registerEvents n answer) := by
  have same : (supported n).isRegistered = n.isRegistered ∧ (supported n).nodeType = n.nodeType := by
    rw [supported]
    split <;> exact ⟨rfl, rfl⟩
  rw [registerEvents]
  split
  · rename_i poll
    have registered : (supported n).isRegistered = true := by
      by_contra unregistered
      rw [same.1, Bool.not_eq_true] at unregistered
      exact (fresh unregistered).1 (same.2 ▸ poll)
    exact registerPoll_spec removable.typed (.inr ⟨poll, registered⟩)
      (fun k member mine => (removable.knotes k member mine).2.2 poll) removable.listed
  · rename_i kind
    exact registerFilters_spec kind polls removable fun unregistered => (fresh (same.1 ▸ unregistered)).2

end EpollFDCtx

end Iland.Epoll

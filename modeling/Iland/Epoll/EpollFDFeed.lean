import Iland.Epoll.EpollFDCtl

namespace Iland.Epoll

open Iland.Data EpollEvent

/-! What an event of the kernel does to its node.

The kernel delivers a user event of a node that only supports `poll` or of a
fifo that waits for a reader, and the events of filters of all others.
-/

namespace RegisteredFDsNode

variable {n n' : RegisteredFDsNode} {kq : EpollKq} {pollFds : List ℕ}

/-- The filter can have an event of this node. -/
structure Hears (n : RegisteredFDsNode) (filter : Evfilt) : Prop where
  nodeType : n.nodeType ≠ .poll
  except : filter ≠ .except
  fifo : ∀ readable writable, n.nodeType = .fifo readable writable → filter = .write → writable = true
  kqueue : n.nodeType = .kqueue → filter = .read
  other : n.nodeType = .other → filter = .write → n.events ≠ ∅

theorem Flags.hears (flags : n.Flags) {filter : Evfilt} (has : n.has filter = true) : n.Hears filter where
  nodeType := by
    intro poll
    rw [flags.poll poll] at has
    cases has
  except := by
    rintro rfl
    rw [flags.except] at has
    cases has
  fifo := by
    rintro readable writable kind rfl
    exact (flags.fifo readable writable kind).2 has
  kqueue := by
    intro kqueue
    cases filter with
    | read => rfl
    | write =>
        rw [flags.kqueue kqueue] at has
        cases has
    | except =>
        rw [flags.except] at has
        cases has
  other := by
    rintro other rfl
    exact flags.other other has

/-- What an event leaves of a node. -/
structure Kept (n n' : RegisteredFDsNode) : Prop where
  id : n'.id = n.id
  fd : n'.fd = n.fd
  data : n'.data = n.data
  events : n'.events = n.events
  nodeType : n'.nodeType = n.nodeType
  isRegistered : n'.isRegistered = n.isRegistered
  isEdgeTriggered : n'.isEdgeTriggered = n.isEdgeTriggered
  isOneshot : n'.isOneshot = n.isOneshot
  isOnPollfdList : n'.isOnPollfdList = n.isOnPollfdList

theorem Kept.interest (kept : Kept n n') : n'.interest = n.interest := by
  simp only [RegisteredFDsNode.interest, kept.nodeType, kept.data, kept.events, kept.isEdgeTriggered, kept.isOneshot]

theorem Kept.mask (kept : Kept n n') : n'.mask = n.mask := by
  simp only [RegisteredFDsNode.mask, kept.events]

/-- An event that changes no flag of a filter. -/
theorem Own.kept (own : Own kq pollFds n) (kept : Kept n n') (has : n'.has = n.has)
    (kqueue : n.nodeType = .kqueue → n'.eofState = .none) : Own kq pollFds n' where
  typed := own.typed.congr kept.nodeType kept.events fun kind => (kqueue kind).trans (own.typed.kqueue kind).symm
  flags := by
    refine ⟨?_, ?_, ?_, ?_, ?_⟩ <;> simp only [has, kept.nodeType, kept.events]
    · exact own.flags.except
    · exact own.flags.fifo
    · exact own.flags.kqueue
    · exact own.flags.other
    · exact own.flags.poll
  knotes := by
    rw [kept.id, kept.fd, has]
    exact own.knotes
  held := by
    rw [kept.id, has]
    exact own.held
  users := by
    rw [kept.id, kept.nodeType]
    intro u member mine triggered
    refine (own.users u member mine triggered).imp_right fun retry => ⟨?_, ?_⟩
    · rw [has]
      exact retry.unwatched
    · rw [kept.nodeType, kept.events]
      exact retry.wanted
  listed := by
    rw [kept.id, kept.isOnPollfdList]
    exact own.listed
  onlyPoll := by
    rw [kept.isOnPollfdList, kept.nodeType]
    exact own.onlyPoll

/-- What the events of a node come to: they are among those asked for, none that
was seen is forgotten, and a queue has been looked at. -/
structure Sees (n n' : RegisteredFDsNode) : Prop where
  mask : n.revents ⊆ n.mask → n'.revents ⊆ n.mask
  grows : n.nodeType ≠ .kqueue → n.revents ⊆ n.mask → n.revents ⊆ n'.revents
  kqueue : n.nodeType = .kqueue → n'.revents ≠ ∅ → n'.got .read = true

theorem feedOut_kept (n : RegisteredFDsNode) (seen : Option Evfilt) (revents : EpollEvents)
    (pollable : Option EpollEvents) : Kept n (n.feedOut seen revents pollable) :=
  ⟨rfl, rfl, rfl, rfl, rfl, rfl, rfl, rfl, rfl⟩

theorem feedOut_sees (n : RegisteredFDsNode) (seen : Option Evfilt) (revents : EpollEvents)
    (pollable : Option EpollEvents) (queue : n.nodeType = .kqueue → seen = some .read ∧ epollin ∈ revents ∧
      ∀ events, pollable = some events → events ⊆ {epollin}) :
    Sees n (n.feedOut seen revents pollable) := by
  have within : (n.revents ∪ revents) ∩ n.mask ⊆ n.mask := Finset.inter_subset_right
  refine ⟨fun _ => ?_, fun kind masked => ?_, fun kind some => ?_⟩
  · simp only [feedOut]
    split
    · cases pollable with
      | none => exact within
      | some events => exact Finset.inter_subset_right
    · exact within
  · simp only [feedOut, if_neg kind]
    exact Finset.subset_inter Finset.subset_union_left masked
  · obtain ⟨read, readable, polled⟩ := queue kind
    suffices seen' : (n.revents ∪ revents) ∩ n.mask ≠ ∅ by simp [feedOut, read, seen']
    simp only [feedOut, if_pos kind] at some
    cases pollable with
    | none => exact some
    | some events =>
        obtain ⟨event, member⟩ := Finset.nonempty_iff_ne_empty.mpr some
        obtain ⟨told, wanted⟩ := Finset.mem_inter.mp member
        obtain rfl := Finset.mem_singleton.mp (polled events rfl told)
        exact Finset.ne_empty_of_mem (Finset.mem_inter.mpr ⟨Finset.mem_union_right _ readable, wanted⟩)

/-- An event of a filter that the node listens to. -/
structure Heard (n : RegisteredFDsNode) (kev : KEvent) (answer : FeedAnswer) (filter : Evfilt) : Prop where
  source : kev.source = .filter n.fd filter
  hears : n.Hears filter
  kqueue : n.nodeType = .kqueue → kev.eof = false ∧ ∀ events, answer.pollable = some events → events ⊆ {epollin}

/-- Only a socket can have ended in one way and not in the other. -/
theorem eofAfter_open {filter : Evfilt} (socket : n.nodeType ≠ .socket) (known : filter ≠ .except) :
    n.eofAfter filter false = .none := by
  cases filter with
  | except => exact absurd rfl known
  | _ =>
      cases kind : n.nodeType with
      | socket => exact absurd kind socket
      | _ => simp [eofAfter, kind]

theorem eofEvents_open {filter : Evfilt} {data : ℤ} {revents : EpollEvents} (eof : n.eofState = .none) :
    n.eofEvents filter data revents = .ok (some revents) := by
  rw [eofEvents, if_pos eof]

/-- The assertions about a fifo hold at its end. -/
theorem eofEvents_ok {filter : Evfilt} (flags : n.Flags) (hears : n.Hears filter) (data : ℤ) (revents : EpollEvents) :
    ∃ events, n.eofEvents filter data revents = .ok events := by
  simp only [eofEvents]
  split
  · exact ⟨_, rfl⟩
  · cases kind : n.nodeType with
    | fifo readable writable =>
        cases filter with
        | read => exact ⟨_, rfl⟩
        | except => exact ⟨_, rfl⟩
        | write =>
            by_cases has : n.has .read = true
            · have reads := (flags.fifo readable writable kind).1 has
              have writes := hears.fifo readable writable kind rfl
              simp only [has, if_true, reads, writes, Bool.and_self]
              exact ⟨_, rfl⟩
            · simp only [has]
              exact ⟨_, rfl⟩
    | socket => exact ⟨_, rfl⟩
    | kqueue => exact ⟨_, rfl⟩
    | other => exact ⟨_, rfl⟩
    | poll => exact ⟨_, rfl⟩

/-- A node that has come to its end, or is known not to have. -/
def ended (n : RegisteredFDsNode) (eofState : EOFState) : RegisteredFDsNode := { n with eofState := eofState }

theorem Flags.ended (flags : n.Flags) (eofState : EOFState) : (n.ended eofState).Flags :=
  ⟨flags.except, flags.fifo, flags.kqueue, flags.other, flags.poll⟩

theorem Hears.ended {filter : Evfilt} (hears : n.Hears filter) (eofState : EOFState) : (n.ended eofState).Hears filter :=
  ⟨hears.nodeType, hears.except, hears.fifo, hears.kqueue, hears.other⟩

theorem feedEvents_sees {filter : Evfilt} {pollable revents : Option EpollEvents}
    (queue : n.nodeType = .kqueue → filter = .read ∧ (∃ events, revents = some events ∧ epollin ∈ events) ∧
      ∀ events, pollable = some events → events ⊆ {epollin}) :
    Sees n (n.feedEvents filter pollable revents) := by
  cases revents with
  | none =>
      refine ⟨fun masked => ?_, fun _ _ => ?_, fun kind => ?_⟩
      · simp only [feedEvents]
        split
        · exact Finset.union_subset masked (by simp [RegisteredFDsNode.mask])
        · exact masked
      · simp only [feedEvents]
        split
        · exact Finset.subset_union_left
        · exact Finset.Subset.refl _
      · obtain ⟨_, ⟨events, none, _⟩, _⟩ := queue kind
        cases none
  | some revents =>
      refine feedOut_sees n _ _ _ fun kind => ?_
      obtain ⟨read, ⟨events, some, readable⟩, polled⟩ := queue kind
      cases some
      exact ⟨congrArg _ read, readable, polled⟩

/-- Nothing is taken back of what an event says that is not the end of a fifo. -/
theorem told_subset {filter : Evfilt} {data : ℤ} {revents : EpollEvents} {events : Option EpollEvents}
    (open' : n.eofState = .none ∨ n.nodeType = .socket) (found : n.eofEvents filter data revents = .ok events) :
    ∃ more, events = some more ∧ revents ⊆ more := by
  by_cases none : n.eofState = .none
  · rw [eofEvents_open none] at found
    cases found
    exact ⟨revents, rfl, Finset.Subset.refl _⟩
  · have socket := open'.resolve_left none
    simp only [eofEvents, if_neg none, socket] at found
    cases found
    refine ⟨_, rfl, ?_⟩
    exact Finset.subset_union_left.trans (Finset.subset_union_left.trans Finset.subset_union_left)

/-- What the event says by itself is told as it is. -/
def Speaks (n : RegisteredFDsNode) (kev : KEvent) : Prop :=
  n.nodeType ≠ .kqueue ∧ (kev.eof = false ∨ n.nodeType = .socket)

theorem Speaks.ended {kev : KEvent} {filter : Evfilt} (speaks : n.Speaks kev) (known : filter ≠ .except) :
    (n.ended (n.eofAfter filter kev.eof)).eofState = .none ∨ n.nodeType = .socket := by
  by_cases socket : n.nodeType = .socket
  · exact .inr socket
  · refine .inl ?_
    have open' := speaks.2.resolve_right socket
    show n.eofAfter filter kev.eof = .none
    rw [open']
    exact eofAfter_open socket known

theorem feedEvents_kept (n : RegisteredFDsNode) (filter : Evfilt) (pollable revents : Option EpollEvents) :
    Kept n (n.feedEvents filter pollable revents) := by
  cases revents <;> exact ⟨rfl, rfl, rfl, rfl, rfl, rfl, rfl, rfl, rfl⟩

theorem feedFilter_spec {kev : KEvent} {answer : FeedAnswer} {filter : Evfilt} (flags : n.Flags)
    (heard : n.Heard kev answer filter) : ∃ n', n.feedFilter filter kev answer = .ok n' ∧ Kept n n' ∧ n'.has = n.has ∧
      (n.nodeType = .kqueue → n'.eofState = .none) ∧ Sees n n' ∧
      (n.Speaks kev → told filter kev ∩ n.mask ⊆ n'.revents) := by
  set m := n.ended (n.eofAfter filter kev.eof)
  have queue : n.nodeType = .kqueue → m.eofState = .none := by
    intro kind
    show n.eofAfter filter kev.eof = .none
    rw [(heard.kqueue kind).1]
    exact eofAfter_open (by simp [kind]) heard.hears.except
  obtain ⟨events, found⟩ := eofEvents_ok (flags.ended (n.eofAfter filter kev.eof))
    (heard.hears.ended (n.eofAfter filter kev.eof)) kev.data (told filter kev)
  have fed : n.feedFilter filter kev answer = .ok (m.feedEvents filter answer.pollable events) := by
    show (m.eofEvents filter kev.data (told filter kev)).map _ = _
    rw [found]
    rfl
  have sees : Sees m (m.feedEvents filter answer.pollable events) := by
    refine feedEvents_sees fun kind => ?_
    have read := heard.hears.kqueue kind
    rw [eofEvents_open (queue kind)] at found
    cases found
    refine ⟨read, ⟨_, rfl, ?_⟩, (heard.kqueue kind).2⟩
    simp only [told, read, if_true]
    split <;> simp
  obtain ⟨id, fd, data, events', nodeType, registered, edge, oneshot, list⟩ :=
    feedEvents_kept m filter answer.pollable events
  refine ⟨_, fed, ⟨id, fd, data, events', nodeType, registered, edge, oneshot, list⟩, ?_, ?_,
    ⟨sees.mask, sees.grows, sees.kqueue⟩, fun speaks => ?_⟩
  · cases events <;> rfl
  · cases events <;> exact queue
  · obtain ⟨more, rfl, within⟩ := told_subset (speaks.ended heard.hears.except) found
    have plain : ¬ m.nodeType = .kqueue := speaks.1
    simp only [feedEvents, feedOut, if_neg plain]
    exact Finset.inter_subset_inter_right (within.trans Finset.subset_union_right)

/-- An event that the kernel can deliver of the node. -/
inductive Fits (n : RegisteredFDsNode) (kev : KEvent) (answer : FeedAnswer) : Prop
  | heard (filter : Evfilt) : n.Heard kev answer filter → (n.nodeType = .kqueue → n.revents = ∅) → Fits n kev answer
  | polled : kev.source = .user n.id → n.nodeType = .poll → n.revents = ∅ →
      (∀ events, answer.poll = some events → events ⊆ n.mask) → Fits n kev answer
  | retried : kev.source = .user n.id → n.Retry → n.revents = ∅ → Fits n kev answer

theorem feedPoll_spec (id : ℕ) {answer : FeedAnswer} (typed : n.Typed) (poll : n.nodeType = .poll)
    (silent : n.revents = ∅) (asked : ∀ events, answer.poll = some events → events ⊆ n.mask) :
    ∃ revents, n.feedPoll (.user id) answer = .ok { n with revents := revents } ∧ revents ⊆ n.mask := by
  have plain := typed.plain (by simp [poll])
  have known : n.mask ⊆ {epollin, epollout, epollerr, epollhup} := by
    intro event member
    rcases Finset.mem_union.mp member with wanted | always
    · have either := plain wanted
      simp only [Finset.mem_insert, Finset.mem_singleton] at either ⊢
      exact either.elim .inl fun out => .inr (.inl out)
    · simp only [Finset.mem_insert, Finset.mem_singleton] at always ⊢
      exact always.elim (fun hup => .inr (.inr (.inr hup))) fun err => .inr (.inr (.inl err))
  have masked : answer.polled ⊆ n.mask := by
    rw [FeedAnswer.polled]
    cases told : answer.poll with
    | none => simp [RegisteredFDsNode.mask]
    | some events =>
        cases answer.pollnval
        · exact asked events told
        · simp
  refine ⟨answer.polled, ?_, masked⟩
  have still : ¬ n.revents ≠ ∅ := not_not.mpr silent
  simp only [feedPoll, if_neg still]
  exact if_pos (masked.trans known)

/-- A fifo that waits to watch for room always asks for the filter for writing. -/
theorem Retry.needed (retry : n.Retry) (typed : n.Typed) :
    ∃ needed, n.getNeededFilters = some needed ∧ needed.evfiltWrite ≠ .no := by
  obtain ⟨needed, found, fits⟩ := typed.getNeededFilters
  obtain ⟨readable, kind, wanted⟩ := retry.wanted
  exact ⟨needed, found, (fits.fifo readable true kind).2.mpr ⟨rfl, wanted⟩⟩

/-- The kernel watches for room again. -/
theorem Own.accept (own : Own kq pollFds n) (retry : n.Retry) (untriggered : ∀ u ∈ kq.users, u.1 = n.id → u.2 = false)
    (clear : Bool) : Own (kq.add ⟨n.fd, .write, clear, n.id⟩) pollFds
      { n with has := fun filter => if filter = .write then true else n.has filter } where
  typed := own.typed.congr rfl rfl fun _ => rfl
  flags := by
    obtain ⟨readable, kind, _⟩ := retry.wanted
    refine ⟨by simp [retry.unwatched], ?_, by simp [kind], by simp [kind], by simp [kind]⟩
    rintro _ _ same
    cases kind.symm.trans same
    exact ⟨by simp [retry.unwatched], fun _ => rfl⟩
  knotes := by
    intro k member mine
    rcases EpollFDCtx.mem_add.mp member with rfl | ⟨before, _⟩
    · exact ⟨rfl, rfl⟩
    · have has := (own.knotes k before mine).2
      rw [retry.unwatched] at has
      cases has
  held := by
    intro filter has
    refine ⟨_, EpollFDCtx.mem_add.mpr (.inl rfl), rfl, ?_⟩
    by_contra other
    simp [Ne.symm other, retry.unwatched] at has
  users := by
    intro u member mine triggered
    have quiet := untriggered u member mine
    rw [triggered] at quiet
    cases quiet
  listed := own.listed
  onlyPoll := own.onlyPoll

/-- The node tries again later. -/
theorem Own.again (own : Own kq pollFds n) (retry : n.Retry) : Own (kq.trigger n.id) pollFds n where
  typed := own.typed
  flags := own.flags
  knotes := own.knotes
  held := own.held
  users := fun _ _ _ _ => .inr retry
  listed := own.listed
  onlyPoll := own.onlyPoll

end RegisteredFDsNode

namespace EpollFDCtx

open RegisteredFDsNode

variable {c : EpollFDCtx} {n : RegisteredFDsNode} {kev : KEvent} {answer : FeedAnswer}

structure Fed (c : EpollFDCtx) (n : RegisteredFDsNode) (kev : KEvent) (result : EpollKq × RegisteredFDsNode) :
    Prop where
  leaves : Leaves n c { c with kq := result.1 }
  kept : Kept n result.2
  own : Own result.1 c.pollFds result.2
  sees : Sees n result.2
  grows : n.revents ⊆ n.mask → n.revents ⊆ result.2.revents
  tells : ∀ filter, kev.source = .filter n.fd filter → n.Speaks kev → told filter kev ∩ n.mask ⊆ result.2.revents

theorem subset_of_silent (silent : n.revents = ∅) (revents : EpollEvents) : n.revents ⊆ revents :=
  silent ▸ Finset.empty_subset revents

/-- The user event of the node was taken out of the queue when it was delivered. -/
def Untriggered (c : EpollFDCtx) (id : ℕ) : Prop := ∀ u ∈ c.kq.users, u.1 = id → u.2 = false

theorem feedFifoUser_spec (own : Own c.kq c.pollFds n) (retry : n.Retry) (silent : n.revents = ∅)
    (source : kev.source = .user n.id) (untriggered : c.Untriggered n.id) :
    ∃ result, n.feedFifoUser c.kq answer = .ok result ∧ Fed c n kev result := by
  obtain ⟨readable, kind, _⟩ := retry.wanted
  obtain ⟨needed, found, writes⟩ := retry.needed own.typed
  have bare : ¬ (n.revents ≠ ∅ ∨ n.has .read = true ∨ n.has .write = true ∨ n.has .except = true) := by
    simp [silent, retry.unwatched]
  simp only [feedFifoUser, if_neg bare, found, if_neg writes]
  split
  · refine ⟨_, rfl, leaves_kq _ ?_ ?_ (fun _ member => .inl member), ⟨rfl, rfl, rfl, rfl, rfl, rfl, rfl, rfl, rfl⟩,
      own.accept retry untriggered _, ?_, fun _ => subset_of_silent silent _, by simp [source]⟩
    · exact fun m id fd own => own.add fd (Ne.symm id)
    · intro k member
      rcases mem_add.mp member with rfl | ⟨before, _⟩
      · exact .inr rfl
      · exact .inl before
    · exact ⟨id, fun _ _ => Finset.Subset.refl _, by simp [kind]⟩
  · have kept := feedOut_kept n none {epollerr, epollout} none
    have sees : Sees n (n.feedOut none {epollerr, epollout} none) := feedOut_sees n _ _ _ (by simp [kind])
    have settled : ∀ {kq : EpollKq}, Own kq c.pollFds n → Own kq c.pollFds (n.feedOut none {epollerr, epollout} none) :=
      fun own => own.kept kept rfl (by simp [kind])
    refine ⟨_, rfl, ?_, kept, ?_, sees, fun _ => subset_of_silent silent _, by simp [source]⟩
    · split
      · exact .refl n c
      · exact leaves_trigger n c
    · split
      · exact settled own
      · exact settled (own.again retry)

theorem feed_heard {filter : Evfilt} (own : Own c.kq c.pollFds n) (heard : n.Heard kev answer filter) :
    ∃ n', n.registeredFdsNodeFeedEvent c.kq kev answer = .ok (c.kq, n') ∧ Kept n n' ∧ n'.has = n.has ∧
      Own c.kq c.pollFds n' ∧ Sees n n' ∧ (n.Speaks kev → told filter kev ∩ n.mask ⊆ n'.revents) := by
  obtain ⟨n', fed, kept, has, eof, sees⟩ := feedFilter_spec own.flags heard
  refine ⟨n', ?_, kept, has, own.kept kept has eof, sees⟩
  cases kind : n.nodeType with
  | poll => exact absurd kind heard.hears.nodeType
  | _ => simp [registeredFdsNodeFeedEvent, kind, heard.source, heard.hears.except, fed, Except.map]

/-- Whatever event of a settled node the kernel delivers, no assertion fails, and
nothing of another node is touched. -/
theorem feed_spec (own : Own c.kq c.pollFds n) (fits : n.Fits kev answer)
    (untriggered : kev.source = .user n.id → c.Untriggered n.id) :
    ∃ result, n.registeredFdsNodeFeedEvent c.kq kev answer = .ok result ∧ Fed c n kev result := by
  rcases fits with ⟨filter, heard, queue⟩ | ⟨source, poll, silent, asked⟩ | ⟨source, retry, silent⟩
  · obtain ⟨n', fed, kept, _, own', sees, tells⟩ := feed_heard own heard
    refine ⟨(c.kq, n'), fed, .refl n c, kept, own', sees, fun masked => ?_, fun filter' source => ?_⟩
    · by_cases kind : n.nodeType = .kqueue
      · exact subset_of_silent (queue kind) _
      · exact sees.grows kind masked
    · cases heard.source.symm.trans source
      exact tells
  · obtain ⟨revents, fed, masked⟩ := feedPoll_spec n.id own.typed poll silent asked
    have kept : Kept n { n with revents := revents } := ⟨rfl, rfl, rfl, rfl, rfl, rfl, rfl, rfl, rfl⟩
    refine ⟨(c.kq, _), ?_, .refl n c, kept, own.kept kept rfl (by simp [poll]), ?_,
      fun _ => subset_of_silent silent _, by simp [source]⟩
    · simp only [registeredFdsNodeFeedEvent, poll, source, fed]
      rfl
    · exact ⟨fun _ => masked, fun _ _ => subset_of_silent silent _, by simp [poll]⟩
  · obtain ⟨result, fed, spec⟩ : ∃ result, n.feedFifoUser c.kq answer = .ok result ∧ Fed c n kev result :=
      feedFifoUser_spec own retry silent source (untriggered source)
    obtain ⟨readable, kind, _⟩ := retry.wanted
    refine ⟨result, ?_, spec⟩
    simp only [registeredFdsNodeFeedEvent, kind, source, fed]

end EpollFDCtx

end Iland.Epoll

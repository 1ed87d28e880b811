import Iland.Epoll.EpollFDFeed

namespace Iland.Epoll

open Iland.Data EpollEvent

/-! What `epoll_wait` does with the events of the kernel.

While they are handled, the nodes that have something for the caller are
exactly those whose events are not empty.
-/

namespace EpollFDCtx

open RegisteredFDsNode

variable {c c' : EpollFDCtx} {n n' : RegisteredFDsNode}

theorem supported_of_typed (typed : n.Typed) : supported n = n := by
  rw [supported]
  split
  · rfl
  · rename_i plain
    have kept : n.events \ {epollrdhup, epollpri} = n.events := by
      refine Finset.sdiff_eq_self_of_disjoint (Finset.disjoint_of_subset_left (typed.plain plain) ?_)
      decide
    rw [kept]

/-- What becomes of a node when its filters are set anew, if they are. -/
structure Renewed (c : EpollFDCtx) (n : RegisteredFDsNode) (isStale : Bool) (result : EpollFDCtx × RegisteredFDsNode) :
    Prop where
  leaves : Leaves n c result.1
  same : Same n result.2
  own : Own result.1.kq result.1.pollFds result.2
  fresh : isStale = false → result.2 = n

theorem renew_spec (old : NeededFilters) {needed : NeededFilters} (answer : RegisterAnswer) (polls : c.PollList)
    (own : Own c.kq c.pollFds n) (registered : n.isRegistered = true) (found : n.getNeededFilters = some needed) :
    Fine (Renewed c n (stale old needed)) (c.renew old n answer) := by
  simp only [renew, found]
  split
  · exact ⟨.refl n c, .refl n, own, fun _ => rfl⟩
  split
  · rename_i isStale
    have same := supported_of_typed own.typed
    have spec : Fine (Registered c (supported n)) (c.registerEvents n answer) :=
      registerEvents_spec polls (same.symm ▸ own.removable)
        fun unregistered => absurd (registered.symm.trans unregistered) (by simp)
    rw [same] at spec
    refine spec.bind ?_
    rintro ⟨c', n', _ | ec⟩ ⟨leaves, same, removable, own'⟩
    · exact ⟨leaves, same, own' rfl, fun fresh => absurd (isStale.symm.trans fresh) (by simp)⟩
    · obtain ⟨c'', removed, leaves', detached⟩ := removeNodeFromKq_spec removable (leaves.polls polls)
      simp only [removed]
      refine ⟨leaves.trans (leaves'.of_same same.id.symm same.fd.symm), same.trans (.of_unwatched n'),
        detached.own removable.typed, fun fresh => absurd (isStale.symm.trans fresh) (by simp)⟩
  · exact ⟨.refl n c, .refl n, own, fun _ => rfl⟩

/-- What such a descriptor needs does not depend on whether it has ended. -/
theorem needed_of_other (kept : Kept n n') (kind : n.nodeType = .other) (asked : n.events ≠ ∅) :
    n'.getNeededFilters = n.getNeededFilters := by
  have kind' := kept.nodeType.trans kind
  simp only [RegisteredFDsNode.getNeededFilters, levelFilters, kind, kind', if_neg asked, edge, kept.isEdgeTriggered,
    wants, kept.events]
  rfl

/-- What a step makes of a node that can be put back. -/
structure Placed (c : EpollFDCtx) (n : RegisteredFDsNode) (result : EpollFDCtx × RegisteredFDsNode) : Prop where
  leaves : Leaves n c result.1
  id : result.2.id = n.id
  fd : result.2.fd = n.fd
  interest : result.2.interest = n.interest
  settled : result.1.Settled result.2

/-- What handling an event makes of its node. -/
structure Turned (c : EpollFDCtx) (n : RegisteredFDsNode) (kev : KEvent) (result : EpollFDCtx × RegisteredFDsNode) :
    Prop extends Placed c n result where
  masked : n.revents ⊆ n.mask → result.2.revents ⊆ result.2.mask
  grows : n.revents ⊆ n.mask → n.revents ⊆ result.2.revents
  tells : ∀ filter, kev.source = .filter n.fd filter → n.Speaks kev → told filter kev ∩ n.mask ⊆ result.2.revents
  queue : result.2.nodeType = .kqueue → result.2.revents ≠ ∅ → result.2.got .read = true
  kqueue : result.2.nodeType = .kqueue → n.nodeType = .kqueue
  kind : (n.nodeType = .other → n.events ≠ ∅) → result.2.nodeType = n.nodeType

theorem Interest.mask_eq (same : n'.interest = n.interest) : n'.mask = n.mask := by
  have events : n'.events = n.events := congrArg Interest.events same
  simp only [RegisteredFDsNode.mask, events]

/-- Nodes that wait for the caller. -/
structure Busy (c : EpollFDCtx) (evs : List ℕ) : Prop extends Whole c where
  nodup : evs.Nodup
  known : ∀ id ∈ evs, id ∈ c.ids
  given : ∀ m ∈ c.registeredFds, m.id ∈ evs ↔ m.revents ≠ ∅
  masked : ∀ m ∈ c.registeredFds, m.revents ⊆ m.mask
  queues : ∀ m ∈ c.registeredFds, m.nodeType = .kqueue → m.revents ≠ ∅ → m.got .read = true

theorem Quiet.busy (quiet : c.Quiet) : c.Busy [] where
  toWhole := quiet.toWhole
  nodup := .nil
  known := by simp
  given := fun m member => by simp [quiet.silent m member]
  masked := fun m member => by simp [quiet.silent m member]
  queues := fun m member _ some => absurd (quiet.silent m member) some

theorem Busy.quiet (busy : c.Busy []) : c.Quiet where
  toWhole := busy.toWhole
  silent := by
    intro m member
    by_contra some
    exact absurd ((busy.given m member).mpr some) (by simp)

theorem Turned.of_fed {kq : EpollKq} {kev : KEvent} {isStale : Bool} {result : EpollFDCtx × RegisteredFDsNode}
    (registered : n.isRegistered = true) (fed : Fed c n kev (kq, n'))
    (renewed : Renewed { c with kq := kq } n' isStale result)
    (still : n.nodeType = .other → n.events ≠ ∅ → isStale = false) : Turned c n kev result := by
  obtain ⟨leaves, kept, own, sees, grows, tells⟩ := fed
  obtain ⟨leaves', same, own', fresh⟩ := renewed
  have interest : result.2.interest = n.interest := same.interest.trans kept.interest
  have kqueue : result.2.nodeType = .kqueue → n.nodeType = .kqueue := by
    intro queue
    rcases same.nodeType with kind | ⟨_, poll⟩
    · exact kept.nodeType.symm.trans (kind.symm.trans queue)
    · rw [poll] at queue
      cases queue
  refine ⟨⟨leaves.trans (leaves'.of_same kept.id.symm kept.fd.symm), same.id.trans kept.id, same.fd.trans kept.fd,
    interest, own', same.isRegistered.trans (kept.isRegistered.trans registered)⟩, ?_, ?_, ?_, ?_, kqueue, ?_⟩
  · rw [same.revents, Interest.mask_eq interest]
    exact sees.mask
  · rw [same.revents]
    exact grows
  · rw [same.revents]
    exact tells
  · rw [same.revents, same.got]
    exact fun queue => sees.kqueue (kqueue queue)
  · intro asked
    rcases same.nodeType with kind | ⟨other, poll⟩
    · exact kind.trans kept.nodeType
    · have other' : n.nodeType = .other := kept.nodeType.symm.trans other
      rw [fresh (still other' (asked other')), kept.nodeType]

theorem Placed.around {result : EpollFDCtx × RegisteredFDsNode} (placed : Placed c n result) (around : Around n c) :
    Around result.2 result.1 :=
  (around.leaves placed.leaves).of_same placed.id placed.fd

/-- The nodes after one of them was put back. -/
theorem Placed.mem {result : EpollFDCtx × RegisteredFDsNode} {m : RegisteredFDsNode} (placed : Placed c n result)
    (around : Around n c) :
    m ∈ (result.1.store result.2).registeredFds ↔ m ∈ c.registeredFds ∧ m.id ≠ n.id ∨ m = result.2 := by
  rw [(placed.around around).mem_store, placed.leaves.registered, placed.id]

theorem Placed.interests {result : EpollFDCtx × RegisteredFDsNode} (placed : Placed c n result) (around : Around n c)
    (member : n ∈ c.registeredFds) : (result.1.store result.2).interests = c.interests := by
  have asked : c.interests n.fd = some n.interest := (interests_eq_some around.toShape).mpr ⟨n, member, rfl, rfl⟩
  rw [(placed.around around).interests_store, interests_congr placed.leaves.registered, placed.fd, placed.interest,
    ← asked, Function.update_eq_self]

theorem Placed.ids {result : EpollFDCtx × RegisteredFDsNode} (placed : Placed c n result) :
    (result.1.store result.2).ids = c.ids := by
  rw [EpollFDCtx.ids, EpollFDCtx.ids, ← placed.leaves.registered]
  exact map_put fun m within same => same

/-- A node is put back, and those that wait are told apart from the others again. -/
theorem Busy.put {evs evs' : List ℕ} {result : EpollFDCtx × RegisteredFDsNode} (busy : c.Busy evs)
    (member : n ∈ c.registeredFds) (placed : Placed c n result) (nodup : evs'.Nodup)
    (others : ∀ id, id ≠ n.id → (id ∈ evs' ↔ id ∈ evs)) (own : n.id ∈ evs' ↔ result.2.revents ≠ ∅)
    (masked : result.2.revents ⊆ result.2.mask)
    (queue : result.2.nodeType = .kqueue → result.2.revents ≠ ∅ → result.2.got .read = true) :
    (result.1.store result.2).Busy evs' := by
  have around := busy.around member
  refine ⟨(placed.around around).store placed.settled, nodup, ?_, ?_, ?_, ?_⟩
  · intro id within
    rw [placed.ids]
    by_cases same : id = n.id
    · exact same ▸ around.mem_ids
    · exact busy.known id ((others id same).mp within)
  · intro m within
    rcases (placed.mem around).mp within with ⟨before, other⟩ | rfl
    · rw [others m.id other]
      exact busy.given m before
    · rw [placed.id]
      exact own
  · intro m within
    rcases (placed.mem around).mp within with ⟨before, _⟩ | rfl
    · exact busy.masked m before
    · exact masked
  · intro m within
    rcases (placed.mem around).mp within with ⟨before, _⟩ | rfl
    · exact busy.queues m before
    · exact queue

/-- The nodes that wait for the caller after an event of one of them. -/
def waiting (evs : List ℕ) (n n' : RegisteredFDsNode) : List ℕ :=
  if n'.revents ≠ ∅ ∧ n.revents = ∅ then evs ++ [n'.id] else evs

theorem Busy.turn {evs : List ℕ} {kev : KEvent} {result : EpollFDCtx × RegisteredFDsNode} (busy : c.Busy evs)
    (member : n ∈ c.registeredFds) (turned : Turned c n kev result) :
    (result.1.store result.2).Busy (waiting evs n result.2) := by
  refine busy.put member turned.toPlaced ?_ ?_ ?_ (turned.masked (busy.masked n member)) turned.queue
  · rw [waiting]
    split <;> rename_i new
    · have fresh : result.2.id ∉ evs := by
        rw [turned.id, busy.given n member]
        exact not_not.mpr new.2
      refine List.nodup_append.mpr ⟨busy.nodup, List.nodup_singleton _, ?_⟩
      rintro id within _ last rfl
      exact fresh (List.mem_singleton.mp last ▸ within)
    · exact busy.nodup
  · intro id other
    rw [waiting]
    split
    · simp [turned.id, other]
    · rfl
  · rw [waiting]
    split <;> rename_i new
    · simp [turned.id, new.1]
    · rw [busy.given n member]
      refine ⟨fun some none => some ?_, fun some none => new ⟨some, none⟩⟩
      exact Finset.subset_empty.mp (none ▸ turned.grows (busy.masked n member))

/-! ## The events of one call -/

/-- The event can still be handled. -/
structure Due (c : EpollFDCtx) (d : Delivery) : Prop where
  node : ∃ n ∈ c.registeredFds, n.id = d.kev.udata ∧ n.Fits d.kev d.feed
  untriggered : d.kev.source = .user d.kev.udata → c.Untriggered d.kev.udata

/-- Two events of one node are of different filters. -/
def Apart (d d' : Delivery) : Prop :=
  d.kev.udata = d'.kev.udata → ∃ fd filter filter', d.kev.source = .filter fd filter ∧
    d'.kev.source = .filter fd filter' ∧ filter ≠ filter'

theorem Fits.of_filter {kev : KEvent} {answer : FeedAnswer} {fd : ℕ} {filter : Evfilt} (fits : n.Fits kev answer)
    (source : kev.source = .filter fd filter) : n.Heard kev answer filter := by
  rcases fits with ⟨filter', heard, _⟩ | ⟨user, _⟩ | ⟨user, _⟩
  · have same := source.symm.trans heard.source
    cases same
    exact heard
  · rw [source] at user
    cases user
  · rw [source] at user
    cases user

theorem write_of_ne {filter filter' : Evfilt} (different : filter ≠ filter') (known : filter ≠ .except)
    (known' : filter' ≠ .except) (reads : filter ≠ .write) : filter' = .write := by
  cases filter <;> cases filter' <;> first | rfl | contradiction

/-- What stands of an event is still due when the one before it is handled. -/
theorem Due.turn {d d' : Delivery} {evs : List ℕ} {result : EpollFDCtx × RegisteredFDsNode} (busy : c.Busy evs)
    (member : n ∈ c.registeredFds) (id : n.id = d.kev.udata) (fits : n.Fits d.kev d.feed) (turned : Turned c n d.kev result)
    (due : Due c d') (apart : Apart d d') : Due (result.1.store result.2) d' := by
  have around := busy.around member
  obtain ⟨⟨m, within, mine, fits'⟩, untriggered⟩ := due
  by_cases same : d'.kev.udata = n.id
  · obtain ⟨fd, filter, filter', source, source', different⟩ := apart (id.symm.trans same.symm)
    obtain rfl : m = n := busy.eq_of_id within member (mine.trans same)
    have heard := Fits.of_filter fits source
    have heard' := Fits.of_filter fits' source'
    have two : m.nodeType ≠ .kqueue :=
      fun queue => different ((heard.hears.kqueue queue).trans (heard'.hears.kqueue queue).symm)
    have asked : m.nodeType = .other → m.events ≠ ∅ := by
      intro other
      by_cases writes : filter = .write
      · exact heard.hears.other other writes
      · exact heard'.hears.other other (write_of_ne different heard.hears.except heard'.hears.except writes)
    have kind := turned.kind asked
    have events : result.2.events = m.events := congrArg Interest.events turned.interest
    have hears : result.2.Hears filter' := by
      refine ⟨?_, heard'.hears.except, ?_, ?_, ?_⟩ <;> simp only [kind, events]
      · exact heard'.hears.nodeType
      · exact heard'.hears.fifo
      · exact heard'.hears.kqueue
      · exact heard'.hears.other
    have fits'' : result.2.Fits d'.kev d'.feed := by
      refine .heard filter' ⟨?_, hears, fun queue => absurd (kind.symm.trans queue) two⟩
        fun queue => absurd (kind.symm.trans queue) two
      rw [turned.fd]
      exact heard'.source
    refine ⟨⟨result.2, (turned.mem around).mpr (.inr rfl), turned.id.trans same.symm, fits''⟩, fun user => ?_⟩
    rw [source'] at user
    cases user
  · have other : m.id ≠ n.id := mine ▸ same
    refine ⟨⟨m, (turned.mem around).mpr (.inl ⟨within, other⟩), mine, fits'⟩, fun user u member' mine' => ?_⟩
    rcases turned.leaves.users u member' with before | here
    · exact untriggered user u before mine'
    · exact absurd (mine'.symm.trans here) same

/-- The caller has room for every node that may still get something. -/
def Roomy (c : EpollFDCtx) (room : ℕ) (evs : List ℕ) (rest : ℕ) : Prop :=
  c.ids.length ≤ room ∨ evs.length + rest ≤ room

theorem Busy.room {evs : List ℕ} {room rest : ℕ} (busy : c.Busy evs) (member : n ∈ c.registeredFds)
    (silent : n.revents = ∅) (roomy : c.Roomy room evs (rest + 1)) : evs.length < room := by
  have fresh : n.id ∉ evs := by
    rw [busy.given n member]
    exact not_not.mpr silent
  rcases roomy with wide | left
  · have more : (n.id :: evs).Subperm c.ids := by
      refine List.Nodup.subperm (List.nodup_cons.mpr ⟨fresh, busy.nodup⟩) fun id within => ?_
      rcases List.mem_cons.mp within with rfl | before
      · exact List.mem_map_of_mem member
      · exact busy.known id before
    have length := more.length_le
    rw [List.length_cons] at length
    omega
  · omega

/-- The node has at least these events. -/
def Has (c : EpollFDCtx) (n : RegisteredFDsNode) (events : EpollEvents) : Prop :=
  ∃ m ∈ c.registeredFds, m.id = n.id ∧ m.fd = n.fd ∧ m.interest = n.interest ∧ events ⊆ m.revents

/-- The event says something of the node by itself. -/
def Says (c : EpollFDCtx) (kev : KEvent) (n : RegisteredFDsNode) (filter : Evfilt) : Prop :=
  n.id = kev.udata ∧ kev.source = .filter n.fd filter ∧
    ∃ m ∈ c.registeredFds, m.id = n.id ∧ m.fd = n.fd ∧ m.interest = n.interest ∧ m.Speaks kev

theorem Placed.has {result : EpollFDCtx × RegisteredFDsNode} (placed : Placed c n result) (around : Around n c)
    (member : n ∈ c.registeredFds) (grows : n.revents ⊆ result.2.revents) {m : RegisteredFDsNode} {events : EpollEvents}
    (has : c.Has m events) : Has (result.1.store result.2) m events := by
  obtain ⟨m', within, id, fd, interest, some⟩ := has
  by_cases same : m'.id = n.id
  · obtain rfl := around.eq_of_id within member same
    exact ⟨result.2, (placed.mem around).mpr (.inr rfl), placed.id.trans id, placed.fd.trans fd,
      placed.interest.trans interest, some.trans grows⟩
  · exact ⟨m', (placed.mem around).mpr (.inl ⟨within, same⟩), id, fd, interest, some⟩

theorem Turned.spoken {kev kev' : KEvent} {result : EpollFDCtx × RegisteredFDsNode} (around : Around n c)
    (member : n ∈ c.registeredFds) (turned : Turned c n kev result) {m : RegisteredFDsNode} {filter : Evfilt}
    (said : c.Says kev' m filter) : Says (result.1.store result.2) kev' m filter := by
  obtain ⟨place, source, m', within, id, fd, interest, plain, open'⟩ := said
  refine ⟨place, source, ?_⟩
  by_cases same : m'.id = n.id
  · obtain rfl := around.eq_of_id within member same
    have socket : result.2.nodeType = .socket ↔ m'.nodeType = .socket :=
      decide_eq_decide.mp (congrArg Interest.socket turned.interest)
    exact ⟨result.2, (turned.mem around).mpr (.inr rfl), turned.id.trans id, turned.fd.trans fd,
      turned.interest.trans interest, fun queue => plain (turned.kqueue queue), open'.imp_right socket.mpr⟩
  · exact ⟨m', (turned.mem around).mpr (.inl ⟨within, same⟩), id, fd, interest, plain, open'⟩

theorem Turned.told {kev : KEvent} {result : EpollFDCtx × RegisteredFDsNode} (around : Around n c)
    (member : n ∈ c.registeredFds) (turned : Turned c n kev result) (same : n.id = kev.udata) {m : RegisteredFDsNode}
    {filter : Evfilt} (said : c.Says kev m filter) :
    Has (result.1.store result.2) m (RegisteredFDsNode.told filter kev ∩ m.mask) := by
  obtain ⟨place, source, m', within, id, fd, interest, speaks⟩ := said
  obtain rfl := around.eq_of_id within member (id.trans (place.trans same.symm))
  refine ⟨result.2, (turned.mem around).mpr (.inr rfl), turned.id.trans id, turned.fd.trans fd,
    turned.interest.trans interest, ?_⟩
  rw [← Interest.mask_eq interest]
  exact turned.tells filter (fd ▸ source) speaks

/-- What the events that were handled leave. -/
structure Handled (c : EpollFDCtx) (evs : List ℕ) (deliveries : List Delivery) (result : EpollFDCtx × List ℕ) :
    Prop where
  busy : result.1.Busy result.2
  interests : result.1.interests = c.interests
  ids : result.1.ids = c.ids
  length : result.2.length ≤ evs.length + deliveries.length
  keeps : ∀ n events, c.Has n events → result.1.Has n events
  tells : ∀ d ∈ deliveries, ∀ n filter, c.Says d.kev n filter → result.1.Has n (told filter d.kev ∩ n.mask)

theorem handle_spec {room : ℕ} {evs : List ℕ} {d : Delivery} {rest : List Delivery} (busy : c.Busy evs) (due : Due c d)
    (later : ∀ d' ∈ rest, Due c d' ∧ Apart d d') (roomy : c.Roomy room evs (rest.length + 1)) :
    Fine (fun result => Handled c evs [d] result ∧ ∀ d' ∈ rest, Due result.1 d' ∧
      ∀ n filter, c.Says d'.kev n filter → result.1.Says d'.kev n filter) (c.handle room evs d) := by
  obtain ⟨⟨n, member, id, fits⟩, untriggered⟩ := due
  obtain ⟨own, registered⟩ := busy.settled n member
  obtain ⟨old, oldFound, _⟩ := own.typed.getNeededFilters
  obtain ⟨⟨kq, n'⟩, fed, spec⟩ := feed_spec own fits (id ▸ untriggered)
  obtain ⟨needed, found, _⟩ := spec.own.typed.getNeededFilters
  have still : n.nodeType = .other → n.events ≠ ∅ → stale old needed = false := by
    intro other asked
    have same := needed_of_other spec.kept other asked
    rw [found, oldFound, Option.some.injEq] at same
    simp [stale, same]
  have at' : c.nodeAt d.kev.udata = some n := busy.nodeAt_iff.mpr ⟨member, id⟩
  have renewed := renew_spec old d.register (spec.leaves.polls busy.polls) spec.own
    (spec.kept.isRegistered.trans registered) found
  simp only [EpollFDCtx.handle, at', oldFound, fed, bind, Except.bind]
  refine renewed.bind ?_
  rintro ⟨c', n''⟩ renewed
  have turned : Turned c n d.kev (c', n'') := .of_fed registered spec renewed still
  have next := busy.turn member turned
  have interests := turned.interests (busy.around member) member
  have around := busy.around member
  have dues : ∀ d' ∈ rest, Due (c'.store n'') d' ∧
      ∀ n filter, c.Says d'.kev n filter → Says (c'.store n'') d'.kev n filter :=
    fun d' within => ⟨(later d' within).1.turn busy member id fits turned (later d' within).2,
      fun m filter said => turned.spoken around member said⟩
  have keeps : ∀ m events, c.Has m events → Has (c'.store n'') m events :=
    fun m events has => turned.has around member (turned.grows (busy.masked n member)) has
  have tells : ∀ d' ∈ [d], ∀ n filter, c.Says d'.kev n filter → Has (c'.store n'') n (told filter d'.kev ∩ n.mask) := by
    intro d' within
    obtain rfl := List.mem_singleton.mp within
    exact fun m filter said => turned.told around member id said
  by_cases new : n''.revents ≠ ∅ ∧ n.revents = ∅
  · have space := busy.room member new.2 roomy
    have grown : waiting evs n n'' = evs ++ [n''.id] := if_pos new
    simp only [if_pos new, if_pos space]
    refine ⟨⟨grown ▸ next, interests, turned.ids, ?_, keeps, tells⟩, dues⟩
    simp
  · have same : waiting evs n n'' = evs := if_neg new
    simp only [if_neg new]
    exact ⟨⟨same ▸ next, interests, turned.ids, Nat.le_succ _, keeps, tells⟩, dues⟩

theorem handleAll_spec {room : ℕ} {evs : List ℕ} {deliveries : List Delivery} (busy : c.Busy evs)
    (due : ∀ d ∈ deliveries, Due c d) (apart : deliveries.Pairwise Apart) (roomy : c.Roomy room evs deliveries.length) :
    Fine (Handled c evs deliveries) (handleAll room c evs deliveries) := by
  induction deliveries generalizing c evs with
  | nil => exact ⟨busy, rfl, rfl, le_rfl, fun _ _ has => has, fun _ none => by cases none⟩
  | cons d rest ih =>
      obtain ⟨first, apart⟩ := List.pairwise_cons.mp apart
      have later : ∀ d' ∈ rest, Due c d' ∧ Apart d d' :=
        fun d' within => ⟨due d' (List.mem_cons_of_mem _ within), first d' within⟩
      rw [handleAll]
      refine (handle_spec busy (due d (List.mem_cons_self ..)) later roomy).bind ?_
      rintro ⟨c', evs'⟩ ⟨⟨busy', interests, ids, length, keeps, tells⟩, dues⟩
      have roomy' : c'.Roomy room evs' rest.length := by
        rw [Roomy, ids]
        refine roomy.imp_right fun left => ?_
        have grown : evs'.length ≤ evs.length + 1 := length
        rw [List.length_cons] at left
        omega
      refine (ih busy' (fun d' within => (dues d' within).1) apart roomy').mono fun result handled => ?_
      refine ⟨handled.busy, handled.interests.trans interests, handled.ids.trans ids, ?_,
        fun n events has => handled.keeps n events (keeps n events has), ?_⟩
      · have grown : evs'.length ≤ evs.length + 1 := length
        have more : result.2.length ≤ evs'.length + rest.length := handled.length
        rw [List.length_cons]
        omega
      · intro d' within n filter said
        rcases List.mem_cons.mp within with rfl | later
        · exact handled.keeps n _ (tells d' (List.mem_cons_self ..) n filter said)
        · exact handled.tells d' later n filter ((dues d' later).2 n filter said)

/-- What is delivered is over; the rest of the queue is as it was. -/
theorem Quiet.taken (quiet : c.Quiet) (sources : List Source) : Quiet { c with kq := c.kq.taken sources } := by
  have before : ∀ u ∈ (c.kq.taken sources).users, ∃ b, (u.1, b) ∈ c.kq.users ∧ (u.2 = true → b = true) := by
    intro u member
    obtain ⟨⟨id, b⟩, within, rfl⟩ := List.mem_map.mp member
    refine ⟨b, ?_, ?_⟩ <;> simp only <;> split
    · exact within
    · exact within
    · rintro ⟨⟩
    · exact fun triggered => triggered
  refine ⟨⟨⟨quiet.ids, quiet.fds, quiet.next, quiet.size, ⟨quiet.polls.nodup, quiet.polls.size⟩, quiet.knotes, ?_,
    quiet.listed⟩, fun m member => ?_⟩, quiet.silent⟩
  · intro u member
    obtain ⟨b, within, _⟩ := before u member
    exact quiet.users (u.1, b) within
  · obtain ⟨own, registered⟩ := quiet.settled m member
    refine ⟨⟨own.typed, own.flags, own.knotes, own.held, ?_, own.listed, own.onlyPoll⟩, registered⟩
    intro u member mine triggered
    obtain ⟨b, within, kept⟩ := before u member
    exact own.users (u.1, b) within mine (kept triggered)

theorem untriggered_taken {id : ℕ} {sources : List Source} (member : .user id ∈ sources) :
    Untriggered { c with kq := c.kq.taken sources } id := by
  intro u within mine
  obtain ⟨⟨id', b⟩, _, rfl⟩ := List.mem_map.mp within
  simp only at mine ⊢
  split
  · rfl
  · rename_i kept
    rw [if_neg kept] at mine
    subst mine
    exact absurd member kept

/-- What the kernel delivers is about a node, whom it fits. -/
structure Delivered (c : EpollFDCtx) (d : Delivery) (n : RegisteredFDsNode) : Prop where
  member : n ∈ c.registeredFds
  id : n.id = d.kev.udata
  fits : n.Fits d.kev d.feed
  filter : ∀ fd filter, d.kev.source = .filter fd filter → fd = n.fd ∧ ∃ k ∈ c.kq.knotes, k.udata = n.id
  user : ∀ id, d.kev.source = .user id → id = d.kev.udata ∧ ∀ k ∈ c.kq.knotes, k.udata ≠ n.id

theorem Quiet.delivered {d : Delivery} (quiet : c.Quiet) (delivers : c.delivers d = true) : ∃ n, Delivered c d n := by
  simp only [EpollFDCtx.delivers, Bool.and_eq_true] at delivers
  obtain ⟨from', kind⟩ := delivers
  cases source : d.kev.source with
  | filter fd filter =>
      simp only [source, List.any_eq_true, Bool.and_eq_true, decide_eq_true_eq] at from'
      obtain ⟨k, within, ⟨rfl, rfl⟩, mine⟩ := from'
      obtain ⟨n, member, id, at'⟩ := quiet.nodeAt (mine ▸ quiet.knotes k within)
      obtain ⟨own, _⟩ := quiet.settled n member
      obtain ⟨fd, has⟩ := own.knotes k within (mine.trans id.symm)
      have heard : n.Heard d.kev d.feed k.filter := by
        refine ⟨fd ▸ source, own.flags.hears has, fun queue => ?_⟩
        simpa [at', queue, Option.all_eq_true] using kind
      refine ⟨n, member, id, .heard k.filter heard fun _ => quiet.silent n member, ?_, ?_⟩
      · rintro _ _ same
        cases source.symm.trans same
        exact ⟨fd, k, within, mine.trans id.symm⟩
      · intro id same
        cases source.symm.trans same
  | user id =>
      simp only [source, Bool.and_eq_true, decide_eq_true_eq] at from'
      obtain ⟨rfl, triggered⟩ := from'
      obtain ⟨n, member, id, at'⟩ := quiet.nodeAt (quiet.users _ triggered)
      obtain ⟨own, _⟩ := quiet.settled n member
      have source' : d.kev.source = .user n.id := id ▸ source
      have silent := quiet.silent n member
      have bare : ∀ filter, n.has filter = false := by
        rcases own.users _ triggered id.symm rfl with poll | retry
        · exact own.flags.poll poll
        · exact retry.unwatched
      refine ⟨n, member, id, ?_, ?_, ?_⟩
      · rcases own.users _ triggered id.symm rfl with poll | retry
        · refine .polled source' poll silent fun events told => ?_
          simpa [at', poll, told] using kind
        · exact .retried source' retry silent
      · intro fd filter same
        cases source.symm.trans same
      · intro id' same
        cases source.symm.trans same
        refine ⟨rfl, fun k within mine => ?_⟩
        have has := (own.knotes k within mine).2
        rw [bare] at has
        cases has

theorem Delivered.apart {d d' : Delivery} {n n' : RegisteredFDsNode} (shape : c.Shape) (first : Delivered c d n)
    (second : Delivered c d' n') (different : d.kev.source ≠ d'.kev.source) : Apart d d' := by
  intro same
  obtain rfl : n = n' := shape.eq_of_id first.member second.member (first.id.trans (same.trans second.id.symm))
  cases source : d.kev.source with
  | user id =>
      obtain ⟨rfl, bare⟩ := first.user id source
      cases source' : d'.kev.source with
      | user id =>
          obtain ⟨rfl, _⟩ := second.user id source'
          rw [source, source', same] at different
          exact absurd rfl different
      | filter fd filter =>
          obtain ⟨_, k, within, mine⟩ := second.filter fd filter source'
          exact absurd mine (bare k within)
  | filter fd filter =>
      obtain ⟨rfl, k, within, mine⟩ := first.filter fd filter source
      cases source' : d'.kev.source with
      | user id => exact absurd mine ((second.user id source').2 k within)
      | filter fd filter' =>
          obtain ⟨rfl, _⟩ := second.filter fd filter' source'
          refine ⟨n.fd, filter, filter', rfl, rfl, ?_⟩
          rintro rfl
          exact different (source.trans source'.symm)

/-- What one call of `kevent` gives. -/
structure Taken (c : EpollFDCtx) (cnt : ℕ) (batch : Batch) (c' : EpollFDCtx) : Prop where
  quiet : c'.Quiet
  nodes : c'.registeredFds = c.registeredFds
  delivered : ∀ d ∈ batch.deliveries, ∃ n, Delivered c d n
  due : ∀ d ∈ batch.deliveries, Due c' d
  apart : batch.deliveries.Pairwise Apart
  count : batch.deliveries.length ≤ cnt

theorem Taken.interests {cnt : ℕ} {batch : Batch} (taken : Taken c cnt batch c') : c'.interests = c.interests := by
  funext fd
  simp only [EpollFDCtx.interests, EpollFDCtx.find, taken.nodes]

theorem Taken.ids {cnt : ℕ} {batch : Batch} (taken : Taken c cnt batch c') : c'.ids = c.ids :=
  congrArg (List.map RegisteredFDsNode.id) taken.nodes

theorem Quiet.kevent {cnt : ℕ} {batch : Batch} (quiet : c.Quiet) : Fine (Taken c cnt batch) (c.kevent cnt batch) := by
  rw [EpollFDCtx.kevent]
  split
  · rename_i delivered
    obtain ⟨count, nodup, delivers⟩ := delivered
    have all : ∀ d ∈ batch.deliveries, ∃ n, Delivered c d n :=
      fun d member => quiet.delivered (List.all_eq_true.mp delivers d member)
    refine ⟨quiet.taken _, rfl, all, fun d member => ?_, ?_, (Nat.le_add_right ..).trans count⟩
    · obtain ⟨n, known⟩ := all d member
      exact ⟨⟨n, known.member, known.id, known.fits⟩,
        fun user => untriggered_taken (user ▸ List.mem_map_of_mem member)⟩
    · refine (List.pairwise_map.mp nodup).imp_of_mem fun member member' different => ?_
      obtain ⟨n, known⟩ := all _ member
      obtain ⟨n', known'⟩ := all _ member'
      exact known.apart quiet.toShape known' different
  · exact rfl

end EpollFDCtx

end Iland.Epoll

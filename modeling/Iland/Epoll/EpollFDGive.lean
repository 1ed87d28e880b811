import Iland.Epoll.EpollFDWait

namespace Iland.Epoll

open Iland.Data EpollEvent

/-! What `epoll_wait` gives to its caller.

More events are looked for of the nodes that wait, and then each of them gives
out what it has.
-/

namespace EpollFDCtx

open RegisteredFDsNode

variable {c c' : EpollFDCtx} {n n' : RegisteredFDsNode} {evs : List ℕ}

/-- The second queue is asked about a filter of a node that waits. -/
def Listens (c : EpollFDCtx) (id : ℕ) (filter : Evfilt) : Prop :=
  ∃ n ∈ c.registeredFds, n.id = id ∧ n.revents ≠ ∅ ∧ n.has filter = true ∧ n.nodeType ≠ .kqueue

theorem Busy.listens (busy : c.Busy evs) {full : Bool} {id : ℕ} {filter : Evfilt}
    (asked : (id, filter) ∈ c.completions full evs) : Listens c id filter := by
  obtain ⟨id', waits, asked⟩ := List.mem_flatMap.mp asked
  obtain ⟨n, member, rfl, at'⟩ := busy.nodeAt (busy.known id' waits)
  simp only [at'] at asked
  split at asked
  · obtain ⟨filter', more, same⟩ := List.mem_map.mp asked
    cases same
    have open' : n.has filter = true ∧ n.got filter = false := by
      simpa [registerForCompletion] using (List.mem_filter.mp more).2
    have some := (busy.given n member).mp waits
    refine ⟨n, member, rfl, some, open'.1, fun queue => ?_⟩
    have read := ((busy.settled n member).own.flags.hears open'.1).kqueue queue
    have got := busy.queues n member queue some
    rw [← read, open'.2] at got
    cases got
  · cases asked

/-- An event of the second queue. -/
theorem Busy.complete_one (busy : c.Busy evs) {filter : Evfilt} {kev : KEvent} (answer : FeedAnswer)
    (member : n ∈ c.registeredFds) (some : n.revents ≠ ∅) (has : n.has filter = true) (plain : n.nodeType ≠ .kqueue)
    (source : kev.source = .filter n.fd filter) :
    ∃ n', n.registeredFdsNodeFeedEvent c.kq kev answer = .ok (c.kq, n') ∧ (c.store n').Busy evs ∧
      (c.store n').interests = c.interests ∧ (c.store n').ids = c.ids ∧
      (∀ m events, c.Has m events → Has (c.store n') m events) ∧
      ∀ id filter, Listens c id filter → Listens (c.store n') id filter := by
  obtain ⟨own, registered⟩ := busy.settled n member
  have heard : n.Heard kev answer filter := ⟨source, own.flags.hears has, fun queue => absurd queue plain⟩
  obtain ⟨n', fed, kept, has', own', sees, _⟩ := feed_heard own heard
  have grows := sees.grows plain (busy.masked n member)
  have stays : n'.revents ≠ ∅ := fun none => some (Finset.subset_empty.mp (none ▸ grows))
  have placed : Placed c n (c, n') :=
    ⟨.refl n c, kept.id, kept.fd, kept.interest, own', kept.isRegistered.trans registered⟩
  have around := busy.around member
  refine ⟨n', fed, busy.put member placed busy.nodup (fun _ _ => Iff.rfl) ?_ ?_ ?_, placed.interests around member,
    placed.ids, fun m events has => placed.has around member grows has, ?_⟩
  · exact iff_of_true ((busy.given n member).mpr some) stays
  · rw [kept.mask]
    exact sees.mask (busy.masked n member)
  · exact fun queue => absurd (kept.nodeType.symm.trans queue) plain
  · rintro id filter' ⟨m, within, rfl, some', has'', plain'⟩
    by_cases same : m.id = n.id
    · obtain rfl := busy.eq_of_id within member same
      refine ⟨n', (placed.mem around).mpr (.inr rfl), kept.id, stays, ?_, ?_⟩
      · rw [has']
        exact has''
      · rw [kept.nodeType]
        exact plain'
    · exact ⟨m, (placed.mem around).mpr (.inl ⟨within, same⟩), rfl, some', has'', plain'⟩

/-- What the second queue tells is added to the events of the nodes that wait. -/
structure Completed (c : EpollFDCtx) (evs : List ℕ) (c' : EpollFDCtx) : Prop where
  busy : c'.Busy evs
  interests : c'.interests = c.interests
  ids : c'.ids = c.ids
  keeps : ∀ n events, c.Has n events → c'.Has n events

theorem complete_spec {asked : List (ℕ × Evfilt)} {completed : List (KEvent × FeedAnswer)} (busy : c.Busy evs)
    (listens : ∀ id filter, (id, filter) ∈ asked → Listens c id filter) :
    Fine (Completed c evs) (complete asked c completed) := by
  induction completed generalizing c with
  | nil => exact ⟨busy, rfl, rfl, fun _ _ has => has⟩
  | cons event rest ih =>
      obtain ⟨kev, answer⟩ := event
      rw [complete]
      cases source : kev.source with
      | user id => exact rfl
      | filter fd filter =>
          simp only
          split
          · rename_i among
            obtain ⟨n, member, id, some, has, plain⟩ := listens _ _ among
            have at' : c.nodeAt kev.udata = .some n := busy.nodeAt_iff.mpr ⟨member, id⟩
            simp only [at']
            split
            · rename_i same
              obtain ⟨n', fed, busy', interests, ids, keeps, stays⟩ :=
                busy.complete_one answer member some has plain (same ▸ source)
              simp only [fed, bind, Except.bind]
              refine (ih busy' fun id filter asks => stays id filter (listens id filter asks)).mono ?_
              rintro result ⟨busy, interests', ids', keeps'⟩
              exact ⟨busy, interests'.trans interests, ids'.trans ids,
                fun m events has => keeps' m events (keeps m events has)⟩
            · exact rfl
          · exact rfl

/-! ## Giving the events out -/

/-- The node after its events were given out. -/
def given (n : RegisteredFDsNode) : RegisteredFDsNode := { n with revents := ∅, got := fun _ => false }

theorem disable_spec (settled : c.Settled n) (polls : c.PollList) :
    ∃ c' n', c.disable (given n) = .ok (c', n') ∧ Placed c n (c', n') ∧ n'.revents = ∅ := by
  have kept : Kept n (given n) := ⟨rfl, rfl, rfl, rfl, rfl, rfl, rfl, rfl, rfl⟩
  have own : Own c.kq c.pollFds (given n) := settled.own.kept kept rfl settled.own.typed.kqueue
  rw [disable]
  split
  · obtain ⟨c', removed, leaves, detached⟩ := removeNodeFromKq_spec own.removable polls
    exact ⟨c', (given n).unwatched, removed,
      ⟨leaves.of_same rfl rfl, rfl, rfl, rfl, detached.own own.typed, settled.registered⟩, rfl⟩
  · exact ⟨c, given n, rfl, ⟨.refl n c, rfl, rfl, rfl, own, settled.registered⟩, rfl⟩

/-- What the caller gets of a node. -/
def Gives (c : EpollFDCtx) (id : ℕ) (out : EpollEventOut) : Prop :=
  ∃ n ∈ c.registeredFds, n.id = id ∧ out.data = n.data ∧ out.events = n.revents ∧ n.revents ≠ ∅

/-- Each node that waits gives out what it has, and then none waits any more. -/
structure GivenOut (c : EpollFDCtx) (evs : List ℕ) (result : EpollFDCtx × List EpollEventOut) : Prop where
  quiet : result.1.Quiet
  interests : result.1.interests = c.interests
  ids : result.1.ids = c.ids
  outs : List.Forall₂ (Gives c) evs result.2

theorem giveOut_spec (busy : c.Busy evs) : ∃ result, giveOut c evs = .ok result ∧ GivenOut c evs result := by
  induction evs generalizing c with
  | nil => exact ⟨(c, []), rfl, busy.quiet, rfl, rfl, .nil⟩
  | cons id rest ih =>
      obtain ⟨n, member, rfl, at'⟩ := busy.nodeAt (busy.known id (List.mem_cons_self ..))
      obtain ⟨fresh, nodup⟩ := List.nodup_cons.mp busy.nodup
      obtain ⟨c', n', disabled, placed, silent⟩ := disable_spec (busy.settled n member) busy.polls
      have around := busy.around member
      have next : (c'.store n').Busy rest := by
        refine busy.put member placed nodup (fun id other => by simp [other]) ?_ ?_ fun _ some => absurd silent some
        · exact iff_of_false fresh (not_not.mpr silent)
        · show n'.revents ⊆ n'.mask
          rw [silent]
          exact Finset.empty_subset _
      obtain ⟨⟨c'', outs⟩, given', spec⟩ := ih next
      have some := (busy.given n member).mp (List.mem_cons_self ..)
      refine ⟨(c'', ⟨n.revents, n.data⟩ :: outs), ?_, spec.quiet, ?_, ?_, .cons ⟨n, member, rfl, rfl, rfl, some⟩ ?_⟩
      · have disabled' : c.disable { n with revents := ∅, got := fun _ => false } = .ok (c', n') := disabled
        simp only [giveOut, at', disabled', bind, Except.bind, given']
        rfl
      · exact spec.interests.trans (placed.interests around member)
      · exact spec.ids.trans placed.ids
      · refine spec.outs.imp ?_
        rintro id out ⟨m, within, same, data, events, some'⟩
        rcases (placed.mem around).mp within with ⟨before, _⟩ | rfl
        · exact ⟨m, before, same, data, events, some'⟩
        · exact absurd silent some'

/-- Each event is about a descriptor of its own, with the data that were last given
for it, and is one that was asked for or one that is always told. -/
def Reports (asked : ℕ → Option Interest) (outs : List EpollEventOut) : Prop :=
  ∃ fds : List ℕ, fds.Nodup ∧ List.Forall₂ (fun fd (out : EpollEventOut) => ∃ i, asked fd = some i ∧ out.data = i.data ∧
    out.events ≠ ∅ ∧ out.events ⊆ i.events ∪ {epollhup, epollerr}) fds outs

/-- Distinct nodes have distinct descriptors. -/
theorem reports_of_gives {outs : List EpollEventOut} (shape : c.Shape)
    (masked : ∀ m ∈ c.registeredFds, m.revents ⊆ m.mask) (nodup : evs.Nodup) (gives : List.Forall₂ (Gives c) evs outs) :
    Reports c.interests outs := by
  suffices found : ∃ fds : List ℕ, fds.Nodup ∧ (∀ fd ∈ fds, ∃ m ∈ c.registeredFds, m.fd = fd ∧ m.id ∈ evs) ∧
      List.Forall₂ (fun fd (out : EpollEventOut) => ∃ i, c.interests fd = some i ∧ out.data = i.data ∧
        out.events ≠ ∅ ∧ out.events ⊆ i.events ∪ {epollhup, epollerr}) fds outs by
    obtain ⟨fds, nodup, _, reports⟩ := found
    exact ⟨fds, nodup, reports⟩
  induction gives with
  | nil => exact ⟨[], .nil, by simp, .nil⟩
  | @cons id out rest outs give _ ih =>
      obtain ⟨fresh, nodup⟩ := List.nodup_cons.mp nodup
      obtain ⟨fds, nodup', known, reports⟩ := ih nodup
      obtain ⟨n, member, rfl, data, events, some⟩ := give
      have asked : c.interests n.fd = .some n.interest := (interests_eq_some shape).mpr ⟨n, member, rfl, rfl⟩
      refine ⟨n.fd :: fds, List.nodup_cons.mpr ⟨fun again => ?_, nodup'⟩, ?_,
        .cons ⟨n.interest, asked, data, ?_, ?_⟩ reports⟩
      · obtain ⟨m, within, same, waits⟩ := known n.fd again
        exact fresh (shape.eq_of_fd within member same ▸ waits)
      · intro fd within
        rcases List.mem_cons.mp within with rfl | later
        · exact ⟨n, member, rfl, List.mem_cons_self ..⟩
        · obtain ⟨m, within, same, waits⟩ := known fd later
          exact ⟨m, within, same, List.mem_cons_of_mem _ waits⟩
      · exact events ▸ some
      · exact events ▸ masked n member

theorem gives_of_mem {id : ℕ} {outs : List EpollEventOut} (gives : List.Forall₂ (Gives c) evs outs) (waits : id ∈ evs) :
    ∃ out ∈ outs, Gives c id out := by
  induction gives with
  | nil => cases waits
  | cons give _ ih =>
      rcases List.mem_cons.mp waits with rfl | later
      · exact ⟨_, List.mem_cons_self .., give⟩
      · obtain ⟨out, told, give⟩ := ih later
        exact ⟨out, List.mem_cons_of_mem _ told, give⟩

/-- A node that has something gives it. -/
theorem Busy.gives {outs : List EpollEventOut} {events : EpollEvents} (busy : c.Busy evs)
    (gives : List.Forall₂ (Gives c) evs outs) (has : c.Has n events) (some : events ≠ ∅) :
    ∃ out ∈ outs, out.data = n.data ∧ events ⊆ out.events := by
  obtain ⟨m, member, _, _, interest, within⟩ := has
  have waits : m.id ∈ evs :=
    (busy.given m member).mpr fun none => some (Finset.subset_empty.mp (none ▸ within))
  obtain ⟨out, told, m', member', same, data, given, _⟩ := gives_of_mem gives waits
  obtain rfl := busy.eq_of_id member' member same
  exact ⟨out, told, data.trans (congrArg Interest.data interest), given ▸ within⟩

/-- What the kernel delivers of a filter is among what is given. -/
def Passes (c : EpollFDCtx) (batch : Batch) (outs : List EpollEventOut) : Prop :=
  ∀ d ∈ batch.deliveries, ∃ n ∈ c.registeredFds, ∀ fd filter, d.kev.source = .filter fd filter → fd = n.fd ∧
    (n.Speaks d.kev → told filter d.kev ∩ n.mask ≠ ∅ →
      ∃ out ∈ outs, out.data = n.data ∧ told filter d.kev ∩ n.mask ⊆ out.events)

/-- What a call gives its caller. -/
structure Given (c : EpollFDCtx) (room : ℕ) (batch : Batch) (result : EpollFDCtx × List EpollEventOut) : Prop where
  quiet : result.1.Quiet
  interests : result.1.interests = c.interests
  ids : result.1.ids = c.ids
  reports : Reports c.interests result.2
  length : result.2.length ≤ room
  passes : c.Passes batch result.2

theorem Busy.length_le {room : ℕ} (busy : c.Busy evs) (roomy : c.ids.length ≤ room ∨ evs.length ≤ room) :
    evs.length ≤ room := by
  rcases roomy with wide | short
  · exact ((busy.nodup.subperm busy.known).length_le).trans wide
  · exact short

theorem waitBatch_spec {room cnt : ℕ} {batch : Batch} (quiet : c.Quiet) (roomy : c.ids.length ≤ room ∨ cnt ≤ room) :
    Fine (Given c room batch) (c.waitBatch room cnt batch) := by
  rw [waitBatch]
  refine quiet.kevent.bind fun c₁ taken => ?_
  have roomy₁ : c₁.Roomy room [] batch.deliveries.length := by
    rw [Roomy, taken.ids]
    refine roomy.imp_right fun left => ?_
    have count := taken.count
    simp only [List.length_nil]
    omega
  refine (handleAll_spec taken.quiet.busy taken.due taken.apart roomy₁).bind ?_
  rintro ⟨c₂, evs⟩ handled
  refine (complete_spec handled.busy fun id filter asked => handled.busy.listens asked).bind fun c₃ completed => ?_
  obtain ⟨⟨c₄, outs⟩, given, spec⟩ := giveOut_spec completed.busy
  have interests : c₃.interests = c.interests := completed.interests.trans (handled.interests.trans taken.interests)
  have ids : c₃.ids = c.ids := completed.ids.trans (handled.ids.trans taken.ids)
  simp only [given]
  refine ⟨spec.quiet, spec.interests.trans interests, spec.ids.trans ids, ?_, ?_, fun d within => ?_⟩
  · rw [← interests]
    exact reports_of_gives completed.busy.toShape completed.busy.masked completed.busy.nodup spec.outs
  · rw [← spec.outs.length_eq]
    refine completed.busy.length_le ?_
    rw [ids]
    refine roomy.imp_right fun left => ?_
    have few : evs.length ≤ ([] : List ℕ).length + batch.deliveries.length := handled.length
    have count := taken.count
    rw [List.length_nil] at few
    show evs.length ≤ room
    omega
  · obtain ⟨n, known⟩ := taken.delivered d within
    refine ⟨n, known.member, fun fd filter source => ?_⟩
    obtain ⟨rfl, _⟩ := known.filter fd filter source
    refine ⟨rfl, fun speaks some => completed.busy.gives spec.outs (completed.keeps n _ ?_) some⟩
    exact handled.tells d within n filter
      ⟨known.id, source, n, taken.nodes ▸ known.member, rfl, rfl, rfl, speaks⟩

/-- What a call of `epoll_wait` leaves, and what it gives if it does not fail. -/
structure Answered (asked : ℕ → Option Interest) (room : ℕ)
    (result : EpollFDCtx × Except Error (List EpollEventOut)) : Prop where
  quiet : result.1.Quiet
  interests : result.1.interests = asked
  outs : ∀ outs, result.2 = .ok outs → Reports asked outs ∧ outs.length ≤ room

theorem Quiet.failed (quiet : c.Quiet) (room : ℕ) (ec : Error) : Answered c.interests room (c, .error ec) :=
  ⟨quiet, rfl, fun _ none => by cases none⟩

theorem waitBatches_spec {room cnt : ℕ} {batches : List (Except Error Batch)} (quiet : c.Quiet)
    (roomy : c.ids.length ≤ room ∨ cnt ≤ room) :
    Fine (Answered c.interests room) (waitBatches room cnt c batches) := by
  induction batches generalizing c with
  | nil => exact rfl
  | cons batch rest ih =>
      cases batch with
      | error ec => exact quiet.failed room ec
      | ok batch =>
          rw [waitBatches]
          refine (waitBatch_spec quiet roomy).bind ?_
          rintro ⟨c', outs⟩ given
          simp only
          split
          · exact given.interests ▸ ih given.quiet (given.ids.symm ▸ roomy)
          · refine ⟨given.quiet, given.interests, ?_⟩
            rintro _ ⟨⟩
            exact ⟨given.reports, given.length⟩

/-- What the kernel delivers first is given, or it comes to nothing. -/
theorem waitBatches_passes {room cnt : ℕ} {batch : Batch} {rest : List (Except Error Batch)} (quiet : c.Quiet)
    (roomy : c.ids.length ≤ room ∨ cnt ≤ room) :
    Fine (fun result => ∀ outs, result.2 = .ok outs → c.Passes batch outs)
      (waitBatches room cnt c (.ok batch :: rest)) := by
  rw [waitBatches]
  refine (waitBatch_spec quiet roomy).bind ?_
  rintro ⟨c', first⟩ given
  simp only
  split
  · rename_i more
    have empty : first = [] := List.isEmpty_iff.mp more.2
    refine (waitBatches_spec given.quiet (given.ids.symm ▸ roomy)).mono fun _ _ outs _ d within => ?_
    obtain ⟨n, member, told⟩ := given.passes d within
    refine ⟨n, member, fun fd filter source => ⟨(told fd filter source).1, fun speaks some => ?_⟩⟩
    obtain ⟨out, none, _⟩ := (told fd filter source).2 speaks some
    rw [empty] at none
    cases none
  · rintro _ ⟨⟩
    exact given.passes

/-! ## Descriptors that only support `poll` -/

/-- A node that only supports `poll` is told to look. -/
theorem Quiet.trigger (quiet : c.Quiet) (member : n ∈ c.registeredFds) (poll : n.nodeType = .poll) :
    Quiet { c with kq := c.kq.trigger n.id } := by
  have around := (quiet.around member).leaves (leaves_trigger n c)
  refine ⟨⟨around.toShape, fun m within => ?_⟩, quiet.silent⟩
  by_cases same : m.id = n.id
  · obtain rfl := quiet.eq_of_id within member same
    obtain ⟨own, registered⟩ := quiet.settled m within
    exact ⟨⟨own.typed, own.flags, own.knotes, own.held, fun _ _ _ _ => .inl poll, own.listed, own.onlyPoll⟩, registered⟩
  · exact around.settled m within same

/-- The descriptors of which `poll` found that they were closed. -/
def closedFds (c : EpollFDCtx) (found : List (ℕ × PollResult)) : List ℕ :=
  found.filterMap fun entry => if entry.2.pollnval then (c.nodeAt entry.1).map (·.fd) else none

def without (asked : ℕ → Option Interest) (fds : List ℕ) (fd : ℕ) : Option Interest := if fd ∈ fds then none else asked fd

theorem without_cons (asked : ℕ → Option Interest) (fd : ℕ) (fds : List ℕ) :
    without (Function.update asked fd none) fds = without asked (fd :: fds) := by
  funext other
  by_cases same : other = fd
  · simp [without, same]
  · simp [without, same]

structure Polled (c : EpollFDCtx) (found : List (ℕ × PollResult)) (c' : EpollFDCtx) : Prop where
  quiet : c'.Quiet
  interests : c'.interests = without c.interests (c.closedFds found)
  subset : c'.registeredFds ⊆ c.registeredFds

/-- The results are about nodes that only support `poll`. -/
def AboutPolls (c : EpollFDCtx) (found : List (ℕ × PollResult)) : Prop :=
  ∀ entry ∈ found, ∃ n ∈ c.registeredFds, n.id = entry.1 ∧ n.nodeType = .poll

/-- Nodes that stay are found as before. -/
theorem closedFds_congr {found : List (ℕ × PollResult)} (shape : c.Shape) (shape' : c'.Shape) (about : AboutPolls c found)
    (stay : ∀ entry ∈ found, ∀ n ∈ c.registeredFds, n.id = entry.1 → n ∈ c'.registeredFds) :
    c'.closedFds found = c.closedFds found := by
  refine List.filterMap_congr fun entry within => ?_
  obtain ⟨n, member, same, _⟩ := about entry within
  rw [shape.nodeAt_iff.mpr ⟨member, same⟩, shape'.nodeAt_iff.mpr ⟨stay entry within n member same, same⟩]

theorem pollNodes_spec {found : List (ℕ × PollResult)} (quiet : c.Quiet) (nodup : (found.map Prod.fst).Nodup)
    (about : AboutPolls c found) : ∃ c', pollNodes c found = .ok c' ∧ Polled c found c' := by
  induction found generalizing c with
  | nil => exact ⟨c, rfl, quiet, by funext fd; simp [without, closedFds], List.Subset.refl _⟩
  | cons entry rest ih =>
      obtain ⟨place, result⟩ := entry
      obtain ⟨n, member, same, poll⟩ := about (place, result) (List.mem_cons_self ..)
      obtain rfl : n.id = place := same
      have at' : c.nodeAt n.id = some n := quiet.nodeAt_iff.mpr ⟨member, rfl⟩
      obtain ⟨fresh, nodup'⟩ := List.nodup_cons.mp nodup
      have later : AboutPolls c rest := fun entry within => about entry (List.mem_cons_of_mem _ within)
      have others : ∀ entry ∈ rest, ∀ m ∈ c.registeredFds, m.id = entry.1 → m.id ≠ n.id :=
        fun entry within m _ same equal => fresh (List.mem_map.mpr ⟨entry, within, same.symm.trans equal⟩)
      by_cases closed : result.pollnval = true
      · obtain ⟨c', removed, quiet', interests, left⟩ := quiet.removeNode member
        have stay : ∀ entry ∈ rest, ∀ m ∈ c.registeredFds, m.id = entry.1 → m ∈ c'.registeredFds := by
          intro entry within m before same
          rw [left]
          exact mem_leaveOut.mpr ⟨before, others entry within m before same⟩
        have later' : AboutPolls c' rest := by
          intro entry within
          obtain ⟨m, before, same, kind⟩ := later entry within
          exact ⟨m, stay entry within m before same, same, kind⟩
        obtain ⟨c'', polled, quiet'', interests', fewer⟩ := ih quiet' nodup' later'
        refine ⟨c'', ?_, quiet'', ?_, fun m within => (mem_leaveOut.mp (left ▸ fewer within)).1⟩
        · simp only [pollNodes, at', closed, if_true, removed, bind, Except.bind, polled]
        · rw [interests', interests, closedFds_congr quiet.toShape quiet'.toShape later stay, without_cons]
          simp [closedFds, closed, at']
      · have open' : c.closedFds ((n.id, result) :: rest) = c.closedFds rest := by simp [closedFds, closed]
        rw [pollNodes, at']
        simp only [if_neg closed]
        split
        · obtain ⟨c', polled, quiet', interests, fewer⟩ := ih (quiet.trigger member poll) nodup' later
          exact ⟨c', polled, quiet', open' ▸ interests, fewer⟩
        · obtain ⟨c', polled, quiet', interests, fewer⟩ := ih quiet nodup' later
          exact ⟨c', polled, quiet', open' ▸ interests, fewer⟩

/-- The nodes of the list have distinct places and only support `poll`. -/
theorem Quiet.aboutPolls (quiet : c.Quiet) (results : List PollResult) :
    ((c.pollFds.zip results).map Prod.fst).Nodup ∧ AboutPolls c (c.pollFds.zip results) := by
  constructor
  · rw [List.zip_eq_zip_take_min, List.map_fst_zip (by simp)]
    exact quiet.polls.nodup.sublist (List.take_sublist ..)
  · intro entry within
    have listed : entry.1 ∈ c.pollFds := (List.of_mem_zip within).1
    obtain ⟨n, member, same, _⟩ := quiet.nodeAt (quiet.listed entry.1 listed)
    obtain ⟨own, _⟩ := quiet.settled n member
    exact ⟨n, member, same, own.onlyPoll (own.listed.mp (same ▸ listed))⟩

/-- What `poll` makes of the set before events are looked for. -/
def WaitAnswer.closed (c : EpollFDCtx) (answer : WaitAnswer) : List ℕ :=
  match answer.pfdsSpace, answer.poll with
  | none, .ok (some results) => c.closedFds (c.pollFds.zip results)
  | _, _ => []

/-- There is room for all nodes, or for all events that are asked for. -/
theorem kevsSpace_roomy {cnt space : ℕ} (shape : c.Shape) (found : c.kevsSpace cnt = some space) :
    c.ids.length ≤ cnt ∨ space ≤ cnt := by
  simp only [kevsSpace] at found
  split at found <;> rename_i wide
  · refine .inl ?_
    rw [EpollFDCtx.ids, List.length_map, ← shape.size]
    exact wide
  · cases found
    exact .inr le_rfl

theorem without_nil (asked : ℕ → Option Interest) : without asked [] = asked := by
  funext fd
  simp [without]

theorem Quiet.epollfdCtxWait {cnt : ℕ} {answer : WaitAnswer} (quiet : c.Quiet) (some : cnt ≠ 0) :
    Fine (Answered (without c.interests (answer.closed c)) cnt) (c.epollfdCtxWait cnt answer) := by
  have stays (nothing : answer.closed c = []) : without c.interests (answer.closed c) = c.interests := by
    rw [nothing, without_nil]
  rw [EpollFDCtx.epollfdCtxWait, if_neg some]
  cases pfds : answer.pfdsSpace with
  | some ec =>
      rw [stays (by simp [WaitAnswer.closed, pfds])]
      exact quiet.failed cnt ec
  | none =>
      cases polled : answer.poll with
      | error ec =>
          rw [stays (by simp [WaitAnswer.closed, pfds, polled])]
          exact quiet.failed cnt ec
      | ok results =>
          cases results with
          | none =>
              rw [stays (by simp [WaitAnswer.closed, pfds, polled])]
              refine ⟨quiet, rfl, ?_⟩
              rintro _ ⟨⟩
              exact ⟨⟨[], .nil, .nil⟩, Nat.zero_le _⟩
          | some results =>
              have closed : answer.closed c = c.closedFds (c.pollFds.zip results) := by
                simp [WaitAnswer.closed, pfds, polled]
              obtain ⟨nodup, about⟩ := quiet.aboutPolls results
              obtain ⟨c', found, quiet', interests, _⟩ := pollNodes_spec quiet nodup about
              rw [closed, ← interests]
              simp only [found, bind, Except.bind]
              cases space : c'.kevsSpace cnt with
              | none => exact quiet'.failed cnt .ENOMEM
              | some space' =>
                  cases answer.kevsSpace with
                  | some ec => exact quiet'.failed cnt ec
                  | none => exact waitBatches_spec quiet' (kevsSpace_roomy quiet'.toShape space)

/-- What the kernel delivers first after `poll` is given, or it comes to nothing. -/
theorem Quiet.passes {cnt : ℕ} {answer : WaitAnswer} {results : List PollResult} {batch : Batch}
    {rest : List (Except Error Batch)} (quiet : c.Quiet) (some : cnt ≠ 0) (polled : answer.poll = .ok (.some results))
    (batches : answer.batches = .ok batch :: rest) :
    Fine (fun result => ∀ outs, result.2 = .ok outs → c.Passes batch outs) (c.epollfdCtxWait cnt answer) := by
  obtain ⟨nodup, about⟩ := quiet.aboutPolls results
  obtain ⟨c', found, quiet', _, fewer⟩ := pollNodes_spec quiet nodup about
  rw [EpollFDCtx.epollfdCtxWait, if_neg some, polled, batches]
  cases answer.pfdsSpace with
  | some ec => rintro _ ⟨⟩
  | none =>
      simp only [found, bind, Except.bind]
      cases space : c'.kevsSpace cnt with
      | none => rintro _ ⟨⟩
      | some space' =>
          cases answer.kevsSpace with
          | some ec => rintro _ ⟨⟩
          | none =>
              have roomy := kevsSpace_roomy quiet'.toShape space
              refine (waitBatches_passes quiet' roomy).mono fun _ passes outs ok d within => ?_
              obtain ⟨n, member, told⟩ := passes outs ok d within
              exact ⟨n, fewer member, told⟩

end EpollFDCtx

end Iland.Epoll

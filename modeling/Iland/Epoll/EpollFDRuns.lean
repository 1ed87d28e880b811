import Iland.Epoll.EpollFDGive

namespace Iland.Epoll

open Iland.Data EpollEvent

/-! Runs of an epoll set.

Each call has the set for itself.  A descriptor is closed through the library,
which removes it from the set before.
-/

namespace EpollFDCtx

inductive Action
  | ctl (op : Op) (fd : ℕ) (ev : EpollEventArg) (fstat : Except Error StatAnswer) (answer : RegisterAnswer)
  | close (fd : ℕ)
  | wait (cnt : ℕ) (answer : WaitAnswer)

inductive Out
  | ctl (result : Option Error)
  | close
  | wait (result : Except Error (List EpollEventOut))

/-- A set with the descriptor `kq`. -/
def step (kq : ℕ) (c : EpollFDCtx) : Action → Except Fault (EpollFDCtx × Out)
  | .ctl op fd ev fstat answer => (c.epollfdCtxCtl kq op fd ev fstat answer).map fun (c, result) => (c, .ctl result)
  | .close fd => (c.epollfdCtxRemoveFd fd).map fun c => (c, .close)
  | .wait cnt answer =>
      -- `epoll_pwait_impl` refuses the call
      if cnt = 0 then .ok (c, .wait (.error .EINVAL))
      else (c.epollfdCtxWait cnt answer).map fun (c, result) => (c, .wait result)

/-- `poll` finds that a descriptor was closed. -/
def WaitAnswer.findsClosed (answer : WaitAnswer) : Prop :=
  ∃ results, answer.poll = .ok (some results) ∧ ∃ result ∈ results, result.pollnval = true

/-- Nobody asks for `EPOLLPRI`. -/
def Plain : Action → Prop
  | .ctl op _ ev _ _ => op ≠ .del → epollpri ∉ ev.events
  | .close _ | .wait _ _ => True

/-- What a call may do to what is asked of each descriptor, and what it may answer. -/
def May (kq : ℕ) (before : ℕ → Option Interest) : Action → Out → (ℕ → Option Interest) → Prop
  | .ctl op fd ev fstat _, .ctl result, after => CtlSpec before kq op fd ev fstat after result
  | .close fd, .close, after => after = Function.update before fd none
  | .wait cnt answer, .wait result, after =>
      (∃ gone, after = without before gone ∧ (gone ≠ [] → answer.findsClosed)) ∧
        ∀ outs, result = .ok outs → Reports after outs ∧ outs.length ≤ cnt
  | _, _, _ => False

variable {kq : ℕ} {c after : EpollFDCtx} {actions : List Action} {outs : List Out}

theorem quiet_init : epollfdCtxInit.Quiet where
  ids := .nil
  fds := .nil
  next := by simp [ids, epollfdCtxInit]
  size := rfl
  polls := ⟨.nil, rfl⟩
  knotes := by simp [epollfdCtxInit]
  users := by simp [epollfdCtxInit]
  listed := by simp [epollfdCtxInit]
  settled := by simp [epollfdCtxInit]
  silent := by simp [epollfdCtxInit]

theorem findsClosed_of_closed {answer : WaitAnswer} (some : answer.closed c ≠ []) : answer.findsClosed := by
  simp only [WaitAnswer.closed] at some
  split at some
  · rename_i results _ polled
    obtain ⟨fd, member⟩ := List.exists_mem_of_ne_nil _ some
    obtain ⟨entry, within, closed⟩ := List.mem_filterMap.mp member
    refine ⟨results, polled, entry.2, (List.of_mem_zip within).2, ?_⟩
    by_contra open'
    simp [open'] at closed
  · exact absurd rfl some

/-- A call goes wrong only if the kernel does, and does what it may do. -/
theorem step_ends {action : Action} (plain : Plain action) (quiet : c.Quiet) :
    Fine (fun result => result.1.Quiet ∧ May kq c.interests action result.2 result.1.interests) (step kq c action) := by
  cases action with
  | ctl op fd ev fstat answer =>
      exact (quiet.epollfdCtxCtl kq op fd plain fstat answer).map fun result done => done
  | close fd =>
      obtain ⟨c', removed, quiet', interests⟩ := quiet.epollfdCtxRemoveFd fd
      simp only [step, removed]
      exact ⟨quiet', interests⟩
  | wait cnt answer =>
      simp only [step]
      split
      · refine ⟨quiet, ⟨[], (without_nil c.interests).symm, by simp⟩, ?_⟩
        rintro _ ⟨⟩
      · rename_i some
        refine (quiet.epollfdCtxWait some).map fun result answered => ⟨answered.quiet,
          ⟨answer.closed c, answered.interests, findsClosed_of_closed⟩, fun outs ok => ?_⟩
        obtain ⟨reports, length⟩ := answered.outs outs (by simpa using ok)
        exact ⟨answered.interests ▸ reports, length⟩

theorem runs_ends (plain : ∀ action ∈ actions, Plain action) :
    Fine (fun result => result.1.Quiet) (runActions (step kq) epollfdCtxInit actions) :=
  runActions_ends (fun _ _ plain quiet => (step_ends plain quiet).mono fun _ done => done.1) plain quiet_init

/-- What the kernel answers if it refuses some filters. -/
def answering (receipt : Evfilt → Option Error) : RegisterAnswer := ⟨none, receipt, none, none⟩

def allTaken : RegisterAnswer := answering fun _ => none

def writeOnly (fifo socket : Bool) : StatAnswer := ⟨true, fifo, socket, false, .ok (false, true)⟩

def level (events : EpollEvents) (data : UInt64) : EpollEventArg := ⟨events, false, false, false, data⟩

def silence : FeedAnswer := ⟨none, false, false, none, none⟩

/-- A socket that nobody writes to any more, a device that only supports `poll`, and a
fifo that got a reader at last. -/
def arrivals : List Delivery :=
  [⟨⟨.filter 5 .read, 0, true, false, false, 0⟩, silence, allTaken⟩,
    ⟨⟨.user 1, 1, false, false, false, 0⟩, { silence with poll := some {epollin} }, allTaken⟩,
    ⟨⟨.user 2, 2, false, false, false, 0⟩, { silence with accepts := true }, allTaken⟩]

def additions : List Action :=
  [.ctl .add 5 (level {epollin, epollrdhup} 50) (.ok (writeOnly false true)) allTaken,
    .ctl .add 7 (level {epollin} 70) (.ok (writeOnly false false)) (answering fun _ => some enodev),
    .ctl .add 9 (level {epollout} 90) (.ok (writeOnly true false)) (answering fun _ => some epipe),
    .ctl .add 5 (level {epollin} 51) (.ok (writeOnly false true)) allTaken]

def toldOnAdditions : List Out := [.ctl none, .ctl none, .ctl none, .ctl (some .EEXIST)]

/-- The device has something. -/
def arriving : WaitAnswer := ⟨none, .ok (some [⟨false, true⟩]), none, [.ok ⟨arrivals, false, []⟩]⟩

def tour : List Action := additions ++ [.wait 4 arriving]

def toldOnTour : List Out := toldOnAdditions ++ [.wait (.ok [⟨{epollin, epollrdhup}, 50⟩, ⟨{epollin}, 70⟩])]

/-- The device is unplugged, and the socket is closed. -/
def unplugged : List Action :=
  [.wait 4 ⟨none, .ok (some [⟨true, false⟩]), none, [.ok ⟨[], false, []⟩]⟩, .close 5]

theorem plain_tour : ∀ action ∈ tour ++ unplugged, Plain action := by
  simp [tour, additions, unplugged, Plain, level]

/-- The kernel watches for each descriptor what its node says, and nothing else; what
it hands out are nodes of the table, and `poll` is asked about those on the list. -/
structure Matches (c : EpollFDCtx) : Prop where
  filters : ∀ fd filter, (∃ k ∈ c.kq.knotes, k.fd = fd ∧ k.filter = filter) ↔
    ∃ n ∈ c.registeredFds, n.fd = fd ∧ n.has filter = true
  knotes : ∀ k ∈ c.kq.knotes, ∃ n, c.nodeAt k.udata = some n ∧ n.fd = k.fd
  users : ∀ u ∈ c.kq.users, ∃ n, c.nodeAt u.1 = some n
  polls : ∀ id, id ∈ c.pollFds ↔ ∃ n ∈ c.registeredFds, n.id = id ∧ n.isOnPollfdList = true

theorem queue_matches_table (plain : ∀ action ∈ actions, Plain action)
    (run : runActions (step kq) epollfdCtxInit actions = .ok (c, outs)) : c.Matches := by
  have quiet : c.Quiet := (runs_ends plain).of_ok run
  have node : ∀ k ∈ c.kq.knotes, ∃ n ∈ c.registeredFds, n.id = k.udata ∧ n.fd = k.fd ∧ n.has k.filter = true := by
    intro k member
    obtain ⟨n, within, id, _⟩ := quiet.nodeAt (quiet.knotes k member)
    obtain ⟨fd, has⟩ := (quiet.settled n within).own.knotes k member id.symm
    exact ⟨n, within, id, fd.symm, has⟩
  refine ⟨fun fd filter => ⟨?_, ?_⟩, fun k member => ?_, fun u member => ?_, fun id => ⟨fun member => ?_, ?_⟩⟩
  · rintro ⟨k, member, rfl, rfl⟩
    obtain ⟨n, within, _, fd, has⟩ := node k member
    exact ⟨n, within, fd, has⟩
  · rintro ⟨n, within, rfl, has⟩
    have own := (quiet.settled n within).own
    obtain ⟨k, member, mine, same⟩ := own.held filter has
    exact ⟨k, member, (own.knotes k member mine).1, same⟩
  · obtain ⟨n, within, id, fd, _⟩ := node k member
    exact ⟨n, quiet.nodeAt_iff.mpr ⟨within, id⟩, fd⟩
  · obtain ⟨n, _, _, at'⟩ := quiet.nodeAt (quiet.users u member)
    exact ⟨n, at'⟩
  · obtain ⟨n, within, rfl, _⟩ := quiet.nodeAt (quiet.listed id member)
    exact ⟨n, within, rfl, (quiet.settled n within).own.listed.mp member⟩
  · rintro ⟨n, within, rfl, on⟩
    exact (quiet.settled n within).own.listed.mpr on

theorem queue_matches_table_tour : ∃ c, runActions (step 3) epollfdCtxInit tour = .ok (c, toldOnTour) ∧
    (∃ k ∈ c.kq.knotes, k.fd = 9 ∧ k.filter = .write) ∧ c.pollFds = [1] ∧ c.Matches := by
  have plain : ∀ action ∈ tour, Plain action := fun action member => plain_tour action (List.mem_append_left _ member)
  obtain ⟨c, run, watched, polled⟩ : ∃ c, runActions (step 3) epollfdCtxInit tour = .ok (c, toldOnTour) ∧
      (∃ k ∈ c.kq.knotes, k.fd = 9 ∧ k.filter = .write) ∧ c.pollFds = [1] :=
    ⟨_, rfl, ⟨_, List.mem_cons_self .., rfl, rfl⟩, rfl⟩
  exact ⟨c, run, watched, polled, queue_matches_table plain run⟩

/-- What the kernel says of a descriptor is told with the data that were given for it
as far as it was asked for, unless it says that a fifo or a device has come to its end. -/
theorem delivered_is_reported (plain : ∀ action ∈ actions, Plain action)
    (run : runActions (step kq) epollfdCtxInit actions = .ok (c, outs)) {fd : ℕ} {n : RegisteredFDsNode}
    (found : c.find fd = some n) {cnt : ℕ} {answer : WaitAnswer} {given : List EpollEventOut}
    (waited : step kq c (.wait cnt answer) = .ok (after, .wait (.ok given))) {results : List PollResult}
    (polled : answer.poll = .ok (some results)) {batch : Batch} {rest : List (Except Error Batch)}
    (batches : answer.batches = .ok batch :: rest) {d : Delivery} (delivered : d ∈ batch.deliveries) {filter : Evfilt}
    (source : d.kev.source = .filter fd filter) (speaks : n.Speaks d.kev)
    (asked : RegisteredFDsNode.told filter d.kev ∩ n.mask ≠ ∅) :
    ∃ out ∈ given, out.data = n.data ∧ RegisteredFDsNode.told filter d.kev ∩ n.mask ⊆ out.events := by
  have quiet : c.Quiet := (runs_ends plain).of_ok run
  have passes : Fine (fun result => ∀ given, result.2 = .wait (.ok given) → c.Passes batch given)
      (step kq c (.wait cnt answer)) := by
    simp only [step]
    split
    · rintro _ ⟨⟩
    · rename_i positive
      exact (quiet.passes positive polled batches).map fun _ passes given ok => passes given (by simpa using ok)
  obtain ⟨m, member, told⟩ := passes.of_ok waited given rfl d delivered
  obtain ⟨same, told⟩ := told fd filter source
  obtain rfl : m = n := Option.some.inj ((quiet.find_iff.mpr ⟨member, same.symm⟩).symm.trans found)
  exact told speaks asked

theorem delivered_is_reported_after_additions : ∃ c n after given,
    runActions (step 3) epollfdCtxInit additions = .ok (c, toldOnAdditions) ∧ c.find 5 = some n ∧ n.data = 50 ∧
      step 3 c (.wait 4 arriving) = .ok (after, .wait (.ok given)) ∧
      ∃ out ∈ given, out.data = n.data ∧ {epollin} ⊆ out.events := by
  have plain : ∀ action ∈ additions, Plain action := by simp [additions, Plain, level]
  obtain ⟨c, n, after, given, run, found, data, socket, mask, waited⟩ : ∃ c n after given,
      runActions (step 3) epollfdCtxInit additions = .ok (c, toldOnAdditions) ∧ c.find 5 = some n ∧ n.data = 50 ∧
      n.nodeType = .socket ∧ {epollin} ∩ n.mask = {epollin} ∧
      step 3 c (.wait 4 arriving) = .ok (after, .wait (.ok given)) :=
    ⟨_, _, _, _, rfl, rfl, rfl, rfl, by decide, rfl⟩
  refine ⟨c, n, after, given, run, found, data, waited, ?_⟩
  have told := delivered_is_reported plain run found waited rfl rfl (List.mem_cons_self ..) rfl
    ⟨by simp [socket], .inr socket⟩
  rw [show RegisteredFDsNode.told .read _ = {epollin} from rfl, mask] at told
  exact told (by decide)

/-! ## With `EPOLLPRI` -/

open RegisteredFDsNode

variable {n : RegisteredFDsNode} {answer : RegisterAnswer} {fd : ℕ} {ev : EpollEventArg} {stat : StatAnswer}

/-- The kernel takes every filter. -/
def Takes (answer : RegisterAnswer) : Prop :=
  answer.kevent = none ∧ ∀ filter, answer.receipt filter = none

theorem socket_needed (kind : n.nodeType = .socket) :
    n.getNeededFilters = some ⟨n.edge n.socketFilters.evfiltRead, n.edge n.socketFilters.evfiltWrite,
      n.edge (.ofBool (n.wants epollpri))⟩ := by
  have watched : ¬ (n.edge n.socketFilters.evfiltRead = .no ∧ n.edge n.socketFilters.evfiltWrite = .no) := by
    have either := n.socketFilters_watched
    rw [edge_eq_no, edge_eq_no]
    tauto
  simp only [RegisteredFDsNode.getNeededFilters, levelFilters, kind, bind, Option.bind_some]
  rw [if_neg watched]
  rfl

theorem checkReceipts_taken (takes : Takes answer) (changes : List Knote) :
    c.checkReceipts n answer changes = (c, n, none) := by
  induction changes with
  | nil => rfl
  | cons change rest ih =>
      rw [checkReceipts, takes.2 change.filter]
      exact ih

/-- A socket whose filter for out-of-band data is in the queue. -/
structure Listening (c : EpollFDCtx) (n : RegisteredFDsNode) : Prop where
  nodeType : n.nodeType = .socket
  off : n.isOnPollfdList = false
  knote : ∃ k ∈ c.kq.knotes, k.fd = n.fd ∧ k.filter = .except ∧ k.udata = n.id

theorem watch_pri (takes : Takes answer) (kind : n.nodeType = .socket) (off : n.isOnPollfdList = false)
    (bare : ∀ filter, n.has filter = false) (pri : epollpri ∈ n.events) :
    ∃ kq' n', c.watch n answer = .ok ({ c with kq := kq' }, n', none) ∧ n'.id = n.id ∧ n'.fd = n.fd ∧
      Listening { c with kq := kq' } n' := by
  obtain ⟨needed, found, wanted⟩ : ∃ needed, n.getNeededFilters = some needed ∧ neededAt needed .except ≠ .no := by
    refine ⟨_, socket_needed kind, ?_⟩
    show n.edge (.ofBool (n.wants epollpri)) ≠ .no
    rw [ne_eq, edge_eq_no, ofBool_wants, not_not]
    exact pri
  have fits : coherent answer = true := by simp [coherent, takes.2]
  have all : (changes n needed).filter (fun change => (answer.receipt change.filter).isNone) = changes n needed :=
    List.filter_eq_self.mpr fun change _ => by simp [takes.2]
  obtain ⟨k, within, same⟩ := changes_filter (n := n) wanted
  obtain ⟨fd, udata, _⟩ := of_mem_changes within
  refine ⟨addAll c.kq (changes n needed), asking n needed, ?_, rfl, rfl, kind, off, k, mem_addAll within changes_nodup,
    fd, same, udata⟩
  have plain : ¬ (n.nodeType = .other ∧
      ((changes n needed).head?.bind fun change => answer.receipt change.filter) = some enodev) := by simp [kind]
  simp only [watch, bare, Bool.or_self, Bool.false_eq_true, if_false, found, takes.1, all, fits, reduceCtorEq,
    if_neg plain]
  exact congrArg _ (checkReceipts_taken takes _)

theorem addNode_pri (quiet : c.Quiet) (absent : c.find fd = none) (takes : Takes answer) (memory : stat.malloc = true)
    (plain : stat.fifo = false) (socket : stat.socket = true) (pri : epollpri ∈ ev.events) :
    ∃ c' n, c.addNode fd ev stat answer = .ok (c', none) ∧ n.id = c.next ∧ n.fd = fd ∧ Listening c' n ∧
      c'.registeredFds = n :: c.registeredFds ∧ c'.registeredFdsSize = c.registeredFdsSize + 1 := by
  have kind : stat.nodeType = .ok .socket := by simp [StatAnswer.nodeType, plain, socket]
  set n := requested (registeredFdsNodeCreate c.next fd .socket) ev
  have asked : epollpri ∈ n.events := by
    show epollpri ∈ ev.events ∩ {epollin, epollpri, epollrdhup, epollout}
    simp [pri]
  obtain ⟨kq', n', watched, id, mine, listening⟩ :=
    watch_pri (c := c.insert n) (n := n) takes rfl rfl (fun _ => rfl) asked
  have registered : (c.insert n).registerEvents n answer = .ok ({ c.insert n with kq := kq' }, n', none) := watched
  have fresh : c.next ∉ c.ids := fun member => absurd (quiet.next c.next member) (by omega)
  refine ⟨store { c.insert n with kq := kq' } { n' with isRegistered := true }, { n' with isRegistered := true }, ?_, id,
    mine, ⟨listening.nodeType, listening.off, listening.knote⟩, ?_, rfl⟩
  · simp only [addNode, memory, Bool.true_eq_false, Bool.false_eq_true, if_false, kind, absent, Option.isSome_none]
    show ((c.insert n).registerEvents n answer >>= _) = _
    rw [registered]
    rfl
  · show put (·.id) { n' with isRegistered := true } (n :: c.registeredFds) = _
    have rest : put (·.id) { n' with isRegistered := true } c.registeredFds = c.registeredFds :=
      put_of_absent (id.symm ▸ fresh)
    rw [put, List.map_cons, if_pos id.symm]
    exact congrArg _ rest

/-- The node is freed, and its filter stays. -/
theorem removeNode_pri (listening : Listening c n) (some : c.registeredFdsSize ≠ 0) :
    ∃ c', c.removeNode n = .ok c' ∧ c'.nodeAt n.id = none ∧
      ∃ k ∈ c'.kq.knotes, k.fd = n.fd ∧ k.filter = .except ∧ k.udata = n.id := by
  obtain ⟨kind, off, k, member, fd, filter, udata⟩ := listening
  set kq' := ((c.kq.delete n.fd .read).delete n.fd .write).deleteUser n.id
  have removed : c.removeNodeFromKq n = .ok ({ c with kq := kq' }, { n with has := fun _ => false }) := by
    have unlisted : c.unlist n = .ok (c, n) := if_neg (by simp [off])
    have filters : ¬ n.nodeType = .poll := by simp [kind]
    simp only [removeNodeFromKq, unlisted, bind, Except.bind, if_neg filters]
    rfl
  refine ⟨_, by simp only [removeNode, removed, bind, Except.bind, if_neg some]; rfl, ?_, k, ?_, fd, filter, udata⟩
  · simp [EpollFDCtx.nodeAt, leaveOut]
  · refine mem_delete.mpr ⟨mem_delete.mpr ⟨member, ?_⟩, ?_⟩ <;> simp [filter]

/-- An event that is delivered for a node that was freed. -/
theorem wait_freed {cnt : ℕ} {d : Delivery} {k : Knote} (some : cnt ≠ 0) (few : (cnt + 1) * 3 < 2 ^ 31)
    (member : k ∈ c.kq.knotes) (freed : c.nodeAt k.udata = none) (source : d.kev.source = .filter k.fd k.filter)
    (udata : d.kev.udata = k.udata) :
    c.epollfdCtxWait cnt ⟨none, .ok (.some []), none, [.ok ⟨[d], false, []⟩]⟩ = .error .useAfterFree := by
  obtain ⟨space, found, room⟩ : ∃ space, c.kevsSpace cnt = .some space ∧ 1 ≤ space := by
    have fits : cnt + 1 < 2 ^ 31 ∧ (cnt + 1) * 3 < 2 ^ 31 := ⟨by omega, few⟩
    simp only [kevsSpace, if_pos fits]
    split
    · exact ⟨_, rfl, by omega⟩
    · exact ⟨_, rfl, by omega⟩
  have delivers : c.delivers d = true := by
    simp only [EpollFDCtx.delivers, source, udata, freed, Bool.and_true, List.any_eq_true]
    exact ⟨k, member, by simp⟩
  have taken : c.kevent space ⟨[d], false, []⟩ = .ok { c with kq := c.kq.taken [d.kev.source] } := by
    rw [EpollFDCtx.kevent]
    exact if_pos ⟨room, by simp, by simp [delivers]⟩
  have freed' : nodeAt { c with kq := c.kq.taken [d.kev.source] } d.kev.udata = none := udata.symm ▸ freed
  simp only [epollfdCtxWait, if_neg some, List.zip_nil_right, pollNodes, bind, Except.bind, found, waitBatches, waitBatch,
    taken, handleAll, handle, freed']

/-- A socket that was asked for `EPOLLPRI` and is removed while it is open is used
again as soon as the kernel has out-of-band data of it. -/
theorem removed_socket_is_used (plain : ∀ action ∈ actions, Plain action)
    (run : runActions (step kq) epollfdCtxInit actions = .ok (c, outs)) (absent : c.interests fd = none) (other : kq ≠ fd)
    (supported : ev.unsupported = false) (pri : epollpri ∈ ev.events) (memory : stat.malloc = true)
    (notFifo : stat.fifo = false) (socket : stat.socket = true) (takes : Takes answer) {cnt : ℕ} (some : cnt ≠ 0)
    (few : (cnt + 1) * 3 < 2 ^ 31) {d : Delivery} (source : d.kev.source = .filter fd .except)
    (udata : d.kev.udata = c.next) :
    runActions (step kq) c [.ctl .add fd ev (.ok stat) answer, .ctl .del fd ev (.ok stat) answer,
      .wait cnt ⟨none, .ok (.some []), none, [.ok ⟨[d], false, []⟩]⟩] = .error .useAfterFree := by
  have quiet : c.Quiet := (runs_ends plain).of_ok run
  have allowed : ∀ op : Op, ¬ (op ≠ .del ∧ ev.unsupported = true) := by simp [supported]
  have notFound : c.find fd = none := Option.map_eq_none_iff.mp absent
  obtain ⟨c₁, n, added, id, rfl, listening, nodes, size⟩ :=
    addNode_pri quiet notFound takes memory notFifo socket pri
  obtain ⟨c₂, removed, freed, k, member, fd, filter, place⟩ := removeNode_pri listening (by omega)
  have add : step kq c (.ctl .add n.fd ev (.ok stat) answer) = .ok (c₁, .ctl none) := by
    simp only [step, epollfdCtxCtl, if_neg other, if_neg (allowed .add), notFound, added]
    rfl
  have found : c₁.find n.fd = .some n := by simp [EpollFDCtx.find, nodes]
  have del : step kq c₁ (.ctl .del n.fd ev (.ok stat) answer) = .ok (c₂, .ctl none) := by
    simp only [step, epollfdCtxCtl, if_neg other, if_neg (allowed .del), found, removed]
    rfl
  have stopped : step kq c₂ (.wait cnt ⟨none, .ok (.some []), none, [.ok ⟨[d], false, []⟩]⟩) = .error .useAfterFree := by
    have wait := wait_freed some few member (place ▸ freed) (fd.symm ▸ filter.symm ▸ source)
      (udata.trans (id.symm.trans place.symm))
    simp only [step, if_neg some, wait]
    rfl
  rw [runActions_cons_error add, runActions_cons_error del]
  simp only [runActions, stopped]

theorem removed_socket_is_used_after_tour : ∃ c, runActions (step 3) epollfdCtxInit tour = .ok (c, toldOnTour) ∧
    runActions (step 3) c [.ctl .add 11 (level {epollpri} 0) (.ok (writeOnly false true)) allTaken,
      .ctl .del 11 (level {epollpri} 0) (.ok (writeOnly false true)) allTaken,
      .wait 4 ⟨none, .ok (some []), none,
        [.ok ⟨[⟨⟨.filter 11 .except, 3, false, false, true, 0⟩, silence, allTaken⟩], false, []⟩]⟩] =
      .error .useAfterFree := by
  have plain : ∀ action ∈ tour, Plain action := fun action member => plain_tour action (List.mem_append_left _ member)
  have pri : epollpri ∈ (level {epollpri} 0).events := List.mem_singleton.mpr rfl
  obtain ⟨c, run, absent, next⟩ : ∃ c, runActions (step 3) epollfdCtxInit tour = .ok (c, toldOnTour) ∧
      c.interests 11 = none ∧ c.next = 3 := ⟨_, rfl, rfl, rfl⟩
  exact ⟨c, run, removed_socket_is_used plain run absent (by decide) rfl pri rfl rfl rfl ⟨rfl, fun _ => rfl⟩ (by decide)
    (by decide) rfl next.symm⟩

end EpollFDCtx

end Iland.Epoll

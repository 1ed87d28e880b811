import Iland.Epoll.RegisteredFds
import Iland.Data.Registry

namespace Iland.Epoll

open Iland.Data EpollEvent

/-! An epoll set: the registered descriptors and the kernel queue behind them.
-/

structure EpollFDCtx where
  /-- The nodes that only support `poll`, by where they lie. -/
  pollFds : List ℕ
  pollFdsSize : ℕ
  registeredFds : List RegisteredFDsNode
  registeredFdsSize : ℕ
  kq : EpollKq
  /-- Where the next node will lie. -/
  next : ℕ

/-- What the kernel answers to the registration of a node.  A filter that is
refused is not there. -/
structure RegisterAnswer where
  /-- The system call as a whole fails, and nothing is done. -/
  kevent : Option Error
  receipt : Evfilt → Option Error
  /-- `registered_fds_node_add_self_trigger` -/
  nodeTrigger : Option Error
  /-- `epollfd_ctx__add_self_trigger` -/
  selfTrigger : Option Error

def epipe : Error := .kernel 32

def enodev : Error := .kernel 19

namespace EpollFDCtx

def epollfdCtxInit : EpollFDCtx := ⟨[], 0, [], 0, ⟨[], []⟩, 0⟩

variable (c : EpollFDCtx)

def nodeAt (id : ℕ) : Option RegisteredFDsNode := c.registeredFds.find? (·.id = id)

def find (fd : ℕ) : Option RegisteredFDsNode := c.registeredFds.find? (·.fd = fd)

/-- The node as it is now, at its place. -/
def store (n : RegisteredFDsNode) : EpollFDCtx :=
  { c with registeredFds := put (·.id) n c.registeredFds }

/-- Take the node from the list of those that only support `poll`. -/
def unlist (n : RegisteredFDsNode) : Except Fault (EpollFDCtx × RegisteredFDsNode) :=
  if n.isOnPollfdList then
    if c.pollFdsSize = 0 then .error .assertion
    else
      .ok ({ c with pollFds := c.pollFds.erase n.id, pollFdsSize := c.pollFdsSize - 1 },
        { n with isOnPollfdList := false })
  else .ok (c, n)

/-- The filter `EVFILT_EXCEPT` is not taken out of the queue. -/
def removeNodeFromKq (n : RegisteredFDsNode) : Except Fault (EpollFDCtx × RegisteredFDsNode) := do
  let (c, n) ← c.unlist n
  if n.nodeType = .poll then return ({ c with kq := c.kq.deleteUser n.id }, n)
  else
    return ({ c with kq := ((c.kq.delete n.fd .read).delete n.fd .write).deleteUser n.id },
      { n with has := fun _ => false })

/-- The filters that the kernel is asked for, in order. -/
def changes (n : RegisteredFDsNode) (needed : NeededFilters) : List Knote :=
  [(Evfilt.read, needed.evfiltRead), (.write, needed.evfiltWrite), (.except, needed.evfiltExcept)].filterMap
    fun (filter, wanted) =>
      if wanted = .no then none else some ⟨n.fd, filter, wanted = .clear || filter = .except, n.id⟩

def addAll (kq : EpollKq) (changes : List Knote) : EpollKq := changes.foldl EpollKq.add kq

/-- A descriptor that only supports `poll`. -/
def registerPoll (n : RegisteredFDsNode) (answer : RegisterAnswer) :
    Except Fault (EpollFDCtx × RegisteredFDsNode × Option Error) :=
  if ¬ n.events ⊆ {epollin, epollout} ∨ (n.isRegistered = false ∧ n.nodeType ≠ .other) then .error .assertion
  else
    let n := { n with has := fun _ => false, nodeType := .poll }
    match answer.nodeTrigger with
    | some ec => .ok (c, n, some ec)
    | none =>
        let c := { c with kq := c.kq.addUser n.id }
        if n.isOnPollfdList then .ok (c, n, none)
        else match answer.selfTrigger with
          | some ec => .ok (c, n, some ec)
          | none => .ok ({ c with pollFds := c.pollFds ++ [n.id], pollFdsSize := c.pollFdsSize + 1 },
              { n with isOnPollfdList := true }, none)

/-- A fifo that nobody reads. -/
def broken (n : RegisteredFDsNode) : RegisteredFDsNode :=
  { n with eofState := .both, has := fun filter => if filter = .write then false else n.has filter }

/-- The first filter that was refused ends the registration, except that nobody
reads a fifo. -/
def checkReceipts (n : RegisteredFDsNode) (answer : RegisterAnswer) :
    List Knote → EpollFDCtx × RegisteredFDsNode × Option Error
  | [] => (c, n, none)
  | change :: rest =>
      match answer.receipt change.filter with
      | none => checkReceipts n answer rest
      | some ec =>
          if ec = epipe ∧ change.filter = .write ∧ n.nodeType.isFifo = true then
            if n.has .read then checkReceipts (broken n) answer rest
            else match answer.nodeTrigger with
              | some ec => (c, broken n, some ec)
              | none => ({ c with kq := (c.kq.addUser n.id).trigger n.id }, broken n, none)
          else (c, n, some ec)

/-- A descriptor that has no filters has none at all. -/
def coherent (answer : RegisterAnswer) : Bool :=
  [Evfilt.read, .write, .except].all fun filter => answer.receipt filter ≠ some enodev ||
    [Evfilt.read, .write, .except].all fun other => (answer.receipt other).isSome

/-- Ask for the filters of a node that has none. -/
def watch (n : RegisteredFDsNode) (answer : RegisterAnswer) :
    Except Fault (EpollFDCtx × RegisteredFDsNode × Option Error) :=
  if n.has .read || n.has .write || n.has .except then .error .assertion
  else match n.getNeededFilters with
    | none => .error .assertion
    | some needed =>
        let changes := changes n needed
        let n := { n with has := fun filter => changes.any fun change => change.filter = filter }
        match answer.kevent with
        | some ec => .ok (c, n, some ec)
        | none =>
            let c := { c with
              kq := addAll c.kq (changes.filter fun change => (answer.receipt change.filter).isNone) }
            if coherent answer = false then .error .kernel
            else if n.nodeType = .other ∧
                (changes.head?.bind fun change => answer.receipt change.filter) = some enodev then
              c.registerPoll n answer
            else .ok (c.checkReceipts n answer changes)

def registerFilters (n : RegisteredFDsNode) (answer : RegisterAnswer) :
    Except Fault (EpollFDCtx × RegisteredFDsNode × Option Error) :=
  if n.isRegistered then do
    let (c, n) ← c.removeNodeFromKq n
    c.watch n answer
  else c.watch n answer

/-- Only sockets support `EPOLLRDHUP` and `EPOLLPRI`. -/
def supported (n : RegisteredFDsNode) : RegisteredFDsNode :=
  if n.nodeType = .socket then n else { n with events := n.events \ {epollrdhup, epollpri} }

def registerEvents (n : RegisteredFDsNode) (answer : RegisterAnswer) :
    Except Fault (EpollFDCtx × RegisteredFDsNode × Option Error) :=
  let n := supported n
  if n.nodeType = .poll then c.registerPoll n answer else c.registerFilters n answer

def removeNode (n : RegisteredFDsNode) : Except Fault EpollFDCtx := do
  let (c, n) ← c.removeNodeFromKq n
  if c.registeredFdsSize = 0 then .error .assertion
  else
    return { c with
      registeredFds := leaveOut (·.id) n.id c.registeredFds, registeredFdsSize := c.registeredFdsSize - 1 }

structure EpollEventArg where
  events : EpollEvents
  edgeTriggered : Bool
  oneshot : Bool
  /-- Bits that are not supported. -/
  unsupported : Bool
  data : UInt64

/-- What the system says of a descriptor that is added. -/
structure StatAnswer where
  /-- There is memory for a node. -/
  malloc : Bool
  fifo : Bool
  socket : Bool
  /-- `ioctl` with `FIONREAD`, where `ENOTTY` is told apart. -/
  notty : Bool
  /-- The access mode, or why it cannot be read: readable and writable. -/
  mode : Except Error (Bool × Bool)

/-- The kind of descriptor, as far as it can be told before it is registered. -/
def StatAnswer.nodeType (stat : StatAnswer) : Except Error NodeType :=
  if stat.fifo then
    if stat.notty then .ok .kqueue
    else match stat.mode with
      | .error ec => .error ec
      | .ok (false, false) => .error .EINVAL
      | .ok (readable, writable) => .ok (.fifo readable writable)
  else if stat.socket then .ok .socket
  else .ok .other

def insert (n : RegisteredFDsNode) : EpollFDCtx :=
  { c with registeredFds := n :: c.registeredFds, registeredFdsSize := c.registeredFdsSize + 1, next := c.next + 1 }

def addNode (fd : ℕ) (ev : EpollEventArg) (stat : StatAnswer) (answer : RegisterAnswer) :
    Except Fault (EpollFDCtx × Option Error) :=
  if stat.malloc = false then .ok (c, some .ENOMEM)
  else match stat.nodeType with
    | .error ec => .ok (c, some ec)
    | .ok nodeType =>
        let n := (RegisteredFDsNode.registeredFdsNodeCreate c.next fd nodeType).updateFlagsFromEpollEvent ev.events
          ev.data ev.edgeTriggered ev.oneshot
        if (c.find fd).isSome then .error .assertion
        else do
          match ← (c.insert n).registerEvents n answer with
          | (c, n, some ec) => return (← c.removeNode n, some ec)
          | (c, n, none) => return (c.store { n with isRegistered := true }, none)

def modifyNode (n : RegisteredFDsNode) (ev : EpollEventArg) (answer : RegisterAnswer) :
    Except Fault (EpollFDCtx × Option Error) :=
  let n := n.updateFlagsFromEpollEvent ev.events ev.data ev.edgeTriggered ev.oneshot
  if n.isRegistered = false then .error .assertion
  else do
    match ← c.registerEvents n answer with
    | (c, n, some ec) => return (← c.removeNode n, some ec)
    | (c, n, none) => return (c.store n, none)

def epollfdCtxRemoveFd (fd : ℕ) : Except Fault EpollFDCtx :=
  match c.find fd with
  | none => .ok c
  | some n => c.removeNode n

inductive Op
  | add
  | del
  | mod
  | unknown
deriving DecidableEq, Repr

/-- The set itself has the descriptor `kq`. -/
def epollfdCtxCtl (kq : ℕ) (op : Op) (fd : ℕ) (ev : EpollEventArg) (fstat : Except Error StatAnswer)
    (answer : RegisterAnswer) : Except Fault (EpollFDCtx × Option Error) :=
  if kq = fd then .ok (c, some .EINVAL)
  else if op ≠ .del ∧ ev.unsupported = true then .ok (c, some .EINVAL)
  else match fstat with
    | .error ec => do
        match c.find fd with
        | none => return (c, some ec)
        | some n => return (← c.removeNode n, some ec)
    | .ok stat =>
        match op, c.find fd with
        | .add, some _ => .ok (c, some .EEXIST)
        | .add, none => c.addNode fd ev stat answer
        | .del, none => .ok (c, some .ENOENT)
        | .del, some n => (c.removeNode n).map fun c => (c, none)
        | .mod, none => .ok (c, some .ENOENT)
        | .mod, some n => c.modifyNode n ev answer
        | .unknown, _ => .ok (c, some .EINVAL)

/-- An event that the kernel delivers, with its answers while it is handled. -/
structure Delivery where
  kev : KEvent
  feed : FeedAnswer
  register : RegisterAnswer

/-- The kernel delivers events of what it watches, and no more of a node than its
kind can have. -/
def delivers (d : Delivery) : Bool :=
  (match d.kev.source with
    | .filter fd filter => c.kq.knotes.any fun k => k.fd = fd && k.filter = filter && k.udata = d.kev.udata
    | .user id => id = d.kev.udata && decide ((id, true) ∈ c.kq.users)) &&
  match c.nodeAt d.kev.udata with
  | none => true
  | some n =>
      match n.nodeType with
      | .kqueue => !d.kev.eof && d.feed.pollable.all fun events => decide (events ⊆ {epollin})
      | .poll => d.feed.poll.all fun events => decide (events ⊆ n.mask)
      | _ => true

/-- What one call of `kevent` delivers, and the second queue after it. -/
structure Batch where
  deliveries : List Delivery
  /-- The event of the set itself is among them; it is passed over. -/
  selfTriggered : Bool
  completed : List (KEvent × FeedAnswer)

def Batch.count (batch : Batch) : ℕ := batch.deliveries.length + batch.selfTriggered.toNat

/-- `kevent` with room for `cnt` events. -/
def kevent (cnt : ℕ) (batch : Batch) : Except Fault EpollFDCtx :=
  if batch.count ≤ cnt ∧ (batch.deliveries.map fun d => d.kev.source).Nodup ∧
      batch.deliveries.all c.delivers = true then
    .ok { c with kq := c.kq.taken (batch.deliveries.map fun d => d.kev.source) }
  else .error .kernel

/-- The filters of the node stay as they are whatever it needs. -/
def fixed (n : RegisteredFDsNode) : Bool :=
  n.nodeType = .poll || n.isEdgeTriggered && n.eofState = .both && !n.nodeType.isFifo

/-- The filters have to be set anew. -/
def stale (old needed : NeededFilters) : Bool :=
  old.evfiltRead ≠ needed.evfiltRead || old.evfiltWrite ≠ needed.evfiltWrite

def renew (old : NeededFilters) (n : RegisteredFDsNode) (answer : RegisterAnswer) :
    Except Fault (EpollFDCtx × RegisteredFDsNode) :=
  if fixed n then .ok (c, n)
  else match n.getNeededFilters with
    | none => .error .assertion
    | some needed =>
        if stale old needed then do
          match ← c.registerEvents n answer with
          | (c, n, some _) => c.removeNodeFromKq n
          | (c, n, none) => return (c, n)
        else .ok (c, n)

/-- An event of the queue; `evs` are the nodes that have something for the
caller so far, for whom there is room for `room`. -/
def handle (room : ℕ) (evs : List ℕ) (d : Delivery) : Except Fault (EpollFDCtx × List ℕ) :=
  match c.nodeAt d.kev.udata with
  | none => .error .useAfterFree
  | some before =>
      match before.getNeededFilters with
      | none => .error .assertion
      | some old => do
          let (kq, n) ← before.registeredFdsNodeFeedEvent c.kq d.kev d.feed
          let (c, n) ← renew { c with kq := kq } old n d.register
          if n.revents ≠ ∅ ∧ before.revents = ∅ then
            if evs.length < room then return (c.store n, evs ++ [n.id]) else .error .overflow
          else return (c.store n, evs)

def handleAll (room : ℕ) : EpollFDCtx → List ℕ → List Delivery → Except Fault (EpollFDCtx × List ℕ)
  | c, evs, [] => .ok (c, evs)
  | c, evs, d :: rest => do
      let (c, evs) ← c.handle room evs d
      handleAll room c evs rest

/-- What is asked of the second queue, in which more events of the nodes in `evs`
are looked for. -/
def completions (full : Bool) (evs : List ℕ) : List (ℕ × Evfilt) :=
  evs.flatMap fun id => match c.nodeAt id with
    | none => []
    | some n => if full || n.isEdgeTriggered then n.registerForCompletion.map fun filter => (id, filter) else []

/-- The events of the second queue. -/
def complete (asked : List (ℕ × Evfilt)) : EpollFDCtx → List (KEvent × FeedAnswer) → Except Fault EpollFDCtx
  | c, [] => .ok c
  | c, (kev, answer) :: rest =>
      match kev.source with
      | .user _ => .error .kernel
      | .filter fd filter =>
          if (kev.udata, filter) ∈ asked then
            match c.nodeAt kev.udata with
            | none => .error .useAfterFree
            | some n =>
                if fd = n.fd then do
                  let (_, n) ← n.registeredFdsNodeFeedEvent c.kq kev answer
                  complete asked (c.store n) rest
                else .error .kernel
          else .error .kernel

structure EpollEventOut where
  events : EpollEvents
  data : UInt64

/-- A node that was asked for one event only is not watched any more. -/
def disable (n : RegisteredFDsNode) : Except Fault (EpollFDCtx × RegisteredFDsNode) :=
  if n.isOneshot then c.removeNodeFromKq n else .ok (c, n)

/-- Give the events out, and forget them. -/
def giveOut : EpollFDCtx → List ℕ → Except Fault (EpollFDCtx × List EpollEventOut)
  | c, [] => .ok (c, [])
  | c, id :: rest =>
      match c.nodeAt id with
      | none => .error .useAfterFree
      | some n => do
          let out := ⟨n.revents, n.data⟩
          let (c, n) ← c.disable { n with revents := ∅, got := fun _ => false }
          let (c, outs) ← giveOut (c.store n) rest
          return (c, out :: outs)

def waitBatch (room cnt : ℕ) (batch : Batch) : Except Fault (EpollFDCtx × List EpollEventOut) := do
  let c ← c.kevent cnt batch
  let (c, evs) ← handleAll room c [] batch.deliveries
  let c ← complete (c.completions (batch.count = cnt) evs) c batch.completed
  c.giveOut evs

/-- Events that come to nothing are taken out, and more are looked for. -/
def waitBatches (room cnt : ℕ) :
    EpollFDCtx → List (Except Error Batch) → Except Fault (EpollFDCtx × Except Error (List EpollEventOut))
  | _, [] => .error .kernel
  | c, .error ec :: _ => .ok (c, .error ec)
  | c, .ok batch :: rest => do
      let (c, outs) ← c.waitBatch room cnt batch
      if batch.count ≠ 0 ∧ outs.isEmpty = true then waitBatches room cnt c rest
      else return (c, .ok outs)

/-- What `poll` found of a node: that its descriptor was closed, or that
something holds of it. -/
structure PollResult where
  pollnval : Bool
  some : Bool

def pollNodes : EpollFDCtx → List (ℕ × PollResult) → Except Fault EpollFDCtx
  | c, [] => .ok c
  | c, (id, result) :: rest =>
      match c.nodeAt id with
      | none => .error .useAfterFree
      | some n =>
          if result.pollnval then do
            let c ← c.removeNode n
            pollNodes c rest
          else if result.some then pollNodes { c with kq := c.kq.trigger id } rest
          else pollNodes c rest

/-- The number of events that the kernel is asked for. -/
def kevsSpace (cnt : ℕ) : Option ℕ :=
  if c.registeredFdsSize ≤ cnt then
    if cnt + 1 < 2 ^ 31 ∧ (cnt + 1) * 3 < 2 ^ 31 then some ((cnt + 1) * 3) else none
  else some cnt

structure WaitAnswer where
  pfdsSpace : Option Error
  /-- `poll` on the queue and the nodes that only support it; without results,
  nothing holds. -/
  poll : Except Error (Option (List PollResult))
  kevsSpace : Option Error
  batches : List (Except Error Batch)

def epollfdCtxWait (cnt : ℕ) (answer : WaitAnswer) : Except Fault (EpollFDCtx × Except Error (List EpollEventOut)) :=
  if cnt = 0 then .error .assertion
  else match answer.pfdsSpace, answer.poll with
    | some ec, _ => .ok (c, .error ec)
    | none, .error ec => .ok (c, .error ec)
    | none, .ok none => .ok (c, .ok [])
    | none, .ok (some results) => do
        let c ← c.pollNodes (c.pollFds.zip results)
        match c.kevsSpace cnt, answer.kevsSpace with
        | none, _ => return (c, .error .ENOMEM)
        | some _, some ec => return (c, .error ec)
        | some space, none => waitBatches cnt space c answer.batches

end EpollFDCtx

end Iland.Epoll

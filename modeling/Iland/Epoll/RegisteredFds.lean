import Iland.Epoll.Kqueue

namespace Iland.Epoll

/-! A descriptor in an epoll set, and what its kernel events mean.

This is the shim as it is built for macOS: the kernel queue has user events and
the filter `EVFILT_EXCEPT`, and `EPOLLRDHUP` has its own bit, so that nothing
is translated.
-/

inductive EpollEvent
  | epollin
  | epollpri
  | epollout
  | epollerr
  | epollhup
  | epollrdhup
deriving DecidableEq, Repr

open EpollEvent

abbrev EpollEvents := Finset EpollEvent

inductive NodeType
  | fifo (readable writable : Bool)
  | socket
  | kqueue
  | other
  | poll
deriving DecidableEq, Repr

def NodeType.isFifo : NodeType → Bool
  | .fifo _ _ => true
  | _ => false

structure EOFState where
  readEof : Bool
  writeEof : Bool
deriving DecidableEq, Repr

def EOFState.none : EOFState := ⟨false, false⟩

def EOFState.both : EOFState := ⟨true, true⟩

/-- The filters on a descriptor. -/
inductive Evfilt
  | read
  | write
  | except
deriving DecidableEq, Repr

structure RegisteredFDsNode where
  /-- Where the node lies. -/
  id : ℕ
  fd : ℕ
  data : UInt64
  isRegistered : Bool
  has : Evfilt → Bool
  got : Evfilt → Bool
  nodeType : NodeType
  eofState : EOFState
  events : EpollEvents
  revents : EpollEvents
  isEdgeTriggered : Bool
  isOneshot : Bool
  isOnPollfdList : Bool

/-- How the program can go wrong. -/
inductive Fault
  | assertion
  /-- The kernel hands out the place of a node that was freed. -/
  | useAfterFree
  /-- The caller's array of events is too small. -/
  | overflow
  /-- The kernel does not answer so. -/
  | kernel
deriving DecidableEq, Repr

/-- What is asked of a filter: nothing, an event as long as it holds, or one
each time it begins to hold. -/
inductive Needed
  | no
  | level
  | clear
deriving DecidableEq, Repr

def Needed.ofBool (wanted : Bool) : Needed := if wanted then .level else .no

/-- `needed` if something is asked for, else another request. -/
def Needed.or (needed other : Needed) : Needed := if needed = .no then other else needed

structure NeededFilters where
  evfiltRead : Needed
  evfiltWrite : Needed
  evfiltExcept : Needed
deriving DecidableEq, Repr

namespace RegisteredFDsNode

variable (n : RegisteredFDsNode)

def registeredFdsNodeCreate (id fd : ℕ) (nodeType : NodeType) : RegisteredFDsNode :=
  ⟨id, fd, 0, false, fun _ => false, fun _ => false, nodeType, .none, ∅, ∅, false, false, false⟩

def wants (event : EpollEvent) : Bool := event ∈ n.events

/-- What watches a descriptor of which no event is asked for. -/
def hangupFilter : Needed := if n.eofState = .none then .clear else .level

def socketFilters : NeededFilters :=
  let read := Needed.ofBool (n.wants epollin)
  let read := if read = .no ∧ n.wants epollrdhup = true then (if n.eofState.readEof then .level else .clear) else read
  let write := Needed.ofBool (n.wants epollout)
  let (read, write) :=
    if n.eofState = .both then
      let read := if read ≠ .level ∧ write ≠ .level then .level else read
      if read ≠ .no then (read, .no) else (.no, write)
    else (read, write)
  let read := if n.eofState = .none ∧ read = .no ∧ write = .no then .clear else read
  let write := if n.eofState = ⟨true, false⟩ then write.or .clear else write
  let read := if n.eofState = ⟨false, true⟩ then read.or .clear else read
  ⟨read, write, .ofBool (n.wants epollpri)⟩

/-- The filters before the kind of triggering is looked at. -/
def levelFilters : Option NeededFilters :=
  match n.nodeType with
  | .fifo true true =>
      some ⟨if n.events = ∅ then n.hangupFilter else .ofBool (n.wants epollin), .ofBool (n.wants epollout), .no⟩
  | .fifo true false => some ⟨(Needed.ofBool (n.wants epollin)).or n.hangupFilter, .no, .no⟩
  | .fifo false true => some ⟨.no, (Needed.ofBool (n.wants epollout)).or n.hangupFilter, .no⟩
  | .fifo false false => none
  | .kqueue => if n.eofState = .none then some ⟨(Needed.ofBool (n.wants epollin)).or .clear, .no, .no⟩ else none
  | .socket => some n.socketFilters
  | .other | .poll =>
      some ⟨if n.events = ∅ then n.hangupFilter else .ofBool (n.wants epollin), .ofBool (n.wants epollout), .no⟩

def edge (needed : Needed) : Needed := if n.isEdgeTriggered ∧ needed ≠ .no then .clear else needed

/-- Without a filter for reading or writing an assertion fails. -/
def getNeededFilters : Option NeededFilters := do
  let needed ← n.levelFilters
  let read := n.edge needed.evfiltRead
  let write := n.edge needed.evfiltWrite
  if read = .no ∧ write = .no then none else some ⟨read, write, n.edge needed.evfiltExcept⟩

/-- A new request of the program; the flags are `EPOLLET` and `EPOLLONESHOT`. -/
def updateFlagsFromEpollEvent (events : EpollEvents) (data : UInt64) (edgeTriggered oneshot : Bool) :
    RegisteredFDsNode :=
  { n with
    events := events ∩ {epollin, epollpri, epollrdhup, epollout}
    data := data
    isEdgeTriggered := edgeTriggered || oneshot
    isOneshot := oneshot }

end RegisteredFDsNode

/-- A filter that the kernel watches for a node. -/
structure Knote where
  fd : ℕ
  filter : Evfilt
  clear : Bool
  udata : ℕ
deriving DecidableEq, Repr

/-- What an event of the kernel is about: a filter, or the user event of a node. -/
inductive Source
  | filter (fd : ℕ) (filter : Evfilt)
  | user (id : ℕ)
deriving DecidableEq, Repr

/-- The kernel queue of an epoll set: the filters, and the user events of the
nodes with whether they were triggered. -/
structure EpollKq where
  knotes : List Knote
  users : List (ℕ × Bool)

namespace EpollKq

variable (kq : EpollKq)

def delete (fd : ℕ) (filter : Evfilt) : EpollKq :=
  { kq with knotes := kq.knotes.filter fun k => !(k.fd == fd && k.filter == filter) }

def add (knote : Knote) : EpollKq := { kq with knotes := knote :: (kq.delete knote.fd knote.filter).knotes }

def deleteUser (id : ℕ) : EpollKq := { kq with users := kq.users.filter fun u => u.1 != id }

/-- A user event that was there before stays as it is. -/
def addUser (id : ℕ) : EpollKq := if id ∈ kq.users.map Prod.fst then kq else { kq with users := (id, false) :: kq.users }

def trigger (id : ℕ) : EpollKq := { kq with users := kq.users.map fun u => if u.1 = id then (id, true) else u }

/-- A user event is over when it is delivered. -/
def taken (sources : List Source) : EpollKq :=
  { kq with users := kq.users.map fun u => if Source.user u.1 ∈ sources then (u.1, false) else u }

end EpollKq

structure KEvent where
  source : Source
  udata : ℕ
  eof : Bool
  error : Bool
  /-- `fflags` is not zero; for the filter `EVFILT_EXCEPT`, it has `NOTE_OOB`. -/
  fflags : Bool
  data : ℤ
deriving DecidableEq, Repr

/-- What the system calls in `registered_fds_node_feed_event` answer. -/
structure FeedAnswer where
  /-- `poll` on a descriptor that only supports this; `none` for a failure. -/
  poll : Option EpollEvents
  /-- The descriptor was closed. -/
  pollnval : Bool
  /-- The kernel takes the filter for writing. -/
  accepts : Bool
  /-- Whether there are out-of-band data, if another queue can be made to see. -/
  oob : Option Bool
  /-- What `pollable_desc_poll` sets, if the descriptor has a function for it. -/
  pollable : Option EpollEvents

/-- What `poll` tells of a descriptor. -/
def FeedAnswer.polled (answer : FeedAnswer) : EpollEvents :=
  match answer.poll with
  | none => {epollerr}
  | some revents => if answer.pollnval then ∅ else revents

namespace RegisteredFDsNode

variable (n : RegisteredFDsNode)

def pipeBuf : ℤ := 512

/-- The events that the program gets. -/
def mask : EpollEvents := n.events ∪ {epollhup, epollerr}

def feedPoll (source : Source) (answer : FeedAnswer) : Except Fault RegisteredFDsNode :=
  if n.revents ≠ ∅ then .error .assertion
  else match source with
    | .filter _ _ => .error .assertion
    | .user _ =>
        if answer.polled ⊆ {epollin, epollout, epollerr, epollhup} then .ok { n with revents := answer.polled }
        else .error .assertion

/-- The end of the way of every event: what it adds, and that it was seen. -/
def feedOut (seen : Option Evfilt) (revents : EpollEvents) (pollable : Option EpollEvents) : RegisteredFDsNode :=
  let after := (n.revents ∪ revents) ∩ n.mask
  let got := fun filter => if after ≠ ∅ ∧ seen = some filter then true else n.got filter
  let after := if n.nodeType = .kqueue then (pollable.map (· ∩ n.mask)).getD after else after
  { n with revents := after, got := got }

/-- A fifo that nobody reads tries again to watch for room. -/
def feedFifoUser (kq : EpollKq) (answer : FeedAnswer) : Except Fault (EpollKq × RegisteredFDsNode) :=
  if n.revents ≠ ∅ ∨ n.has .read = true ∨ n.has .write = true ∨ n.has .except = true then .error .assertion
  else match n.getNeededFilters with
    | none => .error .assertion
    | some needed =>
        if needed.evfiltWrite = .no then .error .assertion
        else if answer.accepts then
          .ok (kq.add ⟨n.fd, .write, needed.evfiltWrite = .clear, n.id⟩,
            { n with has := fun filter => if filter = .write then true else n.has filter })
        else
          .ok (if n.isEdgeTriggered then kq else kq.trigger n.id, n.feedOut none {epollerr, epollout} none)

def eofAfter (filter : Evfilt) (eof : Bool) : EOFState :=
  match n.nodeType, filter with
  | .socket, .read => { n.eofState with readEof := eof }
  | .socket, .write => { n.eofState with writeEof := eof }
  | _, .except => n.eofState
  | _, _ => if eof then .both else .none

/-- What the end of a stream adds to the events, or that the other filter of a
fifo tells of it. -/
def eofEvents (filter : Evfilt) (data : ℤ) (revents : EpollEvents) : Except Fault (Option EpollEvents) :=
  if n.eofState = .none then .ok (some revents)
  else match n.nodeType with
    | .fifo readable writable =>
        match filter with
        | .write =>
            if n.has .read then (if readable && writable then .ok none else .error .assertion)
            else .ok (some ((if data < pipeBuf then revents \ {epollout} else revents) ∪ {epollerr}))
        | _ => .ok (some ((if data = 0 then revents \ {epollin} else revents) ∪ {epollhup}))
    | .socket =>
        .ok (some (revents ∪ (if n.eofState.readEof then {epollin, epollrdhup} else ∅) ∪
          (if n.eofState.writeEof then {epollout} else ∅) ∪ (if n.eofState = .both then {epollhup} else ∅)))
    | _ => .ok (some (revents ∪ {epollhup}))

/-- What an event of a filter for reading or writing says by itself. -/
def told (filter : Evfilt) (kev : KEvent) : EpollEvents :=
  let revents : EpollEvents := if filter = .read then {epollin} else {epollout}
  if kev.error || (kev.eof && kev.fflags) then revents ∪ {epollerr} else revents

/-- If the other filter of a fifo tells of its end, it is over all the same. -/
def feedEvents (filter : Evfilt) (pollable : Option EpollEvents) : Option EpollEvents → RegisteredFDsNode
  | none => { n with revents := if n.revents ≠ ∅ then n.revents ∪ {epollhup} else n.revents }
  | some revents => n.feedOut (some filter) revents pollable

/-- An event of a filter for reading or writing. -/
def feedFilter (filter : Evfilt) (kev : KEvent) (answer : FeedAnswer) : Except Fault RegisteredFDsNode :=
  let n := { n with eofState := n.eofAfter filter kev.eof }
  (n.eofEvents filter kev.data (told filter kev)).map (n.feedEvents filter answer.pollable)

/-- The filter for out-of-band data is set again if it is asked for as long as
there are some, or if there were none. -/
def feedExcept (kq : EpollKq) (kev : KEvent) (answer : FeedAnswer) : Except Fault (EpollKq × RegisteredFDsNode) :=
  if kev.fflags = false then .ok (kq, n.feedOut (some .except) ∅ answer.pollable)
  else match answer.oob, n.getNeededFilters with
    | none, _ => .ok (kq, n.feedOut (some .except) ∅ answer.pollable)
    | some false, _ => .ok (kq.add ⟨n.fd, .except, true, n.id⟩, n.feedOut (some .except) ∅ answer.pollable)
    | some true, none => .error .assertion
    | some true, some needed =>
        .ok (if needed.evfiltExcept = .level then kq.add ⟨n.fd, .except, true, n.id⟩ else kq,
          n.feedOut (some .except) {epollpri} answer.pollable)

def registeredFdsNodeFeedEvent (kq : EpollKq) (kev : KEvent) (answer : FeedAnswer) :
    Except Fault (EpollKq × RegisteredFDsNode) :=
  match n.nodeType, kev.source with
  | .poll, source => (n.feedPoll source answer).map fun n => (kq, n)
  | .fifo _ _, .user _ => n.feedFifoUser kq answer
  | _, .user _ => .error .assertion
  | _, .filter fd filter =>
      if fd ≠ n.fd then .error .assertion
      else if filter = .except then n.feedExcept kq kev answer
      else (n.feedFilter filter kev answer).map fun n => (kq, n)

/-- The filters whose events are still looked for when the events are given out. -/
def registerForCompletion : List Evfilt := [.read, .write, .except].filter fun filter => n.has filter && !n.got filter

end RegisteredFDsNode

end Iland.Epoll

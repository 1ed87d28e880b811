import Iland.Data.Mailbox
import Iland.Libinput.Injection

namespace Iland.Libinput

open Iland.Data

/-! Threads that inject input while one thread reads it.

An injection is a sequence of steps: it sees to the devices, changes the
switches, and appends each event under the lock before it writes its byte.  The
client creates a context, which announces the devices in the same way, waits,
reads the pipe dry, takes events until there is none, and may drop the context.
Steps of different threads come in any order.
-/

/-- A step of an injection, except for the bytes. -/
inductive Op where
  | ensureDevices
  | change (injection : Injection)
  | append (ev : Event)

/-- Where a thread is: the steps left, and whether it has to write its byte
first. -/
structure Thread where
  owing : Bool
  left : List Op

def Thread.idle : Thread := ⟨false, []⟩

def Injection.ops : Injection → List Op
  | .deviceAdded => [.ensureDevices]
  | injection => [.ensureDevices, .change injection]

def Thread.advance (g : Globals) : Thread → Option (Globals × Thread)
  | ⟨true, left⟩ => some (g.signal, ⟨false, left⟩)
  | ⟨false, []⟩ => none
  | ⟨false, .ensureDevices :: left⟩ => some (g.createDevices.2, ⟨false, g.createDevices.1.map .append ++ left⟩)
  | ⟨false, .change injection :: left⟩ =>
      some ((g.change injection).2, ⟨false, (g.change injection).1.toList.map .append ++ left⟩)
  | ⟨false, .append ev :: left⟩ => some (g.append ev, ⟨true, left⟩)

inductive Client where
  | absent
  /-- In `libinput_udev_create_context`, past the pipe. -/
  | creating
  | waiting
  /-- In `libinput_dispatch`. -/
  | dispatching
  /-- Calling `libinput_get_event`. -/
  | draining
deriving DecidableEq

structure Feed (ι : Type*) where
  g : Globals
  /-- The injectors, and the client while it creates its context. -/
  threads : Option ι → Thread
  client : Client

def Feed.initial {ι : Type*} : Feed ι := ⟨.initial, fun _ => .idle, .absent⟩

inductive Act (ι : Type*) where
  | inject (p : ι) (injection : Injection)
  | advance (p : Option ι)
  /-- `libinput_udev_create_context`: `piped` says whether `pipe` succeeds, and
  `sdlInits` whether `sdl_backend_init` gets to announce the devices. -/
  | create (piped sdlInits : Bool)
  /-- The context is returned. -/
  | created
  | dispatch
  | read
  | getEvent
  | unref

variable {ι : Type*} [DecidableEq ι]

/-- Perform one step of one thread; an error means that this thread cannot take
this step now.  The output is the event that the client gets. -/
def act (s : Feed ι) : Act ι → Except Unit (Feed ι × Option Event)
  | .inject p injection =>
      match s.threads (some p) with
      | ⟨false, []⟩ => .ok ({ s with threads := Function.update s.threads (some p) ⟨false, injection.ops⟩ }, none)
      | _ => .error ()
  | .advance p =>
      match (s.threads p).advance s.g with
      | some (g, thread) => .ok ({ s with g := g, threads := Function.update s.threads p thread }, none)
      | none => .error ()
  | .create piped sdlInits =>
      match s.client, s.threads none with
      | .absent, ⟨false, []⟩ =>
          let announces : List Op :=
            if s.g.connected then [] else .ensureDevices :: (if sdlInits then [.ensureDevices] else [])
          .ok ({ s with
            g := { s.g.openPipe piped with connected := true }
            threads := Function.update s.threads none ⟨false, announces⟩
            client := .creating }, none)
      | _, _ => .error ()
  | .created =>
      match s.client, s.threads none with
      | .creating, ⟨false, []⟩ => .ok ({ s with client := .waiting }, none)
      | _, _ => .error ()
  | .dispatch =>
      match s.client with
      | .waiting => .ok ({ s with client := .dispatching }, none)
      | _ => .error ()
  | .read =>
      match s.client, s.g.readPipe with
      | .dispatching, some g => .ok ({ s with g := g }, none)
      | .dispatching, none => .ok ({ s with client := .draining }, none)
      | _, _ => .error ()
  | .getEvent =>
      match s.client, s.g.getEvent with
      | .draining, some (ev, g) => .ok ({ s with g := g }, some ev)
      | .draining, none => .ok ({ s with client := .waiting }, none)
      | _, _ => .error ()
  | .unref =>
      match s.client with
      | .waiting => .ok ({ s with g := s.g.unref, client := .absent }, none)
      | _ => .error ()

def Pipe.unread : Pipe → Option ℕ
  | .opened unread | .openedAtZero unread => some unread
  | .unset | .closed | .closedWithZero => none

/-- Descriptor 0 is left to its owner. -/
def Pipe.AboveZero : Pipe → Prop
  | .unset | .closed | .opened _ => True
  | .closedWithZero | .openedAtZero _ => False

def Client.isReading : Client → Bool
  | .dispatching | .draining => true
  | _ => false

def Feed.mailbox (s : Feed ι) : Mailbox (Option ι) Event where
  queue := s.g.events
  unread := s.g.pipe.unread
  owing := Thread.owing ∘ s.threads
  draining := s.client.isReading

/-- A context is created with a pipe, and on an empty queue unless some
injector still has to write its byte. -/
def OpensClean (s : Feed ι) : Act ι → Prop
  | .create piped _ => piped = true ∧ (s.g.events = [] ∨ ∃ p, (s.threads (some p)).owing = true)
  | _ => True

namespace Globals

variable (g : Globals)

theorem pipe_createDevices : g.createDevices.2.pipe = g.pipe := by
  obtain ⟨devices, same⟩ := g.createDevices_frame
  rw [same]

theorem pipe_change (injection : Injection) : (g.change injection).2.pipe = g.pipe := by
  obtain ⟨devices, keys, buttons, same⟩ := g.change_frame injection
  rw [same]

theorem signal_unread : g.signal.events = g.events ∧ g.signal.pipe.unread = g.pipe.unread.map (· + 1) := by
  simp only [signal]
  cases pipe : g.pipe <;> simp [Pipe.unread, pipe]

theorem unref_spec : g.unref.events = g.events ∧ g.unref.pipe.unread = none := by
  simp only [unref]
  cases pipe : g.pipe <;> simp [Pipe.unread]

/-- Only a context that has a pipe may be dropped. -/
theorem aboveZero_unref (above : g.pipe.AboveZero) (piped : g.pipe.unread.isSome) : g.unref.pipe.AboveZero := by
  simp only [unref]
  cases pipe : g.pipe <;> simp_all [Pipe.AboveZero, Pipe.unread]

theorem aboveZero_signal (above : g.pipe.AboveZero) : g.signal.pipe.AboveZero := by
  simp only [signal]
  cases pipe : g.pipe <;> simp_all [Pipe.AboveZero]

end Globals

structure Quiet (s after : Feed ι) : Prop where
  events : after.g.events = s.g.events
  pipe : after.g.pipe = s.g.pipe
  owing : Thread.owing ∘ after.threads = Thread.owing ∘ s.threads
  reading : after.client.isReading = s.client.isReading
  absent : after.client = .absent ↔ s.client = .absent

theorem owing_update {threads : Option ι → Thread} {p : Option ι} {thread : Thread}
    (same : thread.owing = (threads p).owing) :
    Thread.owing ∘ Function.update threads p thread = Thread.owing ∘ threads := by
  rw [Function.comp_update, same]
  exact Function.update_eq_self p (Thread.owing ∘ threads)

theorem advance_cases {g after : Globals} {thread thread' : Thread}
    (advanced : thread.advance g = some (after, thread')) :
    (thread'.owing = false ∧ after = g.signal) ∨
    (∃ ev, thread'.owing = true ∧ after = g.append ev) ∨
    (thread'.owing = thread.owing ∧ after.events = g.events ∧ after.pipe = g.pipe) := by
  obtain ⟨owing, left⟩ := thread
  cases owing with
  | true =>
      cases advanced
      exact .inl ⟨rfl, rfl⟩
  | false =>
      cases left with
      | nil => contradiction
      | cons op left =>
          cases op with
          | ensureDevices =>
              cases advanced
              exact .inr (.inr ⟨rfl, g.createDevices_spec.1.events, g.pipe_createDevices⟩)
          | change injection =>
              cases advanced
              exact .inr (.inr ⟨rfl, g.events_change injection, g.pipe_change injection⟩)
          | append ev =>
              cases advanced
              exact .inr (.inl ⟨ev, rfl, rfl⟩)

theorem readPipe_some {g after : Globals} (read : g.readPipe = some after) :
    ∃ unread pipe, g.pipe.unread = some (unread + 1) ∧ after = { g with pipe := pipe } ∧
      pipe.unread = some (unread + 1 - 64) ∧ (g.pipe.AboveZero → pipe.AboveZero) := by
  simp only [Globals.readPipe] at read
  split at read
  · rename_i unread opened
    cases read
    exact ⟨unread, _, by rw [opened]; rfl, rfl, rfl, fun _ => trivial⟩
  · rename_i unread opened
    cases read
    exact ⟨unread, _, by rw [opened]; rfl, rfl, rfl, fun above => by rwa [opened] at above⟩
  · contradiction

theorem getEvent_some {g after : Globals} {ev : Event} (taken : g.getEvent = some (ev, after)) :
    ∃ rest, g.events = ev :: rest ∧ after = { g with events := rest } := by
  simp only [Globals.getEvent] at taken
  split at taken
  · contradiction
  · rename_i first rest content
    cases taken
    exact ⟨rest, content, rfl⟩

theorem getEvent_none {g : Globals} (none : g.getEvent = none) : g.events = [] := by
  simp only [Globals.getEvent] at none
  split at none
  · assumption
  · contradiction

/-- What the steps of the threads come to, as far as wakeups go. -/
inductive FeedStep (s : Feed ι) (a : Act ι) : Feed ι → Prop
  | quiet {after} : Quiet s after → FeedStep s a after
  | announce p {thread : Thread} : thread.owing = false →
      FeedStep s a { s with g := s.g.signal, threads := Function.update s.threads p thread }
  | append p ev {thread : Thread} : thread.owing = true →
      FeedStep s a { s with g := s.g.append ev, threads := Function.update s.threads p thread }
  | create {piped sdlInits} {thread : Thread} : a = .create piped sdlInits → s.client = .absent →
      thread.owing = (s.threads none).owing →
      FeedStep s a
        { g := { s.g.openPipe piped with connected := true }
          threads := Function.update s.threads none thread
          client := .creating }
  | dispatch : s.client = .waiting → FeedStep s a { s with client := .dispatching }
  | read {unread pipe} : s.client = .dispatching → s.g.pipe.unread = some (unread + 1) →
      pipe.unread = some (unread + 1 - 64) → (s.g.pipe.AboveZero → pipe.AboveZero) →
      FeedStep s a { s with g := { s.g with pipe := pipe } }
  | remove {ev rest} : s.client = .draining → s.g.events = ev :: rest →
      FeedStep s a { s with g := { s.g with events := rest } }
  | drained : s.client = .draining → s.g.events = [] → FeedStep s a { s with client := .waiting }
  | unref : s.client = .waiting → FeedStep s a { s with g := s.g.unref, client := .absent }

theorem feedStep_advance {s : Feed ι} {p : Option ι} {g : Globals} {thread : Thread}
    (advanced : (s.threads p).advance s.g = some (g, thread)) :
    FeedStep s (.advance p) { s with g := g, threads := Function.update s.threads p thread } := by
  rcases advance_cases advanced with ⟨paid, rfl⟩ | ⟨ev, owes, rfl⟩ | ⟨same, events, pipe⟩
  · exact .announce p paid
  · exact .append p ev owes
  · exact .quiet ⟨events, pipe, owing_update same, rfl, Iff.rfl⟩

theorem feedStep_act {s after : Feed ι} {a : Act ι} {out : Option Event}
    (acted : act s a = .ok (after, out)) : FeedStep s a after := by
  cases a with
  | inject p injection =>
      simp only [act] at acted
      split at acted
      · rename_i idle
        cases acted
        exact .quiet ⟨rfl, rfl, owing_update (by rw [idle]), rfl, Iff.rfl⟩
      · contradiction
  | advance p =>
      simp only [act] at acted
      split at acted
      · rename_i g thread advanced
        cases acted
        exact feedStep_advance advanced
      · contradiction
  | create piped sdlInits =>
      simp only [act] at acted
      split at acted
      · rename_i absent idle
        cases acted
        exact .create rfl absent (by rw [idle])
      · contradiction
  | created =>
      simp only [act] at acted
      split at acted
      · rename_i creating idle
        cases acted
        exact .quiet ⟨rfl, rfl, rfl, by rw [creating]; rfl, by simp [creating]⟩
      · contradiction
  | dispatch =>
      simp only [act] at acted
      split at acted
      · rename_i waiting
        cases acted
        exact .dispatch waiting
      · contradiction
  | read =>
      simp only [act] at acted
      split at acted
      · rename_i g dispatching read
        cases acted
        obtain ⟨unread, pipe, bytes, rfl, left, above⟩ := readPipe_some read
        exact .read dispatching bytes left above
      · rename_i dispatching dry
        cases acted
        exact .quiet ⟨rfl, rfl, rfl, by rw [dispatching]; rfl, by simp [dispatching]⟩
      · contradiction
  | getEvent =>
      simp only [act] at acted
      split at acted
      · rename_i ev g draining taken
        cases acted
        obtain ⟨rest, content, rfl⟩ := getEvent_some taken
        exact .remove draining content
      · rename_i draining taken
        cases acted
        exact .drained draining (getEvent_none taken)
      · contradiction
  | unref =>
      simp only [act] at acted
      split at acted
      · rename_i waiting
        cases acted
        exact .unref waiting
      · contradiction

theorem openPipe_cases (g : Globals) :
    (∃ unread, g.pipe = .opened unread ∧ g.openPipe true = g) ∨
      ∃ pipe, g.openPipe true = { g with pipe := pipe } ∧ pipe.unread = some 0 ∧ (g.pipe.AboveZero → pipe.AboveZero) := by
  simp only [Globals.openPipe]
  cases pipe : g.pipe with
  | opened unread => exact .inl ⟨unread, rfl, rfl⟩
  | closedWithZero => exact .inr ⟨.openedAtZero 0, rfl, rfl, id⟩
  | unset | closed | openedAtZero => exact .inr ⟨.opened 0, rfl, rfl, fun _ => trivial⟩

theorem act_mailbox (s : Feed ι) (a : Act ι) (after : Feed ι) (out : Option Event) (clean : OpensClean s a)
    (acted : act s a = .ok (after, out)) : Relation.ReflTransGen Mailbox.Step s.mailbox after.mailbox := by
  cases feedStep_act acted with
  | quiet quiet =>
      have unseen : after.mailbox = s.mailbox := by
        simp only [Feed.mailbox, quiet.events, quiet.pipe, quiet.owing, quiet.reading]
      rw [unseen]
  | announce p paid =>
      have stepped : s.mailbox.Step _ := .announce p
      obtain ⟨events, unread⟩ := s.g.signal_unread
      simp only [Feed.mailbox, Function.comp_update, paid, events, unread] at stepped ⊢
      exact .single stepped
  | append p ev owes =>
      have stepped : s.mailbox.Step _ := .append p (s.g.append ev).events
      simp only [Feed.mailbox, Function.comp_update, owes] at stepped ⊢
      exact .single stepped
  | create created absent same =>
      subst created
      obtain ⟨rfl, attended⟩ := clean
      have unowed := owing_update same
      rcases openPipe_cases s.g with ⟨unread, opened, kept⟩ | ⟨pipe, opened, empty, _⟩
      · simp only [Feed.mailbox, kept, unowed, absent]
        exact .refl
      · have attended : s.mailbox.queue = [] ∨ s.mailbox.Attended :=
          attended.imp_right fun owes => .inl ⟨some owes.choose, owes.choose_spec⟩
        have stepped : s.mailbox.Step _ := .open attended
        simp only [Feed.mailbox, opened, empty, unowed, absent] at stepped ⊢
        exact .single stepped
  | dispatch waiting =>
      have stepped : s.mailbox.Step _ := .look
      exact .single stepped
  | @read unread pipe dispatching bytes left above =>
      have reading : s.mailbox.draining = true := by simp only [Feed.mailbox, dispatching, Client.isReading]
      have stepped : s.mailbox.Step _ := .take (unread + 1 - 64) bytes (by omega) reading
      simp only [Feed.mailbox, left] at stepped ⊢
      exact .single stepped
  | @remove ev rest draining content =>
      have reading : s.mailbox.draining = true := by simp only [Feed.mailbox, draining, Client.isReading]
      have stepped : s.mailbox.Step _ := .remove rest reading
      exact .single stepped
  | drained draining nothing =>
      have stepped : s.mailbox.Step _ := .finish nothing
      exact .single stepped
  | unref waiting =>
      have stepped : s.mailbox.Step _ := .close
      obtain ⟨events, shut⟩ := s.g.unref_spec
      simp only [Feed.mailbox, waiting, events, shut] at stepped ⊢
      exact .single stepped

/-- A context has a pipe, and no descriptor but those of pipes is touched. -/
structure Piped (s : Feed ι) : Prop where
  above : s.g.pipe.AboveZero
  piped : s.client ≠ .absent → s.g.pipe.unread.isSome

theorem piped_act {s after : Feed ι} {a : Act ι} {out : Option Event} (clean : OpensClean s a)
    (acted : act s a = .ok (after, out)) (piped : Piped s) : Piped after := by
  cases feedStep_act acted with
  | quiet quiet =>
      refine ⟨by rw [quiet.pipe]; exact piped.above, fun present => ?_⟩
      rw [quiet.pipe]
      exact piped.piped (fun absent => present (quiet.absent.mpr absent))
  | announce p paid =>
      exact ⟨s.g.aboveZero_signal piped.above, fun present => by simpa [s.g.signal_unread.2] using piped.piped present⟩
  | append p ev owes => exact ⟨piped.above, piped.piped⟩
  | create created absent same =>
      subst created
      obtain ⟨rfl, _⟩ := clean
      rcases openPipe_cases s.g with ⟨unread, opened, kept⟩ | ⟨pipe, opened, empty, above⟩
      · refine ⟨by rw [kept]; exact piped.above, fun _ => ?_⟩
        simp only [kept, opened, Pipe.unread, Option.isSome_some]
      · refine ⟨by rw [opened]; exact above piped.above, fun _ => ?_⟩
        simp only [opened, empty, Option.isSome_some]
  | dispatch waiting => exact ⟨piped.above, fun _ => piped.piped (by simp [waiting])⟩
  | read _ _ left above => exact ⟨above piped.above, fun _ => by simp [left]⟩
  | remove => exact ⟨piped.above, piped.piped⟩
  | drained draining => exact ⟨piped.above, fun _ => piped.piped (by simp [draining])⟩
  | unref waiting =>
      have present := piped.piped (by simp [waiting])
      exact ⟨s.g.aboveZero_unref piped.above present, fun present => absurd rfl present⟩

/-- The client takes the steps of an injection only while it creates a context. -/
def ClientIdle (s : Feed ι) : Prop := s.client ≠ .creating → s.threads none = .idle

theorem clientIdle_act {s after : Feed ι} {a : Act ι} {out : Option Event}
    (acted : act s a = .ok (after, out)) (idle : ClientIdle s) : ClientIdle after := by
  intro elsewhere
  cases a with
  | inject p injection =>
      simp only [act] at acted
      split at acted <;> cases acted
      simpa using idle elsewhere
  | advance p =>
      simp only [act] at acted
      split at acted <;> cases acted
      rename_i g thread advanced
      cases p with
      | none =>
          rw [idle elsewhere] at advanced
          contradiction
      | some p => simpa using idle elsewhere
  | create piped sdlInits =>
      simp only [act] at acted
      split at acted <;> cases acted
      contradiction
  | created =>
      simp only [act] at acted
      split at acted <;> cases acted
      assumption
  | _ =>
      simp only [act] at acted
      split at acted <;> cases acted <;> rename_i place <;> exact idle (by simp [*])

/-- If each context gets its pipe while no event is queued unannounced, then a
client that waits next to a queue has a byte to wake up to. -/
theorem no_lost_input {last : Feed ι} {actions : List (Act ι)} {outs : List (Option Event)}
    (along : Along act OpensClean .initial actions) (run : runActions act .initial actions = .ok (last, outs))
    (settled : ∀ p, (last.threads (some p)).owing = false) (waiting : last.client = .waiting)
    (busy : last.g.events ≠ []) : ∃ unread, last.g.pipe = .opened (unread + 1) := by
  have fresh : (Feed.initial : Feed ι).mailbox.Signalled := fun _ _ busy => absurd rfl busy
  have simulated : Relation.ReflTransGen Mailbox.Step (Feed.initial : Feed ι).mailbox last.mailbox :=
    along.simulation act_mailbox run
  have piped : Piped last :=
    along.invariant (fun _ _ _ _ clean piped acted => piped_act clean acted piped)
      ⟨trivial, fun present => absurd rfl present⟩ run
  have idle : ClientIdle last :=
    along.invariant (fun _ _ _ _ _ idle acted => clientIdle_act acted idle) (fun _ => rfl) run
  have unowed (p : Option ι) : last.mailbox.owing p = false := by
    cases p with
    | none => simp only [Feed.mailbox, Function.comp_apply, idle (by simp [waiting]), Thread.idle]
    | some p => exact settled p
  have present := piped.piped (by simp [waiting])
  have above := piped.above
  cases pipe : last.g.pipe with
  | opened unread =>
      have positive : 0 < unread := (fresh.run simulated).readable unowed
        (by simp only [Feed.mailbox, waiting, Client.isReading]) (by simp only [Feed.mailbox, pipe, Pipe.unread]) busy
      exact ⟨unread - 1, by rw [Nat.sub_add_cancel positive]⟩
  | closedWithZero | openedAtZero => simp [pipe, Pipe.AboveZero] at above
  | unset | closed => simp [pipe, Pipe.unread] at present

def firstContext : List (Act Unit) :=
  .create true false :: List.replicate 5 (.advance none) ++ [.created]

theorem no_lost_input_firstContext :
    ∃ last outs, runActions act .initial firstContext = .ok (last, outs) ∧
      ∃ unread, last.g.pipe = .opened (unread + 1) := by
  have run : ∃ last outs, runActions act .initial firstContext = .ok (last, outs) ∧
      (∀ p, (last.threads (some p)).owing = false) ∧ last.client = .waiting ∧ last.g.events ≠ [] :=
    ⟨_, _, rfl, fun _ => rfl, rfl, by decide⟩
  obtain ⟨last, outs, run, settled, waiting, busy⟩ := run
  have along : Along act OpensClean .initial firstContext := by
    simp [firstContext, Along, OpensClean, Feed.initial, Globals.initial]
  exact ⟨last, outs, run, no_lost_input along run settled waiting busy⟩

/-- The devices are announced before there is a context: nothing wakes the
client, which waits with two events in the queue. -/
theorem announced_too_early :
    ∃ (last : Feed Unit) (outs : List (Option Event)),
      runActions act .initial
        (.inject () .deviceAdded :: List.replicate 5 (.advance (some ())) ++
          [.create true false, .advance none, .created]) = .ok (last, outs) ∧
      last.client = .waiting ∧ (∀ p, (last.threads (some p)).owing = false) ∧
      last.g.events = [.deviceAdded (some 0), .deviceAdded (some 1)] ∧ last.g.pipe = .opened 0 :=
  ⟨_, _, rfl, rfl, fun _ => rfl, rfl, rfl⟩

/-! A thread that is left alone performs its injection as one call. -/

def Globals.perform (g : Globals) : Op → Globals
  | .ensureDevices => g.ensureDevices
  | .change injection =>
      match g.change injection with
      | (none, g) => g
      | (some ev, g) => g.queueEvent ev
  | .append ev => g.queueEvent ev

/-- One thread, by itself, gets from one state to the other. -/
def Alone (p : Option ι) (s after : Feed ι) : Prop :=
  ∃ n outs, runActions act s (List.replicate n (.advance p)) = .ok (after, outs)

theorem Alone.trans {p : Option ι} {s middle after : Feed ι} (first : Alone p s middle)
    (second : Alone p middle after) : Alone p s after := by
  obtain ⟨n, outs, run⟩ := first
  obtain ⟨m, more, run'⟩ := second
  exact ⟨n + m, outs ++ more, by rw [← List.replicate_append_replicate]; exact runActions_append_ok run run'⟩

def Feed.put (s : Feed ι) (p : Option ι) (g : Globals) (thread : Thread) : Feed ι :=
  { s with g := g, threads := Function.update s.threads p thread }

variable {s : Feed ι} {p : Option ι}

theorem alone_advance {g g' : Globals} {thread thread' : Thread} (advanced : thread.advance g = some (g', thread')) :
    Alone p (s.put p g thread) (s.put p g' thread') := by
  refine ⟨1, [none], ?_⟩
  simp [runActions, act, Feed.put, advanced]

theorem alone_appends (g : Globals) (evs : List Event) (left : List Op) :
    Alone p (s.put p g ⟨false, evs.map .append ++ left⟩) (s.put p (evs.foldl Globals.queueEvent g) ⟨false, left⟩) := by
  induction evs generalizing g with
  | nil => exact ⟨0, [], rfl⟩
  | cons ev rest ih =>
      have appends : Alone p (s.put p g ⟨false, (ev :: rest).map .append ++ left⟩)
          (s.put p (g.append ev) ⟨true, rest.map .append ++ left⟩) := alone_advance rfl
      have signals : Alone p (s.put p (g.append ev) ⟨true, rest.map .append ++ left⟩)
          (s.put p (g.queueEvent ev) ⟨false, rest.map .append ++ left⟩) := alone_advance rfl
      exact (appends.trans signals).trans (ih (g.queueEvent ev))

theorem alone_ops (g : Globals) (left : List Op) :
    Alone p (s.put p g ⟨false, left⟩) (s.put p (left.foldl Globals.perform g) .idle) := by
  induction left generalizing g with
  | nil => exact ⟨0, [], rfl⟩
  | cons op rest ih =>
      refine Alone.trans ?_ (ih (g.perform op))
      cases op with
      | ensureDevices => exact (alone_advance rfl).trans (alone_appends g.createDevices.2 g.createDevices.1 rest)
      | change injection =>
          refine (alone_advance rfl).trans ?_
          have appends := alone_appends (s := s) (p := p) (g.change injection).2 (g.change injection).1.toList rest
          simp only [Globals.perform]
          split
          · rename_i nothing
            simpa [nothing] using appends
          · rename_i reported
            simpa [reported] using appends
      | append ev => exact alone_appends g [ev] rest

theorem inject_alone (q : ι) (injection : Injection) :
    Alone (some q) (s.put (some q) s.g ⟨false, injection.ops⟩) (s.put (some q) (s.g.inject injection) .idle) := by
  have performed : injection.ops.foldl Globals.perform s.g = s.g.inject injection := by
    cases injection <;> rfl
  exact performed ▸ alone_ops s.g injection.ops

end Iland.Libinput

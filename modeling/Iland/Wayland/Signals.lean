import Iland.Data.Run

namespace Iland.Wayland

open Iland.Data

/-! Signal sources of the event loop.

All registrations share one kqueue, one source of the real library that watches
it, and one table of handlers.  The real library stops watching a source and
frees it when it is removed.
-/

def maxSignals : ℕ := 8

structure SignalHandler where
  sig : Int
  func : ℕ
  data : UInt64
deriving DecidableEq

/-- `struct wl_event_source` of the real library, by identity. -/
abbrev Source := ℕ

/-- The static state of `wayland-server.c`, and the sources of the real library
that watch the kqueue. -/
structure Server where
  signalFdSource : Option Source
  signalHandlers : List SignalHandler
  /-- The signals that the kqueue reports. -/
  watched : List Int
  nextSource : Source
  live : List Source
  /-- The arguments of the real `wl_event_source_remove` so far. -/
  removals : List Source

def Server.initial : Server := ⟨none, [], [], 0, [], []⟩

/-- How the system answers to `wl_event_loop_add_signal`: whether there is a
kqueue, and whether the real library and the kqueue do what they are asked. -/
structure Answers where
  kqueue : Bool
  addFd : Bool
  kevent : Bool

namespace Server

variable (server : Server)

def addFd : Source × Server :=
  (server.nextSource,
    { server with nextSource := server.nextSource + 1, live := server.live ++ [server.nextSource] })

def ensureSource (answers : Answers) : Option (Source × Server) :=
  match server.signalFdSource with
  | some source => some (source, server)
  | none =>
      if answers.addFd then
        let (source, server) := server.addFd
        some (source, { server with signalFdSource := some source })
      else none

def addSignal (answers : Answers) (handler : SignalHandler) : Option Source × Server :=
  if answers.kqueue = false then (none, server)
  else if server.signalHandlers.length ≥ maxSignals then (none, server)
  else
    match server.ensureSource answers with
    | none => (none, server)
    | some (source, server) =>
        if answers.kevent = false then (none, server)
        else (some source, { server with
          watched := handler.sig :: server.watched
          signalHandlers := server.signalHandlers ++ [handler] })

def realRemove (source : Source) : Server :=
  { server with live := server.live.filter (· != source), removals := server.removals ++ [source] }

/-- `wl_event_source_remove` for a source that is no timer. -/
def sourceRemove (source : Source) : Server :=
  (if server.signalFdSource = some source then { server with signalFdSource := none } else server).realRemove source

def signalDispatch (sig : Int) : List SignalHandler := server.signalHandlers.filter (·.sig == sig)

/-- The handlers called when a signal arrives: none unless the kqueue reports
the signal and a source watches the kqueue. -/
def deliver (sig : Int) : List SignalHandler :=
  if server.live ≠ [] ∧ sig ∈ server.watched then server.signalDispatch sig else []

end Server

/-! The client's side. -/

/-- A successful registration: the source it got, and whether it is removed. -/
structure Registration where
  handler : SignalHandler
  source : Source
  removed : Bool

structure State where
  server : Server
  registrations : List Registration

def State.initial : State := ⟨.initial, []⟩

inductive Action where
  | addSignal (answers : Answers) (handler : SignalHandler)
  /-- Remove the source of the `i`-th registration, once. -/
  | remove (i : ℕ)

def step (s : State) : Action → Except Unit (State × Unit)
  | .addSignal answers handler =>
      match s.server.addSignal answers handler with
      | (some source, server) => .ok (⟨server, s.registrations ++ [⟨handler, source, false⟩]⟩, ())
      | (none, server) => .ok (⟨server, s.registrations⟩, ())
  | .remove i =>
      match s.registrations[i]? with
      | some ⟨handler, source, false⟩ =>
          .ok (⟨s.server.sourceRemove source, s.registrations.set i ⟨handler, source, true⟩⟩, ())
      | _ => .error ()

def State.due (s : State) (sig : Int) : List SignalHandler :=
  (s.registrations.filter (fun r => !r.removed && r.handler.sig == sig)).map Registration.handler

/-- Each signal calls the handlers of its registrations, once each, and no
source has been handed to the real library for removal twice. -/
structure Independent (s : State) : Prop where
  delivers : ∀ sig, s.server.deliver sig = s.due sig
  removesOnce : s.server.removals.Nodup

/-- Nothing has been removed before, or no source can be made; and a
registration is removed only if it is the only one ever made. -/
def Solitary (s : State) : Action → Prop
  | .addSignal answers _ => s.server.removals = [] ∨ answers.kqueue = false ∨ answers.addFd = false
  | .remove _ => s.registrations.length = 1

/-- Nothing has been removed: the table lists the registrations, and they share
the source. -/
structure Fresh (s : State) : Prop where
  removals : s.server.removals = []
  kept : ∀ r ∈ s.registrations, r.removed = false
  handlers : s.server.signalHandlers = s.registrations.map Registration.handler
  watched : ∀ h ∈ s.server.signalHandlers, h.sig ∈ s.server.watched
  source : s.server.signalFdSource = none ∧ s.server.live = [] ∧ s.registrations = [] ∨
    ∃ source, s.server.signalFdSource = some source ∧ s.server.live = [source] ∧
      ∀ r ∈ s.registrations, r.source = source

/-- The only registration has been removed: its handler is still in the table. -/
structure Spent (s : State) : Prop where
  source : s.server.signalFdSource = none
  live : s.server.live = []
  only : ∃ handler source, s.registrations = [⟨handler, source, true⟩] ∧ s.server.signalHandlers = [handler] ∧
    handler.sig ∈ s.server.watched ∧ s.server.removals = [source]

variable {s after : State}

theorem due_of_kept (kept : ∀ r ∈ s.registrations, r.removed = false) (sig : Int) :
    s.due sig = (s.registrations.map Registration.handler).filter (·.sig == sig) := by
  rw [State.due, List.filter_map]
  congr 1
  apply List.filter_congr
  intro r member
  simp [kept r member]

theorem deliver_of_live {source : Source} (live : s.server.live = [source])
    (watched : ∀ h ∈ s.server.signalHandlers, h.sig ∈ s.server.watched) (sig : Int) :
    s.server.deliver sig = s.server.signalDispatch sig := by
  simp only [Server.deliver, live, ne_eq, reduceCtorEq, not_false_eq_true, true_and]
  split
  · rfl
  · rename_i unwatched
    symm
    rw [Server.signalDispatch, List.filter_eq_nil_iff]
    intro h member same
    exact unwatched (beq_iff_eq.mp same ▸ watched h member)

theorem deliver_of_dead (dead : s.server.live = []) (sig : Int) : s.server.deliver sig = [] := by
  simp [Server.deliver, dead]

theorem Fresh.independent (fresh : Fresh s) : Independent s where
  delivers := by
    intro sig
    rw [due_of_kept fresh.kept, ← fresh.handlers]
    rcases fresh.source with ⟨_, dead, nobody⟩ | ⟨source, _, live, _⟩
    · rw [deliver_of_dead dead, fresh.handlers, nobody]
      rfl
    · exact deliver_of_live live fresh.watched sig
  removesOnce := by
    rw [fresh.removals]
    exact List.nodup_nil

theorem Spent.independent (spent : Spent s) : Independent s := by
  obtain ⟨handler, source, only, _, _, removals⟩ := spent.only
  refine ⟨?_, ?_⟩
  · intro sig
    rw [deliver_of_dead spent.live, State.due, only]
    rfl
  · rw [removals]
    exact List.nodup_singleton source

theorem addSignal_cases (server : Server) (answers : Answers) (handler : SignalHandler) :
    (server.addSignal answers handler = (none, server)) ∨
    ∃ source made, server.ensureSource answers = some (source, made) ∧ answers.kqueue = true ∧
      (server.addSignal answers handler = (none, made) ∨
        server.addSignal answers handler = (some source, { made with
          watched := handler.sig :: made.watched
          signalHandlers := made.signalHandlers ++ [handler] })) := by
  simp only [Server.addSignal]
  split
  · exact .inl rfl
  · rename_i queue
    split
    · exact .inl rfl
    · split
      · exact .inl rfl
      · rename_i source made ensured
        refine .inr ⟨source, made, ensured, by simpa using queue, ?_⟩
        split
        · exact .inl rfl
        · exact .inr rfl

theorem Fresh.ensureSource (fresh : Fresh s) {answers : Answers} {source : Source} {made : Server}
    (ensured : s.server.ensureSource answers = some (source, made)) :
    Fresh ⟨made, s.registrations⟩ ∧ made.signalFdSource = some source ∧ made.live = [source] ∧
      ∀ r ∈ s.registrations, r.source = source := by
  rcases fresh.source with ⟨absent, dead, nobody⟩ | ⟨shared, present, live, all⟩
  · simp only [Server.ensureSource, absent] at ensured
    split at ensured
    · simp only [Server.addFd, dead, List.nil_append, Option.some.injEq, Prod.mk.injEq] at ensured
      obtain ⟨rfl, rfl⟩ := ensured
      have shared : ∀ r ∈ s.registrations, r.source = s.server.nextSource := by simp [nobody]
      exact ⟨⟨fresh.removals, fresh.kept, fresh.handlers, fresh.watched, .inr ⟨_, rfl, rfl, shared⟩⟩, rfl, rfl, shared⟩
    · contradiction
  · simp only [Server.ensureSource, present, Option.some.injEq, Prod.mk.injEq] at ensured
    obtain ⟨rfl, rfl⟩ := ensured
    exact ⟨fresh, present, live, all⟩

theorem Fresh.addSignal (fresh : Fresh s) {answers : Answers} {handler : SignalHandler}
    (stepped : step s (.addSignal answers handler) = .ok (after, ())) : Fresh after := by
  simp only [step] at stepped
  rcases addSignal_cases s.server answers handler with nothing | ⟨source, made, ensured, _, failed | added⟩
  · rw [nothing] at stepped
    cases stepped
    exact fresh
  · rw [failed] at stepped
    cases stepped
    exact (fresh.ensureSource ensured).1
  · rw [added] at stepped
    cases stepped
    obtain ⟨still, present, live, all⟩ := fresh.ensureSource ensured
    refine ⟨still.removals, ?_, ?_, ?_, .inr ⟨source, present, live, ?_⟩⟩
    · intro r member
      rcases List.mem_append.mp member with old | new
      · exact fresh.kept r old
      · rw [List.mem_singleton.mp new]
    · simpa using still.handlers
    · intro h member
      rcases List.mem_append.mp member with old | new
      · exact List.mem_cons_of_mem _ (still.watched h old)
      · rw [List.mem_singleton.mp new]
        exact List.mem_cons_self
    · intro r member
      rcases List.mem_append.mp member with old | new
      · exact all r old
      · rw [List.mem_singleton.mp new]

/-- A removal while nothing has been removed: no signal is delivered any more,
and that is right only if no other registration is left. -/
theorem Fresh.remove (fresh : Fresh s) {i : ℕ} (stepped : step s (.remove i) = .ok (after, ())) :
    (Independent after ↔ s.registrations.length = 1) ∧ (s.registrations.length = 1 → Spent after) := by
  simp only [step] at stepped
  split at stepped
  · rename_i handler source found
    cases stepped
    obtain ⟨inside, here⟩ := List.getElem?_eq_some_iff.mp found
    have member : (⟨handler, source, false⟩ : Registration) ∈ s.registrations := here ▸ List.getElem_mem inside
    rcases fresh.source with ⟨_, _, nobody⟩ | ⟨shared, present, live, all⟩
    · simp [nobody] at member
    · have same : source = shared := all _ member
      subst same
      have dead : (s.server.sourceRemove source).live = [] := by
        simp [Server.sourceRemove, Server.realRemove, present, live]
      have spent (one : s.registrations.length = 1) :
          Spent ⟨s.server.sourceRemove source, s.registrations.set i ⟨handler, source, true⟩⟩ := by
        obtain ⟨only, single⟩ := List.length_eq_one_iff.mp one
        have first : i = 0 := by omega
        subst first
        rw [single, List.mem_singleton] at member
        subst member
        refine ⟨?_, dead, handler, source, by simp [single], ?_, ?_, ?_⟩
        · simp [Server.sourceRemove, Server.realRemove, present]
        · simp [Server.sourceRemove, Server.realRemove, present, fresh.handlers, single]
        · have watched := fresh.watched handler (by simp [fresh.handlers, single])
          simpa [Server.sourceRemove, Server.realRemove, present] using watched
        · simp [Server.sourceRemove, Server.realRemove, present, fresh.removals]
      refine ⟨⟨?_, fun one => (spent one).independent⟩, spent⟩
      intro independent
      by_contra several
      obtain ⟨j, other, inside'⟩ : ∃ j, i ≠ j ∧ j < s.registrations.length := by
        cases i with
        | zero => exact ⟨1, by omega, by omega⟩
        | succ i => exact ⟨0, by omega, by omega⟩
      have stays : s.registrations[j] ∈ s.registrations.set i ⟨handler, source, true⟩ := by
        apply List.mem_of_getElem?
        rw [List.getElem?_set_ne other, List.getElem?_eq_getElem inside']
      have unheard := independent.delivers s.registrations[j].handler.sig
      rw [deliver_of_dead dead] at unheard
      have heard : s.registrations[j].handler ∈
          State.due ⟨s.server.sourceRemove source, s.registrations.set i ⟨handler, source, true⟩⟩
            s.registrations[j].handler.sig := by
        refine List.mem_map_of_mem (List.mem_filter.mpr ⟨stays, ?_⟩)
        simp [fresh.kept _ (List.getElem_mem inside')]
      rw [← unheard] at heard
      contradiction
  · contradiction

/-- After the only registration is removed, any source that is made delivers
to the handler that is still in the table. -/
theorem Spent.addSignal (spent : Spent s) {answers : Answers} {handler : SignalHandler}
    (stepped : step s (.addSignal answers handler) = .ok (after, ())) :
    (Independent after ↔ answers.kqueue = false ∨ answers.addFd = false) ∧
      (answers.kqueue = false ∨ answers.addFd = false → Spent after) := by
  obtain ⟨stale, source, only, table, watched, removals⟩ := spent.only
  by_cases fails : answers.kqueue = false ∨ answers.addFd = false
  · have nothing : s.server.addSignal answers handler = (none, s.server) := by
      rcases fails with noQueue | noSource
      · simp [Server.addSignal, noQueue]
      · simp [Server.addSignal, Server.ensureSource, spent.source, noSource]
    simp only [step, nothing] at stepped
    cases stepped
    exact ⟨by simp [fails, spent.independent], fun _ => spent⟩
  · refine ⟨⟨?_, fun fails' => absurd fails' fails⟩, fun fails' => absurd fails' fails⟩
    intro independent
    have queue : answers.kqueue = true := by simp_all
    have makes : answers.addFd = true := by simp_all
    have unheard := congrArg List.length (independent.delivers stale.sig)
    cases kevent : answers.kevent with
    | false =>
        simp [step, Server.addSignal, queue, table, maxSignals, Server.ensureSource, spent.source, makes,
          Server.addFd, kevent] at stepped
        subst stepped
        simp [Server.deliver, Server.signalDispatch, State.due, only, watched] at unheard
    | true =>
        simp [step, Server.addSignal, queue, table, maxSignals, Server.ensureSource, spent.source, makes,
          Server.addFd, kevent] at stepped
        subst stepped
        simp [Server.deliver, Server.signalDispatch, State.due, only, watched, List.filter_cons] at unheard
        split at unheard <;> simp at unheard

theorem step_exact (s : State) (action : Action) (after : State) (out : Unit) (inv : Fresh s ∨ Spent s)
    (stepped : step s action = .ok (after, out)) :
    (Independent after ↔ Solitary s action) ∧ (Solitary s action → Fresh after ∨ Spent after) := by
  cases action with
  | addSignal answers handler =>
      rcases inv with fresh | spent
      · have still := fresh.addSignal stepped
        exact ⟨by simp [Solitary, still.independent, fresh.removals], fun _ => .inl still⟩
      · obtain ⟨exactly, kept⟩ := spent.addSignal stepped
        obtain ⟨_, source, _, _, _, removals⟩ := spent.only
        simp only [Solitary, removals, List.cons_ne_nil, false_or]
        exact ⟨exactly, fun fails => .inr (kept fails)⟩
  | remove i =>
      rcases inv with fresh | spent
      · obtain ⟨exactly, kept⟩ := fresh.remove stepped
        exact ⟨exactly, fun one => .inr (kept one)⟩
      · obtain ⟨handler, source, only, _⟩ := spent.only
        simp only [step, only] at stepped
        cases i <;> simp at stepped

theorem fresh_initial : Fresh .initial where
  removals := rfl
  kept := by simp [State.initial]
  handlers := rfl
  watched := by simp [State.initial, Server.initial]
  source := .inl ⟨rfl, rfl, rfl⟩

/-- Signals stay independent throughout a run exactly when no registration but
the only one is ever removed, and no source is made after that. -/
theorem signals_independent_iff {actions : List Action} {last : State} {outs : List Unit}
    (run : runActions step .initial actions = .ok (last, outs)) :
    Throughout step Independent .initial actions ↔ Along step Solitary .initial actions := by
  have good (s : State) (inv : Fresh s ∨ Spent s) : Independent s :=
    inv.elim Fresh.independent Spent.independent
  exact throughout_iff_along good step_exact (.inl fresh_initial) run

def answersWell : Answers := ⟨true, true, true⟩

/-- Two registrations, of which the first is removed. -/
def twoThenRemoved : List Action := [.addSignal answersWell ⟨2, 0, 0⟩, .addSignal answersWell ⟨15, 1, 0⟩, .remove 0]

theorem signals_independent_iff_two :
    Throughout step Independent .initial twoThenRemoved ↔ Along step Solitary .initial twoThenRemoved :=
  signals_independent_iff (by rfl)

/-- Two registrations: when one is removed, the signal of the other calls
nobody, and when that one is removed, the source is removed a second time. -/
theorem removal_reaches_others :
    ∃ (one both : State) (outs more : List Unit),
      runActions step .initial twoThenRemoved = .ok (one, outs) ∧
      one.server.deliver 15 = [] ∧ one.due 15 = [⟨15, 1, 0⟩] ∧ ¬ Independent one ∧
      runActions step one [.remove 1] = .ok (both, more) ∧ both.server.removals = [0, 0] ∧ ¬ Independent both := by
  refine ⟨_, _, _, _, rfl, rfl, rfl, ?_, rfl, rfl, ?_⟩
  · intro independent
    exact absurd (independent.delivers 15) (by decide)
  · intro independent
    exact absurd independent.removesOnce (by decide)

end Iland.Wayland

import Iland.Data.Run
import Iland.Libinput.Injection

namespace Iland.Libinput

open Iland.Data

/-! What a context hears of its devices.

The devices are created once, and then announced on the one queue that all
contexts read.
-/

def Event.device : Event → Option Int
  | .deviceAdded device | .keyboardKey device .. | .pointerMotion device .. | .pointerButton device ..
  | .pointerAxis device .. => device

/-! Logs of events. -/

/-- The first event of each device is its announcement, and it is announced
once. -/
structure Announced (log : List Event) : Prop where
  first : ∀ device ev, log.find? (fun ev => decide (ev.device = device)) = some ev → ev = .deviceAdded device
  once : ∀ ev ∈ log, log.count (.deviceAdded ev.device) = 1

theorem announced_nil : Announced [] where
  first _ _ found := by cases found
  once _ member := by cases member

variable {log : List Event} {ev : Event}

theorem Announced.first_snoc (announced : Announced log)
    (heads : ev = .deviceAdded ev.device ∨ ∃ other ∈ log, other.device = ev.device) (device : Option Int)
    (found : Event) (search : (log ++ [ev]).find? (fun ev => decide (ev.device = device)) = some found) :
    found = .deviceAdded device := by
  rw [List.find?_append] at search
  cases earlier : log.find? (fun ev => decide (ev.device = device)) with
  | some old =>
      rw [earlier, Option.some_or, Option.some.injEq] at search
      exact search ▸ announced.first device old earlier
  | none =>
      by_cases own : ev.device = device
      · simp only [earlier, own, List.find?_cons, decide_true, Option.none_or, Option.some.injEq] at search
        rcases heads with announces | ⟨other, member, same⟩
        · rw [← search, ← own]
          exact announces
        · simpa [same, own] using List.find?_eq_none.mp earlier other member
      · simp [earlier, own] at search

theorem count_snoc_of_ne (apart : ev ≠ .deviceAdded device) :
    (log ++ [ev]).count (.deviceAdded device) = log.count (.deviceAdded device) := by
  rw [List.count_append, List.count_singleton, if_neg (by simpa using apart), add_zero]

/-- An announcement has to be its device's first event, and any other event
comes after its device's announcement. -/
theorem Announced.snoc_iff (announced : Announced log) :
    Announced (log ++ [ev]) ↔
      if ev = .deviceAdded ev.device then ∀ other ∈ log, other.device ≠ ev.device
      else .deviceAdded ev.device ∈ log := by
  split
  · rename_i announces
    constructor
    · intro longer other member same
      have twice := longer.once other (List.mem_append_left _ member)
      rw [List.count_append, announced.once other member, same, ← announces, List.count_singleton_self] at twice
      omega
    · intro new
      refine ⟨announced.first_snoc (.inl announces), fun other member => ?_⟩
      rcases List.mem_append.mp member with old | last
      · rw [count_snoc_of_ne, announced.once other old]
        rw [announces]
        exact fun same => new other old (Event.deviceAdded.inj same).symm
      · have unseen : log.count (.deviceAdded ev.device) = 0 :=
          List.count_eq_zero.mpr fun member => new _ member rfl
        rw [List.mem_singleton.mp last, List.count_append, unseen, ← announces, List.count_singleton_self]
  · rename_i reports
    constructor
    · intro longer
      have one := longer.once ev (by simp)
      rw [count_snoc_of_ne reports] at one
      exact List.count_pos_iff.mp (by omega)
    · intro seen
      refine ⟨announced.first_snoc (.inr ⟨_, seen, rfl⟩), fun other member => ?_⟩
      have apart : ev ≠ .deviceAdded other.device := by
        rintro rfl
        exact reports rfl
      rw [count_snoc_of_ne apart]
      rcases List.mem_append.mp member with old | last
      · exact announced.once other old
      · have one := announced.once _ seen
        rwa [List.mem_singleton.mp last]

/-! Runs of calls. -/

namespace Globals

/-- `libinput_udev_create_context`.  `piped` says whether `pipe` succeeds, and
`sdlInits` whether `sdl_backend_init` gets to announce the devices. -/
def udevCreateContext (g : Globals) (piped sdlInits : Bool) : Globals :=
  let g := g.openPipe piped
  if g.connected then g
  else
    let g := ({ g with connected := true } : Globals).ensureDevices
    if sdlInits then g.sdlInjectDeviceAdded else g

end Globals

/-- The input module, with what has been obtained from it; the code keeps no
such log. -/
structure Contexts where
  g : Globals
  obtained : List Event
  /-- How many events had been obtained when the context was created, if there
  is one. -/
  since : Option ℕ

def Contexts.initial : Contexts := ⟨.initial, [], none⟩

inductive ContextOp where
  | create (piped sdlInits : Bool)
  | unref
  | inject (injection : Injection)
  | getEvent

def contextStep (s : Contexts) : ContextOp → Except Empty (Contexts × Option Event)
  | .create piped sdlInits =>
      .ok ({ s with g := s.g.udevCreateContext piped sdlInits, since := some s.obtained.length }, none)
  | .unref => .ok ({ s with g := s.g.unref, since := none }, none)
  | .inject injection => .ok ({ s with g := s.g.inject injection }, none)
  | .getEvent =>
      match s.g.getEvent with
      | none => .ok (s, none)
      | some (ev, g) => .ok ({ s with g, obtained := s.obtained ++ [ev] }, some ev)

/-- What the context has obtained. -/
def Contexts.heard (s : Contexts) : Option (List Event) := s.since.map s.obtained.drop

def AnnouncesDevices (s : Contexts) : Prop := ∀ log, s.heard = some log → Announced log

/-- A context obtains events only if none were obtained before it was created,
or one was and these are not the keyboard's. -/
def AnnouncementsLeft (s : Contexts) : ContextOp → Prop
  | .getEvent => ∀ before ev rest, s.since = some before → s.g.events = ev :: rest →
      before = 0 ∨ before = 1 ∧ ev.device ≠ some 0
  | _ => True

/-! The queue over all contexts. -/

/-- An event of the keyboard or the pointer, other than its announcement. -/
def Reports (ev : Event) : Prop := ev ≠ .deviceAdded ev.device ∧ (ev.device = some 0 ∨ ev.device = some 1)

/-- The events of a run: nothing before the devices exist, and from then on
their announcements and what they report. -/
inductive Announces : List LibinputDevice → List Event → Prop
  | absent : Announces [] []
  | present {devices rest} : devices.map LibinputDevice.id = [0, 1] → (∀ ev ∈ rest, Reports ev) →
      Announces devices (.deviceAdded (some 0) :: .deviceAdded (some 1) :: rest)

theorem Announces.snoc {devices : List LibinputDevice} {events : List Event} {ev : Event}
    (announces : Announces devices events) (ids : devices.map LibinputDevice.id = [0, 1]) (reports : Reports ev) :
    Announces devices (events ++ [ev]) := by
  cases announces with
  | absent => cases ids
  | present _ all =>
      refine .present ids fun other member => ?_
      rcases List.mem_append.mp member with old | last
      · exact all other old
      · rwa [List.mem_singleton.mp last]

namespace Globals

variable {g : Globals} {prior : List Event}

theorem findOrCreateDevice_of_mem {id : Int} (known : id ∈ g.devices.map LibinputDevice.id) (caps : Int)
    (name : String) : g.findOrCreateDevice id caps name = (some id, g) := by
  simp only [findOrCreateDevice]
  cases found : g.devices.find? (fun dev => dev.id == id) with
  | none =>
      obtain ⟨dev, member, same⟩ := List.mem_map.mp known
      simpa [same] using List.find?_eq_none.mp found dev member
  | some dev =>
      have same : dev.id = id := by simpa using List.find?_some found
      simp only [same]

theorem devices_foldl_queueEvent (added : List Event) : (added.foldl queueEvent g).devices = g.devices := by
  induction added generalizing g with
  | nil => rfl
  | cons ev rest ih =>
      rw [List.foldl_cons, ih]
      simp only [queueEvent, append, signal]
      split <;> rfl

theorem ensureDevices_of_none (none : g.devices = []) :
    g.ensureDevices.devices.map LibinputDevice.id = [0, 1] ∧
      g.ensureDevices.events = g.events ++ [.deviceAdded (some 0), .deviceAdded (some 1)] := by
  have made : g.createDevices = ([.deviceAdded (some 0), .deviceAdded (some 1)], { g with
      devices := [⟨0, inputIpcCapKeyboard, "SDL Keyboard"⟩, ⟨1, inputIpcCapPointer, "SDL Pointer"⟩] }) := by
    simp [createDevices, findOrCreateDevice, none, maxDevices]
  rw [ensureDevices, made]
  refine ⟨?_, (foldl_queueEvent _ _).1⟩
  rw [devices_foldl_queueEvent]
  rfl

theorem ensureDevices_of_some (some : g.devices.map LibinputDevice.id = [0, 1]) : g.ensureDevices = g := by
  have nonempty : g.devices.length ≠ 0 := by
    rw [← List.length_map (f := LibinputDevice.id), some]
    decide
  rw [ensureDevices, createDevices, if_neg nonempty]
  rfl

theorem announces_ensureDevices (announces : Announces g.devices (prior ++ g.events)) :
    g.ensureDevices.devices.map LibinputDevice.id = [0, 1] ∧
      Announces g.ensureDevices.devices (prior ++ g.ensureDevices.events) := by
  generalize devices : g.devices = known at announces
  generalize events : prior ++ g.events = all at announces
  cases announces with
  | absent =>
      obtain ⟨ids, added⟩ := ensureDevices_of_none devices
      refine ⟨ids, ?_⟩
      rw [added, ← List.append_assoc, events]
      exact .present ids fun ev member => by cases member
  | present ids reports =>
      rw [← devices] at ids
      rw [ensureDevices_of_some ids, devices, events]
      rw [devices] at ids
      exact ⟨ids, .present ids reports⟩

theorem change_spec (ids : g.devices.map LibinputDevice.id = [0, 1]) (injection : Injection) :
    (g.change injection).2.devices = g.devices ∧ ∀ ev ∈ (g.change injection).1, Reports ev := by
  have keyboard (keys) (caps : Int) (name : String) :
      ({ g with keys } : Globals).findOrCreateDevice 0 caps name = (some 0, { g with keys }) :=
    findOrCreateDevice_of_mem (by simp [ids]) caps name
  have pointer (buttons) (caps : Int) (name : String) :
      ({ g with buttons } : Globals).findOrCreateDevice 1 caps name = (some 1, { g with buttons }) :=
    findOrCreateDevice_of_mem (by simp [ids]) caps name
  cases injection with
  | deviceAdded => exact ⟨rfl, fun ev member => by cases member⟩
  | key scancode pressed timeUsec =>
      simp only [change]
      split
      · exact ⟨rfl, fun ev member => by cases member⟩
      · rw [keyboard]
        exact ⟨rfl, by simp [Reports, Event.device]⟩
  | motion dx dy timeUsec =>
      simp only [change]
      rw [pointer]
      exact ⟨rfl, by simp [Reports, Event.device]⟩
  | button button pressed timeUsec =>
      simp only [change]
      split
      · exact ⟨rfl, fun ev member => by cases member⟩
      · rw [pointer]
        exact ⟨rfl, by simp [Reports, Event.device]⟩
  | axis axis value timeUsec =>
      simp only [change]
      rw [pointer]
      exact ⟨rfl, by simp [Reports, Event.device]⟩

theorem announces_inject (announces : Announces g.devices (prior ++ g.events)) (injection : Injection) :
    Announces (g.inject injection).devices (prior ++ (g.inject injection).events) := by
  obtain ⟨ids, ensured⟩ := announces_ensureDevices announces
  obtain ⟨sameDevices, reports⟩ := change_spec ids injection
  have sameEvents := g.ensureDevices.events_change injection
  rw [← sameDevices, ← sameEvents] at ensured
  simp only [inject]
  split
  · rename_i after nothing
    rwa [nothing] at ensured
  · rename_i ev after reported
    rw [reported] at ensured sameDevices reports
    have queued : (after.queueEvent ev).devices = after.devices := devices_foldl_queueEvent [ev]
    rw [queued, events_queueEvent, ← List.append_assoc]
    exact ensured.snoc (by rw [sameDevices, ids]) (reports ev rfl)

theorem announces_openPipe (announces : Announces g.devices (prior ++ g.events)) (piped : Bool) :
    Announces (g.openPipe piped).devices (prior ++ (g.openPipe piped).events) := by
  obtain ⟨pipe, same⟩ := g.openPipe_frame piped
  rwa [same]

theorem announces_udevCreateContext (announces : Announces g.devices (prior ++ g.events)) (piped sdlInits : Bool) :
    Announces (g.udevCreateContext piped sdlInits).devices (prior ++ (g.udevCreateContext piped sdlInits).events) := by
  have opened := announces_openPipe announces piped
  simp only [udevCreateContext]
  split
  · exact opened
  · have ensured := announces_ensureDevices (g := { g.openPipe piped with connected := true }) opened
    split
    · exact announces_inject ensured.2 .deviceAdded
    · exact ensured.2

end Globals

variable {s after : Contexts} {op : ContextOp} {out : Option Event}

/-- What holds in every run. -/
structure Contexts.Sound (s : Contexts) : Prop where
  announces : Announces s.g.devices (s.obtained ++ s.g.events)
  since : ∀ before, s.since = some before → before ≤ s.obtained.length

theorem getEvent_cases (stepped : contextStep s .getEvent = .ok (after, out)) :
    (s.g.events = [] ∧ after = s) ∨
      ∃ ev rest, s.g.events = ev :: rest ∧
        after = { s with g := { s.g with events := rest }, obtained := s.obtained ++ [ev] } := by
  simp only [contextStep, Globals.getEvent] at stepped
  cases queued : s.g.events with
  | nil =>
      simp only [queued] at stepped
      cases stepped
      exact .inl ⟨rfl, rfl⟩
  | cons ev rest =>
      simp only [queued] at stepped
      cases stepped
      exact .inr ⟨ev, rest, rfl, rfl⟩

theorem Contexts.Sound.step (sound : s.Sound) (stepped : contextStep s op = .ok (after, out)) : after.Sound := by
  obtain ⟨announces, since⟩ := sound
  cases op with
  | create piped sdlInits =>
      cases stepped
      refine ⟨Globals.announces_udevCreateContext announces piped sdlInits, fun before found => ?_⟩
      cases found
      exact le_rfl
  | unref =>
      cases stepped
      obtain ⟨pipe, same⟩ := s.g.unref_frame
      exact ⟨by rw [same]; exact announces, fun before found => by cases found⟩
  | inject injection =>
      cases stepped
      exact ⟨Globals.announces_inject announces injection, since⟩
  | getEvent =>
      rcases getEvent_cases stepped with ⟨-, rfl⟩ | ⟨ev, rest, queued, rfl⟩
      · exact ⟨announces, since⟩
      · refine ⟨?_, fun before found => (since before found).trans (by simp)⟩
        rw [queued] at announces
        simpa using announces

theorem Announces.eq_of_ne_nil {devices : List LibinputDevice} {events : List Event}
    (announces : Announces devices events) (nonempty : events ≠ []) :
    ∃ rest, events = .deviceAdded (some 0) :: .deviceAdded (some 1) :: rest ∧ ∀ ev ∈ rest, Reports ev := by
  cases announces with
  | absent => exact absurd rfl nonempty
  | present _ reports => exact ⟨_, rfl, reports⟩

/-- A context's next event keeps it in order exactly when the announcements, or
all but the keyboard's, were left for it. -/
theorem Announces.obtained_iff {devices : List LibinputDevice} {obtained rest : List Event} {ev : Event} {before : ℕ}
    (announces : Announces devices (obtained ++ ev :: rest)) (early : before ≤ obtained.length)
    (announced : Announced (obtained.drop before)) :
    Announced (obtained.drop before ++ [ev]) ↔ before = 0 ∨ before = 1 ∧ ev.device ≠ some 0 := by
  rw [announced.snoc_iff]
  obtain ⟨more, all, reports⟩ := announces.eq_of_ne_nil (by simp)
  match obtained with
  | [] =>
      obtain rfl : before = 0 := by simpa using early
      obtain ⟨rfl, -⟩ := List.cons.inj all
      simp [Event.device]
  | [first] =>
      simp only [List.singleton_append, List.cons.injEq] at all
      obtain ⟨rfl, rfl, -⟩ := all
      have either : before = 0 ∨ before = 1 := by
        simp only [List.length_singleton] at early
        omega
      rcases either with rfl | rfl <;> simp [Event.device]
  | first :: second :: tail =>
      simp only [List.cons_append, List.cons.injEq] at all
      obtain ⟨rfl, rfl, rfl⟩ := all
      obtain ⟨reports_ev, device⟩ := reports ev (by simp)
      have absent : .deviceAdded ev.device ∉ tail := fun member => (reports _ (List.mem_append_left _ member)).1 rfl
      rw [if_neg reports_ev]
      match before with
      | 0 => rcases device with device | device <;> simp [device]
      | 1 => rcases device with device | device <;> rw [device] at absent <;> simp [device, absent]
      | n + 2 =>
          have gone : .deviceAdded ev.device ∉ tail.drop n := fun member => absent (List.mem_of_mem_drop member)
          simpa using gone

theorem announcesDevices_step_iff (sound : s.Sound) (good : AnnouncesDevices s)
    (stepped : contextStep s op = .ok (after, out)) : AnnouncesDevices after ↔ AnnouncementsLeft s op := by
  cases op with
  | create piped sdlInits =>
      cases stepped
      simp only [AnnouncementsLeft, iff_true]
      intro log heard
      cases heard
      simpa using announced_nil
  | unref =>
      cases stepped
      simp only [AnnouncementsLeft, iff_true]
      intro log heard
      cases heard
  | inject injection =>
      cases stepped
      exact iff_of_true good trivial
  | getEvent =>
      rcases getEvent_cases stepped with ⟨empty, rfl⟩ | ⟨ev, rest, queued, rfl⟩
      · refine iff_of_true good fun before ev rest _ some => ?_
        rw [empty] at some
        cases some
      · cases since : s.since with
        | none => simp [AnnouncesDevices, AnnouncementsLeft, Contexts.heard, since]
        | some before =>
            have early := sound.since before since
            have announced : Announced (s.obtained.drop before) := good _ (by rw [Contexts.heard, since]; rfl)
            have announces := sound.announces
            rw [queued] at announces
            have longer := announces.obtained_iff early announced
            rw [← List.drop_append_of_le_length early] at longer
            simpa [AnnouncesDevices, AnnouncementsLeft, Contexts.heard, since, queued] using longer

theorem exists_step (s : Contexts) (op : ContextOp) : ∃ after out, contextStep s op = .ok (after, out) := by
  cases op with
  | getEvent =>
      simp only [contextStep]
      split <;> exact ⟨_, _, rfl⟩
  | _ => exact ⟨_, _, rfl⟩

theorem sound_initial : Contexts.initial.Sound := ⟨.absent, fun _ found => by cases found⟩

/-- In every run, each context hears of its devices first and once exactly when
it obtains events only while the announcements are left for it. -/
theorem contexts_announce_devices_iff (ops : List ContextOp) :
    Throughout contextStep AnnouncesDevices .initial ops ↔ Along contextStep AnnouncementsLeft .initial ops := by
  obtain ⟨last, outs, run⟩ := runActions_total exists_step .initial ops
  refine throughout_iff_along (fun s (inv : s.Sound ∧ AnnouncesDevices s) => inv.2) ?_ ⟨sound_initial, ?_⟩ run
  · rintro s op after out ⟨sound, good⟩ stepped
    have exact := announcesDevices_step_iff sound good stepped
    exact ⟨exact, fun left => ⟨sound.step stepped, exact.mpr left⟩⟩
  · intro log heard
    cases heard

def recreated : List ContextOp :=
  [.create true true, .getEvent, .getEvent, .unref, .create true true, .inject (.key 30 true 0), .getEvent]

/-- The second context gets a key of a keyboard that it has not heard of. -/
theorem second_context_not_announced : ¬ Throughout contextStep AnnouncesDevices .initial recreated := by
  intro all
  have run : runActions contextStep .initial recreated = .ok (_, _) := rfl
  have announced := all.last run _ rfl
  have once := announced.once _ List.mem_cons_self
  exact absurd once (by decide)

end Iland.Libinput

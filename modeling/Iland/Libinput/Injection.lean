import Iland.Libinput.Context

namespace Iland.Libinput

open Iland.Data

/-! What an injection adds to the event queue.

First come the announcements of devices that do not exist yet, then at most one
event: a key or a button that does not change is not reported.
-/

namespace Globals

variable (g : Globals)

@[simp] theorem events_queueEvent (ev : Event) : (g.queueEvent ev).events = g.events ++ [ev] := by
  simp only [queueEvent, append, signal]
  split <;> rfl

@[simp] theorem keys_queueEvent (ev : Event) : (g.queueEvent ev).keys = g.keys := by
  simp only [queueEvent, append, signal]
  split <;> rfl

@[simp] theorem buttons_queueEvent (ev : Event) : (g.queueEvent ev).buttons = g.buttons := by
  simp only [queueEvent, append, signal]
  split <;> rfl

theorem findOrCreateDevice_frame (id caps : Int) (name : String) :
    ∃ devices, (g.findOrCreateDevice id caps name).2 = { g with devices } := by
  simp only [findOrCreateDevice]
  split
  · exact ⟨_, rfl⟩
  · split <;> exact ⟨_, rfl⟩

theorem createDevices_frame : ∃ devices, g.createDevices.2 = { g with devices } := by
  simp only [createDevices]
  split
  · obtain ⟨kb, first⟩ := g.findOrCreateDevice_frame 0 inputIpcCapKeyboard "SDL Keyboard"
    obtain ⟨ptr, second⟩ := (g.findOrCreateDevice 0 inputIpcCapKeyboard "SDL Keyboard").2.findOrCreateDevice_frame 1
      inputIpcCapPointer "SDL Pointer"
    exact ⟨ptr, second.trans (by rw [first])⟩
  · exact ⟨_, rfl⟩

theorem openPipe_frame (piped : Bool) : ∃ pipe, g.openPipe piped = { g with pipe } := by
  simp only [openPipe]
  cases g.pipe <;> cases piped <;> exact ⟨_, rfl⟩

theorem unref_frame : ∃ pipe, g.unref = { g with pipe } := by
  simp only [unref]
  cases g.pipe <;> exact ⟨_, rfl⟩

theorem change_frame (injection : Injection) :
    ∃ devices keys buttons, (g.change injection).2 = { g with devices, keys, buttons } := by
  have found (g : Globals) := g.findOrCreateDevice_frame
  cases injection with
  | deviceAdded => exact ⟨_, _, _, rfl⟩
  | key scancode pressed timeUsec =>
      simp only [change]
      split
      · exact ⟨_, _, _, rfl⟩
      · rename_i keys _
        obtain ⟨devices, same⟩ := found { g with keys } 0 inputIpcCapKeyboard "SDL Keyboard"
        exact ⟨devices, keys, _, same⟩
  | motion dx dy timeUsec =>
      obtain ⟨devices, same⟩ := found g 1 inputIpcCapPointer "SDL Pointer"
      exact ⟨devices, _, _, same⟩
  | button button pressed timeUsec =>
      simp only [change]
      split
      · exact ⟨_, _, _, rfl⟩
      · rename_i buttons _
        obtain ⟨devices, same⟩ := found { g with buttons } 1 inputIpcCapPointer "SDL Pointer"
        exact ⟨devices, _, buttons, same⟩
  | axis axis value timeUsec =>
      obtain ⟨devices, same⟩ := found g 1 inputIpcCapPointer "SDL Pointer"
      exact ⟨devices, _, _, same⟩

structure SameInput (g after : Globals) : Prop where
  events : after.events = g.events
  keys : after.keys = g.keys
  buttons : after.buttons = g.buttons

theorem sameInput_findOrCreateDevice (id caps : Int) (name : String) :
    g.SameInput (g.findOrCreateDevice id caps name).2 := by
  obtain ⟨devices, same⟩ := g.findOrCreateDevice_frame id caps name
  rw [same]
  exact ⟨rfl, rfl, rfl⟩

theorem createDevices_spec :
    g.SameInput g.createDevices.2 ∧ ∀ ev ∈ g.createDevices.1, ∃ device, ev = .deviceAdded device := by
  constructor
  · obtain ⟨devices, same⟩ := g.createDevices_frame
    rw [same]
    exact ⟨rfl, rfl, rfl⟩
  · simp only [createDevices]
    split
    · intro ev member
      obtain ⟨id, _, rfl⟩ := List.mem_map.mp member
      exact ⟨some id, rfl⟩
    · simp

theorem foldl_queueEvent (added : List Event) :
    (added.foldl queueEvent g).events = g.events ++ added ∧ (added.foldl queueEvent g).keys = g.keys ∧
      (added.foldl queueEvent g).buttons = g.buttons := by
  induction added generalizing g with
  | nil => simp
  | cons ev rest ih =>
      obtain ⟨events, keys, buttons⟩ := ih (g.queueEvent ev)
      exact ⟨by simp [events], by simp [keys], by simp [buttons]⟩

theorem ensureDevices_spec :
    ∃ added, (∀ ev ∈ added, ∃ device, ev = .deviceAdded device) ∧
      g.ensureDevices.events = g.events ++ added ∧ g.ensureDevices.keys = g.keys ∧
      g.ensureDevices.buttons = g.buttons := by
  obtain ⟨same, announced⟩ := g.createDevices_spec
  obtain ⟨events, keys, buttons⟩ := foldl_queueEvent g.createDevices.2 g.createDevices.1
  exact ⟨g.createDevices.1, announced, events.trans (by rw [same.events]), keys.trans same.keys,
    buttons.trans same.buttons⟩

theorem events_change (injection : Injection) : (g.change injection).2.events = g.events := by
  obtain ⟨devices, keys, buttons, same⟩ := g.change_frame injection
  rw [same]

/-- Whatever is injected, its event goes behind the announcements. -/
theorem inject_spec (injection : Injection) :
    (∃ added, (∀ ev ∈ added, ∃ device, ev = .deviceAdded device) ∧
      (g.inject injection).events = g.events ++ (added ++ (g.ensureDevices.change injection).1.toList)) ∧
    (g.inject injection).keys = (g.ensureDevices.change injection).2.keys ∧
    (g.inject injection).buttons = (g.ensureDevices.change injection).2.buttons := by
  obtain ⟨added, announced, events, _, _⟩ := g.ensureDevices_spec
  have quiet := g.ensureDevices.events_change injection
  simp only [inject]
  split
  · rename_i after nothing
    simp only [nothing] at quiet ⊢
    refine ⟨⟨added, announced, ?_⟩, trivial, trivial⟩
    rw [quiet, events, Option.toList_none, List.append_nil]
  · rename_i ev after reported
    simp only [reported] at quiet ⊢
    refine ⟨⟨added, announced, ?_⟩, keys_queueEvent _ _, buttons_queueEvent _ _⟩
    rw [events_queueEvent, quiet, events, Option.toList_some, List.append_assoc]

/-- A view of the events that leaves out announcements shows what an injection
adds after them. -/
theorem filterMap_added {β : Type} {g after : Globals} {added rest : List Event} {view : Event → Option β}
    (leavesOut : ∀ device, view (.deviceAdded device) = none)
    (announced : ∀ ev ∈ added, ∃ device, ev = .deviceAdded device)
    (events : after.events = g.events ++ (added ++ rest)) :
    (after.events.drop g.events.length).filterMap view = rest.filterMap view := by
  have silent : added.filterMap view = [] := by
    rw [List.filterMap_eq_nil_iff]
    intro ev member
    obtain ⟨device, rfl⟩ := announced ev member
    exact leavesOut device
  rw [events, List.drop_left, List.filterMap_append, silent, List.nil_append]

theorem sdlInjectKey_spec (scancode : UInt32) (pressed : Bool) (timeUsec : UInt64) :
    (g.sdlInjectKey scancode pressed timeUsec).keys = g.keys.set (keyBit scancode) pressed ∧
      ∃ added device, (∀ ev ∈ added, ∃ device, ev = .deviceAdded device) ∧
        (g.sdlInjectKey scancode pressed timeUsec).events = g.events ++ (added ++
          if g.keys.on (keyBit scancode) = pressed then []
          else [.keyboardKey device scancode (keyState pressed) (g.keys.set (keyBit scancode) pressed).count timeUsec]) := by
  obtain ⟨⟨added, announced, events⟩, keys, _⟩ := g.inject_spec (.key scancode pressed timeUsec)
  obtain ⟨_, _, _, ensured, _⟩ := g.ensureDevices_spec
  rw [sdlInjectKey, events, keys]
  by_cases same : g.keys.on (keyBit scancode) = pressed
  · simp only [change, ensured, g.keys.toggle_of_same same, g.keys.set_of_same same, if_pos same]
    exact ⟨trivial, added, none, announced, rfl⟩
  · simp only [change, ensured, g.keys.toggle_of_changes same, if_neg same]
    exact ⟨(sameInput_findOrCreateDevice _ _ _ _).keys, added, _, announced, rfl⟩

theorem sdlInjectButton_spec (button : Int) (pressed : Bool) (timeUsec : UInt64) :
    (g.sdlInjectButton button pressed timeUsec).buttons = g.buttons.set (buttonBit button) pressed ∧
      ∃ added device, (∀ ev ∈ added, ∃ device, ev = .deviceAdded device) ∧
        (g.sdlInjectButton button pressed timeUsec).events = g.events ++ (added ++
          if g.buttons.on (buttonBit button) = pressed then []
          else
            [.pointerButton device button (keyState pressed) (g.buttons.set (buttonBit button) pressed).count timeUsec]) := by
  obtain ⟨⟨added, announced, events⟩, _, buttons⟩ := g.inject_spec (.button button pressed timeUsec)
  obtain ⟨_, _, _, _, ensured⟩ := g.ensureDevices_spec
  rw [sdlInjectButton, events, buttons]
  by_cases same : g.buttons.on (buttonBit button) = pressed
  · simp only [change, ensured, g.buttons.toggle_of_same same, g.buttons.set_of_same same, if_pos same]
    exact ⟨trivial, added, none, announced, rfl⟩
  · simp only [change, ensured, g.buttons.toggle_of_changes same, if_neg same]
    exact ⟨(sameInput_findOrCreateDevice _ _ _ _).buttons, added, _, announced, rfl⟩

end Globals

end Iland.Libinput

import Iland.Drm.Queries

namespace Iland.Drm

/-! The mode table, and the list that a connector gets of it.

The loop over the displays leaves the last of the eight places to the fallback,
so an eighth display has no mode of its own.
-/

/-- The mode that `init_modes` stores for a display. -/
def ownMode (host : Host) (d : ℕ) : ModeInfo :=
  displayMode (host.getDisplayBounds d).1 (host.getDisplayBounds d).2 host.getDisplayRefreshRate

def ModeInfo.HasSize (mode : ModeInfo) (size : UInt32 × UInt32) : Prop :=
  mode.hdisplay.toUInt32 = size.1 ∧ mode.vdisplay.toUInt32 = size.2

instance (mode : ModeInfo) (size : UInt32 × UInt32) : Decidable (mode.HasSize size) :=
  inferInstanceAs (Decidable (_ ∧ _))

/-! The stores of `drmModeGetConnector`, into places that hold nothing yet. -/

def storeMode (places : List (Option ModeInfo)) (out : ℕ) (mode : ModeInfo) : Option (List (Option ModeInfo)) :=
  if out < places.length then some (places.set out (some mode)) else none

/-- The loop over the table, from the index `i` on. -/
def copyOthers (found : ℕ) : ℕ → List ModeInfo → ℕ → List (Option ModeInfo) → Option (List (Option ModeInfo))
  | _, [], _, places => some places
  | i, mode :: rest, out, places =>
      if i = found then copyOthers found (i + 1) rest out places
      else (storeMode places out mode).bind (copyOthers found (i + 1) rest (out + 1))

/-- What the `count_modes` places hold in the end; `none` if a store misses them. -/
def fillModes (host : Host) (idx : ℕ) : Option (List (Option ModeInfo)) :=
  let modes := initModes host
  match modes.findIdx? (fun mode => mode.HasSize (host.getDisplayBounds idx)) with
  | some (found + 1) =>
      modes[found + 1]?.bind fun mode =>
        (storeMode (List.replicate modes.length none) 0 mode).bind (copyOthers (found + 1) 0 modes 1)
  | _ => some (modes.map some)

variable {host : Host} {idx : ℕ} {size : UInt32 × UInt32}

theorem storeMode_next (stored : List ModeInfo) (mode : ModeInfo) (k : ℕ) :
    storeMode (stored.map some ++ List.replicate (k + 1) none) stored.length mode =
      some ((stored ++ [mode]).map some ++ List.replicate k none) := by
  have inside : stored.length < (stored.map some ++ List.replicate (k + 1) (none : Option ModeInfo)).length := by
    simp only [List.length_append, List.length_map, List.length_replicate]
    omega
  rw [storeMode, if_pos inside, List.set_append_right _ _ (by simp)]
  simp [List.replicate_succ]

theorem copyOthers_passed (found : ℕ) (modes : List ModeInfo) {i : ℕ} (passed : found < i) (stored : List ModeInfo) :
    copyOthers found i modes stored.length (stored.map some ++ List.replicate modes.length none) =
      some ((stored ++ modes).map some) := by
  induction modes generalizing i stored with
  | nil => simp [copyOthers]
  | cons mode rest ih =>
      have later := ih (Nat.lt_succ_of_lt passed) (stored ++ [mode])
      rw [List.length_append, List.length_singleton] at later
      rw [copyOthers, if_neg passed.ne', List.length_cons, storeMode_next, Option.bind_some, later, List.append_assoc,
        List.singleton_append]

theorem copyOthers_eq {modes : List ModeInfo} {ahead : ℕ} (inside : ahead < modes.length) (i : ℕ)
    (stored : List ModeInfo) :
    copyOthers (i + ahead) i modes stored.length (stored.map some ++ List.replicate (modes.length - 1) none) =
      some ((stored ++ modes.eraseIdx ahead).map some) := by
  induction modes generalizing i ahead stored with
  | nil => simp at inside
  | cons mode rest ih =>
      cases ahead with
      | zero =>
          rw [copyOthers, if_pos (Nat.add_zero i).symm, List.length_cons, Nat.add_sub_cancel, List.eraseIdx_zero,
            List.tail_cons]
          exact copyOthers_passed i rest (Nat.lt_succ_self i) stored
      | succ ahead =>
          have within : ahead < rest.length := Nat.lt_of_succ_lt_succ inside
          have room : (mode :: rest).length - 1 = rest.length - 1 + 1 := by
            rw [List.length_cons]
            omega
          have later := ih within (i + 1) (stored ++ [mode])
          rw [List.length_append, List.length_singleton] at later
          rw [copyOthers, if_neg (by omega), room, storeMode_next, Option.bind_some,
            show i + (ahead + 1) = i + 1 + ahead by omega, later, List.eraseIdx_cons_succ, List.append_assoc,
            List.singleton_append]

/-- The first place in the table of a mode with the size of a display. -/
def placeOf (host : Host) (idx : ℕ) : Option ℕ :=
  (initModes host).findIdx? (fun mode => mode.HasSize (host.getDisplayBounds idx))

/-- Either the first mode stays where it is, because it has the size or no mode
does, or another one that has the size moves to the front. -/
theorem connectorModes_cases (host : Host) (idx : ℕ) :
    (connectorModes host idx = initModes host ∧ fillModes host idx = some ((initModes host).map some) ∧
        (placeOf host idx = none ∨ placeOf host idx = some 0)) ∨
      ∃ found, ∃ inside : found + 1 < (initModes host).length, placeOf host idx = some (found + 1) ∧
        connectorModes host idx = (initModes host)[found + 1] :: (initModes host).eraseIdx (found + 1) ∧
        fillModes host idx = (storeMode (List.replicate (initModes host).length none) 0 (initModes host)[found + 1]).bind
          (copyOthers (found + 1) 0 (initModes host) 1) := by
  have sameTest : (fun mode : ModeInfo => decide (mode.HasSize (host.getDisplayBounds idx))) = fun mode =>
      mode.hdisplay.toUInt32 == (host.getDisplayBounds idx).1 &&
        mode.vdisplay.toUInt32 == (host.getDisplayBounds idx).2 := by
    funext mode
    exact Bool.decide_and _ _
  simp only [placeOf, fillModes, connectorModes, ← sameTest]
  cases place : (initModes host).findIdx? (fun mode => mode.HasSize (host.getDisplayBounds idx)) with
  | none => exact .inl ⟨rfl, rfl, .inl rfl⟩
  | some found =>
      cases found with
      | zero => exact .inl ⟨rfl, rfl, .inr rfl⟩
      | succ found =>
          have inside := (List.findIdx?_eq_some_iff_getElem.mp place).1
          refine .inr ⟨found, inside, rfl, ?_, ?_⟩
          · simp only [List.getElem?_eq_getElem inside, Option.toList_some, List.singleton_append]
          · simp only [List.getElem?_eq_getElem inside, Option.bind_some]

/-- Every store is inside, and every place is written. -/
theorem fillModes_eq (host : Host) (idx : ℕ) : fillModes host idx = some ((connectorModes host idx).map some) := by
  rcases connectorModes_cases host idx with ⟨unmoved, filled, _⟩ | ⟨found, inside, _, moved, filled⟩
  · rw [unmoved, filled]
  · have first := storeMode_next [] (initModes host)[found + 1] ((initModes host).length - 1)
    have rest := copyOthers_eq inside 0 [(initModes host)[found + 1]]
    rw [Nat.zero_add] at rest
    rw [Nat.sub_add_cancel (by omega)] at first
    rw [filled, moved]
    exact (congrArg (fun places => places.bind (copyOthers (found + 1) 0 (initModes host) 1)) first).trans rest

theorem connectorModes_perm (host : Host) (idx : ℕ) : (connectorModes host idx).Perm (initModes host) := by
  rcases connectorModes_cases host idx with ⟨unmoved, _⟩ | ⟨found, inside, _, moved, _⟩
  · rw [unmoved]
  · rw [moved]
    exact List.getElem_cons_eraseIdx_perm inside

/-- The first mode has the size of the display exactly if some mode has it. -/
theorem head_connectorModes (host : Host) (idx : ℕ) :
    (∃ first, (connectorModes host idx).head? = some first ∧ first.HasSize (host.getDisplayBounds idx)) ↔
      ∃ mode ∈ initModes host, mode.HasSize (host.getDisplayBounds idx) := by
  constructor
  · rintro ⟨first, head, right⟩
    exact ⟨first, (connectorModes_perm host idx).mem_iff.mp (List.mem_of_mem_head? head), right⟩
  · rintro ⟨mode, member, right⟩
    rcases connectorModes_cases host idx with ⟨unmoved, _, none | zero⟩ | ⟨found, inside, place, moved, _⟩
    · have missed := List.findIdx?_eq_none_iff.mp none mode member
      simp [right] at missed
    · obtain ⟨inside, hit, _⟩ := List.findIdx?_eq_some_iff_getElem.mp zero
      exact ⟨(initModes host)[0], by rw [unmoved, List.head?_eq_getElem?, List.getElem?_eq_getElem inside],
        of_decide_eq_true hit⟩
    · obtain ⟨_, hit, _⟩ := List.findIdx?_eq_some_iff_getElem.mp place
      exact ⟨_, by rw [moved, List.head?_cons], of_decide_eq_true hit⟩

/-- The table: up to seven displays, and the fallback. -/
theorem initModes_eq (host : Host) :
    initModes host = (List.range (min host.getDisplayCount (maxModes - 1))).map (ownMode host) ++
      [fallbackMode host.getDisplayRefreshRate] := by
  have filled (displays : List ℕ) (modes : List ModeInfo) : displays.foldl (storeDisplayMode host) modes =
      modes ++ (displays.take (maxModes - 1 - modes.length)).map (ownMode host) := by
    induction displays generalizing modes with
    | nil => simp
    | cons d rest ih =>
        rw [List.foldl_cons, ih]
        by_cases room : modes.length < maxModes - 1
        · have one : maxModes - 1 - modes.length = maxModes - 1 - (modes.length + 1) + 1 := by omega
          simp [storeDisplayMode, room, one, ownMode]
        · have none : maxModes - 1 - modes.length = 0 := by omega
          simp [storeDisplayMode, room, none]
  have table := filled (List.range host.getDisplayCount) []
  rw [List.nil_append, List.length_nil, Nat.sub_zero, List.take_range, min_comm] at table
  have short : (List.range (min host.getDisplayCount (maxModes - 1))).length < maxModes := by
    simp only [List.length_range, maxModes]
    omega
  simp only [initModes, table, List.length_map, short, if_true]

/-- The display sizes are at most 65535 by 65535. -/
def SizesFit (host : Host) : Prop :=
  ∀ d < host.getDisplayCount, (host.getDisplayBounds d).1.toNat < 2 ^ 16 ∧ (host.getDisplayBounds d).2.toNat < 2 ^ 16

/-- What the connector of display `idx` lists: the modes of the table, each
stored in a place of its own, and first one with the size of the display. -/
structure ModesOfDisplay (host : Host) (idx : ℕ) (c : Connector) : Prop where
  filled : fillModes host idx = some (c.modes.map some)
  count : c.countModes.toNat = c.modes.length
  permutation : c.modes.Perm (initModes host)
  first : ∃ mode, c.modes.head? = some mode ∧ mode.hdisplay.toNat = (host.getDisplayBounds idx).1.toNat ∧
    mode.vdisplay.toNat = (host.getDisplayBounds idx).2.toNat

theorem hasSize_iff {mode : ModeInfo} :
    mode.HasSize size ↔ mode.hdisplay.toNat = size.1.toNat ∧ mode.vdisplay.toNat = size.2.toNat := by
  simp only [ModeInfo.HasSize, ← UInt32.toNat_inj, UInt16.toNat_toUInt32]

theorem hasSize_ownMode {d : ℕ}
    (fits : (host.getDisplayBounds d).1.toNat < 2 ^ 16 ∧ (host.getDisplayBounds d).2.toNat < 2 ^ 16) :
    (ownMode host d).HasSize size ↔ host.getDisplayBounds d = size := by
  rw [hasSize_iff, Prod.ext_iff, ← UInt32.toNat_inj, ← UInt32.toNat_inj]
  simp only [ownMode, displayMode, UInt32.toNat_toUInt16, Nat.mod_eq_of_lt fits.1, Nat.mod_eq_of_lt fits.2]

theorem hasSize_fallbackMode (refreshRate : UInt32) :
    (fallbackMode refreshRate).HasSize size ↔ size = (1920, 1080) := by
  rw [hasSize_iff, Prod.ext_iff, ← UInt32.toNat_inj, ← UInt32.toNat_inj]
  exact and_congr eq_comm eq_comm

theorem getConnector_known {connectorId : UInt32}
    (known : 1 ≤ connectorId.toNat ∧ connectorId.toNat ≤ host.getDisplayCount) :
    ∃ c, drmModeGetConnector host drmVirtualFd connectorId = .ok c ∧
      c.countModes = UInt32.ofNat (initModes host).length ∧ c.modes = connectorModes host (connectorId.toNat - 1) := by
  have inside : ¬ (connectorId.toNat < 1 ∨ connectorId.toNat > host.getDisplayCount) := by omega
  simp only [drmModeGetConnector, checkFd, ne_eq, not_true_eq_false, if_false, inside]
  exact ⟨_, rfl, rfl, rfl⟩

/-- A connector lists the mode of its display first exactly if it is one of the
first seven, or has the size of one of them or of the fallback. -/
theorem connector_modes_iff (fits : SizesFit host) {connectorId : UInt32}
    (known : 1 ≤ connectorId.toNat ∧ connectorId.toNat ≤ host.getDisplayCount) :
    ∃ c, drmModeGetConnector host drmVirtualFd connectorId = .ok c ∧
      (ModesOfDisplay host (connectorId.toNat - 1) c ↔
        connectorId.toNat < maxModes ∨ host.getDisplayBounds (connectorId.toNat - 1) = (1920, 1080) ∨
          ∃ d < maxModes - 1, host.getDisplayBounds d = host.getDisplayBounds (connectorId.toNat - 1)) := by
  obtain ⟨c, got, count, modes⟩ := getConnector_known known
  refine ⟨c, got, ?_⟩
  have first : ModesOfDisplay host (connectorId.toNat - 1) c ↔
      ∃ mode ∈ initModes host, mode.HasSize (host.getDisplayBounds (connectorId.toNat - 1)) := by
    rw [← head_connectorModes]
    constructor
    · intro right
      obtain ⟨mode, head, size⟩ := right.first
      exact ⟨mode, modes ▸ head, hasSize_iff.mpr size⟩
    · rintro ⟨mode, head, size⟩
      refine ⟨by rw [modes, fillModes_eq], ?_, modes ▸ connectorModes_perm host _, mode, modes ▸ head,
        hasSize_iff.mp size⟩
      have few := length_initModes host
      rw [count, modes, length_connectorModes, UInt32.toNat_ofNat_of_lt']
      exact Nat.lt_of_le_of_lt few (by decide)
  rw [first, initModes_eq]
  simp only [List.mem_append, List.mem_map, List.mem_range, List.mem_singleton]
  have few := host.getDisplayCount_le
  constructor
  · rintro ⟨mode, ⟨d, inside, rfl⟩ | rfl, size⟩
    · have same := (hasSize_ownMode (fits d (by omega))).mp size
      exact .inr (.inr ⟨d, by omega, same⟩)
    · exact .inr (.inl ((hasSize_fallbackMode _).mp size))
  · have own (d : ℕ) (stored : d < min host.getDisplayCount (maxModes - 1))
        (same : host.getDisplayBounds d = host.getDisplayBounds (connectorId.toNat - 1)) :
        ∃ mode, ((∃ d < min host.getDisplayCount (maxModes - 1), ownMode host d = mode) ∨
          mode = fallbackMode host.getDisplayRefreshRate) ∧
          mode.HasSize (host.getDisplayBounds (connectorId.toNat - 1)) :=
      ⟨_, .inl ⟨d, stored, rfl⟩, (hasSize_ownMode (fits d (by omega))).mpr same⟩
    intro holds
    by_cases early : connectorId.toNat < maxModes
    · exact own (connectorId.toNat - 1) (by omega) rfl
    · rcases holds.resolve_left early with fallback | ⟨d, inside, same⟩
      · exact ⟨_, .inr rfl, (hasSize_fallbackMode _).mpr fallback⟩
      · exact own d (by omega) same

/-- Eight displays, from 1001 to 1008 pixels wide. -/
def eightWidths : Host := { Host.uniform 8 with pixelsWide := fun display => 1000 + display }

theorem connector_modes_iff_third :
    ∃ c, drmModeGetConnector eightWidths drmVirtualFd 3 = .ok c ∧
      (ModesOfDisplay eightWidths ((3 : UInt32).toNat - 1) c ↔
        (3 : UInt32).toNat < maxModes ∨ eightWidths.getDisplayBounds ((3 : UInt32).toNat - 1) = (1920, 1080) ∨
          ∃ d < maxModes - 1,
            eightWidths.getDisplayBounds d = eightWidths.getDisplayBounds ((3 : UInt32).toNat - 1)) :=
  connector_modes_iff (by unfold SizesFit; decide) (by decide)

/-- The eighth display gets the modes of the others. -/
theorem eighth_display_has_no_mode :
    ∃ c, drmModeGetConnector eightWidths drmVirtualFd 8 = .ok c ∧ eightWidths.getDisplayBounds 7 = (1008, 1080) ∧
      c.modes.map ModeInfo.hdisplay = [1001, 1002, 1003, 1004, 1005, 1006, 1007, 1920] ∧
      ¬ ModesOfDisplay eightWidths 7 c := by
  refine ⟨_, rfl, by decide +kernel, by decide +kernel, fun right => ?_⟩
  obtain ⟨mode, head, width, _⟩ := right.first
  revert width
  rw [← Option.some_inj.mp head]
  decide +kernel

end Iland.Drm

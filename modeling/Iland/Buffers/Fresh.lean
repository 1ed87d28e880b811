import Iland.Buffers.Maps

namespace Iland.Buffers

open Iland.Data
open Iland.Drm
open Iland.Ioctl

/-! Whether an id is given out while it is in use.

The ids are 32-bit counters.  A counter that wraps around comes to 0, which
marks free places, and to the ids of whatever has lived that long.
-/

variable {host : Host} {pair next : Session × Ledgers} {a : Action} {out : Output}

def Ledgers.idsOf (l : Ledgers) : Kind → List UInt32
  | .dumb => l.dumbs.ids
  | .fb => l.fbs.ids
  | .blob | .inFormats => l.blobs.ids

/-- No two live things of a kind share an id, and the places with the id 0 are
free. -/
structure Unshared (pair : Session × Ledgers) : Prop where
  dumbs : pair.2.dumbs.ids.Nodup
  fbs : pair.2.fbs.ids.Nodup
  blobs : pair.2.blobs.ids.Nodup
  freeDumbs : ∀ i, (pair.1.world.dev.gDumb i).handle = 0 → (pair.1.world.dev.gDumb i).surface = none
  freeFbs : ∀ i, (pair.1.world.dev.gFbs i).fbId = 0 → (pair.1.world.dev.gFbs i).surface = none

/-- The id that a step returns is not 0 and not in use. -/
def IdsFresh (host : Host) (pair : Session × Ledgers) (a : Action) : Prop :=
  ∀ next out, ledgered host pair a = .ok (next, out) →
    (∀ kind id, issued a out = some (kind, id) → id ≠ 0 ∧ id ∉ pair.2.idsOf kind) ∧ Unshared next

/-- What is live was not made a multiple of 2 ^ 32 creations ago. -/
def NextUnused {α : Type} (ledger : Ledger UInt32 α) : Prop :=
  ∀ e ∈ ledger.live, ¬ ledger.made ≡ e.number [MOD 2 ^ 32]

/-- The counter, which started at `first`, is not at a multiple of 2 ^ 32. -/
def NextNonzero {α : Type} (first : ℕ) (ledger : Ledger UInt32 α) : Prop := ¬ 2 ^ 32 ∣ first + ledger.made

def Unwrapped (pair : Session × Ledgers) (a : Action) : Prop :=
  match makes pair.1.world.dev a with
  | some .dumb => NextNonzero 1 pair.2.dumbs ∧ NextUnused pair.2.dumbs
  | some .fb => NextNonzero 1 pair.2.fbs ∧ NextUnused pair.2.fbs
  | some .blob => NextNonzero 256 pair.2.blobs ∧ NextUnused pair.2.blobs
  | some .inFormats => NextUnused pair.2.blobs
  | none => True

structure TablesInv (pair : Session × Ledgers) : Prop where
  dumbs : DumbsMarked pair.1.world.dev pair.2.dumbs
  fbs : FbsMarked pair.1.world.dev pair.2.fbs
  blobs : BlobsTracked pair.1.world.dev pair.2.blobs

theorem tablesInv_initial : TablesInv ledgersInitial := ⟨dumbsMarked_initial, fbsMarked_initial, blobsTracked_initial⟩

theorem TablesInv.unshared (inv : TablesInv pair) : Unshared pair where
  dumbs := inv.dumbs.tracks.distinct
  fbs := inv.fbs.tracks.distinct
  blobs := inv.blobs.distinct
  freeDumbs := fun i zero => by rw [inv.dumbs.blanks i zero]
  freeFbs := fun i zero => by rw [inv.fbs.blanks i zero]

theorem unwrapped_step (inv : TablesInv pair) (unwrapped : Unwrapped pair a)
    (done : ledgered host pair a = .ok (next, out)) :
    TablesInv next ∧ ∀ kind id, issued a out = some (kind, id) → id ≠ 0 ∧ id ∉ pair.2.idsOf kind := by
  have stepped := ledgered_cases done
  have dumb (made : makes pair.1.world.dev a = some .dumb) :
      pair.1.world.dev.gNextDumbHandle ≠ 0 ∧ pair.1.world.dev.gNextDumbHandle ∉ pair.2.dumbs.ids := by
    rw [Unwrapped, made] at unwrapped
    exact ⟨inv.dumbs.tracks.ne_zero_iff.mpr unwrapped.1, inv.dumbs.tracks.unused_iff.mpr unwrapped.2⟩
  have fb (made : makes pair.1.world.dev a = some .fb) :
      pair.1.world.dev.gNextFbId ≠ 0 ∧ pair.1.world.dev.gNextFbId ∉ pair.2.fbs.ids := by
    rw [Unwrapped, made] at unwrapped
    exact ⟨inv.fbs.tracks.ne_zero_iff.mpr unwrapped.1, inv.fbs.tracks.unused_iff.mpr unwrapped.2⟩
  have blob (made : makes pair.1.world.dev a = some .blob) :
      pair.1.world.dev.gNextBlobId ≠ 0 ∧ pair.1.world.dev.gNextBlobId ∉ pair.2.blobs.ids := by
    rw [Unwrapped, made] at unwrapped
    exact ⟨inv.blobs.ne_zero_iff.mpr unwrapped.1, inv.blobs.unused_iff.mpr unwrapped.2⟩
  have inFormats (made : makes pair.1.world.dev a = some .inFormats) :
      pair.1.world.dev.gNextBlobId ∉ pair.2.blobs.ids := by
    rw [Unwrapped, made] at unwrapped
    exact inv.blobs.unused_iff.mpr unwrapped
  refine ⟨⟨stepped.dumbsMarked inv.dumbs dumb, stepped.fbsMarked inv.fbs fb,
    stepped.blobsTracked inv.blobs fun made => made.elim (fun made => (blob made).2) inFormats⟩, ?_⟩
  intro kind id given
  generalize next.2 = after at stepped
  cases stepped with
  | same _ _ nothing | dropDumb _ _ _ nothing | dropFb _ _ _ nothing | dropBlob _ _ _ _ _ nothing =>
      simp [nothing] at given
  | addDumb slot info free same made id =>
      rw [id] at given
      cases given
      exact dumb made
  | addFb slot surf free same made id =>
      rw [id] at given
      cases given
      exact fb made
  | addBlob slot data free same made =>
      rcases made with ⟨made, id⟩ | ⟨_, nothing⟩
      · rw [id] at given
        cases given
        exact blob made
      · simp [nothing] at given

theorem makes_steps (host : Host) {kind : Kind} (made : makes pair.1.world.dev a = some kind) :
    ∃ next out, ledgered host pair a = .ok (next, out) := by
  cases a with
  | call c =>
      cases c <;> simp only [makes, reduceCtorEq] at made <;> exact ⟨_, _, rfl⟩
  | _ => simp [makes] at made

theorem unwrapped_of_fresh (inv : TablesInv pair) (fresh : IdsFresh host pair a) : Unwrapped pair a := by
  cases made : makes pair.1.world.dev a with
  | none => simp [Unwrapped, made]
  | some kind =>
      obtain ⟨next, out, done⟩ := makes_steps host made
      obtain ⟨new, unshared⟩ := fresh next out done
      have stepped := ledgered_cases done
      have distinct := unshared.blobs
      generalize next.2 = after at stepped distinct
      rw [Unwrapped, made]
      cases stepped with
      | same _ nothing | dropDumb _ _ nothing | dropFb _ _ nothing | dropBlob _ _ _ _ nothing => simp [nothing] at made
      | addDumb slot info free same isDumb id =>
          rw [isDumb] at made
          cases made
          obtain ⟨nonzero, unused⟩ := new _ _ id
          exact ⟨inv.dumbs.tracks.ne_zero_iff.mp nonzero, inv.dumbs.tracks.unused_iff.mp unused⟩
      | addFb slot surf free same isFb id =>
          rw [isFb] at made
          cases made
          obtain ⟨nonzero, unused⟩ := new _ _ id
          exact ⟨inv.fbs.tracks.ne_zero_iff.mp nonzero, inv.fbs.tracks.unused_iff.mp unused⟩
      | addBlob slot data free same isBlob =>
          rcases isBlob with ⟨isBlob, id⟩ | ⟨isInFormats, _⟩
          · rw [isBlob] at made
            cases made
            obtain ⟨nonzero, unused⟩ := new _ _ id
            exact ⟨inv.blobs.ne_zero_iff.mp nonzero, inv.blobs.unused_iff.mp unused⟩
          · rw [isInFormats] at made
            cases made
            exact inv.blobs.unused_iff.mp (List.nodup_cons.mp distinct).1

theorem idsFresh_iff (inv : TablesInv pair) : IdsFresh host pair a ↔ Unwrapped pair a := by
  constructor
  · exact unwrapped_of_fresh inv
  · intro unwrapped next out done
    obtain ⟨after, new⟩ := unwrapped_step inv unwrapped done
    exact ⟨new, after.unshared⟩

theorem along_idsFresh_iff (inv : TablesInv pair) (actions : List Action) :
    Along (ledgered host) (IdsFresh host) pair actions ↔ Along (ledgered host) Unwrapped pair actions := by
  have exactly (pair : Session × Ledgers) (a : Action) (inv : TablesInv pair) :
      IdsFresh host pair a ↔ Unwrapped pair a := idsFresh_iff inv
  exact along_iff_along exactly (fun _ _ _ _ inv unwrapped done => (unwrapped_step inv unwrapped done).1) inv actions

/-- Ids are not reused while live exactly as long as the counters do not come
back to 0 or to what is live. -/
theorem ids_fresh_iff (actions : List Action) :
    Along (ledgered host) (IdsFresh host) ledgersInitial actions ↔
      Along (ledgered host) Unwrapped ledgersInitial actions :=
  along_idsFresh_iff tablesInv_initial actions

/-! A client that makes and destroys dumb buffers, one after the other. -/

def makeDumb : Action := .call (.createDumbBuffer drmVirtualFd (some ⟨7, 0, 0, 0⟩))

def churn (count : ℕ) : List Action :=
  (List.range count).flatMap fun k => [makeDumb, .call (.destroyDumbBuffer drmVirtualFd (wrapped 1 k))]

/-- `count` dumb buffers have been made, and none is left. -/
structure Churned (count : ℕ) (pair : Session × Ledgers) : Prop where
  marked : DumbsMarked pair.1.world.dev pair.2.dumbs
  made : pair.2.dumbs.made = count
  live : pair.2.dumbs.live = []

theorem Churned.free {count : ℕ} (churned : Churned count pair) (i : Fin maxDumbBufs) :
    (pair.1.world.dev.gDumb i).handle = 0 := by
  by_contra taken
  obtain ⟨d, stored⟩ := Option.isSome_iff_exists.mp (churned.marked.filled i taken)
  obtain ⟨e, member, _⟩ := churned.marked.tracks.stored i _ d (occupants_eq_some_iff.mpr ⟨taken, rfl, stored⟩)
  simp [churned.live] at member

theorem Churned.makes {count : ℕ} (churned : Churned count pair) :
    makes pair.1.world.dev makeDumb = some .dumb :=
  if_pos ⟨rfl, rfl, ⟨0, by decide⟩, churned.free _⟩

theorem Churned.create {count : ℕ} (churned : Churned count pair) (few : count + 1 < 2 ^ 32)
    (created : ledgered host pair makeDumb = .ok (next, out)) :
    DumbsMarked next.1.world.dev next.2.dumbs ∧ ∃ data, next.2.dumbs = pair.2.dumbs.create (wrapped 1 count) data := by
  have stepped := ledgered_cases created
  have counter := churned.marked.tracks.counter
  have few' : pair.2.dumbs.made + 1 < 2 ^ 32 := churned.made.symm ▸ few
  refine ⟨stepped.dumbsMarked churned.marked fun _ => ⟨churned.marked.tracks.ne_zero_of_few Nat.one_pos (by omega),
    churned.marked.tracks.unused_of_few (by omega)⟩, ?_⟩
  rw [churned.made] at counter
  have made := churned.makes
  generalize next.2 = after at stepped
  cases stepped with
  | addDumb slot info => exact ⟨_, by rw [counter]⟩
  | same _ nothing | dropDumb _ _ nothing | dropFb _ _ nothing | dropBlob _ _ _ _ nothing => simp [nothing] at made
  | addFb _ _ _ _ other => simp [other] at made
  | addBlob _ _ _ _ other => rcases other with ⟨other, _⟩ | ⟨other, _⟩ <;> simp [other] at made

theorem Churned.step (host : Host) {count : ℕ} (churned : Churned count pair) (few : count + 1 < 2 ^ 32) :
    ∃ next outs, Churned (count + 1) next ∧
      runActions (ledgered host) pair [makeDumb, .call (.destroyDumbBuffer drmVirtualFd (wrapped 1 count))] =
        .ok (next, outs) := by
  obtain ⟨middle, out, created⟩ : ∃ middle out, ledgered host pair makeDumb = .ok (middle, out) := ⟨_, _, rfl⟩
  obtain ⟨marked, data, ledger⟩ := churned.create few created
  have named : wrapped 1 count ≠ 0 := by
    rw [Ne, wrapped_eq_zero_iff]
    exact Nat.not_dvd_of_pos_of_lt (by omega) (by omega)
  have live : (middle.2.dumbs.find (wrapped 1 count)).isSome := by
    simp [ledger, Ledger.create, Ledger.find]
  have found : (drmModeDestroyDumbBuffer middle.1.world.dev drmVirtualFd (wrapped 1 count)).1 = .ok () := by
    rw [destroyDumbBuffer_eq_seek]
    rcases marked.seek_cases (.inl named) with ⟨buf, d, found, _⟩ | ⟨_, dead⟩
    · rw [found, Option.isSome_some, if_pos rfl]
    · simp [dead] at live
  obtain ⟨next, last, destroyed, noted⟩ : ∃ (next : Session × Ledgers) (last : Output),
      ledgered host middle (.call (.destroyDumbBuffer drmVirtualFd (wrapped 1 count))) = .ok (next, last) ∧
      next.2 = middle.2.note middle.1 (.call (.destroyDumbBuffer drmVirtualFd (wrapped 1 count))) (.replied
        ((drmModeDestroyDumbBuffer middle.1.world.dev drmVirtualFd (wrapped 1 count)).1.map fun _ => .unit)) :=
    ⟨_, _, rfl, rfl⟩
  rw [found] at noted
  have emptied : next.2.dumbs = (pair.2.dumbs.create (wrapped 1 count) data).destroy (wrapped 1 count) := by
    rw [noted, ← ledger]
    rfl
  refine ⟨next, [out, last], ⟨?_, ?_, ?_⟩, by simp only [runActions, created, destroyed]⟩
  · exact (ledgered_cases destroyed).dumbsMarked marked fun made => by simp [Buffers.makes] at made
  · rw [emptied, Ledger.made_destroy, Ledger.made_create, churned.made]
  · simp [emptied, Ledger.destroy, Ledger.create, churned.live]

theorem churn_run (host : Host) {count : ℕ} (few : count < 2 ^ 32) :
    ∃ pair outs, Churned count pair ∧ runActions (ledgered host) ledgersInitial (churn count) = .ok (pair, outs) := by
  induction count with
  | zero => exact ⟨_, _, ⟨dumbsMarked_initial, rfl, rfl⟩, rfl⟩
  | succ count ih =>
      obtain ⟨pair, outs, churned, early⟩ := ih (Nat.lt_of_succ_lt few)
      obtain ⟨next, more, after, late⟩ := churned.step host few
      refine ⟨next, outs ++ more, after, ?_⟩
      have longer : churn (count + 1) =
          churn count ++ [makeDumb, .call (.destroyDumbBuffer drmVirtualFd (wrapped 1 count))] := by
        simp [churn, List.range_succ]
      rw [longer]
      exact runActions_append_ok early late

theorem Churned.not_unwrapped {count : ℕ} (churned : Churned count pair) (wraps : 2 ^ 32 ∣ 1 + count) :
    ¬ Unwrapped pair makeDumb := by
  rw [Unwrapped, churned.makes, NextNonzero, churned.made]
  exact fun unwrapped => unwrapped.1 wraps

theorem churn_not_fresh {count : ℕ} (few : count < 2 ^ 32) (wraps : 2 ^ 32 ∣ 1 + count) :
    ¬ Along (ledgered host) (IdsFresh host) ledgersInitial (churn count ++ [makeDumb]) := by
  obtain ⟨pair, outs, churned, run⟩ := churn_run host few
  rw [along_idsFresh_iff tablesInv_initial]
  exact not_along_of_last run (churned.not_unwrapped wraps)

/-- After 2 ^ 32 - 1 dumb buffers, the next one gets the handle 0. -/
theorem wrapped_handle_is_zero :
    ¬ Along (ledgered (.uniform 1)) (IdsFresh (.uniform 1)) ledgersInitial (churn (2 ^ 32 - 1) ++ [makeDumb]) := by
  have few : 2 ^ 32 - 1 < 2 ^ 32 := by norm_num
  have wraps : 2 ^ 32 ∣ 1 + (2 ^ 32 - 1) := by norm_num
  exact churn_not_fresh few wraps

end Iland.Buffers

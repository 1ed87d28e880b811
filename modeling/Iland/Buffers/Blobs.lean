import Iland.Buffers.Maps

namespace Iland.Buffers

open Iland.Data
open Iland.Drm
open Iland.Ioctl

/-! Property blobs.

A blob's place is free when it has no data, whatever id is left there.  The
data is kept whole, but its length in 32 bits.
-/

variable {host : Host} {dev after : Device} {pair : Session × Ledgers} {id : UInt32} {data : List UInt8}

/-- The blob `id` reads as the ledger says. -/
structure BlobEntry (host : Host) (pair : Session × Ledgers) (id : UInt32) : Prop where
  get : match pair.2.blobs.find id with
    | some data => ∃ blob, drmModeGetPropertyBlob pair.1.world.dev drmVirtualFd id = .ok blob ∧ blob.id = id ∧
        blob.length.toNat = data.length ∧ blob.data = data
    | none => drmModeGetPropertyBlob pair.1.world.dev drmVirtualFd id = .error .ENOENT
  undisturbed : Undisturbed host Ledgers.blobs (fun dev => drmModeGetPropertyBlob dev drmVirtualFd id) pair id

def blobId (blob : Option Blob) : Option UInt32 := blob.map Blob.id

theorem getPropertyBlob_eq_seek : drmModeGetPropertyBlob dev drmVirtualFd id =
    match (seek blobId dev.gBlobs (some id)).join with
    | none => .error .ENOENT
    | some blob => .ok { id, length := blob.size, data := blob.data.take blob.size.toNat } := by
  have sameTest : (fun i => (dev.gBlobs i).any (fun blob => blob.id == id)) =
      fun i => decide (blobId (dev.gBlobs i) = some id) := by
    funext i
    cases dev.gBlobs i <;> simp [blobId, Bool.beq_eq_decide_eq]
  simp only [drmModeGetPropertyBlob, checkFd, ne_eq, not_true_eq_false, if_false, blobPlace, sameTest, seek, firstPlace]
  cases (List.finRange maxBlobs).find? (fun i => blobId (dev.gBlobs i) = some id) with
  | none => rfl
  | some i => cases at' : dev.gBlobs i <;> simp [at']

theorem seek_blob_cases {ledger : Ledger UInt32 (List UInt8)} (tracked : BlobsTracked dev ledger) (id : UInt32) :
    (∃ blob, (seek blobId dev.gBlobs (some id)).join = some blob ∧ ledger.find id = some blob.data) ∨
      ((seek blobId dev.gBlobs (some id)).join = none ∧ ledger.find id = none) := by
  have test (i : Fin maxBlobs) : decide (blobId (dev.gBlobs i) = some id) = true ↔
      ∃ data, (Option.map (fun blob => (blob.id, blob.data)) ∘ dev.gBlobs) i = some (id, data) := by
    cases at' : dev.gBlobs i <;> simp [blobId, at']
  rcases tracked.search test with ⟨i, data, found, at', live⟩ | ⟨missing, dead⟩
  · obtain ⟨blob, stored, same⟩ := Option.map_eq_some_iff.mp at'
    cases same
    exact .inl ⟨blob, by rw [seek, found, Option.map_some, stored, Option.join_some], live⟩
  · exact .inr ⟨by rw [seek, missing, Option.map_none, Option.join_none], dead⟩

variable {l next : Ledgers} {a : Action} {out : Output}

theorem seek_blobs_step (stepped : TableStep dev l a out after next) (tracked : BlobsTracked dev l.blobs)
    (few : l.blobs.made < 2 ^ 32) (before : (l.blobs.find id).isSome) (stays : (next.blobs.find id).isSome) :
    seek blobId after.gBlobs (some id) = seek blobId dev.gBlobs (some id) := by
  have live := Ledger.mem_ids_of_find before
  cases stepped with
  | addBlob slot data free same =>
      rw [same.gBlobs]
      refine seek_update_of_ne (by simp [free, blobId]) ?_
      intro named
      have same : dev.gNextBlobId = id := Option.some.inj named
      exact tracked.unused_of_few few (same ▸ live)
  | dropBlob i blob at' same =>
      rw [same.gBlobs]
      refine seek_update_of_ne ?_ (by simp [blobId])
      intro named
      rw [blobId, at', Option.map_some, Option.some.injEq] at named
      exact Ledger.ne_of_find_destroy stays named.symm
  | same same | addDumb slot info free same | dropDumb i same | addFb slot surf free same | dropFb i same =>
      exact congrArg (fun records => seek blobId records (some id)) same.gBlobs

theorem blobEntry_iff (tracked : BlobsTracked pair.1.world.dev pair.2.blobs) (few : pair.2.blobs.made < 2 ^ 32) :
    BlobEntry host pair id ↔ ∀ data, pair.2.blobs.find id = some data → data.length < 2 ^ 32 := by
  have undisturbed : Undisturbed host Ledgers.blobs (fun dev => drmModeGetPropertyBlob dev drmVirtualFd id) pair id := by
    intro a next out done before stays
    simp only [getPropertyBlob_eq_seek, seek_blobs_step (ledgered_cases done) tracked few before stays]
  rcases seek_blob_cases tracked id with ⟨blob, found, live⟩ | ⟨missing, dead⟩
  · have reported : blob.size.toNat = blob.data.length ↔ blob.data.length < 2 ^ 32 := by
      rw [blob.sized, UInt32.toNat_ofNat']
      exact Nat.mod_eq_iff_lt (by decide)
    have got : drmModeGetPropertyBlob pair.1.world.dev drmVirtualFd id =
        .ok { id, length := blob.size, data := blob.data.take blob.size.toNat } := by
      rw [getPropertyBlob_eq_seek, found]
    constructor
    · intro entry data asked
      rw [live, Option.some.injEq] at asked
      obtain ⟨read, same, _, length, _⟩ : ∃ read, _ = Except.ok read ∧ _ := by
        have get := entry.get
        rwa [live] at get
      rw [got, Except.ok.injEq] at same
      rw [← same] at length
      exact asked ▸ reported.mp length
    · intro short
      have whole := reported.mpr (short blob.data live)
      refine ⟨?_, undisturbed⟩
      rw [live]
      exact ⟨_, got, rfl, whole, by rw [whole, List.take_length]⟩
  · simp only [dead, reduceCtorEq, false_imp_iff, implies_true, iff_true]
    refine ⟨?_, undisturbed⟩
    rw [dead, getPropertyBlob_eq_seek, missing]

theorem blobsTracked_of_reachable (reachable : Reachable (ledgered host) ledgersInitial pair)
    (few : pair.2.blobs.made < 2 ^ 32) : BlobsTracked pair.1.world.dev pair.2.blobs := by
  induction reachable with
  | start => exact blobsTracked_initial
  | next _ done ih =>
      have stepped := ledgered_cases done
      have counted := stepped.counts.2.2
      have tracked := ih (by omega)
      refine stepped.blobsTracked tracked fun made => ?_
      rw [if_pos made] at counted
      exact tracked.unused_of_few (by omega)

/-- With fewer than 2 ^ 32 creations, a blob reads as it was created exactly if
its length fits into 32 bits. -/
theorem blobs_round_trip_iff (reachable : Reachable (ledgered host) ledgersInitial pair)
    (few : pair.2.blobs.made < 2 ^ 32) (id : UInt32) :
    BlobEntry host pair id ↔ ∀ data, pair.2.blobs.find id = some data → data.length < 2 ^ 32 :=
  blobEntry_iff (blobsTracked_of_reachable reachable few) few

/-- Two blobs, of which the second is destroyed. -/
def blobActions : List Action :=
  [.call (.createPropertyBlob drmVirtualFd (some [1, 2, 3])), .call (.createPropertyBlob drmVirtualFd (some [4])),
    .call (.destroyPropertyBlob drmVirtualFd 257)]

theorem blobs_round_trip_iff_live : ∃ pair outs,
    runActions (ledgered (.uniform 1)) ledgersInitial blobActions = .ok (pair, outs) ∧
      pair.2.blobs.find 256 = some [1, 2, 3] ∧ pair.2.blobs.find 257 = none ∧
      ∀ id ∈ [256, 257],
        (BlobEntry (.uniform 1) pair id ↔ ∀ data, pair.2.blobs.find id = some data → data.length < 2 ^ 32) := by
  have performed : ∃ pair outs, runActions (ledgered (.uniform 1)) ledgersInitial blobActions = .ok (pair, outs) ∧
      pair.2.blobs.made = 2 ∧ pair.2.blobs.find 256 = some [1, 2, 3] ∧ pair.2.blobs.find 257 = none :=
    ⟨_, _, rfl, rfl, rfl, rfl⟩
  obtain ⟨pair, outs, run, two, live, destroyed⟩ := performed
  exact ⟨pair, outs, run, live, destroyed, fun id _ =>
    blobs_round_trip_iff (runActions_reachable .start run) (by rw [two]; decide) id⟩

theorem first_blob (host : Host) (data : List UInt8) :
    ∃ next out, ledgered host ledgersInitial (.call (.createPropertyBlob drmVirtualFd (some data))) = .ok (next, out) ∧
      next.2.blobs.made = 1 ∧ next.2.blobs.find 256 = some data :=
  ⟨_, _, rfl, rfl, rfl⟩

/-- A blob of 2 ^ 32 bytes is created, but does not read as it. -/
theorem long_blob_reads_empty :
    ∃ next out, ledgered (.uniform 1) ledgersInitial
        (.call (.createPropertyBlob drmVirtualFd (some (List.replicate (2 ^ 32) 0)))) = .ok (next, out) ∧
      next.2.blobs.find 256 = some (List.replicate (2 ^ 32) 0) ∧ ¬ BlobEntry (.uniform 1) next 256 := by
  obtain ⟨next, out, created, one, live⟩ := first_blob (.uniform 1) (List.replicate (2 ^ 32) 0)
  refine ⟨next, out, created, live, fun entry => ?_⟩
  have reachable : Reachable (ledgered (.uniform 1)) ledgersInitial next := .next .start created
  have few : next.2.blobs.made < 2 ^ 32 := by rw [one]; decide
  have short := (blobEntry_iff (blobsTracked_of_reachable reachable few) few).mp entry _ live
  rw [List.length_replicate] at short
  exact lt_irrefl _ short

end Iland.Buffers

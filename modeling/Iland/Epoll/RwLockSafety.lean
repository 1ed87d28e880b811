import Iland.Epoll.RwLock

namespace Iland.Epoll

open Iland.Data

/-! The lock lets a writer in alone.

The counters of the lock say how many threads stand where.  Which equation
they keep depends on how far the thread with the mutex has come.
-/

inductive Region
  | idle
  | waiting
  | reading
  | departing
  | posting
  | writer
deriving DecidableEq, Repr

def Pc.region : Pc → Region
  | .idle => .idle
  | .readerWait => .waiting
  | .reading => .reading
  | .departing => .departing
  | .posting => .posting
  | _ => .writer

/-- Who reads while it still has the mutex has turned a hold for writing into
one for reading. -/
def Pc.hold : Pc → Hold
  | .reading => .read
  | .releasing _ _ keepReading => if keepReading = 0 then .none else .read
  | .writing => .write
  | _ => .none

/-- How many threads stand in the regions that the counters of the lock tell of. -/
structure Counts where
  reading : ℤ
  waiting : ℤ
  departing : ℤ
  posting : ℤ

def Counts.moved (counts : Counts) (old new : Region) : Counts where
  reading := counts.reading - (if old = .reading then 1 else 0) + (if new = .reading then 1 else 0)
  waiting := counts.waiting - (if old = .waiting then 1 else 0) + (if new = .waiting then 1 else 0)
  departing := counts.departing - (if old = .departing then 1 else 0) + (if new = .departing then 1 else 0)
  posting := counts.posting - (if old = .posting then 1 else 0) + (if new = .posting then 1 else 0)

/-- The equations of the counters, by the place of the thread with the mutex. -/
def RWLock.Balanced (lock : RWLock) (counts : Counts) : Pc → Prop
  | .announced r =>
      lock.numPending = counts.reading + counts.waiting - maxReaders ∧ r < maxReaders ∧
      r + lock.readersDeparting = counts.reading + lock.readerWait + counts.departing ∧ lock.readersDeparting ≤ 0 ∧
      (lock.readerWait : ℤ) ≤ counts.waiting ∧ lock.writerWait = 0 ∧ counts.posting = 0
  | .writerWait =>
      lock.numPending = counts.reading + counts.waiting - maxReaders ∧
      lock.readersDeparting = counts.reading + lock.readerWait + counts.departing ∧
      (lock.readerWait : ℤ) ≤ counts.waiting ∧
      (lock.readersDeparting = 0 ∧ counts.posting + lock.writerWait = 1 ∨
        lock.readersDeparting ≠ 0 ∧ counts.posting + lock.writerWait = 0)
  | .writing =>
      lock.numPending = counts.waiting - maxReaders ∧ counts.reading = 0 ∧ lock.readerWait = 0 ∧
      counts.departing = 0 ∧ lock.readersDeparting = 0 ∧ lock.writerWait = 0 ∧ counts.posting = 0
  | .releasing i r keepReading =>
      lock.numPending = counts.reading + counts.waiting + keepReading ∧ (keepReading = 0 ∨ keepReading = 1) ∧ i ≤ r ∧
      lock.readerWait + (r - i) = counts.waiting ∧ counts.departing = 0 ∧
      lock.readersDeparting = 0 ∧ lock.writerWait = 0 ∧ counts.posting = 0
  | _ =>
      lock.numPending = counts.reading + counts.waiting ∧ (lock.readerWait : ℤ) = counts.waiting ∧
      counts.departing = 0 ∧ lock.readersDeparting = 0 ∧ lock.writerWait = 0 ∧ counts.posting = 0

structure Counts.Nonneg (counts : Counts) : Prop where
  reading : 0 ≤ counts.reading
  waiting : 0 ≤ counts.waiting
  departing : 0 ≤ counts.departing
  posting : 0 ≤ counts.posting

/-! What each operation does to the equations.  The sign of `num_pending` tells
whether the thread with the mutex has announced itself. -/

section Equations

variable {lock : RWLock} {counts : Counts} {phase : Pc}

theorem RWLock.Balanced.lockRead (balanced : lock.Balanced counts phase) (nonneg : counts.Nonneg)
    (room : counts.reading + counts.waiting + 1 < maxReaders) :
    { lock with numPending := lock.numPending + 1 }.Balanced
      (counts.moved .idle (if lock.numPending + 1 < 0 then Pc.readerWait else .reading).region) phase := by
  obtain ⟨reading, waiting, _, _⟩ := nonneg
  split
  all_goals
    cases phase <;>
      simp only [RWLock.Balanced, Counts.moved, Pc.region, reduceCtorEq, if_true, if_false] at balanced ⊢ <;> omega

theorem RWLock.Balanced.unlockRead (balanced : lock.Balanced counts phase) (nonneg : counts.Nonneg)
    (reads : 0 < counts.reading) (room : counts.reading + counts.waiting < maxReaders) :
    { lock with numPending := lock.numPending - 1 }.Balanced
      (counts.moved .reading (if lock.numPending - 1 < 0 then Pc.departing else .idle).region) phase := by
  obtain ⟨reading, waiting, _, _⟩ := nonneg
  split
  all_goals
    cases phase <;>
      simp only [RWLock.Balanced, Counts.moved, Pc.region, reduceCtorEq, if_true, if_false] at balanced ⊢ <;> omega

theorem RWLock.Balanced.admitted (balanced : lock.Balanced counts phase) (token : lock.readerWait ≠ 0) :
    { lock with readerWait := lock.readerWait - 1 }.Balanced (counts.moved .waiting .reading) phase := by
  cases phase <;> simp only [RWLock.Balanced, Counts.moved, reduceCtorEq, if_true, if_false] at balanced ⊢ <;> omega

theorem RWLock.Balanced.departing (balanced : lock.Balanced counts phase) (nonneg : counts.Nonneg)
    (departs : 0 < counts.departing) :
    { lock with readersDeparting := lock.readersDeparting - 1 }.Balanced
      (counts.moved .departing (if lock.readersDeparting - 1 = 0 then Pc.posting else .idle).region) phase := by
  obtain ⟨reading, _, _, posting⟩ := nonneg
  split
  all_goals
    cases phase <;>
      simp only [RWLock.Balanced, Counts.moved, Pc.region, reduceCtorEq, if_true, if_false] at balanced ⊢ <;> omega

theorem RWLock.Balanced.posting (balanced : lock.Balanced counts phase)
    (posts : 0 < counts.posting) :
    { lock with writerWait := lock.writerWait + 1 }.Balanced (counts.moved .posting .idle) phase := by
  cases phase <;> simp only [RWLock.Balanced, Counts.moved, reduceCtorEq, if_true, if_false] at balanced ⊢ <;> omega

theorem RWLock.Balanced.pending (balanced : lock.Balanced counts .pending) (nonneg : counts.Nonneg)
    (room : counts.reading + counts.waiting < maxReaders) :
    { lock with numPending := lock.numPending - maxReaders }.Balanced counts
      (if lock.numPending ≠ 0 then .announced lock.numPending else .writing) := by
  obtain ⟨reading, waiting, _, _⟩ := nonneg
  split <;> simp only [RWLock.Balanced] at balanced ⊢ <;> omega

theorem RWLock.Balanced.announced {r : ℤ} (balanced : lock.Balanced counts (.announced r)) (nonneg : counts.Nonneg) :
    { lock with readersDeparting := lock.readersDeparting + r }.Balanced counts
      (if lock.readersDeparting + r ≠ 0 then .writerWait else .writing) := by
  obtain ⟨reading, _, departing, _⟩ := nonneg
  split <;> simp only [RWLock.Balanced] at balanced ⊢ <;> omega

theorem RWLock.Balanced.woken (balanced : lock.Balanced counts .writerWait) (nonneg : counts.Nonneg)
    (token : lock.writerWait ≠ 0) : { lock with writerWait := lock.writerWait - 1 }.Balanced counts .writing := by
  obtain ⟨reading, _, departing, posting⟩ := nonneg
  simp only [RWLock.Balanced] at balanced ⊢
  omega

theorem RWLock.Balanced.unlockCommon {keepReading : ℤ} (balanced : lock.Balanced counts .writing)
    (nonneg : counts.Nonneg) (keeps : keepReading = 0 ∨ keepReading = 1) :
    { lock with numPending := lock.numPending + (maxReaders + keepReading) }.Balanced counts
      (.releasing keepReading (lock.numPending + (maxReaders + keepReading)) keepReading) := by
  obtain ⟨_, waiting, _, _⟩ := nonneg
  simp only [RWLock.Balanced] at balanced ⊢
  omega

theorem RWLock.Balanced.post {i r keepReading : ℤ} (balanced : lock.Balanced counts (.releasing i r keepReading))
    (left : i < r) :
    { lock with readerWait := lock.readerWait + 1 }.Balanced counts (.releasing (i + 1) r keepReading) := by
  simp only [RWLock.Balanced] at balanced ⊢
  omega

theorem RWLock.Balanced.unlocked {i r keepReading : ℤ} (balanced : lock.Balanced counts (.releasing i r keepReading))
    (done : ¬ i < r) :
    { lock with mutex := false }.Balanced
      (counts.moved .writer (if keepReading = 0 then Pc.idle else .reading).region) .idle := by
  split <;> simp only [RWLock.Balanced, Counts.moved, Pc.region, reduceCtorEq, if_true, if_false] at balanced ⊢ <;> omega

theorem RWLock.Balanced.numPending_range (balanced : lock.Balanced counts phase) (nonneg : counts.Nonneg)
    (room : counts.reading + counts.waiting < maxReaders) :
    -maxReaders ≤ lock.numPending ∧ lock.numPending ≤ maxReaders := by
  obtain ⟨_, _, _, _⟩ := nonneg
  cases phase <;> simp only [RWLock.Balanced] at balanced <;> omega

theorem RWLock.Balanced.readersDeparting_range (balanced : lock.Balanced counts phase) (nonneg : counts.Nonneg)
    (room : counts.reading + counts.waiting + counts.departing < maxReaders) :
    -maxReaders ≤ lock.readersDeparting ∧ lock.readersDeparting ≤ maxReaders := by
  obtain ⟨_, _, _, _⟩ := nonneg
  cases phase <;> simp only [RWLock.Balanced] at balanced <;> omega

theorem RWLock.Balanced.readerWait_le (balanced : lock.Balanced counts phase) (nonneg : counts.Nonneg) :
    (lock.readerWait : ℤ) ≤ counts.waiting := by
  obtain ⟨_, _, _, _⟩ := nonneg
  cases phase <;> simp only [RWLock.Balanced] at balanced <;> omega

end Equations

namespace Threads

variable {n : ℕ} (s : Threads n)

def count (region : Region) : ℤ := heldAt (fun pc => some (Pc.region pc)) s.pc region

def counts : Counts := ⟨s.count .reading, s.count .waiting, s.count .departing, s.count .posting⟩

structure Inv (writer : Option (Fin n)) : Prop where
  owner : s.lock.mutex = writer.isSome
  writer_iff : ∀ i, (s.pc i).region = .writer ↔ writer = some i
  balanced : s.lock.Balanced s.counts (writer.elim .idle s.pc)

theorem count_nonneg (region : Region) : 0 ≤ s.count region := heldAt_nonneg _ _ _

theorem count_pos {i : Fin n} {region : Region} (stands : (s.pc i).region = region) : 0 < s.count region :=
  heldAt_pos _ (i := i) (by rw [stands])

theorem sum_count_le : s.count .idle + s.count .waiting + s.count .reading + s.count .departing ≤ n := by
  have total := sum_heldAt_le (fun pc => some (Pc.region pc)) {.idle, .waiting, .reading, .departing} s.pc
  simpa [count, add_assoc] using total

theorem counts_update (lock : RWLock) (i : Fin n) (pc : Pc) :
    (Threads.mk lock (Function.update s.pc i pc)).counts = s.counts.moved (s.pc i).region pc.region := by
  simp only [counts, count, Counts.moved, heldAt_update, held_some]

theorem count_start {region : Region} (apart : region ≠ .idle) : (start : Threads n).count region = 0 := by
  simp [count, heldAt, start, Pc.region, held_some, Ne.symm apart]

theorem inv_start : (start : Threads n).Inv none where
  owner := rfl
  writer_iff := by simp [start, Pc.region]
  balanced := by
    show RWLock.Balanced rwlockInit _ .idle
    simp [RWLock.Balanced, counts, count_start, rwlockInit]

/-- The step of a thread that neither has nor gets the mutex. -/
theorem Inv.other {s : Threads n} {writer : Option (Fin n)} (inv : s.Inv writer) {lock : RWLock} {i : Fin n} {pc : Pc}
    (mutex : lock.mutex = s.lock.mutex) (outside : (s.pc i).region ≠ .writer) (stays : pc.region ≠ .writer)
    (balanced : lock.Balanced (s.counts.moved (s.pc i).region pc.region) (writer.elim .idle s.pc)) :
    (Threads.mk lock (Function.update s.pc i pc)).Inv writer where
  owner := mutex.trans inv.owner
  writer_iff := by
    intro j
    rcases eq_or_ne j i with rfl | apart
    · simp only [Function.update_self]
      exact iff_of_false stays fun own => outside ((inv.writer_iff j).mpr own)
    · simp only [Function.update_of_ne apart]
      exact inv.writer_iff j
  balanced := by
    rw [counts_update]
    cases writer with
    | none => exact balanced
    | some w =>
        have apart : w ≠ i := by
          rintro rfl
          exact outside ((inv.writer_iff w).mpr rfl)
        simpa only [Option.elim_some, Function.update_of_ne apart] using balanced

/-- The step of the thread that has the mutex, or takes it. -/
theorem Inv.own {s : Threads n} {writer : Option (Fin n)} (inv : s.Inv writer) {lock : RWLock} {i : Fin n} {pc : Pc}
    (alone : ∀ j, writer = some j → j = i) (keeps : pc.region = .writer) (mutex : lock.mutex = true)
    (balanced : lock.Balanced (s.counts.moved (s.pc i).region .writer) pc) :
    (Threads.mk lock (Function.update s.pc i pc)).Inv (some i) where
  owner := mutex
  writer_iff := by
    intro j
    rcases eq_or_ne j i with rfl | apart
    · simp [keeps]
    · simp only [Function.update_of_ne apart]
      refine iff_of_false (fun stands => ?_) fun same => apart (Option.some.inj same).symm
      exact apart (alone j ((inv.writer_iff j).mp stands))
  balanced := by
    rw [counts_update, keeps]
    simpa using balanced

theorem Inv.onward {s : Threads n} {i : Fin n} (inv : s.Inv (some i)) {lock : RWLock} {pc : Pc}
    (mutex : lock.mutex = s.lock.mutex) (keeps : pc.region = .writer) (balanced : lock.Balanced s.counts pc) :
    (Threads.mk lock (Function.update s.pc i pc)).Inv (some i) := by
  refine inv.own (fun _ same => (Option.some.inj same).symm) keeps (mutex.trans inv.owner) ?_
  rw [(inv.writer_iff i).mpr rfl]
  simpa [Counts.moved] using balanced

/-- The step with which a thread gives the mutex back. -/
theorem Inv.unlocked {s : Threads n} {i : Fin n} (inv : s.Inv (some i)) {lock : RWLock} {pc : Pc}
    (leaves : pc.region ≠ .writer) (mutex : lock.mutex = false)
    (balanced : lock.Balanced (s.counts.moved .writer pc.region) .idle) :
    (Threads.mk lock (Function.update s.pc i pc)).Inv none where
  owner := mutex
  writer_iff := by
    intro j
    rcases eq_or_ne j i with rfl | apart
    · simp [leaves]
    · simp only [Function.update_of_ne apart]
      refine iff_of_false (fun stands => ?_) nofun
      exact apart (Option.some.inj ((inv.writer_iff j).mp stands)).symm
  balanced := by
    rw [counts_update, (inv.writer_iff i).mpr rfl]
    exact balanced

theorem step_of_move {s : Threads n} {i : Fin n} {call : Call} {result : RWLock × Pc}
    (moved : s.lock.move (s.pc i) call = .ok result) :
    s.step (i, call) = .ok (⟨result.1, Function.update s.pc i result.2⟩, result.2) := by
  simp only [step, moved, bind, Except.bind, pure, Except.pure]

theorem step_error_of_move {s : Threads n} {i : Fin n} {call : Call} {reason : Stop}
    (stopped : s.lock.move (s.pc i) call = .error reason) : s.step (i, call) = .error reason := by
  simp only [step, stopped, bind, Except.bind]

theorem step_moves {s after : Threads n} {i : Fin n} {call : Call} {out : Pc}
    (stepped : s.step (i, call) = .ok (after, out)) :
    ∃ lock, Moves s.lock (s.pc i) call lock out ∧ after = ⟨lock, Function.update s.pc i out⟩ := by
  cases moved : s.lock.move (s.pc i) call with
  | error reason => simp [step_error_of_move moved] at stepped
  | ok result =>
      rw [step_of_move moved, Except.ok.injEq, Prod.mk.injEq] at stepped
      obtain ⟨rfl, rfl⟩ := stepped
      exact ⟨result.1, s.lock.move_moves moved, rfl⟩

theorem counts_nonneg : s.counts.Nonneg :=
  ⟨s.count_nonneg _, s.count_nonneg _, s.count_nonneg _, s.count_nonneg _⟩

theorem counts_le : s.counts.reading + s.counts.waiting + s.counts.departing ≤ n - s.count .idle := by
  have total := s.sum_count_le
  simp only [counts]
  omega

theorem Inv.mutex_free {s : Threads n} {writer : Option (Fin n)} (inv : s.Inv writer) (free : s.lock.mutex = false) :
    writer = none := by
  have owner := inv.owner
  rw [free] at owner
  exact Option.isNone_iff_eq_none.mp (by simpa using owner.symm)

theorem Inv.step {s after : Threads n} {writer : Option (Fin n)} {i : Fin n} {call : Call} {out : Pc}
    (few : n < maxReaders) (inv : s.Inv writer) (stepped : s.step (i, call) = .ok (after, out)) :
    ∃ writer, after.Inv writer := by
  obtain ⟨lock, moves, rfl⟩ := step_moves stepped
  have nonneg := s.counts_nonneg
  have bound := s.counts_le
  have departing := s.counts_nonneg.departing
  have idlers := s.count_nonneg .idle
  have mine : (s.pc i).region = .writer → writer = some i := (inv.writer_iff i).mp
  have balanced := inv.balanced
  generalize stands : s.pc i = pc at moves mine
  have standing := fun (region : Region) (stands : (s.pc i).region = region) => s.count_pos stands
  rw [stands] at standing
  cases moves with
  | lockRead =>
      have idle := standing .idle rfl
      refine ⟨writer, inv.other rfl ?_ ?_ ?_⟩
      · simp [stands, Pc.region]
      · split <;> simp [Pc.region]
      · rw [stands]
        exact balanced.lockRead nonneg (by omega)
  | unlockRead =>
      have reads := standing .reading rfl
      refine ⟨writer, inv.other rfl ?_ ?_ ?_⟩
      · simp [stands, Pc.region]
      · split <;> simp [Pc.region]
      · rw [stands]
        exact balanced.unlockRead nonneg reads (by omega)
  | lockWrite free =>
      have none := inv.mutex_free free
      subst none
      refine ⟨some i, inv.own nofun rfl rfl ?_⟩
      rw [stands]
      simpa [RWLock.Balanced, Counts.moved, Pc.region] using balanced
  | unlockWrite =>
      cases mine rfl
      rw [Option.elim_some, stands] at balanced
      exact ⟨some i, inv.onward rfl rfl (balanced.unlockCommon nonneg (.inl rfl))⟩
  | downgrade =>
      cases mine rfl
      rw [Option.elim_some, stands] at balanced
      exact ⟨some i, inv.onward rfl rfl (balanced.unlockCommon nonneg (.inr rfl))⟩
  | admitted token =>
      refine ⟨writer, inv.other rfl ?_ (by simp [Pc.region]) ?_⟩
      · simp [stands, Pc.region]
      · rw [stands]
        exact balanced.admitted token
  | departing =>
      have departs := standing .departing rfl
      refine ⟨writer, inv.other rfl ?_ ?_ ?_⟩
      · simp [stands, Pc.region]
      · split <;> simp [Pc.region]
      · rw [stands]
        exact balanced.departing nonneg departs
  | posting =>
      have posts := standing .posting rfl
      refine ⟨writer, inv.other rfl ?_ (by simp [Pc.region]) ?_⟩
      · simp [stands, Pc.region]
      · rw [stands]
        exact balanced.posting posts
  | pending =>
      cases mine rfl
      rw [Option.elim_some, stands] at balanced
      refine ⟨some i, inv.onward rfl ?_ (balanced.pending nonneg (by omega))⟩
      split <;> rfl
  | announced r =>
      cases mine rfl
      rw [Option.elim_some, stands] at balanced
      refine ⟨some i, inv.onward rfl ?_ (balanced.announced nonneg)⟩
      split <;> rfl
  | woken token =>
      cases mine rfl
      rw [Option.elim_some, stands] at balanced
      exact ⟨some i, inv.onward rfl rfl (balanced.woken nonneg token)⟩
  | post j r keepReading left =>
      cases mine rfl
      rw [Option.elim_some, stands] at balanced
      exact ⟨some i, inv.onward rfl rfl (balanced.post left)⟩
  | unlocked j r keepReading done =>
      cases mine rfl
      rw [Option.elim_some, stands] at balanced
      refine ⟨none, inv.unlocked ?_ rfl (balanced.unlocked done)⟩
      split <;> simp [Pc.region]

/-- No counter leaves its type. -/
theorem Inv.move_ne_overflow {s : Threads n} {writer : Option (Fin n)} (few : n < maxReaders) (inv : s.Inv writer)
    (i : Fin n) (call : Call) : s.lock.move (s.pc i) call ≠ .error .overflow := by
  have bound := s.counts_le
  have idlers := s.count_nonneg .idle
  have nonneg := s.counts_nonneg
  obtain ⟨reading, waiting, departing, posting⟩ := s.counts_nonneg
  have balanced := inv.balanced
  have phase : (s.pc i).region = .writer → s.lock.Balanced s.counts (s.pc i) := by
    intro own
    rwa [(inv.writer_iff i).mp own] at balanced
  refine RWLock.move_ne_overflow (balanced.numPending_range nonneg (by omega)) ?_
    (balanced.readersDeparting_range nonneg (by omega)) ?_
  · intro writes
    have equations := phase (by rw [writes]; rfl)
    rw [writes] at equations
    simp only [RWLock.Balanced] at equations
    omega
  · intro r announced
    have equations := phase (by rw [announced]; rfl)
    rw [announced] at equations
    simp only [RWLock.Balanced] at equations
    omega

def Sound (s : Threads n) : Prop := ∃ writer, s.Inv writer

theorem sound_of_reachable {s : Threads n} (few : n < maxReaders) (reachable : Reachable step start s) : s.Sound := by
  refine reachable.invariant ⟨none, inv_start⟩ ?_
  rintro state ⟨i, call⟩ after out ⟨writer, inv⟩ stepped
  exact inv.step few stepped

/-! What the threads hold. -/

def holds (s : Threads n) : Fin n → Hold := fun i => (s.pc i).hold

theorem holds_update (lock : RWLock) (i : Fin n) (pc : Pc) :
    (Threads.mk lock (Function.update s.pc i pc)).holds = Function.update s.holds i pc.hold := by
  funext j
  rcases eq_or_ne j i with rfl | apart
  · simp [holds]
  · simp [holds, apart]

/-- While a thread writes nobody else holds the lock. -/
theorem Inv.alone {s : Threads n} {writer : Option (Fin n)} (inv : s.Inv writer) {i : Fin n}
    (writes : s.pc i = .writing) : ∀ j, j ≠ i → s.holds j = .none := by
  have own := (inv.writer_iff i).mp (by rw [writes]; rfl)
  have balanced := inv.balanced
  rw [own, Option.elim_some, writes] at balanced
  intro j apart
  have unread : (s.pc j).region ≠ .reading := by
    intro reads
    have present := s.count_pos reads
    have absent : s.count .reading = 0 := balanced.2.1
    omega
  have outside : (s.pc j).region ≠ .writer := by
    intro stands
    rw [(inv.writer_iff j).mp stands] at own
    exact apart (Option.some.inj own)
  simp only [holds]
  cases at_ : s.pc j <;> simp_all [Pc.hold, Pc.region]

theorem hold_eq_write {pc : Pc} : pc.hold = .write ↔ pc = .writing := by
  cases pc <;> simp only [Pc.hold, reduceCtorEq]
  split <;> simp

theorem Inv.writing {s : Threads n} {writer : Option (Fin n)} (inv : s.Inv writer) {j : Fin n}
    (writes : s.holds j = .write) : s.lock.readerWait = 0 ∧ s.lock.numPending = s.counts.waiting - maxReaders := by
  have stands := hold_eq_write.mp writes
  have balanced := inv.balanced
  rw [(inv.writer_iff j).mp (by rw [stands]; rfl), Option.elim_some, stands] at balanced
  exact ⟨balanced.2.2.1, balanced.1⟩

/-- A step grants only what the other holders admit. -/
theorem Inv.lockStep {s after : Threads n} {writer : Option (Fin n)} {i : Fin n} {call : Call} {out : Pc}
    (few : n < maxReaders) (inv : s.Inv writer) (stepped : s.step (i, call) = .ok (after, out)) :
    LockStep s.holds after.holds := by
  obtain ⟨writer', inv'⟩ := inv.step few stepped
  obtain ⟨lock, moves, rfl⟩ := step_moves stepped
  rw [holds_update]
  have bound := s.counts_le
  have nonneg := s.counts_nonneg
  have entered : (s.pc i).hold = .none → out = .writing →
      LockStep s.holds (Function.update s.holds i out.hold) := by
    rintro free rfl
    refine .acquire i .write free fun j apart => ?_
    have alone := inv'.alone (i := i) (by simp) j apart
    simpa only [holds, Function.update_of_ne apart] using alone
  have admitted : (s.pc i).hold = .none → (∀ j, s.holds j ≠ .write) → out = .reading →
      LockStep s.holds (Function.update s.holds i out.hold) := by
    rintro free quiet rfl
    exact .acquire i .read free fun j _ => quiet j
  have stayed : (s.pc i).hold = out.hold → LockStep s.holds (Function.update s.holds i out.hold) := by
    intro same
    rw [← same, show (s.pc i).hold = s.holds i from rfl, Function.update_eq_self]
    exact .stay
  have quiet : 0 < s.count .idle ∧ 0 ≤ s.lock.numPending + 1 ∨ s.lock.readerWait ≠ 0 →
      ∀ j, s.holds j ≠ .write := by
    intro room j writes
    obtain ⟨tokens, pending⟩ := inv.writing writes
    obtain ⟨reading, waiting, departing, posting⟩ := s.counts_nonneg
    omega
  have standing := fun (region : Region) (stands : (s.pc i).region = region) => s.count_pos stands
  generalize stands : s.pc i = pc at moves entered admitted stayed standing
  cases moves with
  | lockRead =>
      by_cases negative : s.lock.numPending + 1 < 0
      · exact stayed (by rw [if_pos negative]; rfl)
      · exact admitted rfl (quiet (.inl ⟨standing .idle rfl, by omega⟩)) (if_neg negative)
  | unlockRead =>
      split <;> exact .release i
  | lockWrite free => exact stayed rfl
  | unlockWrite => exact .release i
  | downgrade => exact .downgrade i (by rw [holds, stands]; rfl)
  | admitted token => exact admitted rfl (quiet (.inr token)) rfl
  | departing => exact stayed (by split <;> rfl)
  | posting => exact stayed rfl
  | pending =>
      by_cases readers : s.lock.numPending ≠ 0
      · exact stayed (by rw [if_pos readers]; rfl)
      · exact entered rfl (if_neg readers)
  | announced r =>
      by_cases readers : s.lock.readersDeparting + r ≠ 0
      · exact stayed (by rw [if_pos readers]; rfl)
      · exact entered rfl (if_neg readers)
  | woken token => exact entered rfl rfl
  | post j r keepReading left => exact stayed rfl
  | unlocked j r keepReading done => exact stayed (by simp only [Pc.hold]; split <;> rfl)

end Threads

end Iland.Epoll

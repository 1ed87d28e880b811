import Iland.Epoll.RwLockSafety

namespace Iland.Epoll.Threads

open Iland.Data

/-! What every interleaving of the lock's operations comes to.

The semaphores carry exactly the permits that the waiting threads need: no
thread waits unless another one holds the lock or is on its way out of it.
-/

variable {n : ℕ} {s : Threads n}

/-- The lock of the code is a readers-writer lock. -/
theorem refines_readers_writer (few : n < maxReaders) (reachable : Reachable step start s) :
    Exclusive s.holds ∧ (∀ action, s.step action ≠ .error .overflow) ∧
      ∀ action after out, s.step action = .ok (after, out) → LockStep s.holds after.holds := by
  have exclusive : Exclusive s.holds := by
    induction reachable with
    | start => exact exclusive_none
    | @next state action _ _ reached stepped ih =>
        obtain ⟨_, inv⟩ := sound_of_reachable few reached
        exact ih.lockStep (Inv.lockStep few inv (show state.step (action.1, action.2) = _ from stepped))
  obtain ⟨_, inv⟩ := sound_of_reachable few reachable
  refine ⟨exclusive, ?_, ?_⟩
  · rintro ⟨i, call⟩ stopped
    cases moved : s.lock.move (s.pc i) call with
    | ok result => simp [step_of_move moved] at stopped
    | error reason =>
        rw [step_error_of_move moved, Except.error.injEq] at stopped
        exact inv.move_ne_overflow few i call (stopped ▸ moved)
  · rintro ⟨i, call⟩ after out stepped
    exact inv.lockStep few stepped

/-- Thread 0 reads, thread 1 waits to write. -/
theorem refines_readers_writer_two :
    ∃ s : Threads 2, runActions step start [(0, .lockRead), (1, .lockWrite), (1, .resume), (1, .resume)] =
        .ok (s, [.reading, .pending, .announced 1, .writerWait]) ∧
      Exclusive s.holds ∧ (∀ action, s.step action ≠ .error .overflow) ∧
      ∀ action after out, s.step action = .ok (after, out) → LockStep s.holds after.holds :=
  ⟨_, rfl, refines_readers_writer (by decide) (runActions_reachable .start
    (show runActions step start [(0, .lockRead), (1, .lockWrite), (1, .resume), (1, .resume)] = .ok (_, _) from rfl))⟩

theorem count_eq_zero {region : Region} (absent : ∀ i, (s.pc i).region ≠ region) : s.count region = 0 := by
  simp [count, heldAt, held_some, absent]

theorem exists_of_count_pos {region : Region} (present : 0 < s.count region) : ∃ i, (s.pc i).region = region := by
  by_contra absent
  have none := count_eq_zero (s := s) fun i stands => absent ⟨i, stands⟩
  omega

theorem region_waiting {pc : Pc} : pc.region = .waiting ↔ pc = .readerWait := by
  cases pc <;> simp [Pc.region]

/-- A thread that holds nothing and cannot go on is outside the lock, or waits
at a semaphore without a permit. -/
theorem Inv.stopped {writer : Option (Fin n)} {i : Fin n} (few : n < maxReaders) (inv : s.Inv writer)
    (unheld : s.holds i = .none) (stuck : ∀ result, s.step (i, .resume) ≠ .ok result) :
    s.pc i = .idle ∨ s.pc i = .readerWait ∧ s.lock.readerWait = 0 ∨ s.pc i = .writerWait ∧ s.lock.writerWait = 0 := by
  have resumes : s.lock.move (s.pc i) .resume = s.lock.resume (s.pc i) := by
    cases s.pc i <;> rfl
  cases resumed : s.lock.resume (s.pc i) with
  | ok result => exact absurd (step_of_move (resumes.trans resumed)) (stuck _)
  | error reason =>
      have fits := inv.move_ne_overflow few i .resume
      rw [resumes, resumed] at fits
      simp only [holds] at unheld
      rcases RWLock.resume_error resumed with rfl | idle | reads | writes | waits | waits
      · exact absurd rfl fits
      · exact .inl idle
      · simp [reads, Pc.hold] at unheld
      · simp [writes, Pc.hold] at unheld
      · exact .inr (.inl waits)
      · exact .inr (.inr waits)

/-- No wake-up is lost: when no thread holds the lock and none can go on, the
lock is as it was at the start. -/
theorem start_of_stuck (few : n < maxReaders) (reachable : Reachable step start s)
    (unheld : ∀ i, s.holds i = .none) (stuck : ∀ i result, s.step (i, .resume) ≠ .ok result) : s = start := by
  obtain ⟨writer, inv⟩ := sound_of_reachable few reachable
  have places := fun i => inv.stopped few (unheld i) (stuck i)
  have tokenless : 0 < s.count .waiting → s.lock.readerWait = 0 := by
    intro waiting
    obtain ⟨i, stands⟩ := exists_of_count_pos waiting
    have waits := region_waiting.mp stands
    rcases places i with idle | ⟨_, none⟩ | ⟨writes, _⟩
    · rw [waits] at idle
      cases idle
    · exact none
    · rw [waits] at writes
      cases writes
  have absent : ∀ region, region ≠ .idle → region ≠ .waiting → region ≠ .writer → s.count region = 0 := by
    intro region idle waiting writer
    refine count_eq_zero fun i stands => ?_
    rcases places i with place | ⟨place, _⟩ | ⟨place, _⟩ <;> rw [place] at stands <;> simp_all [Pc.region]
  have reading : s.counts.reading = 0 := absent .reading (by decide) (by decide) (by decide)
  have departing : s.counts.departing = 0 := absent .departing (by decide) (by decide) (by decide)
  have posting : s.counts.posting = 0 := absent .posting (by decide) (by decide) (by decide)
  have nonneg : 0 ≤ s.counts.waiting := s.count_nonneg .waiting
  have waiting : 0 < s.counts.waiting → s.lock.readerWait = 0 := tokenless
  have balanced := inv.balanced
  have free : writer = none := by
    cases writer with
    | none => rfl
    | some w =>
        have own := (inv.writer_iff w).mpr rfl
        rcases places w with place | ⟨place, _⟩ | ⟨place, none⟩
        · simp [place, Pc.region] at own
        · simp [place, Pc.region] at own
        · rw [Option.elim_some, place] at balanced
          simp only [RWLock.Balanced] at balanced
          omega
  subst free
  simp only [Option.elim_none, RWLock.Balanced] at balanced
  have empty : s.counts.waiting = 0 := by omega
  have idle : ∀ i, s.pc i = .idle := by
    intro i
    rcases places i with place | ⟨place, _⟩ | ⟨place, _⟩
    · exact place
    · have present := s.count_pos (region_waiting.mpr place)
      have none : s.count .waiting = 0 := empty
      omega
    · have own := (inv.writer_iff i).mp (by rw [place]; rfl)
      cases own
  have owner := inv.owner
  obtain ⟨⟨mutex, writerWait, readerWait, numPending, readersDeparting⟩, pc⟩ := s
  simp only [Option.isSome_none] at owner balanced
  simp only [start, rwlockInit, Threads.mk.injEq, RWLock.mk.injEq]
  exact ⟨⟨owner, by omega, by omega, by omega, by omega⟩, funext idle⟩

/-- Thread 1 waits to read until thread 0 has written and lets it in. -/
def waitsAndReads : List (Fin 2 × Call) := [(0, .lockWrite), (0, .resume), (1, .lockRead), (0, .unlockWrite),
  (0, .resume), (1, .resume), (0, .resume), (1, .unlockRead)]

theorem start_of_stuck_let_in :
    ∃ s : Threads 2, runActions step start waitsAndReads = .ok (s, [.pending, .writing, .readerWait,
        .releasing 0 1 0, .releasing 1 1 0, .reading, .idle, .idle]) ∧ s = start := by
  refine ⟨_, rfl, start_of_stuck (by decide) (runActions_reachable .start
    (show runActions step start waitsAndReads = .ok (_, _) from rfl)) ?_ ?_⟩
  · intro i
    fin_cases i <;> rfl
  · intro i result stepped
    fin_cases i <;> cases stepped

/-! How many readers get ahead of a writer. -/

def Announced : Pc → Prop
  | .announced _ => True
  | .writerWait => True
  | _ => False

theorem Inv.admits_on_permit {after : Threads n} {writer : Option (Fin n)} {w i : Fin n} {call : Call} {out : Pc}
    (few : n < maxReaders) (inv : s.Inv writer) (waits : Announced (s.pc w))
    (stepped : s.step (i, call) = .ok (after, out)) :
    (if out = .reading then 1 else 0) + after.lock.readerWait = s.lock.readerWait := by
  have own : writer = some w := by
    refine (inv.writer_iff w).mp ?_
    cases place : s.pc w <;> simp_all [Announced, Pc.region]
  have bound := s.counts_le
  obtain ⟨reading, waiting, departing, posting⟩ := s.counts_nonneg
  have pending : s.lock.numPending = s.counts.reading + s.counts.waiting - maxReaders := by
    have balanced := inv.balanced
    rw [own, Option.elim_some] at balanced
    cases place : s.pc w <;> rw [place] at balanced waits <;> first | exact balanced.1 | cases waits
  have nobody : (s.pc i).region = .writer → Announced (s.pc i) := by
    intro stands
    have same := (inv.writer_iff i).mp stands
    rw [own] at same
    exact Option.some.inj same ▸ waits
  have standing := fun (region : Region) (stands : (s.pc i).region = region) => s.count_pos stands
  obtain ⟨lock, moves, rfl⟩ := step_moves stepped
  generalize s.pc i = pc at moves nobody standing
  cases moves with
  | lockRead =>
      have idle := standing .idle rfl
      rw [if_pos (show s.lock.numPending + 1 < 0 by omega)]
      simp
  | unlockRead =>
      have idlers := s.count_nonneg .idle
      rw [if_pos (show s.lock.numPending - 1 < 0 by omega)]
      simp
  | lockWrite free =>
      simp
  | unlockWrite => simp
  | downgrade => simp
  | admitted token =>
      simp only [if_true]
      omega
  | departing => split <;> simp
  | posting => simp
  | pending => split <;> simp
  | announced r => split <;> simp
  | woken token => simp
  | post j r keepReading left => exact (nobody rfl).elim
  | unlocked j r keepReading done => exact (nobody rfl).elim

theorem permits_taken (few : n < maxReaders) (reachable : Reachable step start s) {w : Fin n}
    {actions : List (Fin n × Call)} {last : Threads n} {outs : List Pc}
    (waits : Along step (fun state _ => Announced (state.pc w)) s actions)
    (run : runActions step s actions = .ok (last, outs)) :
    outs.count .reading + last.lock.readerWait = s.lock.readerWait := by
  induction actions generalizing s outs with
  | nil =>
      simp only [runActions, Except.ok.injEq, Prod.mk.injEq] at run
      obtain ⟨rfl, rfl⟩ := run
      simp
  | cons action rest ih =>
      obtain ⟨next, out, tail, stepped, remaining, rfl⟩ := runActions_cons_ok run
      obtain ⟨_, inv⟩ := sound_of_reachable few reachable
      have first := Inv.admits_on_permit few inv waits.1 (show _ = _ from stepped)
      have later := ih (reachable.next stepped) (waits.2 next out stepped) remaining
      rw [List.count_cons]
      simp only [beq_iff_eq]
      omega

/-- While a writer that has announced itself waits, every admission of a reader
takes a permit that a waiting reader was given before, and no new one is given. -/
theorem admissions_on_permits (few : n < maxReaders) (reachable : Reachable step start s) {w : Fin n}
    {actions : List (Fin n × Call)} {last : Threads n} {outs : List Pc}
    (waits : Along step (fun state _ => Announced (state.pc w)) s actions)
    (run : runActions step s actions = .ok (last, outs)) :
    outs.count .reading + last.lock.readerWait = s.lock.readerWait ∧ (s.lock.readerWait : ℤ) ≤ s.count .waiting := by
  refine ⟨?_, ?_⟩
  · exact permits_taken few reachable waits run
  · obtain ⟨_, inv⟩ := sound_of_reachable few reachable
    exact inv.balanced.readerWait_le s.counts_nonneg

/-- A reader that was let in by the permit of an earlier writer gets ahead of the
writer that has announced itself since. -/
theorem admissions_on_permits_three :
    ∃ s last : Threads 3, runActions step start [(0, .lockWrite), (0, .resume), (1, .lockRead), (0, .unlockWrite),
        (0, .resume), (0, .resume), (2, .lockWrite), (2, .resume)] =
          .ok (s, [.pending, .writing, .readerWait, .releasing 0 1 0, .releasing 1 1 0, .idle, .pending, .announced 1]) ∧
      runActions step s [(2, .resume), (1, .resume)] = .ok (last, [.writerWait, .reading]) ∧
      [Pc.writerWait, .reading].count .reading + last.lock.readerWait = s.lock.readerWait ∧
      (s.lock.readerWait : ℤ) ≤ s.count .waiting :=
  ⟨_, _, rfl, rfl, admissions_on_permits (by decide) (runActions_reachable .start
    (show runActions step start [(0, .lockWrite), (0, .resume), (1, .lockRead), (0, .unlockWrite), (0, .resume),
      (0, .resume), (2, .lockWrite), (2, .resume)] = .ok (_, _) from rfl))
    (show Along step (fun state _ => Announced (state.pc 2)) _ [(2, .resume), (1, .resume)] from
      .cons rfl trivial (.cons rfl trivial trivial)) rfl⟩

end Iland.Epoll.Threads

import IcsTrafficGen.Modbus.ReadWriteLock

/- Mutual exclusion of the reader-writer lock. The invariant `RwInv` counts: the
   reader counter is the number of threads inside a reader section, the writer
   flag the number of threads inside a writer section, and the queue holds at
   least as many writer conditions as there are waiting writers. It says nothing
   of which condition belongs to whom: `acquire_writer` pops the head of the
   queue, which need not be its own entry. -/
namespace IcsTrafficGen.Modbus

def Cond.isWriter : Cond → Bool
  | .reader => false
  | .writer _ => true

def Pc.isWaitWriter : Pc → Bool
  | .waitWriter _ => true
  | _ => false

/-- The number of writer conditions in the queue. -/
def RwLock.writersQueued (l : RwLock) : Nat := l.queue.countP Cond.isWriter

/-- A reader that wakes takes no writer condition out of the queue. -/
theorem RwLock.filter_isWriter_tail {l : RwLock} (h : l.isPendingWriter = false) :
    l.queue.tail.filter Cond.isWriter = l.queue.filter Cond.isWriter := by
  rcases (RwLock.isPendingWriter_eq_false.mp h).2 with hq | hq
  · rw [hq, List.tail_nil]
  · obtain ⟨queue, hq⟩ := List.head?_eq_some_iff.mp hq
    rw [hq, List.tail_cons, List.filter_cons_of_neg Bool.false_ne_true]

variable {T : Type}

/-- The threads inside a reader section, inside a writer section, and waiting in
`acquire_writer`. -/
noncomputable def readersIn (pc : T → Pc) : Nat := tally pc (· = .inReader)
noncomputable def writersIn (pc : T → Pc) : Nat := tally pc (· = .inWriter)
noncomputable def writersWaiting (pc : T → Pc) : Nat := tally pc (fun p => p.isWaitWriter = true)

structure RwInv (l : RwLock) (pc : T → Pc) : Prop where
  finite : FiniteOff pc .idle
  readers : l.readers = readersIn pc
  writer : l.writer.toNat = writersIn pc
  apart : l.writer = true → l.readers = 0
  queued : writersWaiting pc ≤ l.writersQueued
  readerOnce : l.queue.count .reader ≤ 1
  noRaise : ∀ t, pc t ≠ .raised

theorem rwInv_init : RwInv RwLock.init (fun _ : T => .idle) where
  finite := finiteOff_const _
  readers := by simp [readersIn, tally_eq_zero, RwLock.init]
  writer := by simp [writersIn, tally_eq_zero, RwLock.init]
  apart := by simp [RwLock.init]
  queued := by simp [writersWaiting, tally_eq_zero, Pc.isWaitWriter]
  readerOnce := by simp [RwLock.init]
  noRaise := by simp

section
variable {pc : T → Pc} (h : FiniteOff pc .idle)
include h

theorem readersIn_pos {t : T} (ht : pc t = .inReader) : 0 < readersIn pc :=
  tally_pos (h.setOf (P := fun p : Pc => p = .inReader) (by simp)) ht

theorem writersIn_pos {t : T} (ht : pc t = .inWriter) : 0 < writersIn pc :=
  tally_pos (h.setOf (P := fun p : Pc => p = .inWriter) (by simp)) ht

theorem writersWaiting_pos {t : T} {c : Cond} (ht : pc t = .waitWriter c) :
    0 < writersWaiting pc :=
  tally_pos (h.setOf (P := fun p : Pc => p.isWaitWriter = true) (by simp [Pc.isWaitWriter]))
    (by rw [ht]; rfl)

variable [DecidableEq T] (t : T) (p : Pc)

theorem readersIn_update :
    readersIn (Function.update pc t p) + (if pc t = .inReader then 1 else 0) =
      readersIn pc + (if p = .inReader then 1 else 0) :=
  tally_update (P := fun p : Pc => p = .inReader)
    (h.setOf (P := fun p : Pc => p = .inReader) (by simp))

theorem writersIn_update :
    writersIn (Function.update pc t p) + (if pc t = .inWriter then 1 else 0) =
      writersIn pc + (if p = .inWriter then 1 else 0) :=
  tally_update (P := fun p : Pc => p = .inWriter)
    (h.setOf (P := fun p : Pc => p = .inWriter) (by simp))

theorem writersWaiting_update :
    writersWaiting (Function.update pc t p) + (if (pc t).isWaitWriter = true then 1 else 0) =
      writersWaiting pc + (if p.isWaitWriter = true then 1 else 0) :=
  tally_update (P := fun p : Pc => p.isWaitWriter = true)
    (h.setOf (P := fun p : Pc => p.isWaitWriter = true) (by simp [Pc.isWaitWriter]))

end

/-! ## Every section keeps the invariant -/

namespace Moves
variable {l l' : RwLock} {p p' : Pc} (hm : Moves l p l' p')
include hm

theorem readers (h : p = .inReader → 1 ≤ l.readers) :
    l'.readers + (if p = .inReader then 1 else 0 : Nat) =
      l.readers + (if p' = .inReader then 1 else 0 : Nat) := by
  cases hm with
  -- the clamp at 0 is idle: the thread that leaves is counted
  | readerLeaves =>
    have := h rfl
    simp only [if_true, reduceCtorEq, if_false]
    omega
  | _ => simp

theorem writer (hw : p = .inWriter → l.writer = true) (hr : p ≠ .raised) :
    l'.writer.toNat + (if p = .inWriter then 1 else 0) =
      l.writer.toNat + (if p' = .inWriter then 1 else 0) := by
  cases hm with
  | writerEnters hf => simp [hf.1]
  | writerPops _ _ _ hf _ => simp [hf.1]
  | writerLeaves => simp [hw rfl]
  | raisedLeaves => exact absurd rfl hr
  | _ => simp

theorem apart (h : l.writer = true → l.readers = 0) (hr : p = .inReader → 1 ≤ l.readers) :
    l'.writer = true → l'.readers = 0 := by
  cases hm with
  | readerEnters hp => simp [(RwLock.isPendingWriter_eq_false.mp hp).1]
  | readerWakes hp => simp [(RwLock.isPendingWriter_eq_false.mp hp).1]
  | writerEnters hf => exact fun _ => hf.2
  | writerPops _ _ _ hf _ => exact fun _ => hf.2
  | readerLeaves =>
    intro hw
    have := h hw
    have := hr rfl
    omega
  | writerLeaves | raisedLeaves => exact fun hw => absurd hw Bool.false_ne_true
  | _ => exact h

theorem readerOnce (h : l.queue.count .reader ≤ 1) : l'.queue.count .reader ≤ 1 := by
  cases hm with
  | readerWaits _ =>
    simp only
    split
    · exact h
    · next hn => simp [List.count_eq_zero_of_not_mem hn]
  | readerWakes _ => exact ((List.tail_sublist _).count_le _).trans h
  | writerWaits _ => simpa using h
  | writerPops c d queue _ hq =>
    rw [hq] at h
    exact ((List.sublist_cons_self d queue).count_le _).trans h
  | _ => exact h

/-- How far the writer conditions exceed the waiting writers never shrinks: only
a writer that stops waiting can pop one. -/
theorem writersQueued :
    l.writersQueued + (if p'.isWaitWriter = true then 1 else 0) ≤
      l'.writersQueued + (if p.isWaitWriter = true then 1 else 0) := by
  cases hm with
  | readerWaits _ =>
    by_cases hmem : Cond.reader ∈ l.queue <;>
      simp [RwLock.writersQueued, Pc.isWaitWriter, hmem]
  | readerWakes hp =>
    simp [RwLock.writersQueued, Pc.isWaitWriter, List.countP_eq_length_filter,
      RwLock.filter_isWriter_tail hp]
  | writerWaits _ => simp [RwLock.writersQueued, Pc.isWaitWriter, Cond.isWriter]
  -- the popped entry need not be a writer condition, so the count may only grow
  | writerPops c d queue _ hq =>
    simp only [RwLock.writersQueued, hq, Pc.isWaitWriter, List.countP_cons]
    split <;> simp
  | _ => simp [RwLock.writersQueued, Pc.isWaitWriter]

theorem noRaise (hq : p.isWaitWriter = true → l.queue ≠ []) : p' ≠ .raised := by
  cases hm with
  | writerRaises c _ hnil => exact absurd hnil (hq rfl)
  | _ => simp

end Moves

namespace RwInv
variable {l l' : RwLock} {pc : T → Pc} (h : RwInv l pc)
include h

theorem readers_pos {t : T} (ht : pc t = .inReader) : 1 ≤ l.readers := by
  have := readersIn_pos h.finite ht
  have := h.readers
  omega

theorem writer_true {t : T} (ht : pc t = .inWriter) : l.writer = true := by
  have hpos := writersIn_pos h.finite ht
  rw [← h.writer] at hpos
  cases hw : l.writer
  · rw [hw] at hpos; exact absurd hpos (by decide)
  · rfl

theorem finite_inWriter : {t | pc t = .inWriter}.Finite :=
  h.finite.setOf (P := fun p : Pc => p = .inWriter) (by simp)

theorem one_writer {t u : T} (ht : pc t = .inWriter) (hu : pc u = .inWriter) : t = u := by
  have hcard : {t | pc t = .inWriter}.ncard = l.writer.toNat := h.writer.symm
  have hle : {t | pc t = .inWriter}.ncard ≤ 1 := hcard ▸ Bool.toNat_le _
  exact (Set.ncard_le_one h.finite_inWriter).mp hle t ht u hu

theorem no_reader {t u : T} (ht : pc t = .inWriter) : pc u ≠ .inReader := by
  intro hu
  have := h.readers_pos hu
  have := h.apart (h.writer_true ht)
  omega

/-- A waiting writer has a writer condition in the queue, not necessarily its own. -/
theorem queue_ne_nil {t : T} (ht : (pc t).isWaitWriter = true) : l.queue ≠ [] := by
  intro hnil
  have hpos : 0 < writersWaiting pc := by
    cases hp : pc t with
    | waitWriter c => exact writersWaiting_pos h.finite hp
    | _ => rw [hp] at ht; exact absurd ht (by simp [Pc.isWaitWriter])
  have hle := h.queued
  rw [RwLock.writersQueued, hnil, List.countP_nil] at hle
  omega

theorem moves [DecidableEq T] {t : T} {p : Pc} (hm : Moves l (pc t) l' p) :
    RwInv l' (Function.update pc t p) where
  finite := h.finite.update t p
  readers := by
    have := readersIn_update h.finite t p
    have := hm.readers h.readers_pos
    have := h.readers
    omega
  writer := by
    have := writersIn_update h.finite t p
    have := hm.writer h.writer_true (h.noRaise t)
    have := h.writer
    omega
  apart := hm.apart h.apart h.readers_pos
  queued := by
    have := writersWaiting_update h.finite t p
    have := hm.writersQueued
    have := h.queued
    omega
  readerOnce := hm.readerOnce h.readerOnce
  noRaise u := by
    by_cases e : u = t
    · subst e
      rw [Function.update_self]
      exact hm.noRaise h.queue_ne_nil
    · rw [Function.update_of_ne e]
      exact h.noRaise u

end RwInv

variable [DecidableEq T]

/-- Every state the threads can reach has the invariant. -/
theorem rwInv_reachable {s : RwState T} (hs : (Rw T).Reachable s) : RwInv s.lock s.pc :=
  Machine.invariant (P := fun s => RwInv s.lock s.pc) rwInv_init
    (fun _ _ _ h hstep => by
      obtain ⟨p, hm, hpc⟩ := step_moves hstep
      rw [hpc]
      exact h.moves hm) hs

/-- **Mutual exclusion.** In every reachable state the reader counter is the number
of threads inside a reader section, the writer flag says whether exactly one thread
is inside a writer section, no two are, and none is together with a reader. A reader
about to leave finds a positive counter, so the clamp in `release_reader` is idle. -/
theorem mutual_exclusion {s : RwState T} (hs : (Rw T).Reachable s) :
    {t | s.pc t ≠ .idle}.Finite ∧
    s.lock.readers = {t | s.pc t = .inReader}.ncard ∧
    (s.lock.writer = true ↔ ∃! t, s.pc t = .inWriter) ∧
    (∀ t u, s.pc t = .inWriter → s.pc u = .inWriter → t = u) ∧
    (∀ t u, s.pc t = .inWriter → s.pc u ≠ .inReader) ∧
    (∀ t, s.pc t = .inReader → max 0 (s.lock.readers - 1) = s.lock.readers - 1) := by
  have h := rwInv_reachable hs
  refine ⟨h.finite, h.readers, ⟨fun hw => ?_, fun ⟨t, ht, _⟩ => h.writer_true ht⟩,
    fun t u => h.one_writer, fun t u ht => h.no_reader ht, fun t ht => ?_⟩
  · have hcard : {t | s.pc t = .inWriter}.ncard = s.lock.writer.toNat := h.writer.symm
    rw [hw] at hcard
    obtain ⟨t, ht⟩ := Set.ncard_eq_one.mp hcard
    have hin : s.pc t = .inWriter := by
      have : t ∈ {t | s.pc t = .inWriter} := ht ▸ Set.mem_singleton t
      exact this
    exact ⟨t, hin, fun u hu => h.one_writer hu hin⟩
  · have := h.readers_pos ht
    omega

/-- Two readers inside and a writer waiting. -/
def sharedRun : List (RwAct ℕ) := [.acquireReader 0, .acquireReader 1, .acquireWriter 2]

theorem mutual_exclusion_shared :
    (2 : Int) = {t | (((Rw ℕ).run (Rw ℕ).init sharedRun).get (by decide)).pc t =
      .inReader}.ncard :=
  (mutual_exclusion (Machine.reachable_get _ sharedRun (by decide))).2.1

end IcsTrafficGen.Modbus

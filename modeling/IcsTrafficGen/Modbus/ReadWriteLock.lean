import IcsTrafficGen.Lib.Machine
import IcsTrafficGen.Lib.Count

/- The reader-writer lock of the Modbus data blocks. Every method of
   `ReadWriteLock` runs under `self.lock`, and `wait` gives that lock up, so the
   atomic sections are: the first check of an acquire, each re-check after a
   wait, and a release. `Rw` interleaves these sections for any set of threads.
   A waiting thread may run its re-check at any moment: after a `notify_all`, a
   timeout of one second or a spurious wake-up, which are the same to the state.

   Correspondence (Python ↔ Lean):
     `__is_pending_writer`               ↔ `RwLock.isPendingWriter`
     `acquire_reader` up to its `wait`   ↔ `RwLock.acquireReader`
     its loop after a `wait`             ↔ `RwLock.recheckReader`
     `acquire_writer` up to its `wait`   ↔ `RwLock.acquireWriter`
     its loop after a `wait`             ↔ `RwLock.recheckWriter`
     `release_reader`, `release_writer`  ↔ `RwLock.releaseReader`, `RwLock.releaseWriter`
   A nested use of the lock by one thread counts as a thread of its own. -/
namespace IcsTrafficGen.Modbus

/-- An entry of the queue: the single reader condition, or the condition the
`id`-th waiting writer made for itself. -/
inductive Cond where
  | reader
  | writer (id : Nat)
  deriving DecidableEq, Repr

/-- The fields of `ReadWriteLock`, and the number of writer conditions made. -/
structure RwLock where
  queue : List Cond
  readers : Int
  writer : Bool
  made : Nat
  deriving DecidableEq, Repr

/-- Where a thread is: outside, in a `wait` of an acquire, or inside a section.
`raised` is a thread whose `acquire_writer` raised and whose `finally` clause
has still to run. -/
inductive Pc where
  | idle
  | waitReader
  | inReader
  | waitWriter (c : Cond)
  | inWriter
  | raised
  deriving DecidableEq, Repr

namespace RwLock

def init : RwLock := { queue := [], readers := 0, writer := false, made := 0 }

def isPendingWriter (l : RwLock) : Bool :=
  l.writer || (!l.queue.isEmpty && l.queue.head? != some .reader)

/-- `while self.__is_pending_writer(): wait`, then the code behind the loop. -/
def recheckReader (l : RwLock) : RwLock × Pc :=
  if l.isPendingWriter then (l, .waitReader)
  else
    -- no pending writer, so only the readers' entry can head the queue
    let l := if l.queue.head? = some .reader then { l with queue := l.queue.tail } else l
    ({ l with readers := l.readers + 1 }, .inReader)

def acquireReader (l : RwLock) : RwLock × Pc :=
  if l.isPendingWriter then
    recheckReader (if .reader ∈ l.queue then l else { l with queue := l.queue ++ [.reader] })
  else ({ l with readers := l.readers + 1 }, .inReader)

/-- `while self.writer or self.readers: wait`, then the code behind the loop.
`pop(0)` of an empty list raises an `IndexError`. -/
def recheckWriter (c : Cond) (l : RwLock) : RwLock × Pc :=
  if l.writer || l.readers != 0 then (l, .waitWriter c)
  else match l.queue with
    | [] => (l, .raised)
    -- `self.queue.pop(0)`: the head, whoever put it there
    | _ :: queue => ({ l with queue := queue, writer := true }, .inWriter)

def acquireWriter (l : RwLock) : RwLock × Pc :=
  if l.writer || l.readers != 0 then
    recheckWriter (.writer l.made)
      { l with queue := l.queue ++ [.writer l.made], made := l.made + 1 }
  else ({ l with writer := true }, .inWriter)

/-- Also the condition that is notified, if any. -/
def releaseReader (l : RwLock) : RwLock × Option Cond :=
  let l := { l with readers := max 0 (l.readers - 1) }
  (l, if l.readers = 0 then l.queue.head? else none)

/-- Also the condition that is notified: the head of the queue, else the readers'. -/
def releaseWriter (l : RwLock) : RwLock × Cond :=
  let l := { l with writer := false }
  (l, l.queue.head?.getD .reader)

end RwLock

/-- The lock and where each thread is. -/
structure RwState (T : Type) where
  lock : RwLock
  pc : T → Pc

/-- One atomic section of a thread. -/
inductive RwAct (T : Type) where
  | acquireReader (t : T)
  | acquireWriter (t : T)
  | wake (t : T)
  | release (t : T)

section
variable {T : Type} [DecidableEq T]

def RwState.put (s : RwState T) (t : T) (r : RwLock × Pc) : RwState T :=
  { lock := r.1, pc := Function.update s.pc t r.2 }

/-- The state after one section, if the thread is at it. -/
def RwState.step (s : RwState T) : RwAct T → Option (RwState T)
  | .acquireReader t => match s.pc t with
    | .idle => some (s.put t s.lock.acquireReader)
    | _ => none
  | .acquireWriter t => match s.pc t with
    | .idle => some (s.put t s.lock.acquireWriter)
    | _ => none
  | .wake t => match s.pc t with
    | .waitReader => some (s.put t s.lock.recheckReader)
    | .waitWriter c => some (s.put t (s.lock.recheckWriter c))
    | _ => none
  | .release t => match s.pc t with
    | .inReader => some (s.put t (s.lock.releaseReader.1, .idle))
    | .inWriter => some (s.put t (s.lock.releaseWriter.1, .idle))
    | .raised => some (s.put t (s.lock.releaseWriter.1, .idle))
    | _ => none

/-- The lock under any interleaving of the sections of the threads `T`. -/
def Rw (T : Type) [DecidableEq T] : Machine (RwState T) (RwAct T) where
  init := { lock := RwLock.init, pc := fun _ => .idle }
  step := RwState.step

end

/-! ## What one section does -/

namespace RwLock
variable {l : RwLock}

theorem isPendingWriter_eq_false :
    l.isPendingWriter = false ↔
      l.writer = false ∧ (l.queue = [] ∨ l.queue.head? = some .reader) := by
  cases h : l.queue <;> simp [isPendingWriter, h]

/-- An entry at the end of the queue does not let a pending writer go. -/
theorem isPendingWriter_append (c : Cond) (h : l.isPendingWriter = true) :
    ({ l with queue := l.queue ++ [c] } : RwLock).isPendingWriter = true := by
  cases hq : l.queue with
  | nil => simp [isPendingWriter, hq] at h ⊢; exact Or.inl h
  | cons d queue => simpa [isPendingWriter, hq] using h

/-- Behind the loop the queue is empty or headed by the reader condition, so the
conditional `pop(0)` drops the head. -/
theorem recheckReader_eq (l : RwLock) :
    l.recheckReader =
      if l.isPendingWriter then (l, .waitReader)
      else ({ l with queue := l.queue.tail, readers := l.readers + 1 }, .inReader) := by
  unfold recheckReader
  split
  · rfl
  · next hp =>
    rw [Bool.not_eq_true] at hp
    rcases (isPendingWriter_eq_false.mp hp).2 with hq | hq <;> simp [hq]

theorem acquireReader_eq (l : RwLock) :
    l.acquireReader =
      if l.isPendingWriter then
        ({ l with queue := if .reader ∈ l.queue then l.queue else l.queue ++ [.reader] },
          .waitReader)
      else ({ l with readers := l.readers + 1 }, .inReader) := by
  unfold acquireReader
  split
  · next hp =>
    rw [recheckReader_eq]
    split
    · simp
    · simp [isPendingWriter_append .reader hp]
  · rfl

theorem acquireWriter_eq (l : RwLock) :
    l.acquireWriter =
      if l.writer || l.readers != 0 then
        ({ l with queue := l.queue ++ [.writer l.made], made := l.made + 1 },
          .waitWriter (.writer l.made))
      else ({ l with writer := true }, .inWriter) := by
  unfold acquireWriter recheckWriter
  split <;> rfl

/-- A writer may take the lock. -/
def Free (l : RwLock) : Prop := l.writer = false ∧ l.readers = 0

theorem busy_iff : (l.writer || l.readers != 0) = true ↔ ¬ l.Free := by
  cases h : l.writer <;> simp [Free, h]

end RwLock

/-- What one section does to the lock and to the place of its thread. -/
inductive Moves (l : RwLock) : Pc → RwLock → Pc → Prop where
  | readerWaits : l.isPendingWriter = true →
      Moves l .idle
        { l with queue := if .reader ∈ l.queue then l.queue else l.queue ++ [.reader] } .waitReader
  | readerEnters : l.isPendingWriter = false →
      Moves l .idle { l with readers := l.readers + 1 } .inReader
  | readerStays : l.isPendingWriter = true → Moves l .waitReader l .waitReader
  | readerWakes : l.isPendingWriter = false →
      Moves l .waitReader { l with queue := l.queue.tail, readers := l.readers + 1 } .inReader
  | writerWaits : ¬ l.Free →
      Moves l .idle { l with queue := l.queue ++ [.writer l.made], made := l.made + 1 }
        (.waitWriter (.writer l.made))
  | writerEnters : l.Free → Moves l .idle { l with writer := true } .inWriter
  | writerStays (c : Cond) : ¬ l.Free → Moves l (.waitWriter c) l (.waitWriter c)
  | writerPops (c d : Cond) (queue : List Cond) : l.Free → l.queue = d :: queue →
      Moves l (.waitWriter c) { l with queue := queue, writer := true } .inWriter
  | writerRaises (c : Cond) : l.Free → l.queue = [] → Moves l (.waitWriter c) l .raised
  | readerLeaves : Moves l .inReader { l with readers := max 0 (l.readers - 1) } .idle
  | writerLeaves : Moves l .inWriter { l with writer := false } .idle
  | raisedLeaves : Moves l .raised { l with writer := false } .idle

namespace RwLock
variable (l : RwLock)

theorem acquireReader_moves : Moves l .idle l.acquireReader.1 l.acquireReader.2 := by
  rw [acquireReader_eq]
  cases h : l.isPendingWriter
  · exact .readerEnters h
  · exact .readerWaits h

theorem recheckReader_moves : Moves l .waitReader l.recheckReader.1 l.recheckReader.2 := by
  rw [recheckReader_eq]
  cases h : l.isPendingWriter
  · exact .readerWakes h
  · exact .readerStays h

theorem acquireWriter_moves : Moves l .idle l.acquireWriter.1 l.acquireWriter.2 := by
  rw [acquireWriter_eq]
  split
  · next h => exact .writerWaits (busy_iff.mp h)
  · next h => exact .writerEnters (not_not.mp (mt busy_iff.mpr h))

theorem recheckWriter_moves (c : Cond) :
    Moves l (.waitWriter c) (l.recheckWriter c).1 (l.recheckWriter c).2 := by
  unfold recheckWriter
  split
  · next h => exact .writerStays c (busy_iff.mp h)
  · next h =>
    have hfree : l.Free := not_not.mp (mt busy_iff.mpr h)
    split
    · next hq => exact .writerRaises c hfree hq
    · next hq => exact .writerPops c _ _ hfree hq

end RwLock

variable {T : Type} [DecidableEq T]

def RwAct.thread : RwAct T → T
  | .acquireReader t | .acquireWriter t | .wake t | .release t => t

/-- A step moves one thread, by one of the cases of `Moves`. -/
theorem step_moves {s s' : RwState T} {a : RwAct T} (h : (Rw T).step s a = some s') :
    ∃ p, Moves s.lock (s.pc a.thread) s'.lock p ∧
      s'.pc = Function.update s.pc a.thread p := by
  have hput : ∀ {t : T} {p : Pc} {r : RwLock × Pc}, s.pc t = p → Moves s.lock p r.1 r.2 →
      some (s.put t r) = some s' →
      ∃ p', Moves s.lock (s.pc t) s'.lock p' ∧ s'.pc = Function.update s.pc t p' := by
    intro t p r hp hm hs
    subst hp
    cases hs
    exact ⟨r.2, hm, rfl⟩
  cases a with
  | acquireReader t =>
    simp only [Rw, RwState.step] at h
    split at h
    · next hpc => exact hput hpc s.lock.acquireReader_moves h
    · cases h
  | acquireWriter t =>
    simp only [Rw, RwState.step] at h
    split at h
    · next hpc => exact hput hpc s.lock.acquireWriter_moves h
    · cases h
  | wake t =>
    simp only [Rw, RwState.step] at h
    split at h
    · next hpc => exact hput hpc s.lock.recheckReader_moves h
    · next c hpc => exact hput hpc (s.lock.recheckWriter_moves c) h
    · cases h
  | release t =>
    simp only [Rw, RwState.step] at h
    split at h
    · next hpc => exact hput hpc .readerLeaves h
    · next hpc => exact hput hpc .writerLeaves h
    · next hpc => exact hput hpc .raisedLeaves h
    · cases h

end IcsTrafficGen.Modbus

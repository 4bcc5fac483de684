import IcsTrafficGen.Modbus.RwExclusion
import IcsTrafficGen.Lib.Python

/- The accesses of the lock's queue. Here every `self.queue[0]` and `self.queue.pop(0)` is
   an operation that raises an `IndexError` on an empty list, in the places and behind the
   tests where the source has them. In no state that the threads can reach does one raise:
   only `acquire_writer` pops without a look at the queue, and there the queue holds a writer
   condition for every writer that waits (`queue_safety`). -/
namespace IcsTrafficGen.Modbus
namespace RwLock

/-- `self.queue[0]`. -/
def front (l : RwLock) : Py Cond :=
  match l.queue with
  | [] => .error .indexError
  | c :: _ => .ok c

/-- `self.queue.pop(0)`. -/
def pop (l : RwLock) : Py RwLock :=
  match l.queue with
  | [] => .error .indexError
  | _ :: queue => .ok { l with queue := queue }

namespace Checked

/-- `__is_pending_writer`, which looks at the head of a queue that is not empty only. -/
def isPendingWriter (l : RwLock) : Py Bool :=
  if l.writer then pure true
  else if l.queue = [] then pure false
  else do
    let head ← l.front
    pure (head != .reader)

def recheckReader (l : RwLock) : Py (RwLock × Pc) := do
  if ← isPendingWriter l then pure (l, .waitReader)
  else
    let headed ← if l.queue = [] then pure false
      else do
        let head ← l.front
        pure (.reader == head)
    let l ← if headed then l.pop else pure l
    pure ({ l with readers := l.readers + 1 }, .inReader)

def acquireReader (l : RwLock) : Py (RwLock × Pc) := do
  if ← isPendingWriter l then
    recheckReader (if .reader ∈ l.queue then l else { l with queue := l.queue ++ [.reader] })
  else pure ({ l with readers := l.readers + 1 }, .inReader)

def recheckWriter (c : Cond) (l : RwLock) : Py (RwLock × Pc) :=
  if l.writer || l.readers != 0 then pure (l, .waitWriter c)
  else do
    let l ← l.pop
    pure ({ l with writer := true }, .inWriter)

def acquireWriter (l : RwLock) : Py (RwLock × Pc) :=
  if l.writer || l.readers != 0 then
    recheckWriter (.writer l.made)
      { l with queue := l.queue ++ [.writer l.made], made := l.made + 1 }
  else pure ({ l with writer := true }, .inWriter)

def releaseReader (l : RwLock) : Py (RwLock × Option Cond) :=
  let l := { l with readers := max 0 (l.readers - 1) }
  if l.readers = 0 ∧ l.queue ≠ [] then do
    let head ← l.front
    pure (l, some head)
  else pure (l, none)

def releaseWriter (l : RwLock) : Py (RwLock × Cond) :=
  let l := { l with writer := false }
  if l.queue ≠ [] then do
    let head ← l.front
    pure (l, head)
  else pure (l, .reader)

end Checked

/-! ## Sections that do not raise -/

variable (l : RwLock)

theorem checked_isPendingWriter : Checked.isPendingWriter l = .ok l.isPendingWriter := by
  unfold Checked.isPendingWriter isPendingWriter front
  cases l.writer with
  | true => rfl
  | false =>
    cases hq : l.queue with
    | nil => rfl
    | cons c queue =>
      cases c <;> rfl

theorem checked_recheckReader : Checked.recheckReader l = .ok l.recheckReader := by
  unfold Checked.recheckReader
  rw [checked_isPendingWriter, recheckReader]
  cases l.isPendingWriter with
  | true => rfl
  | false =>
    unfold front pop
    cases hq : l.queue with
    | nil => rfl
    | cons c queue =>
      cases c <;> rfl

theorem checked_acquireReader : Checked.acquireReader l = .ok l.acquireReader := by
  unfold Checked.acquireReader
  rw [checked_isPendingWriter, acquireReader]
  cases l.isPendingWriter with
  | true => exact checked_recheckReader _
  | false => rfl

/-- The writer that stops waiting pops whatever is at the head. -/
theorem checked_recheckWriter (c : Cond) (hq : l.Free → l.queue ≠ []) :
    Checked.recheckWriter c l = .ok (l.recheckWriter c) := by
  unfold Checked.recheckWriter recheckWriter
  split
  · rfl
  · next hbusy =>
    have hne : l.queue ≠ [] := hq (not_not.mp (mt busy_iff.mpr hbusy))
    unfold pop
    cases hqueue : l.queue with
    | nil => exact absurd hqueue hne
    | cons d queue => rfl

theorem checked_acquireWriter : Checked.acquireWriter l = .ok l.acquireWriter := by
  unfold Checked.acquireWriter acquireWriter
  split
  · exact checked_recheckWriter _ _ fun _ =>
      List.append_ne_nil_of_right_ne_nil _ (List.cons_ne_nil _ _)
  · rfl

theorem checked_releaseReader : Checked.releaseReader l = .ok l.releaseReader := by
  unfold Checked.releaseReader releaseReader front
  cases hq : l.queue with
  | nil =>
    rw [if_neg fun h => h.2 rfl]
    simp only [List.head?_nil, ite_self]
    rfl
  | cons c queue =>
    by_cases hr : max 0 (l.readers - 1) = 0
    · rw [if_pos ⟨hr, List.cons_ne_nil c queue⟩]
      simp only [hr, if_true, List.head?_cons]
      rfl
    · rw [if_neg fun h => hr h.1]
      simp only [hr, if_false]
      rfl

theorem checked_releaseWriter : Checked.releaseWriter l = .ok l.releaseWriter := by
  unfold Checked.releaseWriter releaseWriter front
  cases hq : l.queue with
  | nil => rfl
  | cons c queue => rfl

end RwLock

variable {T : Type} [DecidableEq T]

/-- One section, with its accesses of the queue checked: `none` where the thread is not at
it. -/
def RwState.checkedStep (s : RwState T) : RwAct T → Option (Py (RwState T))
  | .acquireReader t => match s.pc t with
    | .idle => some ((RwLock.Checked.acquireReader s.lock).map (s.put t))
    | _ => none
  | .acquireWriter t => match s.pc t with
    | .idle => some ((RwLock.Checked.acquireWriter s.lock).map (s.put t))
    | _ => none
  | .wake t => match s.pc t with
    | .waitReader => some ((RwLock.Checked.recheckReader s.lock).map (s.put t))
    | .waitWriter c => some ((RwLock.Checked.recheckWriter c s.lock).map (s.put t))
    | _ => none
  | .release t => match s.pc t with
    | .inReader => some ((RwLock.Checked.releaseReader s.lock).map fun r => s.put t (r.1, .idle))
    | .inWriter | .raised =>
      some ((RwLock.Checked.releaseWriter s.lock).map fun r => s.put t (r.1, .idle))
    | _ => none

/-- Nothing raises, and a section does what it does without the checks, if the queue is not
empty while a writer waits. -/
theorem checkedStep_eq {s : RwState T}
    (h : ∀ t, (s.pc t).isWaitWriter = true → s.lock.queue ≠ []) (a : RwAct T) :
    s.checkedStep a = (s.step a).map .ok := by
  cases a with
  | acquireReader t =>
    simp only [RwState.checkedStep, RwState.step, RwLock.checked_acquireReader]
    cases s.pc t <;> rfl
  | acquireWriter t =>
    simp only [RwState.checkedStep, RwState.step, RwLock.checked_acquireWriter]
    cases s.pc t <;> rfl
  | wake t =>
    have hqueue := h t
    simp only [RwState.checkedStep, RwState.step, RwLock.checked_recheckReader]
    cases hpc : s.pc t with
    | waitWriter c =>
      rw [hpc] at hqueue
      simp only [RwLock.checked_recheckWriter s.lock c fun _ => hqueue rfl]
      rfl
    | _ => rfl
  | release t =>
    simp only [RwState.checkedStep, RwState.step, RwLock.checked_releaseReader,
      RwLock.checked_releaseWriter]
    cases s.pc t <;> rfl

/-- **Queue safety.** In every reachable state the queue holds the reader condition at most
once and a writer condition for each thread that waits in `acquire_writer`, and whatever
section runs next accesses no entry of an empty queue. -/
theorem queue_safety {s : RwState T} (hs : (Rw T).Reachable s) :
    s.lock.queue.count .reader ≤ 1 ∧
    {t | ∃ c, s.pc t = .waitWriter c}.Finite ∧
    {t | ∃ c, s.pc t = .waitWriter c}.ncard ≤ s.lock.queue.countP Cond.isWriter ∧
    ∀ a, s.checkedStep a = (s.step a).map .ok := by
  have h := rwInv_reachable hs
  have hwaiting : {t | ∃ c, s.pc t = .waitWriter c} = {t | (s.pc t).isWaitWriter = true} := by
    ext t
    show (∃ c, s.pc t = .waitWriter c) ↔ (s.pc t).isWaitWriter = true
    cases s.pc t <;> simp [Pc.isWaitWriter]
  have hfinite : {t | (s.pc t).isWaitWriter = true}.Finite :=
    h.finite.setOf (P := fun p : Pc => p.isWaitWriter = true) (by simp [Pc.isWaitWriter])
  rw [hwaiting]
  exact ⟨h.readerOnce, hfinite, h.queued, checkedStep_eq fun _ ht => h.queue_ne_nil ht⟩

/-- With two readers inside and a writer waiting. -/
theorem queue_safety_shared :
    (((Rw ℕ).run (Rw ℕ).init sharedRun).get (by decide)).lock.queue.count .reader ≤ 1 :=
  (queue_safety (Machine.reachable_get _ sharedRun (by decide))).1

end IcsTrafficGen.Modbus

import IcsTrafficGen.Lib.Access
import IcsTrafficGen.Lib.History
import IcsTrafficGen.Modbus.RwExclusion

/- A data block behind the reader-writer lock. `validate` and `getValues` run under the
   reader lock and `setValues` under the writer lock; between the sections of the lock the
   threads make the accesses of the wrapped block, one cell at a time and in any order.

   Correspondence (Python ↔ Lean):
     `self.rwlock`                         ↔ `ThreadSafeDataBlock.rwlock`
     `self.block`                          ↔ `DataBlock`, its cells `ThreadSafeDataBlock.block`
     `get_reader_lock`, `get_writer_lock`  ↔ the acquire of `BlockAct.call` and `BlockAct.wake`,
                                             the release of `BlockAct.finish`
   A call begins with its first check and ends with its release. What a thread does outside
   of these touches nothing that is shared. -/
namespace IcsTrafficGen.Modbus

/-- The methods of the wrapped block, as what they do with its cells. `none` is a method
that raises. -/
structure DataBlock (A V : Type) where
  validate (address count : Int) : Access A V (Option Bool)
  getValues (address count : Int) : Access A V (Option (List V))
  setValues (address : Int) (values : List V) : Access A V (Option Unit)
  validate_readOnly : ∀ address count, (validate address count).ReadOnly
  getValues_readOnly : ∀ address count, (getValues address count).ReadOnly

inductive BlockCall (V : Type) where
  | validate (address count : Int)
  | getValues (address count : Int)
  | setValues (address : Int) (values : List V)
  deriving DecidableEq, Repr

/-- What a call returns; `raised` is an exception, of the block or of the lock. -/
inductive Reply (V : Type) where
  | valid (inRange : Bool)
  | values (values : List V)
  | stored
  | raised
  deriving DecidableEq, Repr

variable {T A V : Type}

/-- The calls that take the reader lock. -/
def BlockCall.reads : BlockCall V → Bool
  | .validate _ _ | .getValues _ _ => true
  | .setValues _ _ => false

/-- What the `with` statement acquires. -/
def BlockCall.acquire (t : T) (c : BlockCall V) : RwAct T :=
  if c.reads then .acquireReader t else .acquireWriter t

namespace DataBlock
variable (block : DataBlock A V)

/-- The body of the `with` statement. -/
def body : BlockCall V → Access A V (Reply V)
  | .validate address count =>
    (block.validate address count).map fun r => r.elim .raised .valid
  | .getValues address count =>
    (block.getValues address count).map fun r => r.elim .raised .values
  | .setValues address values =>
    (block.setValues address values).map fun r => r.elim .raised fun _ => .stored

/-- The call executed at once. -/
def execute [DecidableEq A] (c : BlockCall V) (cells : A → V) : Reply V × (A → V) :=
  (block.body c).run cells

theorem body_readOnly {c : BlockCall V} (hc : c.reads = true) : (block.body c).ReadOnly := by
  cases c with
  | validate address count => exact (block.validate_readOnly address count).map _
  | getValues address count => exact (block.getValues_readOnly address count).map _
  | setValues address values => cases hc

end DataBlock

/-- The lock, the cells, and the call of each thread with what is left of its body. -/
structure ThreadSafeDataBlock (T A V : Type) where
  rwlock : RwState T
  block : A → V
  running : T → Option (BlockCall V × Access A V (Reply V))

inductive BlockAct (T V : Type) where
  | call (t : T) (c : BlockCall V)
  | wake (t : T)
  | access (t : T)
  | finish (t : T)

namespace ThreadSafeDataBlock

/-- What the thread returns with its release, if it is at it. The release stands in a
`finally` clause, so a writer whose acquire raised has it as well. -/
def reply (s : ThreadSafeDataBlock T A V) (t : T) : Option (Reply V) :=
  match s.rwlock.pc t, s.running t with
  | .inReader, some (_, .ret r) => some r
  | .inWriter, some (_, .ret r) => some r
  | .raised, some _ => some .raised
  | _, _ => none

section
variable [DecidableEq T] [DecidableEq A]

/-- One access of a thread that holds the lock. -/
def access (s : ThreadSafeDataBlock T A V) (t : T) : Option (ThreadSafeDataBlock T A V) :=
  match s.rwlock.pc t, s.running t with
  | .inReader, some (c, p) | .inWriter, some (c, p) =>
    (p.step s.block).map fun r =>
      { s with block := r.2, running := Function.update s.running t (some (c, r.1)) }
  | _, _ => none

def step (block : DataBlock A V) (s : ThreadSafeDataBlock T A V) :
    BlockAct T V → Option (ThreadSafeDataBlock T A V)
  | .call t c => match s.running t with
    | none => (s.rwlock.step (c.acquire t)).map fun rwlock =>
        { s with rwlock, running := Function.update s.running t (some (c, block.body c)) }
    | some _ => none
  | .wake t => (s.rwlock.step (.wake t)).map fun rwlock => { s with rwlock }
  | .access t => s.access t
  | .finish t => match s.reply t with
    | some _ => (s.rwlock.step (.release t)).map fun rwlock =>
        { s with rwlock, running := Function.update s.running t none }
    | none => none

/-- The invocation or the response that the threads see of a step. -/
def events (s : ThreadSafeDataBlock T A V) : BlockAct T V → List (Event T (BlockCall V) (Reply V))
  | .call t c => [.invoke t c]
  | .wake _ | .access _ => []
  | .finish t => (s.reply t).toList.map (.respond t)

end
end ThreadSafeDataBlock

/-- The calls of the threads `T` on one block, with the cells as given at first. -/
def threadSafe [DecidableEq T] [DecidableEq A] (block : DataBlock A V) (cells : A → V) :
    Machine (ThreadSafeDataBlock T A V) (BlockAct T V) where
  init := { rwlock := (Rw T).init, block := cells, running := fun _ => none }
  step := ThreadSafeDataBlock.step block

/-! ## What a step does -/

variable [DecidableEq T] [DecidableEq A] {block : DataBlock A V} {cells : A → V}
  {s s' : ThreadSafeDataBlock T A V}

/-- What a step does to the lock, the cells and the calls. -/
inductive BlockMoves (block : DataBlock A V) (s : ThreadSafeDataBlock T A V) :
    BlockAct T V → ThreadSafeDataBlock T A V → Prop where
  | calls (t : T) (c : BlockCall V) (rwlock : RwState T) : s.running t = none →
      s.rwlock.step (c.acquire t) = some rwlock →
      BlockMoves block s (.call t c)
        { s with rwlock, running := Function.update s.running t (some (c, block.body c)) }
  | wakes (t : T) (rwlock : RwState T) : s.rwlock.step (.wake t) = some rwlock →
      BlockMoves block s (.wake t) { s with rwlock }
  | accesses (t : T) (c : BlockCall V) (p p' : Access A V (Reply V)) (cells : A → V) :
      s.rwlock.pc t = .inReader ∨ s.rwlock.pc t = .inWriter → s.running t = some (c, p) →
      p.step s.block = some (p', cells) →
      BlockMoves block s (.access t)
        { s with block := cells, running := Function.update s.running t (some (c, p')) }
  | finishes (t : T) (r : Reply V) (rwlock : RwState T) : s.reply t = some r →
      s.rwlock.step (.release t) = some rwlock →
      BlockMoves block s (.finish t)
        { s with rwlock, running := Function.update s.running t none }

theorem access_moves {t : T} (h : s.access t = some s') : BlockMoves block s (.access t) s' := by
  unfold ThreadSafeDataBlock.access at h
  split at h
  · next c p hpc hrun =>
    obtain ⟨r, hr, rfl⟩ := Option.map_eq_some_iff.mp h
    exact .accesses t c p r.1 r.2 (Or.inl hpc) hrun hr
  · next c p hpc hrun =>
    obtain ⟨r, hr, rfl⟩ := Option.map_eq_some_iff.mp h
    exact .accesses t c p r.1 r.2 (Or.inr hpc) hrun hr
  · cases h

theorem block_moves {a : BlockAct T V} (h : (threadSafe block cells).step s a = some s') :
    BlockMoves block s a s' := by
  cases a with
  | call t c =>
    simp only [threadSafe, ThreadSafeDataBlock.step] at h
    split at h
    · next hrun =>
      obtain ⟨rwlock, hrw, rfl⟩ := Option.map_eq_some_iff.mp h
      exact .calls t c rwlock hrun hrw
    · cases h
  | wake t =>
    obtain ⟨rwlock, hrw, rfl⟩ := Option.map_eq_some_iff.mp h
    exact .wakes t rwlock hrw
  | access t => exact access_moves h
  | finish t =>
    simp only [threadSafe, ThreadSafeDataBlock.step] at h
    split at h
    · next r hr =>
      obtain ⟨rwlock, hrw, rfl⟩ := Option.map_eq_some_iff.mp h
      exact .finishes t r rwlock hr hrw
    · cases h

/-- What the threads do to the lock are sections of the lock. -/
theorem rwlock_reachable (hs : (threadSafe block cells).Reachable s) :
    (Rw T).Reachable s.rwlock := by
  refine Machine.Reachable.part ThreadSafeDataBlock.rwlock rfl (fun s a s' hstep => ?_) hs
  cases block_moves hstep with
  | calls t c rwlock _ hrw => exact Or.inr ⟨c.acquire t, hrw⟩
  | wakes t rwlock hrw => exact Or.inr ⟨.wake t, hrw⟩
  | accesses => exact Or.inl rfl
  | finishes t r rwlock _ hrw => exact Or.inr ⟨.release t, hrw⟩

/-- How a first check can end. -/
theorem acquire_moves {rw rw' : RwState T} {t : T} {c : BlockCall V}
    (h : rw.step (c.acquire t) = some rw') :
    rw.pc t = .idle ∧ ∃ p, Moves rw.lock .idle rw'.lock p ∧ rw'.pc = Function.update rw.pc t p ∧
      if c.reads then p = .waitReader ∨ p = .inReader
      else (∃ d, p = .waitWriter d) ∨ p = .inWriter := by
  unfold BlockCall.acquire at h
  split at h
  · next hreads =>
    simp only [RwState.step] at h
    split at h
    · next hpc =>
      cases h
      refine ⟨hpc, _, rw.lock.acquireReader_moves, rfl, ?_⟩
      rw [if_pos hreads, RwLock.acquireReader_eq]
      split
      · exact Or.inl rfl
      · exact Or.inr rfl
    · cases h
  · next hreads =>
    simp only [RwState.step] at h
    split at h
    · next hpc =>
      cases h
      refine ⟨hpc, _, rw.lock.acquireWriter_moves, rfl, ?_⟩
      rw [if_neg hreads, RwLock.acquireWriter_eq]
      split
      · exact Or.inl ⟨_, rfl⟩
      · exact Or.inr rfl
    · cases h

/-- How a re-check can end. -/
theorem wake_moves {rw rw' : RwState T} {t : T} (h : rw.step (.wake t) = some rw') :
    ∃ p, Moves rw.lock (rw.pc t) rw'.lock p ∧ rw'.pc = Function.update rw.pc t p ∧
      (rw.pc t = .waitReader ∧ (p = .waitReader ∨ p = .inReader) ∨
        ∃ d, rw.pc t = .waitWriter d ∧ (p = .waitWriter d ∨ p = .inWriter ∨ p = .raised)) := by
  simp only [RwState.step] at h
  split at h
  · next hpc =>
    cases h
    refine ⟨_, hpc ▸ rw.lock.recheckReader_moves, rfl, Or.inl ⟨hpc, ?_⟩⟩
    rw [RwLock.recheckReader_eq]
    split
    · exact Or.inl rfl
    · exact Or.inr rfl
  · next d hpc =>
    cases h
    refine ⟨_, hpc ▸ rw.lock.recheckWriter_moves d, rfl, Or.inr ⟨d, hpc, ?_⟩⟩
    unfold RwLock.recheckWriter
    split
    · exact Or.inl rfl
    · split
      · exact Or.inr (Or.inr rfl)
      · exact Or.inr (Or.inl rfl)
  · cases h

end IcsTrafficGen.Modbus

import IcsTrafficGen.Modbus.DatastoreLinearizable
import IcsTrafficGen.Modbus.RwLockout

/- What a lockout does to a data block. A block has one thread that writes to it, the loop of
   its outstation. With one writer a stale writer condition is never popped: the writer
   finds the lock free whenever it comes, so it does not queue up and does not pop. So from
   the moment that such a condition heads the queue, every `validate` and `getValues` that
   is under way stays so (`reads_never_return`), and one writer is enough to come there
   (`oneWriterRun`). -/
namespace IcsTrafficGen.Modbus

variable {T A V : Type}

/-- A condition that nobody waits on keeps the readers out. -/
structure LockedOut (s : RwState T) : Prop where
  stale : ∃ id, s.lock.queue.head? = some (.writer id)
  noReader : ∀ t, s.pc t ≠ .inReader
  noWaiter : ∀ t, (s.pc t).isWaitWriter = false

theorem LockedOut.pending {s : RwState T} (h : LockedOut s) : s.lock.isPendingWriter = true := by
  obtain ⟨id, hid⟩ := h.stale
  obtain ⟨queue, hq⟩ := List.head?_eq_some_iff.mp hid
  simp [RwLock.isPendingWriter, hq]

variable {w : T}

/-- Nobody but `w` is inside as a writer, and the lock is free when `w` is not. -/
theorem LockedOut.free {s : RwState T} (h : LockedOut s) (hinv : RwInv s.lock s.pc)
    (hw : ∀ t, s.pc t = .inWriter → t = w) (hidle : s.pc w = .idle) : s.lock.Free := by
  have hnoWriter : ∀ t, s.pc t ≠ .inWriter := by
    intro t ht
    rw [hw t ht] at ht
    rw [hidle] at ht
    cases ht
  constructor
  · have hcount := hinv.writer
    rw [writersIn, tally_eq_zero hnoWriter] at hcount
    exact Bool.toNat_eq_zero.mp hcount
  · rw [hinv.readers, readersIn, tally_eq_zero h.noReader]
    rfl

variable [DecidableEq T]

/-- The place of the thread after a section that leaves the readers out. -/
theorem LockedOut.put {s : RwState T} (h : LockedOut s) (hw : ∀ t, s.pc t = .inWriter → t = w)
    {t : T} {l : RwLock} {p : Pc} (hl : ∃ id, l.queue.head? = some (.writer id))
    (hreader : p ≠ .inReader) (hwaits : p.isWaitWriter = false) (hwriter : p = .inWriter → t = w) :
    LockedOut (s.put t (l, p)) ∧ ∀ u, (s.put t (l, p)).pc u = .inWriter → u = w := by
  refine ⟨⟨hl, fun u => ?_, fun u => ?_⟩, fun u hu => ?_⟩
  · by_cases hut : u = t
    · simpa [RwState.put, hut] using hreader
    · simpa [RwState.put, hut] using h.noReader u
  · by_cases hut : u = t
    · simpa [RwState.put, hut] using hwaits
    · simpa [RwState.put, hut] using h.noWaiter u
  · by_cases hut : u = t
    · rw [hut] at hu ⊢
      exact hwriter (by simpa [RwState.put] using hu)
    · exact hw u (by simpa [RwState.put, hut] using hu)

/-- With one writer the readers stay locked out. -/
theorem LockedOut.step {s s' : RwState T} {a : RwAct T} (h : LockedOut s)
    (hinv : RwInv s.lock s.pc) (hw : ∀ t, s.pc t = .inWriter → t = w)
    (ha : ∀ t, a = .acquireWriter t → t = w) (hstep : (Rw T).step s a = some s') :
    LockedOut s' ∧ ∀ t, s'.pc t = .inWriter → t = w := by
  cases a with
  | acquireReader t =>
    simp only [Rw, RwState.step] at hstep
    split at hstep
    · cases hstep
      rw [RwLock.acquireReader_eq, if_pos h.pending]
      refine h.put hw ?_ (by simp) rfl (by simp)
      obtain ⟨id, hid⟩ := h.stale
      refine ⟨id, ?_⟩
      simp only
      split
      · exact hid
      · rw [List.head?_append, hid]
        rfl
    · cases hstep
  | acquireWriter t =>
    obtain rfl := ha t rfl
    simp only [Rw, RwState.step] at hstep
    split at hstep
    · next hidle =>
      cases hstep
      rw [RwLock.acquireWriter_eq, if_neg (not_not.mpr (h.free hinv hw hidle) ∘ RwLock.busy_iff.mp)]
      exact h.put hw h.stale (by simp) rfl fun _ => rfl
    · cases hstep
  | wake t =>
    simp only [Rw, RwState.step] at hstep
    split at hstep
    · cases hstep
      rw [RwLock.recheckReader_eq, if_pos h.pending]
      exact h.put hw h.stale (by simp) rfl (by simp)
    · next c hwaits =>
      have := h.noWaiter t
      rw [hwaits] at this
      cases this
    · cases hstep
  | release t =>
    simp only [Rw, RwState.step] at hstep
    split at hstep
    · next hin => exact absurd hin (h.noReader t)
    · cases hstep
      exact h.put hw h.stale (by simp) rfl (by simp)
    · next hraised => exact absurd hraised (hinv.noRaise t)
    · cases hstep

/-! ## The block -/

variable [DecidableEq A] {block : DataBlock A V} {cells : A → V} {s s' : ThreadSafeDataBlock T A V}

/-- A thread that reads is at a reader section. -/
theorem pc_of_reads (hs : (threadSafe block cells).Reachable s) {t : T} {c : BlockCall V}
    {p : Access A V (Reply V)} (hrun : s.running t = some (c, p)) (hc : c.reads = true) :
    s.rwlock.pc t = .waitReader ∨ s.rwlock.pc t = .inReader := by
  refine Machine.invariant (P := fun s : ThreadSafeDataBlock T A V => ∀ t c p,
    s.running t = some (c, p) → c.reads = true →
      s.rwlock.pc t = .waitReader ∨ s.rwlock.pc t = .inReader) (by simp [threadSafe])
    (fun s a s' hP hstep t c p hrun hc => ?_) hs t c p hrun hc
  cases block_moves hstep with
  | calls u d rwlock _ hlock =>
    obtain ⟨-, q, -, hpc, hq⟩ := acquire_moves hlock
    simp only [hpc]
    by_cases htu : t = u
    · subst htu
      simp only [Function.update_self, Option.some.injEq, Prod.mk.injEq] at hrun
      obtain ⟨rfl, -⟩ := hrun
      rw [if_pos hc] at hq
      rwa [Function.update_self]
    · rw [Function.update_of_ne htu]
      simp only [Function.update_of_ne htu] at hrun
      exact hP t c p hrun hc
  | wakes u rwlock hlock =>
    obtain ⟨q, -, hpc, hq⟩ := wake_moves hlock
    have hbefore := hP t c p hrun hc
    simp only [hpc]
    by_cases htu : t = u
    · subst htu
      rw [Function.update_self]
      obtain ⟨-, hq⟩ | ⟨d, hwaits, -⟩ := hq
      · exact hq
      · rw [hwaits] at hbefore
        simp at hbefore
    · rwa [Function.update_of_ne htu]
  | accesses u d q q' cells' hin hrun' haccess =>
    by_cases htu : t = u
    · subst htu
      simp only [Function.update_self, Option.some.injEq, Prod.mk.injEq] at hrun
      obtain ⟨rfl, -⟩ := hrun
      exact hP t d q hrun' hc
    · simp only [Function.update_of_ne htu] at hrun
      exact hP t c p hrun hc
  | finishes u r rwlock _ hlock =>
    obtain ⟨q, -, hpc⟩ := step_moves (a := .release u) hlock
    simp only [hpc, RwAct.thread]
    by_cases htu : t = u
    · subst htu
      simp only [Function.update_self] at hrun
      cases hrun
    · rw [Function.update_of_ne htu]
      simp only [Function.update_of_ne htu] at hrun
      exact hP t c p hrun hc

/-- Only `w` writes. -/
def BlockAct.WritesBy (w : T) : BlockAct T V → Prop
  | .call t c => c.reads = false → t = w
  | .wake _ | .access _ | .finish _ => True

instance (w : T) (a : BlockAct T V) : Decidable (a.WritesBy w) := by
  cases a with
  | call t c => exact inferInstanceAs (Decidable (c.reads = false → t = w))
  | wake | access | finish => exact instDecidableTrue

/-- A step of a block with one writer keeps the readers out, and the reads under way. -/
theorem LockedOut.block_step (hs : (threadSafe block cells).Reachable s) (h : LockedOut s.rwlock)
    (hw : ∀ t, s.rwlock.pc t = .inWriter → t = w) {a : BlockAct T V} (ha : a.WritesBy w)
    (hstep : (threadSafe block cells).step s a = some s') :
    (LockedOut s'.rwlock ∧ ∀ t, s'.rwlock.pc t = .inWriter → t = w) ∧
      ∀ t c p, s.running t = some (c, p) → c.reads = true → s'.running t = some (c, p) := by
  have hinv := rwInv_reachable (rwlock_reachable hs)
  have hwaits : ∀ t c p, s.running t = some (c, p) → c.reads = true → s.rwlock.pc t = .waitReader :=
    fun t c p hrun hc => (pc_of_reads hs hrun hc).resolve_right (h.noReader t)
  -- a step of another thread leaves the call of a reader as it is
  have hkeeps : ∀ t u c p o, s.running t = some (c, p) → t ≠ u →
      Function.update s.running u o t = some (c, p) := fun t u c p o hrun htu =>
    (Function.update_of_ne htu o s.running).trans hrun
  cases block_moves hstep with
  | calls u d rwlock hnone hlock =>
    refine ⟨h.step hinv hw (fun t ht => ?_) hlock, fun t c p hrun hc => hkeeps t u c p _ hrun ?_⟩
    · unfold BlockCall.acquire at ht
      split at ht
      · cases ht
      · next hd =>
        cases ht
        exact ha (Bool.not_eq_true _ ▸ hd)
    · rintro rfl
      rw [hnone] at hrun
      cases hrun
  | wakes u rwlock hlock =>
    exact ⟨h.step (a := .wake u) hinv hw (by simp) hlock, fun t c p hrun _ => hrun⟩
  | accesses u d q q' cells' hin hrun' haccess =>
    refine ⟨⟨h, hw⟩, fun t c p hrun hc => hkeeps t u c p _ hrun ?_⟩
    rintro rfl
    rw [hwaits t c p hrun hc] at hin
    simp at hin
  | finishes u r rwlock hreply hlock =>
    refine ⟨h.step (a := .release u) hinv hw (by simp) hlock,
      fun t c p hrun hc => hkeeps t u c p _ hrun ?_⟩
    rintro rfl
    have hpc := hwaits t c p hrun hc
    rw [ThreadSafeDataBlock.reply, hpc] at hreply
    cases hreply

/-- **A block that is locked stays unreadable.** From a state in which a stale condition heads the
queue, in every run in which only one thread writes, no thread enters a reader section again, and
the reads that are under way do not return. -/
theorem reads_never_return (hs : (threadSafe block cells).Reachable s) (h : LockedOut s.rwlock)
    (hw : ∀ t, s.rwlock.pc t = .inWriter → t = w) {acts : List (BlockAct T V)}
    (hacts : ∀ a ∈ acts, a.WritesBy w) (hrun : (threadSafe block cells).run s acts = some s') :
    (∀ t, s'.rwlock.pc t ≠ .inReader) ∧
      ∀ t c p, s.running t = some (c, p) → c.reads = true → s'.running t = some (c, p) := by
  induction acts generalizing s with
  | nil =>
    cases hrun
    exact ⟨h.noReader, fun t c p hrun _ => hrun⟩
  | cons a acts ih =>
    obtain ⟨ha, hacts⟩ := List.forall_mem_cons.mp hacts
    obtain ⟨s₁, hstep, hrest⟩ := Machine.run_cons _ |>.mp hrun
    obtain ⟨⟨h₁, hw₁⟩, hkeeps⟩ := h.block_step hs hw ha hstep
    obtain ⟨hnone, hstays⟩ := ih (hs.next hstep) h₁ hw₁ hacts hrest
    exact ⟨hnone, fun t c p hread hc => hstays t c p (hkeeps t c p hread hc) hc⟩

/-! ## One writer and three readers -/

/-- The reader 2 queues up behind the writer and does not look again in time: the writer comes
back behind the reader 3, and wakes by its timeout when that one leaves. -/
def oneWriterRun : List (BlockAct (Fin 4) ℕ) :=
  [.call 1 (.validate 0 1), .call 0 (.setValues 0 []), .call 2 (.validate 0 1), .finish 1, .wake 0,
    .finish 0, .call 3 (.validate 0 1), .call 0 (.setValues 0 []), .finish 3, .wake 0, .finish 0]

/-- The reader wakes again and again, another one comes, and the writer writes on. -/
def keptOutRun : List (BlockAct (Fin 4) ℕ) :=
  [.wake 2, .call 1 (.validate 0 1), .call 0 (.setValues 0 []), .wake 2, .finish 0, .wake 1, .wake 2]

def fourThreads : Machine (ThreadSafeDataBlock (Fin 4) ℕ ℕ) (BlockAct (Fin 4) ℕ) :=
  threadSafe (arrayBlock ℕ 2) fun _ => 0

/-- The state that one writer has come to. -/
def lockedBlock : ThreadSafeDataBlock (Fin 4) ℕ ℕ :=
  (fourThreads.run fourThreads.init oneWriterRun).get (by decide)

theorem reads_never_return_one_writer : ∃ s', fourThreads.Reachable lockedBlock ∧
    fourThreads.run lockedBlock keptOutRun = some s' ∧ s'.running 2 = lockedBlock.running 2 := by
  have hreach : fourThreads.Reachable lockedBlock := Machine.reachable_get _ oneWriterRun (by decide)
  have hlocked : LockedOut lockedBlock.rwlock := ⟨⟨1, rfl⟩, by decide, by decide⟩
  have hwrites : ∀ a ∈ keptOutRun, a.WritesBy 0 := by decide
  have hrest : (fourThreads.run lockedBlock keptOutRun).isSome := by decide
  obtain ⟨s', hs'⟩ := Option.isSome_iff_exists.mp hrest
  obtain ⟨-, hstays⟩ := reads_never_return hreach hlocked (by decide) hwrites hs'
  exact ⟨s', hreach, hs', hstays 2 (.validate 0 1) _ rfl rfl⟩

end IcsTrafficGen.Modbus

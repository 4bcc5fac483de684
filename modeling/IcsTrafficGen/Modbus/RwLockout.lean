import IcsTrafficGen.Modbus.RwExclusion

/- Whether the lock can keep readers out for good. `acquire_writer` means to remove
   its own condition once it may go on, but pops the head of the queue. As long as
   what it pops is a writer condition, the writer conditions in the queue are as
   many as the waiting writers (`no_lockout`). A writer that wakes by its timeout
   while the readers' entry heads the queue pops that entry and leaves its own
   behind: nobody waits on it, and it keeps every reader out (`lockout`). -/
namespace IcsTrafficGen.Modbus

variable {T : Type}

/-- The step is not a waiting writer that may go on while the reader condition
heads the queue. -/
def PopsNoReader (s : RwState T) (a : RwAct T) : Prop :=
  (s.pc a.thread).isWaitWriter = true → s.lock.Free → s.lock.queue.head? ≠ some .reader

instance (s : RwState T) (a : RwAct T) : Decidable (PopsNoReader s a) :=
  inferInstanceAs (Decidable ((s.pc a.thread).isWaitWriter = true →
    (s.lock.writer = false ∧ s.lock.readers = 0) → s.lock.queue.head? ≠ some .reader))

/-- With a writer condition at the head, a writer's `pop(0)` removes one writer
condition for the one writer that stops waiting. -/
theorem Moves.writersQueued_eq {l l' : RwLock} {p p' : Pc} (hm : Moves l p l' p')
    (h : p.isWaitWriter = true → l.Free → l.queue.head? ≠ some .reader)
    (hr : p' ≠ .raised) :
    l'.writersQueued + (if p.isWaitWriter = true then 1 else 0) =
      l.writersQueued + (if p'.isWaitWriter = true then 1 else 0) := by
  cases hm with
  | readerWaits _ =>
    by_cases hmem : Cond.reader ∈ l.queue <;>
      simp [RwLock.writersQueued, Pc.isWaitWriter, Cond.isWriter, hmem]
  | readerWakes hp =>
    simp [RwLock.writersQueued, Pc.isWaitWriter, List.countP_eq_length_filter,
      RwLock.filter_isWriter_tail hp]
  | writerWaits _ => simp [RwLock.writersQueued, Pc.isWaitWriter, Cond.isWriter]
  | writerPops c d queue hf hq =>
    -- this is where the condition on the run is used
    have hd := h rfl hf
    cases d with
    | reader => simp [hq] at hd
    | writer id =>
      simp [RwLock.writersQueued, hq, Pc.isWaitWriter, List.countP_cons, Cond.isWriter]
  | writerRaises _ _ _ => exact absurd rfl hr
  | _ => simp [RwLock.writersQueued, Pc.isWaitWriter]

/-- No writer condition is left behind in the queue. -/
def NoStale (s : RwState T) : Prop :=
  RwInv s.lock s.pc ∧ s.lock.writersQueued = writersWaiting s.pc

theorem noStale_step [DecidableEq T] {s s' : RwState T} {a : RwAct T} (h : NoStale s) (hp : PopsNoReader s a)
    (hs : (Rw T).step s a = some s') : NoStale s' := by
  obtain ⟨p, hm, hpc⟩ := step_moves hs
  obtain ⟨hinv, heq⟩ := h
  rw [NoStale, hpc]
  refine ⟨hinv.moves hm, ?_⟩
  have := writersWaiting_update hinv.finite a.thread p
  have := hm.writersQueued_eq hp (hm.noRaise hinv.queue_ne_nil)
  omega

theorem NoStale.not_pending {s : RwState T} (h : NoStale s) (hw : ∀ t, s.pc t ≠ .inWriter)
    (hq : ∀ t, (s.pc t).isWaitWriter = false) : s.lock.isPendingWriter = false := by
  obtain ⟨hinv, heq⟩ := h
  rw [writersWaiting, tally_eq_zero (by simp [hq]), RwLock.writersQueued,
    List.countP_eq_zero] at heq
  have hwriter : s.lock.writer = false := by
    have := hinv.writer
    rw [writersIn, tally_eq_zero hw] at this
    exact Bool.toNat_eq_zero.mp this
  refine RwLock.isPendingWriter_eq_false.mpr ⟨hwriter, ?_⟩
  cases hl : s.lock.queue with
  | nil => exact Or.inl rfl
  | cons c queue =>
    cases c with
    | reader => exact Or.inr rfl
    | writer id => exact absurd rfl (heq (.writer id) (by simp [hl]))

/-- **No lockout while no writer pops the readers' entry.** In every state reached by
such a run in which nobody is inside a section and no writer waits, no writer is
pending, and every waiting or arriving reader enters at its next check. -/
theorem no_lockout [DecidableEq T] (acts : List (RwAct T)) {s : RwState T}
    (hmeets : (Rw T).Meets PopsNoReader (Rw T).init acts)
    (hrun : (Rw T).run (Rw T).init acts = some s)
    (hin : ∀ t, s.pc t ≠ .inReader ∧ s.pc t ≠ .inWriter)
    (hwait : ∀ t, (s.pc t).isWaitWriter = false) :
    s.lock.isPendingWriter = false ∧
    (∀ t, s.pc t = .waitReader →
      ∃ s', (Rw T).step s (.wake t) = some s' ∧ s'.pc t = .inReader) ∧
    (∀ t, s.pc t = .idle →
      ∃ s', (Rw T).step s (.acquireReader t) = some s' ∧ s'.pc t = .inReader) := by
  have h0 : NoStale (Rw T).init :=
    ⟨rwInv_init, by simp [Rw, RwLock.init, RwLock.writersQueued, writersWaiting, tally_eq_zero,
      Pc.isWaitWriter]⟩
  have h : NoStale s :=
    Machine.invariant_of_meets (fun _ _ _ hP hC hs => noStale_step hP hC hs) h0 hmeets hrun
  have hp := h.not_pending (fun t => (hin t).2) hwait
  refine ⟨hp, fun t ht => ?_, fun t ht => ?_⟩
  · refine ⟨s.put t s.lock.recheckReader, by simp [Rw, RwState.step, ht], ?_⟩
    simp [RwState.put, RwLock.recheckReader_eq, hp]
  · refine ⟨s.put t s.lock.acquireReader, by simp [Rw, RwState.step, ht], ?_⟩
    simp [RwState.put, RwLock.acquireReader_eq, hp]

/-- A reader leaves, the waiting writer goes on, and nobody pops a reader entry. -/
def orderlyRun : List (RwAct (Fin 2)) :=
  [.acquireReader 0, .acquireWriter 1, .release 0, .wake 1, .release 1]

theorem no_lockout_orderly :
    (((Rw (Fin 2)).run (Rw (Fin 2)).init orderlyRun).get (by decide)).lock.isPendingWriter =
      false :=
  (no_lockout orderlyRun (by decide) (Option.some_get _).symm (by decide)
    (by decide)).1

/-- Writer 1 and reader 2 queue up behind reader 0; after writer 1 got in, thread 0 comes
back as a writer and queues up behind the readers' entry; it wakes by its timeout when
writer 1 leaves, pops that entry, and leaves. -/
def lockoutRun : List (RwAct (Fin 3)) :=
  [.acquireReader 0, .acquireWriter 1, .acquireReader 2, .release 0, .wake 1,
   .acquireWriter 0, .release 1, .wake 0, .release 0]

/-- After `lockoutRun` nobody is inside, no writer waits, and reader 2 is kept out. -/
theorem lockout :
    ¬ ∀ s : RwState (Fin 3), (Rw (Fin 3)).Reachable s →
      (∀ t, s.pc t ≠ .inReader ∧ s.pc t ≠ .inWriter) → (∀ t, (s.pc t).isWaitWriter = false) →
      s.lock.isPendingWriter = false := by
  intro h
  have hp := h _ (Machine.reachable_get _ lockoutRun (by decide)) (by decide) (by decide)
  exact absurd hp (by decide)

end IcsTrafficGen.Modbus

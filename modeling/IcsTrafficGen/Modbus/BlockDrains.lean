import IcsTrafficGen.Modbus.LockedBlock

/- How the calls on a data block come to an end. A thread inside a section is never held up,
   and when nobody is inside a waiting writer gets in, whatever the queue is like. So from
   every state all calls can return with no new one (`calls_return`), unless a stale
   condition is left at the head of the queue: then all stores have returned, and the reads
   that are left are locked out. -/
namespace IcsTrafficGen.Modbus

variable {T A V : Type} [DecidableEq T] [DecidableEq A]
variable {block : DataBlock A V} {cells : A → V} {s s' s'' : ThreadSafeDataBlock T A V}

/-- The threads come from one state to another, and none of them makes a new call. -/
abbrev Drains (block : DataBlock A V) (cells : A → V) (s s' : ThreadSafeDataBlock T A V) : Prop :=
  (threadSafe block cells).Leads (fun a => ∀ t c, a ≠ .call t c) s s'

/-- Where the threads of a reachable state are in their calls. -/
theorem doing_reachable (hs : (threadSafe block cells).Reachable s) :
    ∃ final, ∀ t, Doing block s.block final (s.rwlock.pc t) (s.running t) := by
  obtain ⟨h, hrecorded⟩ := hs.exists_recorded ThreadSafeDataBlock.events
  obtain ⟨order, final, hconsistent⟩ := exists_consistent hrecorded
  exact ⟨final, hconsistent.doing⟩

omit [DecidableEq T] in
theorem Doing.exists_call {cells final : A → V} {p : Pc}
    {r : Option (BlockCall V × Access A V (Reply V))} (h : Doing block cells final p r)
    (hp : p ≠ .idle) : ∃ c q, r = some (c, q) := by
  cases h with
  | idle => exact absurd rfl hp
  | _ => exact ⟨_, _, rfl⟩

/-! ## One call -/

def Pc.Inside (p : Pc) : Prop := p = .inReader ∨ p = .inWriter

theorem Pc.Inside.ne_idle {p : Pc} (h : p.Inside) : p ≠ .idle := by
  rintro rfl
  simp [Pc.Inside] at h

/-- A thread inside a section makes its accesses and returns. -/
theorem drains_inside {t : T} {c : BlockCall V} {p : Access A V (Reply V)}
    (hin : (s.rwlock.pc t).Inside) (hrun : s.running t = some (c, p)) :
    ∃ s', Drains block cells s s' ∧ s'.rwlock.pc = Function.update s.rwlock.pc t .idle := by
  induction p generalizing s with
  | ret r =>
    have hreply : s.reply t = some r := by
      obtain hpc | hpc := hin <;> simp [ThreadSafeDataBlock.reply, hpc, hrun]
    have hrelease : ∃ rwlock, s.rwlock.step (.release t) = some rwlock ∧
        rwlock.pc = Function.update s.rwlock.pc t .idle := by
      obtain hpc | hpc := hin <;> simp [RwState.step, hpc, RwState.put]
    obtain ⟨rwlock, hstep, hpc⟩ := hrelease
    have hfinish : (threadSafe block cells).step s (.finish t) =
        some { s with rwlock, running := Function.update s.running t none } := by
      simp only [threadSafe, ThreadSafeDataBlock.step, hreply, hstep, Option.map_some]
    exact ⟨_, .step (by simp) hfinish, hpc⟩
  | read a next ih =>
    have haccess : s.access t =
        some { s with running := Function.update s.running t (some (c, next (s.block a))) } := by
      obtain hpc | hpc := hin <;> simp [ThreadSafeDataBlock.access, hpc, hrun, Access.step]
    obtain ⟨s', hdrains, hpc⟩ := ih (s.block a) (s := ⟨s.rwlock, s.block,
      Function.update s.running t (some (c, next (s.block a)))⟩) hin (Function.update_self ..)
    exact ⟨s', (Machine.Leads.step (a := .access t) (by simp) haccess).trans hdrains, hpc⟩
  | write a v next ih =>
    have haccess : s.access t = some { s with
        block := Function.update s.block a v
        running := Function.update s.running t (some (c, next)) } := by
      obtain hpc | hpc := hin <;> simp [ThreadSafeDataBlock.access, hpc, hrun, Access.step]
    obtain ⟨s', hdrains, hpc⟩ := ih (s := ⟨s.rwlock, Function.update s.block a v,
      Function.update s.running t (some (c, next))⟩) hin (Function.update_self ..)
    exact ⟨s', (Machine.Leads.step (a := .access t) (by simp) haccess).trans hdrains, hpc⟩

/-- A waiting thread whose re-check succeeds goes in and returns. -/
theorem drains_waiting (hs : (threadSafe block cells).Reachable s) {t : T} {r : RwLock × Pc}
    (hwake : s.rwlock.step (.wake t) = some (s.rwlock.put t r)) (hin : r.2.Inside) :
    ∃ s', Drains block cells s s' ∧ s'.rwlock.pc = Function.update s.rwlock.pc t .idle := by
  have hstep : (threadSafe block cells).step s (.wake t) =
      some { s with rwlock := s.rwlock.put t r } := by
    simp only [threadSafe, ThreadSafeDataBlock.step, hwake, Option.map_some]
  have hpc : (s.rwlock.put t r).pc t = r.2 := Function.update_self ..
  obtain ⟨final, hdoing⟩ := doing_reachable (hs.next hstep)
  have hne : (s.rwlock.put t r).pc t ≠ .idle := hpc ▸ hin.ne_idle
  obtain ⟨c, p, hrun⟩ := (hdoing t).exists_call hne
  obtain ⟨s', hdrains, hpc'⟩ : ∃ s', Drains block cells { s with rwlock := s.rwlock.put t r } s' ∧ _ :=
    drains_inside (hpc ▸ hin) hrun
  refine ⟨s', (Machine.Leads.step (by simp) hstep).trans hdrains, hpc'.trans ?_⟩
  exact Function.update_idem ..

/-! ## All calls -/

/-- When nobody is inside, a waiting writer can go in. -/
theorem wakes_writer {l : RwState T} (hinv : RwInv l.lock l.pc) (hfree : l.lock.Free) {t : T}
    {d : Cond} (hwaits : l.pc t = .waitWriter d) :
    ∃ r : RwLock × Pc, l.step (.wake t) = some (l.put t r) ∧ r.2 = .inWriter := by
  refine ⟨_, by simp only [RwState.step, hwaits]; rfl, ?_⟩
  have hne : l.lock.queue ≠ [] := hinv.queue_ne_nil (t := t) (by rw [hwaits]; rfl)
  rw [RwLock.recheckWriter, if_neg (mt RwLock.busy_iff.mp (not_not.mpr hfree))]
  cases hq : l.lock.queue with
  | nil => exact absurd hq hne
  | cons d queue => rfl

/-- Nor is a reader held up where no condition of a writer heads the queue. -/
theorem wakes_reader {l : RwState T} (hpending : l.lock.isPendingWriter = false) {t : T}
    (hwaits : l.pc t = .waitReader) :
    ∃ r : RwLock × Pc, l.step (.wake t) = some (l.put t r) ∧ r.2 = .inReader := by
  refine ⟨_, by simp only [RwState.step, hwaits]; rfl, ?_⟩
  rw [RwLock.recheckReader_eq, if_neg (by simp [hpending])]

omit [DecidableEq T] in
theorem free_of_outside {l : RwState T} (hinv : RwInv l.lock l.pc)
    (hout : ∀ t, ¬ (l.pc t).Inside) : l.lock.Free := by
  have hreaders : readersIn l.pc = 0 := tally_eq_zero fun t h => hout t (Or.inl h)
  have hwriters : writersIn l.pc = 0 := tally_eq_zero fun t h => hout t (Or.inr h)
  refine ⟨?_, by rw [hinv.readers, hreaders]; rfl⟩
  have hcount := hinv.writer
  rw [hwriters] at hcount
  exact Bool.toNat_eq_zero.mp hcount

/-- One more call can return, unless what is left are readers that are locked out. -/
theorem drains_one (hs : (threadSafe block cells).Reachable s) :
    (∀ t, s.rwlock.pc t = .idle) ∨ LockedOut s.rwlock ∧ (∀ t, ¬ (s.rwlock.pc t).Inside) ∨
      ∃ t s', s.rwlock.pc t ≠ .idle ∧ Drains block cells s s' ∧
        s'.rwlock.pc = Function.update s.rwlock.pc t .idle := by
  have hinv := rwInv_reachable (rwlock_reachable hs)
  by_cases hin : ∃ t, (s.rwlock.pc t).Inside
  · obtain ⟨t, hin⟩ := hin
    obtain ⟨final, hdoing⟩ := doing_reachable hs
    obtain ⟨c, p, hrun⟩ := (hdoing t).exists_call hin.ne_idle
    obtain ⟨s', hdrains, hpc⟩ : ∃ s', Drains block cells s s' ∧ _ := drains_inside hin hrun
    exact Or.inr (Or.inr ⟨t, s', hin.ne_idle, hdrains, hpc⟩)
  · push Not at hin
    have hfree := free_of_outside hinv hin
    by_cases hwriter : ∃ t, (s.rwlock.pc t).isWaitWriter = true
    · obtain ⟨t, hwaits⟩ := hwriter
      cases hpc : s.rwlock.pc t with
      | waitWriter d =>
        obtain ⟨r, hwake, hr⟩ := wakes_writer hinv hfree hpc
        obtain ⟨s', hdrains, hpc'⟩ := drains_waiting hs hwake (Or.inr hr)
        exact Or.inr (Or.inr ⟨t, s', by simp [hpc], hdrains, hpc'⟩)
      | _ => rw [hpc] at hwaits; cases hwaits
    · push Not at hwriter
      by_cases hreader : ∃ t, s.rwlock.pc t = .waitReader
      · obtain ⟨t, hwaits⟩ := hreader
        cases hpending : s.rwlock.lock.isPendingWriter with
        | false =>
          obtain ⟨r, hwake, hr⟩ := wakes_reader hpending hwaits
          obtain ⟨s', hdrains, hpc⟩ := drains_waiting hs hwake (Or.inl hr)
          exact Or.inr (Or.inr ⟨t, s', by simp [hwaits], hdrains, hpc⟩)
        | true =>
          refine Or.inr (Or.inl ⟨⟨?_, fun t h => hin t (Or.inl h), fun t => ?_⟩, hin⟩)
          · cases hq : s.rwlock.lock.queue with
            | nil => simp [RwLock.isPendingWriter, hfree.1, hq] at hpending
            | cons d queue =>
              cases d with
              | reader => simp [RwLock.isPendingWriter, hfree.1, hq] at hpending
              | writer id => exact ⟨id, rfl⟩
          · exact Bool.eq_false_iff.mpr (hwriter t)
      · push Not at hreader
        refine Or.inl fun t => ?_
        have hraised := hinv.noRaise t
        have hout := hin t
        have hwaits := hwriter t
        have hreads := hreader t
        cases hpc : s.rwlock.pc t <;> simp_all [Pc.Inside, Pc.isWaitWriter]

/-- **Every store returns.** From every state the threads can reach, without a new call, they can
come to one in which no store is under way, and no read either unless the readers are locked out
there. -/
theorem calls_return (hs : (threadSafe block cells).Reachable s) : ∃ s', Drains block cells s s' ∧
    (∀ t c p, s'.running t = some (c, p) → c.reads = true ∧ LockedOut s'.rwlock) := by
  induction hn : tally s.rwlock.pc (· ≠ .idle) using Nat.strong_induction_on generalizing s with
  | _ n ih =>
    subst hn
    obtain ⟨final, hdoing⟩ := doing_reachable hs
    obtain hidle | ⟨hlocked, hout⟩ | ⟨t, s₁, hne, hdrains, hpc⟩ := drains_one hs
    · refine ⟨s, .refl s, fun t c p hrun => ?_⟩
      have hthread := hdoing t
      rw [hidle t, hrun] at hthread
      cases hthread
    · refine ⟨s, .refl s, fun t c p hrun => ⟨?_, hlocked⟩⟩
      have hthread := hdoing t
      have hnoWaiter := hlocked.noWaiter t
      have hnotInside := hout t
      rw [hrun] at hthread
      generalize s.rwlock.pc t = q at hthread hnoWaiter hnotInside
      cases hthread with
      | waitReader c hc => exact hc
      | inReader c p hc => exact hc
      | waitWriter c d => cases hnoWaiter
      | inWriter c p => exact absurd (Or.inr rfl) hnotInside
    · have hfinite := (rwInv_reachable (rwlock_reachable hs)).finite
      have hless : tally s₁.rwlock.pc (· ≠ .idle) < tally s.rwlock.pc (· ≠ .idle) := by
        have hleave := tally_update_leave (P := (· ≠ Pc.idle)) (v := .idle) hfinite hne (by simp)
        rw [hpc]
        omega
      obtain ⟨s', hdrains', hend⟩ := ih _ hless (hdrains.reachable hs) rfl
      exact ⟨s', hdrains.trans hdrains', hend⟩

/-- A store that waits for a reader to leave, and another reader behind it. -/
def waitingStore : List (BlockAct (Fin 4) ℕ) := oneWriterRun.take 3

theorem calls_return_waiting : ∃ s s', fourThreads.run fourThreads.init waitingStore = some s ∧
    (s.running 0).isSome ∧ Drains (arrayBlock ℕ 2) (fun _ => 0) s s' ∧
      ∀ c p, s'.running 0 = some (c, p) → c.reads = true := by
  have hruns : (fourThreads.run fourThreads.init waitingStore).isSome := by decide
  obtain ⟨s, hs⟩ := Option.isSome_iff_exists.mp hruns
  have hstore : (fourThreads.run fourThreads.init waitingStore).map
    (fun s => (s.running 0).isSome) = some true := by decide
  rw [hs, Option.map_some, Option.some.injEq] at hstore
  have hreach : fourThreads.Reachable s := ⟨waitingStore, hs⟩
  obtain ⟨s', hdrains, hend⟩ := calls_return hreach
  exact ⟨s, s', hs, hstore, hdrains, fun c p hrun => (hend 0 c p hrun).1⟩

end IcsTrafficGen.Modbus

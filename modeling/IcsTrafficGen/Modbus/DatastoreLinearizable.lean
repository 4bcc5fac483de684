import IcsTrafficGen.Modbus.ThreadSafeDatastore

/- The data block behind the lock is linearizable. A call takes effect with its release.
   The invariant compares what is left of a body with the whole body: run now on the cells
   it comes to what the whole body comes to on the cells as the returned calls left them
   (`Doing`), and nobody but a writer inside has changed these (`Consistent`). -/
namespace IcsTrafficGen.Modbus

variable {T A V : Type} [DecidableEq A] {block : DataBlock A V}

/-- Where a thread is in its call. `final` are the cells as the returned calls left them. -/
inductive Doing (block : DataBlock A V) (cells final : A → V) :
    Pc → Option (BlockCall V × Access A V (Reply V)) → Prop where
  | idle : Doing block cells final .idle none
  | waitReader (c : BlockCall V) : c.reads = true →
      Doing block cells final .waitReader (some (c, block.body c))
  | inReader (c : BlockCall V) (p : Access A V (Reply V)) : c.reads = true → p.ReadOnly →
      p.run cells = (block.body c).run final → Doing block cells final .inReader (some (c, p))
  | waitWriter (c : BlockCall V) (d : Cond) :
      Doing block cells final (.waitWriter d) (some (c, block.body c))
  | inWriter (c : BlockCall V) (p : Access A V (Reply V)) :
      p.run cells = (block.body c).run final → Doing block cells final .inWriter (some (c, p))

structure Consistent (block : DataBlock A V) (init : A → V) (s : ThreadSafeDataBlock T A V)
    (h : History T (BlockCall V) (Reply V)) (order : List (Call T (BlockCall V) (Reply V)))
    (final : A → V) : Prop where
  doing : ∀ t, Doing block s.block final (s.rwlock.pc t) (s.running t)
  pending : ∀ t c p, s.running t = some (c, p) → ∃ i, h.Pending t c i
  calm : (∀ t, s.rwlock.pc t ≠ .inWriter) → s.block = final
  order : ByResponse block.execute init h order final

/-- A thread outside of the sections does not see the cells. -/
theorem Doing.outside {cells cells' final final' : A → V} {p : Pc}
    {r : Option (BlockCall V × Access A V (Reply V))} (hd : Doing block cells final p r)
    (hreader : p ≠ .inReader) (hwriter : p ≠ .inWriter) : Doing block cells' final' p r := by
  cases hd with
  | idle => exact .idle
  | waitReader c hc => exact .waitReader c hc
  | inReader => exact absurd rfl hreader
  | waitWriter c d => exact .waitWriter c d
  | inWriter => exact absurd rfl hwriter

/-- Nobody enters a section while a writer is inside. -/
theorem Moves.enters {l l' : RwLock} {p p' : Pc} (hm : Moves l p l' p')
    (hp : p' = .inReader ∨ p' = .inWriter) : l.writer = false := by
  cases hm with
  | readerEnters h | readerWakes h => exact (RwLock.isPendingWriter_eq_false.mp h).1
  | writerEnters hfree => exact hfree.1
  | writerPops c d queue hfree => exact hfree.1
  | _ => simp at hp

variable {init final : A → V} {s s' : ThreadSafeDataBlock T A V}
  {h : History T (BlockCall V) (Reply V)} {order : List (Call T (BlockCall V) (Reply V))}

/-- A section of a thread that was not a writer inside lets no writer out. -/
theorem no_writer_of_update [DecidableEq T] {pc : T → Pc} {t : T} {p : Pc} (ht : pc t ≠ .inWriter)
    (hno : ∀ u, Function.update pc t p u ≠ .inWriter) (u : T) : pc u ≠ .inWriter := by
  by_cases hut : u = t
  · rw [hut]
    exact ht
  · have := hno u
    rwa [Function.update_of_ne hut] at this

namespace Consistent

theorem initial [DecidableEq T] : Consistent block init (threadSafe block init).init
    ([] : History T (BlockCall V) (Reply V)) [] init where
  doing _ := .idle
  pending _ _ _ hrun := by cases hrun
  calm _ := rfl
  order := .nil init

variable (hc : Consistent block init s h order final)
include hc

/-- While the writer flag is down, the cells are as the returned calls left them. -/
theorem block_eq (hrw : RwInv s.rwlock.lock s.rwlock.pc) (hw : s.rwlock.lock.writer = false) :
    s.block = final := by
  refine hc.calm fun t ht => ?_
  have := hrw.writer_true ht
  rw [hw] at this
  cases this

/-- The thread begins its body on the cells that the returned calls left. -/
theorem begin (hrw : RwInv s.rwlock.lock s.rwlock.pc) {l' : RwLock} {p p' : Pc} {c : BlockCall V}
    (hm : Moves s.rwlock.lock p l' p')
    (hp : if c.reads then p' = .waitReader ∨ p' = .inReader
      else (∃ d, p' = .waitWriter d) ∨ p' = .inWriter) :
    Doing block s.block final p' (some (c, block.body c)) := by
  split at hp
  · next hreads =>
    obtain rfl | rfl := hp
    · exact .waitReader c hreads
    · refine .inReader c _ hreads (block.body_readOnly hreads) ?_
      rw [hc.block_eq hrw (hm.enters (Or.inl rfl))]
  · obtain ⟨d, rfl⟩ | rfl := hp
    · exact .waitWriter c d
    · refine .inWriter c _ ?_
      rw [hc.block_eq hrw (hm.enters (Or.inr rfl))]

/-- The other threads outside of a section of a writer do not see what it writes. -/
theorem others (hrw : RwInv s.rwlock.lock s.rwlock.pc) {t u : T} (ht : s.rwlock.pc t = .inWriter)
    (hut : u ≠ t) (cells' final' : A → V) :
    Doing block cells' final' (s.rwlock.pc u) (s.running u) :=
  (hc.doing u).outside (hrw.no_reader ht) fun hu => hut (hrw.one_writer hu ht)

/-- A thread at its release has executed its whole body. -/
theorem executed {t : T} {r : Reply V} (hrw : RwInv s.rwlock.lock s.rwlock.pc)
    (hreply : s.reply t = some r) :
    ∃ c, s.running t = some (c, .ret r) ∧ block.execute c final = (r, s.block) ∧
      (s.rwlock.pc t = .inReader ∧ s.block = final ∨ s.rwlock.pc t = .inWriter) := by
  have hdoing := hc.doing t
  unfold ThreadSafeDataBlock.reply at hreply
  split at hreply
  · next c r' hin hrun =>
    cases hreply
    rw [hin, hrun] at hdoing
    cases hdoing with
    | inReader c p hreads hro heq =>
      have hro := (block.body_readOnly hreads).run final
      rw [← heq] at hro
      exact ⟨c, hrun, heq.symm, Or.inl ⟨hin, hro⟩⟩
  · next c r' hin hrun =>
    cases hreply
    rw [hin, hrun] at hdoing
    cases hdoing with
    | inWriter c p heq => exact ⟨c, hrun, heq.symm, Or.inr hin⟩
  · next hin _ => exact absurd hin (hrw.noRaise t)
  · cases hreply

variable [DecidableEq T]

theorem calls {t : T} {c : BlockCall V} {rwlock : RwState T}
    (hrw : RwInv s.rwlock.lock s.rwlock.pc) (hstep : s.rwlock.step (c.acquire t) = some rwlock) :
    Consistent block init
      { s with rwlock, running := Function.update s.running t (some (c, block.body c)) }
      (h ++ [.invoke t c]) order final := by
  obtain ⟨hidle, p, hm, hpc, hp⟩ := acquire_moves hstep
  refine ⟨fun u => ?_, fun u c' p' hrun => ?_, fun hno => hc.calm ?_,
    hc.order.invoke t c⟩
  · show Doing block s.block final (rwlock.pc u) (Function.update s.running t _ u)
    rw [hpc]
    by_cases hut : u = t
    · rw [hut, Function.update_self, Function.update_self]
      exact hc.begin hrw hm hp
    · rw [Function.update_of_ne hut, Function.update_of_ne hut]
      exact hc.doing u
  · change Function.update s.running t _ u = _ at hrun
    by_cases hut : u = t
    · rw [hut, Function.update_self] at hrun
      cases hrun
      rw [hut]
      exact ⟨_, .invoke h t c⟩
    · rw [Function.update_of_ne hut] at hrun
      obtain ⟨i, hi⟩ := hc.pending u c' p' hrun
      exact ⟨i, hi.snoc fun heq => hut heq.symm⟩
  · have hne : s.rwlock.pc t ≠ .inWriter := by
      rw [hidle]
      exact Pc.noConfusion
    exact no_writer_of_update hne (hpc ▸ hno)

theorem wakes {t : T} {rwlock : RwState T} (hrw : RwInv s.rwlock.lock s.rwlock.pc)
    (hstep : s.rwlock.step (.wake t) = some rwlock) :
    Consistent block init { s with rwlock } h order final := by
  obtain ⟨p, hm, hpc, hwait⟩ := wake_moves hstep
  have hraised : p ≠ .raised := by
    have := (hrw.moves hm).noRaise t
    rwa [Function.update_self] at this
  refine ⟨fun u => ?_, hc.pending, fun hno => hc.calm ?_, hc.order⟩
  · show Doing block s.block final (rwlock.pc u) (s.running u)
    rw [hpc]
    by_cases hut : u = t
    · rw [hut, Function.update_self]
      have hdoing := hc.doing t
      obtain ⟨hwait, hp⟩ | ⟨d, hwait, hp⟩ := hwait
      · rw [hwait] at hdoing
        generalize s.running t = r at hdoing
        cases hdoing with
        | waitReader c hreads =>
          refine hc.begin hrw hm ?_
          rw [if_pos hreads]
          exact hp
      · rw [hwait] at hdoing
        generalize s.running t = r at hdoing
        cases hdoing with
        | waitWriter c d =>
          obtain rfl | rfl | rfl := hp
          · exact .waitWriter c d
          · refine .inWriter c _ ?_
            rw [hc.block_eq hrw (hm.enters (Or.inr rfl))]
          · exact absurd rfl hraised
    · rw [Function.update_of_ne hut]
      exact hc.doing u
  · have hne : s.rwlock.pc t ≠ .inWriter := by
      obtain ⟨hwait, -⟩ | ⟨d, hwait, -⟩ := hwait
      · rw [hwait]
        exact Pc.noConfusion
      · rw [hwait]
        exact Pc.noConfusion
    exact no_writer_of_update hne (hpc ▸ hno)

theorem accesses {t : T} {c : BlockCall V} {p p' : Access A V (Reply V)} {cells : A → V}
    (hrw : RwInv s.rwlock.lock s.rwlock.pc)
    (hin : s.rwlock.pc t = .inReader ∨ s.rwlock.pc t = .inWriter)
    (hrun : s.running t = some (c, p)) (hstep : p.step s.block = some (p', cells)) :
    Consistent block init
      { s with block := cells, running := Function.update s.running t (some (c, p')) }
      h order final := by
  have hpending : ∀ u c' q, Function.update s.running t (some (c, p')) u = some (c', q) →
      ∃ i, h.Pending u c' i := by
    intro u c' q hrun'
    by_cases hut : u = t
    · rw [hut, Function.update_self] at hrun'
      cases hrun'
      rw [hut]
      exact hc.pending t c p hrun
    · rw [Function.update_of_ne hut] at hrun'
      exact hc.pending u c' q hrun'
  have hdoing := hc.doing t
  rw [hrun] at hdoing
  obtain hin | hin := hin
  · rw [hin] at hdoing
    cases hdoing with
    | inReader c p hreads hro heq =>
      obtain ⟨hro', rfl⟩ := hro.step hstep
      refine ⟨fun u => ?_, hpending, hc.calm, hc.order⟩
      show Doing block s.block final (s.rwlock.pc u) (Function.update s.running t _ u)
      by_cases hut : u = t
      · rw [hut, Function.update_self, hin]
        exact .inReader c p' hreads hro' ((Access.run_step hstep).symm.trans heq)
      · rw [Function.update_of_ne hut]
        exact hc.doing u
  · rw [hin] at hdoing
    cases hdoing with
    | inWriter c p heq =>
      refine ⟨fun u => ?_, hpending, fun hno => absurd hin (hno t), hc.order⟩
      show Doing block cells final (s.rwlock.pc u) (Function.update s.running t _ u)
      by_cases hut : u = t
      · rw [hut, Function.update_self, hin]
        exact .inWriter c p' ((Access.run_step hstep).symm.trans heq)
      · rw [Function.update_of_ne hut]
        exact hc.others hrw hin hut cells final

theorem finishes {t : T} {r : Reply V} {rwlock : RwState T}
    (hrw : RwInv s.rwlock.lock s.rwlock.pc) (hreply : s.reply t = some r)
    (hstep : s.rwlock.step (.release t) = some rwlock) :
    ∃ order', Consistent block init
      { s with rwlock, running := Function.update s.running t none }
      (h ++ [.respond t r]) order' s.block := by
  obtain ⟨c, hrun, hexec, hin⟩ := hc.executed hrw hreply
  obtain ⟨i, hi⟩ := hc.pending t c _ hrun
  have horder := hc.order.respond hi
  rw [hexec] at horder
  obtain ⟨p, hm, hpc⟩ := step_moves (a := .release t) hstep
  have hp : p = .idle := by
    change Moves s.rwlock.lock (s.rwlock.pc t) rwlock.lock p at hm
    obtain ⟨hin, -⟩ | hin := hin
    · rw [hin] at hm
      generalize rwlock.lock = l' at hm
      cases hm
      rfl
    · rw [hin] at hm
      generalize rwlock.lock = l' at hm
      cases hm
      rfl
  refine ⟨_, fun u => ?_, fun u c' p' hrun' => ?_, fun _ => rfl, horder⟩
  · show Doing block s.block s.block (rwlock.pc u) (Function.update s.running t _ u)
    rw [hpc]
    by_cases hut : u = t
    · rw [hut, Function.update_self, hp, RwAct.thread, Function.update_self]
      exact .idle
    · rw [Function.update_of_ne hut, RwAct.thread, Function.update_of_ne hut]
      obtain ⟨-, hblock⟩ | hin := hin
      · have := hc.doing u
        rwa [← hblock] at this
      · exact hc.others hrw hin hut _ _
  · change Function.update s.running t _ u = _ at hrun'
    by_cases hut : u = t
    · rw [hut, Function.update_self] at hrun'
      cases hrun'
    · rw [Function.update_of_ne hut] at hrun'
      obtain ⟨j, hj⟩ := hc.pending u c' p' hrun'
      exact ⟨j, hj.snoc fun heq => hut heq.symm⟩

end Consistent

variable [DecidableEq T]

/-- Whatever the threads have done, there is an order of the calls that have returned. -/
theorem exists_consistent {cells : A → V}
    (hs : ((threadSafe block cells).recorded ThreadSafeDataBlock.events).Reachable (s, h)) :
    ∃ order final, Consistent block cells s h order final := by
  refine Machine.invariant_of_reachable (P := fun s : ThreadSafeDataBlock T A V × _ =>
    ∃ order final, Consistent block cells s.1 s.2 order final)
    ⟨_, _, .initial⟩ (fun s a s' hreach hP hstep => ?_) hs
  obtain ⟨order, final, hc⟩ := hP
  obtain ⟨hstep, hh⟩ := Machine.recorded_step.mp hstep
  have hrw := rwInv_reachable (rwlock_reachable hreach.of_recorded)
  rw [hh]
  obtain ⟨s', h'⟩ := s'
  cases block_moves hstep with
  | calls t c rwlock _ hlock => exact ⟨_, _, hc.calls hrw hlock⟩
  | wakes t rwlock hlock =>
    rw [ThreadSafeDataBlock.events, List.append_nil]
    exact ⟨_, _, hc.wakes hrw hlock⟩
  | accesses t c p p' cells hin hrun haccess =>
    rw [ThreadSafeDataBlock.events, List.append_nil]
    exact ⟨_, _, hc.accesses hrw hin hrun haccess⟩
  | finishes t r rwlock hreply hlock =>
    obtain ⟨order', hc'⟩ := hc.finishes hrw hreply hlock
    rw [ThreadSafeDataBlock.events, hreply]
    exact ⟨order', _, hc'⟩

/-- **Linearizability.** Whatever the threads have done, there is an order of the calls that
have returned, consistent with real time and with the order of each thread, in which each
call, executed at once, gives the result it had. While no writer is inside, the cells are
those that the calls end with. So a result shows the cells as they are between two calls. -/
theorem threadSafe_linearizable {cells : A → V}
    (hs : ((threadSafe block cells).recorded ThreadSafeDataBlock.events).Reachable (s, h)) :
    ∃ order final, Linearizes block.execute cells h order final ∧
      ((∀ t, s.rwlock.pc t ≠ .inWriter) → s.block = final) ∧
      ∀ c, h.Completed c → ∃ before mid, before <+: order ∧
        Executes block.execute cells before mid ∧ c.result = (block.execute c.op mid).1 := by
  obtain ⟨order, final, hc⟩ := exists_consistent hs
  refine ⟨order, final, hc.order.linearizes, hc.calm, fun c hcompleted => ?_⟩
  obtain ⟨before, after, horder⟩ := List.append_of_mem ((hc.order.mem c).mpr hcompleted)
  have hexec := hc.order.executes
  rw [horder] at hexec
  obtain ⟨mid, hbefore, hresult⟩ := hexec.result
  exact ⟨before, mid, ⟨c :: after, horder.symm⟩, hbefore, hresult⟩

/-! ## A reader beside a writer -/

/-- A sequential array of cells from the address 0. -/
def arrayBlock (V : Type) (size : ℕ) : DataBlock ℕ V where
  validate address count := .ret (some (decide (0 ≤ address ∧ address + count ≤ size)))
  getValues address count :=
    (Access.readAll ((List.range count.toNat).map (address.toNat + ·))).map some
  setValues address values :=
    (Access.writeAll ((values.zipIdx address.toNat).map Prod.swap)).map some
  validate_readOnly _ _ := trivial
  getValues_readOnly _ _ := (Access.readOnly_readAll _).map _

/-- The thread 1 reads two cells that the thread 0 has only half written when it comes. -/
def besideWriter : List (BlockAct ℕ ℕ) :=
  [.call 0 (.setValues 0 [7, 7]), .access 0, .call 1 (.getValues 0 2), .access 0, .finish 0,
    .wake 1, .access 1, .access 1, .finish 1]

theorem threadSafe_linearizable_two :
    ∃ order final, Linearizes (arrayBlock ℕ 2).execute (fun _ => 0)
      [.invoke 0 (.setValues 0 [7, 7]), .invoke 1 (.getValues 0 2), .respond (0 : ℕ) .stored,
        .respond 1 (.values [7, 7])] order final := by
  have hrun : (((threadSafe (arrayBlock ℕ 2) fun _ => 0).recorded
      ThreadSafeDataBlock.events).run ((threadSafe (arrayBlock ℕ 2) fun _ => 0).recorded
      ThreadSafeDataBlock.events).init besideWriter).isSome := by decide
  obtain ⟨order, final, hlin, -⟩ := threadSafe_linearizable (Machine.reachable_get _ _ hrun)
  exact ⟨order, final, hlin⟩

end IcsTrafficGen.Modbus

import IcsTrafficGen.Lib.History
import IcsTrafficGen.Modbus.RwLockout

/- Whether the lock keeps the order of the writers. A writer that has to wait gets a place
   in the queue, but nobody looks at the places: a new writer that finds the lock free goes
   in past the queue, and so does a waiting writer that wakes early (`overtaken`). As long
   as neither happens the queue is the line of the waiting writers (`Line`), and they go in
   as they came (`write_order_in_turn`). -/
namespace IcsTrafficGen.Modbus

variable {T : Type}

/-! ## The order of the writers -/

/-- `acquire_writer` as a call: it is invoked with its first check, which says whether it
has to wait, and responds when it sets `self.writer`. -/
def writerEvents (s : RwState T) : RwAct T → List (Event T Bool Unit)
  | .acquireWriter t =>
    if s.lock.acquireWriter.2 = .inWriter then [.invoke t false, .respond t ()]
    else [.invoke t true]
  | .wake t => match s.pc t with
    | .waitWriter c => if (s.lock.recheckWriter c).2 = .inWriter then [.respond t ()] else []
    | _ => []
  | .acquireReader _ | .release _ => []

/-- A writer that was made to wait goes in before each writer that came after it. -/
def WriteOrder (h : History T Bool Unit) : Prop :=
  ∀ b : Call T Bool Unit, h.Completed b → ∀ i t, i < b.invoked → h[i]? = some (.invoke t true) →
    ∃ a : Call T Bool Unit, h.Completed a ∧ a.invoked = i ∧ a.responded < b.responded

/-- Whether a writer at its check is next: a new one if no writer's condition is in the
queue, and a waiting one if its own is at the head, where `pop(0)` takes it from. -/
def RwLock.next (l : RwLock) : RwAct T → Pc → Bool
  | .acquireWriter _, _ => l.writersQueued = 0
  | .wake _, .waitWriter c => l.queue.head? = some c
  | _, _ => true

/-- The step is not a writer that finds the lock free and is not next. -/
def InTurn (s : RwState T) (a : RwAct T) : Prop :=
  s.lock.Free → s.lock.next a (s.pc a.thread) = true

instance (s : RwState T) (a : RwAct T) : Decidable (InTurn s a) :=
  inferInstanceAs (Decidable ((s.lock.writer = false ∧ s.lock.readers = 0) →
    s.lock.next a (s.pc a.thread) = true))

variable {h : History T Bool Unit} {t : T} {j : ℕ}

theorem writeOrder_nil : WriteOrder ([] : History T Bool Unit) := by
  intro b hb
  exact absurd hb.invoked (by simp)

theorem WriteOrder.invoke (ho : WriteOrder h) (waits : Bool) :
    WriteOrder (h ++ [.invoke t waits]) := by
  intro b hb i u hi hget
  have hb' := History.completed_invoke.mp hb
  have hlt : i < h.length := by
    have := hb'.lt
    have := hb'.lt_length
    omega
  rw [List.getElem?_append_left hlt] at hget
  obtain ⟨a, ha, hai, hab⟩ := ho b hb' i u hi hget
  exact ⟨a, ha.append _, hai, hab⟩

/-- A writer goes in; those that had to wait and came before it have gone in. -/
theorem WriteOrder.respond (ho : WriteOrder h) {waits : Bool} (hp : h.Pending t waits j)
    (hall : ∀ i u, i < j → h[i]? = some (.invoke u true) → ∃ a, h.Completed a ∧ a.invoked = i) :
    WriteOrder (h ++ [.respond t ()]) := by
  intro b hb i u hi hget
  have hj := hp.lt
  obtain hb | rfl := (History.completed_respond hp).mp hb
  · have hlt : i < h.length := by
      have := hb.lt
      have := hb.lt_length
      omega
    rw [List.getElem?_append_left hlt] at hget
    obtain ⟨a, ha, hai, hab⟩ := ho b hb i u hi hget
    exact ⟨a, ha.append _, hai, hab⟩
  · replace hi : i < j := hi
    rw [List.getElem?_append_left (by omega)] at hget
    obtain ⟨a, ha, hai⟩ := hall i u hi hget
    exact ⟨a, ha.append _, hai, ha.lt_length⟩

/-- While a writer that had to wait still waits, nobody that came later has gone in. -/
theorem WriteOrder.not_overtaken (ho : WriteOrder h) (hp : h.Pending t true j)
    {b : Call T Bool Unit} (hb : h.Completed b) : b.invoked ≤ j := by
  by_contra hlt
  obtain ⟨a, ha, haj, -⟩ := ho b hb j t (by omega) hp.invoked
  exact hp.not_completed ha haj

/-! ## The line of the waiting writers -/

/-- A waiting writer, its condition, and the event it came with. -/
structure Waiter (T : Type) where
  thread : T
  cond : Cond
  arrived : ℕ

/-- The writers' conditions in the queue are those of the waiting writers as they came. -/
structure Line (s : RwState T) (h : History T Bool Unit) (line : List (Waiter T)) : Prop where
  queue : s.lock.queue.filter Cond.isWriter = line.map Waiter.cond
  waiting : ∀ t c, s.pc t = .waitWriter c ↔ ∃ w ∈ line, w.thread = t ∧ w.cond = c
  nodup : (line.map Waiter.cond).Nodup
  made : ∀ w ∈ line, ∃ k < s.lock.made, w.cond = .writer k
  pending : ∀ w ∈ line, h.Pending w.thread true w.arrived
  sorted : line.Pairwise fun v w => v.arrived < w.arrived
  /-- Who had to wait has gone in or is in the line. -/
  answered : ∀ i t, h[i]? = some (.invoke t true) →
    (∃ a, h.Completed a ∧ a.invoked = i) ∨ ∃ w ∈ line, w.arrived = i
  ordered : WriteOrder h

theorem RwLock.acquireWriter_free {l : RwLock} (hfree : l.Free) :
    l.acquireWriter = ({ l with writer := true }, .inWriter) := by
  rw [acquireWriter_eq, if_neg (mt busy_iff.mp (not_not.mpr hfree))]

theorem RwLock.acquireWriter_busy {l : RwLock} (hbusy : ¬ l.Free) :
    l.acquireWriter =
      ({ l with queue := l.queue ++ [.writer l.made], made := l.made + 1 },
        .waitWriter (.writer l.made)) := by
  rw [acquireWriter_eq, if_pos (busy_iff.mpr hbusy)]

theorem RwLock.recheckWriter_free {l : RwLock} (hfree : l.Free) (c : Cond) {d : Cond}
    {queue : List Cond} (hqueue : l.queue = d :: queue) :
    l.recheckWriter c = ({ l with queue, writer := true }, .inWriter) := by
  rw [recheckWriter, if_neg (mt busy_iff.mp (not_not.mpr hfree)), hqueue]

theorem RwLock.recheckWriter_busy {l : RwLock} (hbusy : ¬ l.Free) (c : Cond) :
    l.recheckWriter c = (l, .waitWriter c) := by
  rw [recheckWriter, if_pos (busy_iff.mpr hbusy)]

/-- A section that no waiting writer begins or ends leaves the writers' conditions alone. -/
theorem Moves.writers_kept {l l' : RwLock} {p p' : Pc} (hm : Moves l p l' p')
    (hp : p.isWaitWriter = false) (hp' : p'.isWaitWriter = false) :
    l'.queue.filter Cond.isWriter = l.queue.filter Cond.isWriter ∧ l'.made = l.made := by
  cases hm with
  | readerWaits _ =>
    refine ⟨?_, rfl⟩
    by_cases hmem : Cond.reader ∈ l.queue
    · simp [hmem]
    · simp [hmem, Cond.isWriter]
  | readerWakes hpending =>
    exact ⟨RwLock.filter_isWriter_tail hpending, rfl⟩
  | writerWaits _ => cases hp'
  | writerStays | writerPops | writerRaises => cases hp
  | _ => exact ⟨rfl, rfl⟩

namespace Line
variable {s s' : RwState T} {line : List (Waiter T)}

theorem initial : Line { lock := RwLock.init, pc := fun _ => .idle } ([] : History T Bool Unit)
    [] where
  queue := rfl
  waiting t c := by simp
  nodup := List.nodup_nil
  made _ hw := absurd hw List.not_mem_nil
  pending _ hw := absurd hw List.not_mem_nil
  sorted := .nil
  answered _ _ hget := by simp at hget
  ordered := writeOrder_nil

variable (hl : Line s h line)
include hl

theorem eq_nil (hq : s.lock.writersQueued = 0) : line = [] := by
  have hlen := congrArg List.length hl.queue
  rw [← List.countP_eq_length_filter, List.length_map] at hlen
  exact List.eq_nil_of_length_eq_zero (hlen.symm.trans hq)

/-- A waiting writer has one place in the line. -/
theorem unique {v w : Waiter T} (hv : v ∈ line) (hw : w ∈ line) (heq : v.cond = w.cond) : v = w :=
  List.inj_on_of_nodup_map hl.nodup hv hw heq

/-- The first writer's condition of the queue is that of the first in the line. -/
theorem head {d : Cond} {queue : List Cond} (hqueue : s.lock.queue = d :: queue)
    (hd : d.isWriter = true) :
    ∃ w rest, line = w :: rest ∧ w.cond = d ∧
      queue.filter Cond.isWriter = rest.map Waiter.cond := by
  have hfilter := hl.queue
  rw [hqueue, List.filter_cons_of_pos hd] at hfilter
  obtain ⟨w, rest, hline, hw, hrest⟩ := List.map_eq_cons_iff.mp hfilter.symm
  exact ⟨w, rest, hline, hw, hrest.symm⟩

theorem isWriter {w : Waiter T} (hw : w ∈ line) : w.cond.isWriter = true := by
  obtain ⟨k, -, hwk⟩ := hl.made w hw
  rw [hwk]
  rfl

theorem first {t : T} {c : Cond} {queue : List Cond} (hwait : s.pc t = .waitWriter c)
    (hqueue : s.lock.queue = c :: queue) :
    ∃ w rest, line = w :: rest ∧ w.thread = t ∧ w.cond = c ∧
      queue.filter Cond.isWriter = rest.map Waiter.cond := by
  obtain ⟨v, hv, hvt, hvc⟩ := (hl.waiting t c).mp hwait
  obtain ⟨w, rest, hline, hwc, hrest⟩ := hl.head hqueue (hvc ▸ hl.isWriter hv)
  obtain rfl : v = w := hl.unique hv (hline ▸ List.mem_cons_self) (hvc.trans hwc.symm)
  exact ⟨v, rest, hline, hvt, hvc, hrest⟩

/-- Before a new writer the line is empty: everybody who had to wait has gone in. -/
theorem newcomer (hnil : line = []) (t : T) :
    Line s (h ++ [.invoke t false] ++ [.respond t ()]) [] := by
  subst hnil
  have hcompleted : ∀ i u, i < h.length → h[i]? = some (.invoke u true) →
      ∃ a, h.Completed a ∧ a.invoked = i := by
    intro i u _ hget
    obtain ha | ⟨w, hw, -⟩ := hl.answered i u hget
    · exact ha
    · exact absurd hw List.not_mem_nil
  refine ⟨hl.queue, hl.waiting, hl.nodup, hl.made, fun w hw => absurd hw List.not_mem_nil,
    hl.sorted, fun i u hget => Or.inl ?_, ?_⟩
  · have hold : h[i]? = some (.invoke u true) := by
      obtain hget | ⟨-, he⟩ := History.getElem?_snoc hget
      · obtain hget | ⟨-, he⟩ := History.getElem?_snoc hget
        · exact hget
        · cases he
      · cases he
    obtain ⟨a, ha, hai⟩ := hcompleted i u (List.getElem?_eq_some_iff.mp hold).1 hold
    exact ⟨a, (ha.append _).append _, hai⟩
  · refine (hl.ordered.invoke false).respond (History.Pending.invoke h t false) ?_
    intro i u hi hget
    rw [List.getElem?_append_left hi] at hget
    obtain ⟨a, ha, hai⟩ := hcompleted i u hi hget
    exact ⟨a, ha.append _, hai⟩

variable [DecidableEq T]

/-- A section of somebody else leaves the line as it is. -/
theorem keeps {l' : RwLock} {p : Pc} {t : T} (hm : Moves s.lock (s.pc t) l' p)
    (ht : (s.pc t).isWaitWriter = false) (hp : p.isWaitWriter = false) :
    Line { lock := l', pc := Function.update s.pc t p } h line := by
  obtain ⟨hqueue, hmade⟩ := hm.writers_kept ht hp
  refine ⟨hqueue.trans hl.queue, fun u c => ?_, hl.nodup, ?_, hl.pending, hl.sorted, hl.answered,
    hl.ordered⟩
  · rw [← hl.waiting]
    show Function.update s.pc t p u = _ ↔ _
    by_cases hut : u = t
    · rw [hut, Function.update_self]
      refine ⟨fun hc => ?_, fun hc => ?_⟩
      · rw [hc] at hp
        cases hp
      · rw [hc] at ht
        cases ht
    · rw [Function.update_of_ne hut]
  · show ∀ w ∈ line, ∃ k < l'.made, _
    rw [hmade]
    exact hl.made

/-- A new writer that has to wait goes to the end of the line. -/
theorem joins {t : T} (hidle : s.pc t = .idle) :
    Line
      { lock := { s.lock with
          queue := s.lock.queue ++ [.writer s.lock.made], made := s.lock.made + 1 }
        pc := Function.update s.pc t (.waitWriter (.writer s.lock.made)) }
      (h ++ [.invoke t true]) (line ++ [⟨t, .writer s.lock.made, h.length⟩]) := by
  have hother : ∀ w ∈ line, w.thread ≠ t := by
    intro w hw heq
    have := (hl.waiting t w.cond).mpr ⟨w, hw, heq, rfl⟩
    rw [hidle] at this
    cases this
  refine ⟨?_, fun u c => ?_, ?_, ?_, ?_, ?_, fun i u hget => ?_, hl.ordered.invoke true⟩
  · show (s.lock.queue ++ _).filter _ = _
    rw [List.filter_append, hl.queue, List.map_append]
    rfl
  · show Function.update s.pc t _ u = _ ↔ _
    simp only [List.mem_append, List.mem_singleton, or_and_right, exists_or]
    by_cases hut : u = t
    · rw [hut, Function.update_self]
      refine ⟨fun hc => Or.inr ⟨_, rfl, rfl, Pc.waitWriter.inj hc⟩, fun hc => ?_⟩
      obtain ⟨w, hw, hwt, -⟩ | ⟨w, rfl, -, rfl⟩ := hc
      · exact absurd hwt (hother w hw)
      · rfl
    · rw [Function.update_of_ne hut, hl.waiting]
      refine ⟨Or.inl, fun hc => hc.resolve_right fun ⟨w, hw, hwt, _⟩ => ?_⟩
      rw [hw] at hwt
      exact hut hwt.symm
  · rw [List.map_append]
    refine List.nodup_append.mpr ⟨hl.nodup, List.nodup_singleton _, fun c hc d hd => ?_⟩
    obtain ⟨w, hw, rfl⟩ := List.mem_map.mp hc
    obtain ⟨k, hk, hwk⟩ := hl.made w hw
    rw [List.mem_singleton.mp hd, hwk]
    intro heq
    have := Cond.writer.inj heq
    omega
  · intro w hw
    obtain hw | hw := List.mem_append.mp hw
    · obtain ⟨k, hk, hwk⟩ := hl.made w hw
      exact ⟨k, Nat.lt_succ_of_lt hk, hwk⟩
    · rw [List.mem_singleton.mp hw]
      exact ⟨_, Nat.lt_succ_self _, rfl⟩
  · intro w hw
    obtain hw | hw := List.mem_append.mp hw
    · exact (hl.pending w hw).snoc (hother w hw).symm
    · rw [List.mem_singleton.mp hw]
      exact .invoke h t true
  · refine List.pairwise_append.mpr ⟨hl.sorted, List.pairwise_singleton _ _, fun v hv w hw => ?_⟩
    rw [List.mem_singleton.mp hw]
    exact (hl.pending v hv).lt
  · obtain hget | ⟨hi, -⟩ := History.getElem?_snoc hget
    · obtain ⟨a, ha, hai⟩ | ⟨w, hw, hwi⟩ := hl.answered i u hget
      · exact Or.inl ⟨a, ha.append _, hai⟩
      · exact Or.inr ⟨w, List.mem_append_left _ hw, hwi⟩
    · exact Or.inr ⟨_, List.mem_append_right _ (List.mem_singleton_self _), hi.symm⟩

/-- The writer at the head of the queue is the first of the line, and it goes in. -/
theorem goes {t : T} {c : Cond} {queue : List Cond} (hwait : s.pc t = .waitWriter c)
    (hqueue : s.lock.queue = c :: queue) :
    Line
      { lock := { s.lock with queue, writer := true }, pc := Function.update s.pc t .inWriter }
      (h ++ [.respond t ()]) line.tail := by
  obtain ⟨w, rest, hline, rfl, rfl, hfilter⟩ := hl.first hwait hqueue
  have hsorted := hl.sorted
  have hnodup := hl.nodup
  rw [hline] at hsorted hnodup
  have hpending := hl.pending w (hline ▸ List.mem_cons_self)
  have hrest : ∀ v ∈ rest, v ∈ line := fun v hv => hline ▸ List.mem_cons_of_mem _ hv
  have hother : ∀ v ∈ rest, v.thread ≠ w.thread := by
    intro v hv heq
    have hvc := (hl.waiting w.thread v.cond).mpr ⟨v, hrest v hv, heq, rfl⟩
    rw [hwait, Pc.waitWriter.injEq] at hvc
    apply (List.nodup_cons.mp hnodup).1
    rw [hvc]
    exact List.mem_map_of_mem hv
  have hanswered : ∀ i u, h[i]? = some (.invoke u true) →
      (∃ a, h.Completed a ∧ a.invoked = i) ∨ i = w.arrived ∨ ∃ v ∈ rest, v.arrived = i := by
    intro i u hget
    obtain ha | ⟨v, hv, hvi⟩ := hl.answered i u hget
    · exact Or.inl ha
    · rw [hline] at hv
      obtain rfl | hv := List.mem_cons.mp hv
      · exact Or.inr (Or.inl hvi.symm)
      · exact Or.inr (Or.inr ⟨v, hv, hvi⟩)
  rw [hline, List.tail_cons]
  refine ⟨hfilter, fun u d => ?_, (List.nodup_cons.mp hnodup).2,
    fun v hv => hl.made v (hrest v hv), fun v hv => (hl.pending v (hrest v hv)).snoc (hother v hv).symm,
    (List.pairwise_cons.mp hsorted).2, fun i u hget => ?_, ?_⟩
  · show Function.update s.pc w.thread .inWriter u = _ ↔ ∃ v ∈ rest, _
    by_cases hut : u = w.thread
    · rw [hut, Function.update_self]
      refine ⟨fun hd => ?_, fun ⟨v, hv, hvt, _⟩ => absurd hvt (hother v hv)⟩
      cases hd
    · rw [Function.update_of_ne hut, hl.waiting, hline]
      simp only [List.exists_mem_cons_iff, Ne.symm hut, false_and, false_or]
  · obtain hget | ⟨-, he⟩ := History.getElem?_snoc hget
    · obtain ⟨a, ha, hai⟩ | rfl | hv := hanswered i u hget
      · exact Or.inl ⟨a, ha.append _, hai⟩
      · exact Or.inl ⟨_, (History.completed_respond hpending).mpr (Or.inr rfl), rfl⟩
      · exact Or.inr hv
    · cases he
  · refine hl.ordered.respond hpending fun i u hi hget => ?_
    obtain ha | rfl | ⟨v, hv, rfl⟩ := hanswered i u hget
    · exact ha
    -- nobody in the line came before its first
    · omega
    · have := (List.pairwise_cons.mp hsorted).1 v hv
      omega

/-- A step in turn keeps the line. -/
theorem step {a : RwAct T} (hturn : InTurn s a) (hstep : (Rw T).step s a = some s') :
    ∃ line, Line s' (h ++ writerEvents s a) line := by
  cases a with
  | acquireReader t =>
    simp only [Rw, RwState.step] at hstep
    split at hstep
    · next hidle =>
      cases hstep
      have hm := hidle ▸ s.lock.acquireReader_moves
      rw [writerEvents, List.append_nil]
      refine ⟨line, hl.keeps hm (by rw [hidle]; rfl) ?_⟩
      rw [RwLock.acquireReader_eq]
      split <;> rfl
    · cases hstep
  | acquireWriter t =>
    simp only [Rw, RwState.step] at hstep
    split at hstep
    · next hidle =>
      cases hstep
      by_cases hfree : s.lock.Free
      · have hnil := hl.eq_nil (of_decide_eq_true (hturn hfree))
        have hm : Moves s.lock (s.pc t) _ _ := hidle ▸ Moves.writerEnters hfree
        rw [writerEvents, RwState.put, RwLock.acquireWriter_free hfree, if_pos rfl]
        have hl' := (hl.keeps hm (by rw [hidle]; rfl) rfl).newcomer hnil t
        rw [List.append_assoc] at hl'
        exact ⟨[], hl'⟩
      · rw [writerEvents, RwState.put, RwLock.acquireWriter_busy hfree, if_neg Pc.noConfusion]
        exact ⟨_, hl.joins hidle⟩
    · cases hstep
  | wake t =>
    simp only [Rw, RwState.step] at hstep
    split at hstep
    · next hwait =>
      cases hstep
      have hm := hwait ▸ s.lock.recheckReader_moves
      simp only [writerEvents, hwait, List.append_nil]
      refine ⟨line, hl.keeps hm (by rw [hwait]; rfl) ?_⟩
      rw [RwLock.recheckReader_eq]
      split <;> rfl
    · next c hwait =>
      cases hstep
      simp only [writerEvents, hwait]
      by_cases hfree : s.lock.Free
      · have hnext := hturn hfree
        simp only [RwAct.thread, hwait, RwLock.next, decide_eq_true_eq] at hnext
        obtain ⟨queue, hqueue⟩ := List.head?_eq_some_iff.mp hnext
        rw [RwState.put, RwLock.recheckWriter_free hfree c hqueue, if_pos rfl]
        exact ⟨_, hl.goes hwait hqueue⟩
      · rw [RwState.put, RwLock.recheckWriter_busy hfree, if_neg Pc.noConfusion, List.append_nil,
          ← hwait, Function.update_eq_self]
        exact ⟨line, hl⟩
    · cases hstep
  | release t =>
    rw [writerEvents, List.append_nil]
    simp only [Rw, RwState.step] at hstep
    split at hstep
    · next hin =>
      cases hstep
      exact ⟨line, hl.keeps (hin ▸ Moves.readerLeaves) (by rw [hin]; rfl) rfl⟩
    · next hin =>
      cases hstep
      exact ⟨line, hl.keeps (hin ▸ Moves.writerLeaves) (by rw [hin]; rfl) rfl⟩
    · next hin =>
      cases hstep
      exact ⟨line, hl.keeps (hin ▸ Moves.raisedLeaves) (by rw [hin]; rfl) rfl⟩
    · cases hstep

omit [DecidableEq T] in
/-- A newcomer that goes in while others wait overtakes them. -/
theorem newcomer_overtakes {t : T} (hidle : s.pc t = .idle)
    (hqueued : s.lock.writersQueued ≠ 0) :
    ¬ WriteOrder (h ++ [.invoke t false, .respond t ()]) := by
  obtain ⟨w, hw⟩ : ∃ w, w ∈ line := by
    refine List.exists_mem_of_ne_nil _ fun hnil => hqueued ?_
    have hfilter := hl.queue
    rw [hnil, List.map_nil] at hfilter
    rw [RwLock.writersQueued, List.countP_eq_length_filter, hfilter, List.length_nil]
  have hother : t ≠ w.thread := by
    intro heq
    have hwait := (hl.waiting t w.cond).mpr ⟨w, hw, heq.symm, rfl⟩
    rw [hidle] at hwait
    cases hwait
  have hpending := ((hl.pending w hw).snoc (e := .invoke t false) hother).snoc
    (e := .respond t ()) hother
  have hcompleted := (History.completed_respond (r := ()) (History.Pending.invoke h t false)).mpr
    (Or.inr rfl)
  rw [List.append_assoc] at hpending hcompleted
  intro ho
  have hle : h.length ≤ w.arrived := ho.not_overtaken hpending hcompleted
  exact absurd (hl.pending w hw).lt (Nat.not_lt.mpr hle)

omit [DecidableEq T] in
/-- A waiting writer that goes in from behind the head of the line overtakes it. -/
theorem waiting_overtakes {t : T} {c d : Cond} {queue : List Cond}
    (hwait : s.pc t = .waitWriter c) (hqueue : s.lock.queue = d :: queue)
    (hd : d.isWriter = true) (hbehind : d ≠ c) : ¬ WriteOrder (h ++ [.respond t ()]) := by
  obtain ⟨v, hv, hvt, hvc⟩ := (hl.waiting t c).mp hwait
  obtain ⟨w, rest, hline, hwd, -⟩ := hl.head hqueue hd
  have hwv : v ∈ rest := by
    rw [hline] at hv
    obtain rfl | hv := List.mem_cons.mp hv
    · exact absurd (hwd.symm.trans hvc) hbehind
    · exact hv
  have hw : w ∈ line := hline ▸ List.mem_cons_self
  have hsorted := hl.sorted
  rw [hline] at hsorted
  have hlt := (List.pairwise_cons.mp hsorted).1 v hwv
  have hother : t ≠ w.thread := by
    intro heq
    have hwc := (hl.waiting t w.cond).mpr ⟨w, hw, heq.symm, rfl⟩
    rw [hwait, Pc.waitWriter.injEq, ← hvc] at hwc
    rw [hl.unique hv hw hwc] at hlt
    omega
  intro ho
  have hle := ho.not_overtaken ((hl.pending w hw).snoc hother)
    ((History.completed_respond (hvt ▸ hl.pending v hv)).mpr (Or.inr rfl))
  exact absurd hlt (Nat.not_lt.mpr hle)

/-- A step out of turn breaks the order, unless it pops the readers' entry. -/
theorem out_of_turn {a : RwAct T} (hturn : ¬ InTurn s a) (hpops : PopsNoReader s a)
    (hstep : (Rw T).step s a = some s') : ¬ WriteOrder (h ++ writerEvents s a) := by
  obtain ⟨hfree, hnext⟩ := Classical.not_imp.mp hturn
  cases a with
  | acquireReader t | release t => exact absurd rfl hnext
  | acquireWriter t =>
    have hidle : s.pc t = .idle := by
      simp only [Rw, RwState.step] at hstep
      split at hstep
      · assumption
      · cases hstep
    rw [writerEvents, RwLock.acquireWriter_free hfree, if_pos rfl]
    exact hl.newcomer_overtakes hidle fun hq => hnext (decide_eq_true hq)
  | wake t =>
    cases hwait : s.pc t with
    | waitWriter c =>
      obtain ⟨v, hv, -, -⟩ := (hl.waiting t c).mp hwait
      have hqueue : s.lock.queue ≠ [] := by
        intro hnil
        have hfilter := hl.queue
        rw [hnil, List.filter_nil] at hfilter
        rw [List.map_eq_nil_iff.mp hfilter.symm] at hv
        exact List.not_mem_nil hv
      obtain ⟨d, queue, hqueue⟩ := List.exists_cons_of_ne_nil hqueue
      have hd : d.isWriter = true := by
        have hhead := hpops (by rw [RwAct.thread, hwait]; rfl) hfree
        rw [hqueue] at hhead
        cases d with
        | reader => exact absurd rfl hhead
        | writer id => rfl
      simp only [writerEvents, hwait, RwLock.recheckWriter_free hfree c hqueue, if_true]
      refine hl.waiting_overtakes hwait hqueue hd fun heq => hnext ?_
      simp only [RwAct.thread, hwait, RwLock.next, hqueue, List.head?_cons, heq, decide_true]
    | _ =>
      apply absurd _ hnext
      rw [RwAct.thread, hwait]
      rfl

end Line

variable [DecidableEq T]

/-- **The order of the writers.** In every run in which no writer goes in out of turn, a
writer that had to wait goes in before each writer that came after it. The first step out
of turn breaks that, unless it pops the readers' entry. -/
theorem write_order_in_turn (acts : List (RwAct T)) {s : RwState T}
    (hmeets : ((Rw T).recorded writerEvents).Meets (fun s a => InTurn s.1 a)
      ((Rw T).recorded writerEvents).init acts)
    (hrun : ((Rw T).recorded writerEvents).run ((Rw T).recorded writerEvents).init acts =
      some (s, h)) :
    WriteOrder h ∧
      ∀ a s' h', PopsNoReader s a → ((Rw T).recorded writerEvents).step (s, h) a = some (s', h') →
        (WriteOrder h' ↔ InTurn s a) := by
  obtain ⟨line, hl⟩ : ∃ line, Line s h line :=
    Machine.invariant_of_meets (P := fun s : RwState T × _ => ∃ line, Line s.1 s.2 line)
      (fun s a s' ⟨_, hl⟩ hturn hstep => by
        obtain ⟨hstep, hh⟩ := Machine.recorded_step.mp hstep
        rw [hh]
        exact hl.step hturn hstep) ⟨[], .initial⟩ hmeets hrun
  refine ⟨hl.ordered, fun a s' h' hpops hstep => ?_⟩
  obtain ⟨hstep, rfl⟩ := Machine.recorded_step.mp hstep
  refine ⟨fun ho => ?_, fun hturn => ?_⟩
  · by_contra hturn
    exact hl.out_of_turn hturn hpops hstep ho
  · obtain ⟨line', hl'⟩ := hl.step hturn hstep
    exact hl'.ordered

/-- Two writers queue up behind a reader and go in one after the other. -/
def lineRun : List (RwAct ℕ) :=
  [.acquireReader 0, .acquireWriter 1, .acquireWriter 2, .release 0, .wake 1, .release 1, .wake 2]

theorem write_order_two :
    WriteOrder [.invoke 1 true, .invoke 2 true, .respond (1 : ℕ) (), .respond 2 ()] := by
  have hrun : (((Rw ℕ).recorded writerEvents).run ((Rw ℕ).recorded writerEvents).init
      lineRun).isSome := by decide
  exact (write_order_in_turn lineRun (by decide) (Option.some_get hrun).symm).1

/-- Writer 1 queues up behind reader 0; the reader leaves, and before writer 1 has woken up
writer 2 comes and finds the lock free. -/
def overtakingRun : List (RwAct ℕ) :=
  [.acquireReader 0, .acquireWriter 1, .release 0, .acquireWriter 2]

theorem overtaken :
    ¬ ∀ (s : RwState ℕ) (h : History ℕ Bool Unit),
      ((Rw ℕ).recorded writerEvents).Reachable (s, h) → WriteOrder h := by
  intro hall
  have ho : WriteOrder [.invoke 1 true, .invoke 2 false, .respond (2 : ℕ) ()] :=
    hall _ _ (Machine.reachable_get _ overtakingRun (by decide))
  have hpending : History.Pending [.invoke 1 true, .invoke 2 false, .respond (2 : ℕ) ()] 1 true 0 :=
    ((History.Pending.invoke [] 1 true).snoc (by decide)).snoc (by decide)
  have hcompleted := (History.completed_respond (r := ())
    (History.Pending.invoke [.invoke (1 : ℕ) true] 2 false)).mpr (Or.inr rfl)
  exact absurd (ho.not_overtaken hpending hcompleted) (by decide)

end IcsTrafficGen.Modbus

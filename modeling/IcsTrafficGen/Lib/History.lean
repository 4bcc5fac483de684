import Mathlib.Data.List.Basic
import Mathlib.Data.List.Pairwise
import Mathlib.Data.Nat.Basic

/- Histories of concurrent calls. A history lists the invocations and the responses of
   the calls in the order they happened; a thread has one call at a time. A history is
   linearizable if its completed calls can be executed one after another, in an order that
   keeps to real time, with the results they had (`Linearizes`). Where a call takes effect
   with its response, the order of the responses is such an order
   (`ByResponse.linearizes`). -/
namespace IcsTrafficGen

inductive Event (T Op R : Type) where
  | invoke (t : T) (op : Op)
  | respond (t : T) (r : R)
  deriving DecidableEq, Repr

abbrev History (T Op R : Type) := List (Event T Op R)

/-- A call that has returned, with the places of its two events in the history. -/
structure Call (T Op R : Type) where
  thread : T
  op : Op
  result : R
  invoked : ℕ
  responded : ℕ
  deriving DecidableEq, Repr

variable {T Op R σ : Type}

def Event.thread : Event T Op R → T
  | .invoke t _ | .respond t _ => t

namespace History
variable {h : History T Op R} {e : Event T Op R} {t : T} {op : Op} {r : R} {i j : ℕ}
  {c : Call T Op R}

/-- The last event of `t` is the invocation of `op` at `i`. -/
structure Pending (h : History T Op R) (t : T) (op : Op) (i : ℕ) : Prop where
  invoked : h[i]? = some (.invoke t op)
  last : ∀ k e, i < k → h[k]? = some e → e.thread ≠ t

structure Completed (h : History T Op R) (c : Call T Op R) : Prop where
  invoked : h[c.invoked]? = some (.invoke c.thread c.op)
  responded : h[c.responded]? = some (.respond c.thread c.result)
  lt : c.invoked < c.responded
  /-- The thread has no event in between: the response is the one to this invocation. -/
  between : ∀ k e, c.invoked < k → k < c.responded → h[k]? = some e → e.thread ≠ c.thread

theorem getElem?_append_of_some (hi : h[i]? = some e) (l : History T Op R) :
    (h ++ l)[i]? = some e := by
  obtain ⟨hlt, -⟩ := List.getElem?_eq_some_iff.mp hi
  rw [List.getElem?_append_left hlt, hi]

/-- An event of a longer history is one of the shorter, or the new one. -/
theorem getElem?_snoc {e' : Event T Op R} (hi : (h ++ [e])[i]? = some e') :
    h[i]? = some e' ∨ i = h.length ∧ e' = e := by
  by_cases hlt : i < h.length
  · rw [List.getElem?_append_left hlt] at hi
    exact Or.inl hi
  · obtain ⟨hlen, hget⟩ := List.getElem?_eq_some_iff.mp hi
    rw [List.length_append, List.length_singleton] at hlen
    obtain rfl : i = h.length := by omega
    rw [List.getElem_concat_length rfl] at hget
    exact Or.inr ⟨rfl, hget.symm⟩

theorem Pending.lt (hp : Pending h t op i) : i < h.length :=
  (List.getElem?_eq_some_iff.mp hp.invoked).1

theorem Pending.invoke (h : History T Op R) (t : T) (op : Op) :
    Pending (h ++ [.invoke t op]) t op h.length := by
  refine ⟨List.getElem?_concat_length, fun k e hk he => ?_⟩
  obtain he | ⟨rfl, -⟩ := getElem?_snoc he
  · have := (List.getElem?_eq_some_iff.mp he).1
    omega
  · omega

/-- The events of the other threads leave a call pending. -/
theorem Pending.snoc (hp : Pending h t op i) (he : e.thread ≠ t) : Pending (h ++ [e]) t op i := by
  refine ⟨getElem?_append_of_some hp.invoked _, fun k e' hk he' => ?_⟩
  obtain he' | ⟨-, rfl⟩ := getElem?_snoc he'
  · exact hp.last k e' hk he'
  · exact he

theorem Pending.unique {op' : Op} (hp : Pending h t op i) (hp' : Pending h t op' j) :
    i = j ∧ op = op' := by
  obtain hlt | rfl | hgt := Nat.lt_trichotomy i j
  · exact absurd rfl (hp.last j _ hlt hp'.invoked)
  · have heq := hp.invoked.symm.trans hp'.invoked
    rw [Option.some.injEq, Event.invoke.injEq] at heq
    exact ⟨rfl, heq.2⟩
  · exact absurd rfl (hp'.last i _ hgt hp.invoked)

theorem Completed.lt_length (hc : Completed h c) : c.responded < h.length :=
  (List.getElem?_eq_some_iff.mp hc.responded).1

theorem Pending.not_completed (hp : Pending h t op i) (hc : Completed h c) : c.invoked ≠ i := by
  intro heq
  have hinvoked := hc.invoked
  rw [heq, hp.invoked] at hinvoked
  obtain ⟨rfl, -⟩ := (Event.invoke.injEq _ _ _ _).mp (Option.some.inj hinvoked)
  exact hp.last _ _ (heq ▸ hc.lt) hc.responded rfl

theorem Completed.append (hc : Completed h c) (l : History T Op R) : Completed (h ++ l) c := by
  refine ⟨getElem?_append_of_some hc.invoked l, getElem?_append_of_some hc.responded l, hc.lt, ?_⟩
  intro k e hk hk' he
  rw [List.getElem?_append_left (Nat.lt_trans hk' hc.lt_length)] at he
  exact hc.between k e hk hk' he

theorem Completed.of_append {l : History T Op R} (hc : Completed (h ++ l) c)
    (hlt : c.responded < h.length) : Completed h c := by
  have hget : ∀ k ≤ c.responded, (h ++ l)[k]? = h[k]? := fun k hk =>
    List.getElem?_append_left (by omega)
  have hlt' := hc.lt
  refine ⟨?_, ?_, hc.lt, fun k e hk hk' he => hc.between k e hk hk' ?_⟩
  · rw [← hget _ (Nat.le_of_lt hlt')]
    exact hc.invoked
  · rw [← hget _ (Nat.le_refl _)]
    exact hc.responded
  · rw [hget k (Nat.le_of_lt hk')]
    exact he

theorem completed_invoke : Completed (h ++ [.invoke t op]) c ↔ Completed h c := by
  refine ⟨fun hc => ?_, fun hc => hc.append _⟩
  obtain hr | ⟨-, he⟩ := getElem?_snoc hc.responded
  · exact hc.of_append (List.getElem?_eq_some_iff.mp hr).1
  · cases he

/-- A response completes the pending call of its thread and no other. -/
theorem completed_respond (hp : Pending h t op i) :
    Completed (h ++ [.respond t r]) c ↔ Completed h c ∨ c = ⟨t, op, r, i, h.length⟩ := by
  refine ⟨fun hc => ?_, ?_⟩
  · obtain hr | ⟨hlen, he⟩ := getElem?_snoc hc.responded
    · exact Or.inl (hc.of_append (List.getElem?_eq_some_iff.mp hr).1)
    · right
      obtain ⟨t', op', r', i', j'⟩ := c
      obtain ⟨rfl, rfl⟩ : t' = t ∧ r' = r := (Event.respond.injEq t' r' t r).mp he
      have hlen : j' = h.length := hlen
      subst hlen
      have hlt : i' < h.length := hc.lt
      have hpend : Pending h t' op' i' := by
        obtain hi | ⟨hi, -⟩ := getElem?_snoc hc.invoked
        · refine ⟨hi, fun k e hk he => ?_⟩
          have hk' := (List.getElem?_eq_some_iff.mp he).1
          exact hc.between k e hk hk' (getElem?_append_of_some he _)
        · exact absurd hi (Nat.ne_of_lt hlt)
      obtain ⟨rfl, rfl⟩ := hp.unique hpend
      rfl
  · intro hc
    obtain hc | rfl := hc
    · exact hc.append _
    · refine ⟨getElem?_append_of_some hp.invoked _, List.getElem?_concat_length, hp.lt, ?_⟩
      intro k e hk hk' he
      rw [List.getElem?_append_left hk'] at he
      exact hp.last k e hk he

/-- Of two calls of one thread, the one that returns first ends before the other begins. -/
theorem Completed.apart {a b : Call T Op R} (ha : Completed h a) (hb : Completed h b)
    (hthread : a.thread = b.thread) (hlt : a.responded < b.responded) :
    a.responded < b.invoked := by
  by_contra hnot
  obtain heq | hgt : a.responded = b.invoked ∨ b.invoked < a.responded := by omega
  · have hsame := ha.responded
    rw [heq, hb.invoked] at hsame
    cases hsame
  · exact hb.between _ _ hgt hlt ha.responded hthread

end History

/-! ## Linearizations -/

section
variable (exec : Op → σ → R × σ)

/-- The calls, one after another from `s`, give their results and end in `s'`. -/
def Executes : σ → List (Call T Op R) → σ → Prop
  | s, [], s' => s' = s
  | s, c :: cs, s' => (exec c.op s).1 = c.result ∧ Executes (exec c.op s).2 cs s'

/-- `order` linearizes the history: it lists the completed calls, keeps to real time and to
the order of each thread, and gives the results when each call is executed at once. -/
structure Linearizes (init : σ) (h : History T Op R) (order : List (Call T Op R)) (final : σ) :
    Prop where
  nodup : order.Nodup
  mem : ∀ c, c ∈ order ↔ h.Completed c
  realTime : order.Pairwise fun a b => ¬ b.responded < a.invoked
  threads : order.Pairwise fun a b => a.thread = b.thread → a.responded < b.invoked
  executes : Executes exec init order final

/-- `order` lists the completed calls as they returned. -/
structure ByResponse (init : σ) (h : History T Op R) (order : List (Call T Op R)) (final : σ) :
    Prop where
  mem : ∀ c, c ∈ order ↔ h.Completed c
  sorted : order.Pairwise fun a b => a.responded < b.responded
  executes : Executes exec init order final

end

variable {exec : Op → σ → R × σ} {init s s' final : σ} {h : History T Op R}
  {order before : List (Call T Op R)} {c : Call T Op R}

theorem executes_append {cs cs' : List (Call T Op R)} :
    Executes exec s (cs ++ cs') s' ↔
      ∃ mid, Executes exec s cs mid ∧ Executes exec mid cs' s' := by
  induction cs generalizing s with
  | nil =>
    refine ⟨fun hs => ⟨s, rfl, hs⟩, fun hs => ?_⟩
    obtain ⟨mid, rfl, hs⟩ := hs
    exact hs
  | cons c cs ih => simp only [List.cons_append, Executes, ih, and_assoc, exists_and_left]

/-- The result of each call is the one it has after the calls before it in the order. -/
theorem Executes.result {cs : List (Call T Op R)} (hexec : Executes exec s (before ++ c :: cs) s') :
    ∃ mid, Executes exec s before mid ∧ c.result = (exec c.op mid).1 := by
  obtain ⟨mid, hbefore, hresult, -⟩ := executes_append.mp hexec
  exact ⟨mid, hbefore, hresult.symm⟩

namespace ByResponse

theorem nil (s : σ) : ByResponse exec s ([] : History T Op R) [] s := by
  refine ⟨fun c => ?_, List.Pairwise.nil, rfl⟩
  refine ⟨fun hc => absurd hc List.not_mem_nil, fun hc => ?_⟩
  exact absurd hc.invoked (by simp)

theorem invoke (hb : ByResponse exec init h order final) (t : T) (op : Op) :
    ByResponse exec init (h ++ [.invoke t op]) order final :=
  ⟨fun c => (hb.mem c).trans History.completed_invoke.symm, hb.sorted, hb.executes⟩

/-- A call that takes effect with its response comes last. -/
theorem respond {t : T} {op : Op} {i : ℕ} (hb : ByResponse exec init h order final)
    (hp : h.Pending t op i) :
    ByResponse exec init (h ++ [.respond t (exec op final).1])
      (order ++ [⟨t, op, (exec op final).1, i, h.length⟩]) (exec op final).2 := by
  refine ⟨fun c => ?_, ?_, ?_⟩
  · rw [List.mem_append, List.mem_singleton, hb.mem, History.completed_respond hp]
  · refine List.pairwise_append.mpr ⟨hb.sorted, List.pairwise_singleton _ _, fun a ha b hb' => ?_⟩
    rw [List.mem_singleton.mp hb']
    exact ((hb.mem a).mp ha).lt_length
  · exact executes_append.mpr ⟨final, hb.executes, rfl, rfl⟩

theorem linearizes (hb : ByResponse exec init h order final) :
    Linearizes exec init h order final := by
  have hcompleted : ∀ {a}, a ∈ order → h.Completed a := fun ha => (hb.mem _).mp ha
  refine ⟨?_, hb.mem, ?_, ?_, hb.executes⟩
  · exact hb.sorted.imp fun hlt heq => by rw [heq] at hlt; omega
  · refine hb.sorted.imp_of_mem fun {a b} ha hb' hlt => ?_
    have := (hcompleted ha).lt
    omega
  · refine hb.sorted.imp_of_mem fun {a b} ha hb' hlt => ?_
    exact fun hthread => (hcompleted ha).apart (hcompleted hb') hthread hlt

end ByResponse
end IcsTrafficGen

import IcsTrafficGen.Lib.Machine
import Mathlib.Data.List.Count
import Mathlib.Logic.Function.Basic

/- Senders with lists of receivers. A sender passes a message to its receivers one after
   another and begins the next message when it is through; the deliveries of different
   senders interleave in any order. A receiver that is listed twice gets the message twice.
   Nothing is lost, doubled or reordered on the way: what a receiver has got from a sender,
   with the copies that are still to come, is what the sender has sent it, in the order of
   sending (`Fanout.arrived`). -/
namespace IcsTrafficGen
variable {S ι μ : Type}

/-- What is under way, and what has been sent and received so far. -/
structure Fanout (S ι μ : Type) where
  /-- The message of a sender, and who has not got it yet. -/
  sending : S → Option (μ × List ι)
  /-- The messages that were begun, with the lists of their receivers. -/
  sent : List (S × μ × List ι)
  got : ι → List (S × μ)

inductive FanoutAct (S ι μ : Type) where
  | send (s : S) (m : μ) (receivers : List ι)
  | deliver (s : S)
  | finish (s : S)

namespace Fanout

def new : Fanout S ι μ := { sending := fun _ => none, sent := [], got := fun _ => [] }

section
variable [DecidableEq S]

/-- The messages a list of deliveries has from one sender. -/
def gotFrom (s : S) (l : List (S × μ)) : List μ := (l.filter (·.1 = s)).map Prod.snd

variable [DecidableEq ι]

/-- The copies of one message that go to one receiver. -/
def copies (s : S) (i : ι) (e : S × μ × List ι) : List μ :=
  if e.1 = s then List.replicate (e.2.2.count i) e.2.1 else []

def sentTo (sent : List (S × μ × List ι)) (s : S) (i : ι) : List μ := sent.flatMap (copies s i)

/-- The copies of the message under way that are still to come. -/
def waiting (f : Fanout S ι μ) (s : S) (i : ι) : List μ :=
  match f.sending s with
  | none => []
  | some (m, receivers) => List.replicate (receivers.count i) m

def step (f : Fanout S ι μ) : FanoutAct S ι μ → Option (Fanout S ι μ)
  | .send s m receivers => match f.sending s with
    | none => some { f with
        sending := Function.update f.sending s (some (m, receivers))
        sent := f.sent ++ [(s, m, receivers)] }
    | some _ => none
  | .deliver s => match f.sending s with
    | some (m, i :: rest) => some { f with
        sending := Function.update f.sending s (some (m, rest))
        got := Function.update f.got i (f.got i ++ [(s, m)]) }
    | _ => none
  | .finish s => match f.sending s with
    | some (_, []) => some { f with sending := Function.update f.sending s none }
    | _ => none

end
end Fanout

/-- The machine of the deliveries. -/
def fanout (S ι μ : Type) [DecidableEq S] [DecidableEq ι] : Machine (Fanout S ι μ) (FanoutAct S ι μ) where
  init := .new
  step := Fanout.step

namespace Fanout
variable [DecidableEq S] [DecidableEq ι] {f f' : Fanout S ι μ} {s : S} {i : ι}

/-- What a step does. -/
inductive Moves (f : Fanout S ι μ) : FanoutAct S ι μ → Fanout S ι μ → Prop where
  | sends (s : S) (m : μ) (receivers : List ι) : f.sending s = none →
      Moves f (.send s m receivers) { f with
        sending := Function.update f.sending s (some (m, receivers))
        sent := f.sent ++ [(s, m, receivers)] }
  | delivers (s : S) (m : μ) (i : ι) (rest : List ι) : f.sending s = some (m, i :: rest) →
      Moves f (.deliver s) { f with
        sending := Function.update f.sending s (some (m, rest))
        got := Function.update f.got i (f.got i ++ [(s, m)]) }
  | finishes (s : S) (m : μ) : f.sending s = some (m, []) →
      Moves f (.finish s) { f with sending := Function.update f.sending s none }

theorem step_moves {a : FanoutAct S ι μ} (h : f.step a = some f') : Moves f a f' := by
  cases a with
  | send s m receivers =>
    simp only [step] at h
    split at h
    · next hnone =>
      cases h
      exact .sends s m receivers hnone
    · cases h
  | deliver s =>
    simp only [step] at h
    split at h
    · next m i rest hsome =>
      cases h
      exact .delivers s m i rest hsome
    · cases h
  | finish s =>
    simp only [step] at h
    split at h
    · next m hsome =>
      cases h
      exact .finishes s m hsome
    · cases h

theorem gotFrom_append (l l' : List (S × μ)) : gotFrom s (l ++ l') = gotFrom s l ++ gotFrom s l' := by
  rw [gotFrom, List.filter_append, List.map_append]
  rfl

theorem waiting_update_of_ne {t : S} (hst : s ≠ t) (p : Option (μ × List ι)) (sent : List (S × μ × List ι))
    (got : ι → List (S × μ)) :
    waiting { sending := Function.update f.sending t p, sent := sent, got := got } s i =
      f.waiting s i := by
  simp only [waiting, Function.update_of_ne hst]

/-- A delivery is one of the copies that were to come. -/
theorem delivered_eq {t : S} {m : μ} {j : ι} {rest : List ι} (h : f.sending t = some (m, j :: rest)) :
    gotFrom s (Function.update f.got j (f.got j ++ [(t, m)]) i) ++
        waiting { f with
          sending := Function.update f.sending t (some (m, rest))
          got := Function.update f.got j (f.got j ++ [(t, m)]) } s i =
      gotFrom s (f.got i) ++ f.waiting s i := by
  by_cases hst : s = t
  · subst hst
    have hbefore : f.waiting s i = List.replicate ((j :: rest).count i) m := by rw [waiting, h]
    rw [hbefore]
    simp only [waiting, Function.update_self]
    by_cases hij : i = j
    · subst hij
      rw [Function.update_self, gotFrom_append, List.append_assoc, List.count_cons_self,
        List.replicate_succ]
      simp [gotFrom]
    · rw [Function.update_of_ne hij, List.count_cons_of_ne (Ne.symm hij)]
  · rw [waiting_update_of_ne hst]
    congr 1
    by_cases hij : i = j
    · subst hij
      rw [Function.update_self, gotFrom_append]
      simp [gotFrom, Ne.symm hst]
    · rw [Function.update_of_ne hij]

/-- What a receiver has got from a sender, and is still to get, is what it was sent. -/
theorem arrived (h : (fanout S ι μ).Reachable f) (s : S) (i : ι) :
    gotFrom s (f.got i) ++ f.waiting s i = sentTo f.sent s i := by
  refine Machine.invariant (P := fun f : Fanout S ι μ =>
    gotFrom s (f.got i) ++ f.waiting s i = sentTo f.sent s i) rfl (fun f a f' hf hstep => ?_) h
  cases step_moves hstep with
  | sends t m receivers hnone =>
    rw [sentTo, List.flatMap_append, ← sentTo, ← hf]
    by_cases hst : s = t
    · subst hst
      simp [waiting, hnone, copies]
    · rw [waiting_update_of_ne hst]
      simp [copies, Ne.symm hst]
  | delivers t m j rest hsome => exact (delivered_eq hsome).trans hf
  | finishes t m hsome =>
    rw [← hf]
    by_cases hst : s = t
    · subst hst
      simp [waiting, hsome]
    · rw [waiting_update_of_ne hst]

/-- When a sender is through, its messages have arrived. -/
theorem arrived_all (h : (fanout S ι μ).Reachable f) (hidle : f.sending s = none) (i : ι) :
    gotFrom s (f.got i) = sentTo f.sent s i := by
  rw [← arrived h s i, waiting, hidle, List.append_nil]

/-- Nobody gets a message that it was not sent. -/
theorem sent_of_got (h : (fanout S ι μ).Reachable f) {m : μ} (hgot : (s, m) ∈ f.got i) :
    ∃ receivers, (s, m, receivers) ∈ f.sent ∧ i ∈ receivers := by
  have hmem : m ∈ sentTo f.sent s i := by
    rw [← arrived h s i]
    refine List.mem_append_left _ (List.mem_map.mpr ⟨(s, m), ?_, rfl⟩)
    exact List.mem_filter.mpr ⟨hgot, decide_eq_true rfl⟩
  obtain ⟨⟨t, m', receivers⟩, he, hcopy⟩ := List.mem_flatMap.mp hmem
  simp only [copies] at hcopy
  split at hcopy
  · next hts =>
    obtain ⟨hcount, rfl⟩ := List.mem_replicate.mp hcopy
    exact ⟨receivers, hts ▸ he, List.count_pos_iff.mp (Nat.pos_of_ne_zero hcount)⟩
  · cases hcopy

end Fanout
end IcsTrafficGen

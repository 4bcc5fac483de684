import Mathlib.Data.List.Perm.Basic
import Mathlib.Data.List.Forall2

/- Computations that return a value or stop with an error, and loops of them. A
   theorem about what such a computation returns is about its `.ok` results;
   `bind_ok` takes a sequence of steps apart, and the rules for loops are stated
   once, for every loop of the two programs. -/
namespace IcsTrafficGen.Fallible
variable {ε α β σ : Type}

theorem bind_ok {x : Except ε α} {f : α → Except ε β} {b : β} :
    (x >>= f) = .ok b ↔ ∃ a, x = .ok a ∧ f a = .ok b := by
  cases x with
  | error e => simp [bind, Except.bind]
  | ok a => simp [bind, Except.bind]

theorem map_ok {x : Except ε α} {f : α → β} {b : β} :
    x.map f = .ok b ↔ ∃ a, x = .ok a ∧ f a = b := by
  cases x <;> simp [Except.map]

theorem exists_ok {x : Except ε α} (h : x.toBool = true) : ∃ a, x = .ok a := by
  cases x with
  | error e => cases h
  | ok a => exact ⟨a, rfl⟩

theorem pure_ok {a b : α} : (pure a : Except ε α) = .ok b ↔ a = b := by simp [pure, Except.pure]

theorem map_bind {γ : Type} (x : Except ε α) (f : α → Except ε β) (g : β → γ) :
    (x >>= f).map g = x >>= fun a => (f a).map g := by
  cases x <;> rfl

theorem bind_map {γ : Type} (x : Except ε α) (f : α → β) (g : β → Except ε γ) :
    x.map f >>= g = x >>= fun a => g (f a) := by
  cases x <;> rfl

/-- What is only converted afterwards ends without an error if it did before. -/
theorem exists_bind_pure {x : Except ε α} {f : α → β} :
    (∃ b, (x >>= fun a => pure (f a)) = .ok b) ↔ ∃ a, x = .ok a := by
  cases x with
  | error e => simp [bind, Except.bind]
  | ok a => simp [bind, Except.bind, pure, Except.pure]

theorem toOption_eq_some {x : Except ε α} {a : α} : x.toOption = some a ↔ x = .ok a := by
  cases x <;> simp [Except.toOption]

/-- A property every pass of a loop body keeps holds behind the loop. -/
theorem foldlM_invariant {f : σ → α → Except ε σ} (P : σ → Prop) {l : List α}
    (hstep : ∀ a ∈ l, ∀ s s', P s → f s a = .ok s' → P s') {s s' : σ} (h0 : P s)
    (h : l.foldlM f s = .ok s') : P s' := by
  induction l generalizing s with
  | nil => exact pure_ok.mp h ▸ h0
  | cons a l ih =>
    rw [List.foldlM_cons, bind_ok] at h
    obtain ⟨s₁, h₁, h₂⟩ := h
    exact ih (fun b hb => hstep b (List.mem_cons_of_mem a hb))
      (hstep a List.mem_cons_self s s₁ h0 h₁) h₂

/-- A loop whose body always returns from a state with `P`, and keeps `P`, returns. -/
theorem foldlM_total {f : σ → α → Except ε σ} (P : σ → Prop) {l : List α}
    (hstep : ∀ a ∈ l, ∀ s, P s → ∃ s', f s a = .ok s' ∧ P s') {s : σ} (h0 : P s) :
    ∃ s', l.foldlM f s = .ok s' ∧ P s' := by
  induction l generalizing s with
  | nil => exact ⟨s, rfl, h0⟩
  | cons a l ih =>
    obtain ⟨s₁, h₁, hP⟩ := hstep a List.mem_cons_self s h0
    obtain ⟨s₂, h₂, hP₂⟩ := ih (fun b hb => hstep b (List.mem_cons_of_mem a hb)) hP
    exact ⟨s₂, by rw [List.foldlM_cons, h₁]; exact h₂, hP₂⟩

/-- A step that an image of the state goes along with: the image of the run is the run of the
image. -/
theorem foldlM_map {τ : Type} {f : σ → α → Except ε σ} {f' : τ → α → Except ε τ} (g : σ → τ)
    (hf : ∀ s a, (f s a).map g = f' (g s) a) (l : List α) (s : σ) :
    (l.foldlM f s).map g = l.foldlM f' (g s) := by
  induction l generalizing s with
  | nil => rfl
  | cons a l ih =>
    rw [List.foldlM_cons, List.foldlM_cons, ← hf]
    cases f s a with
    | error e => rfl
    | ok s' => exact ih s'

/-- A loop goes along with another one if each of its passes does. -/
theorem foldlM_simulates {ε' τ : Type} {f : σ → α → Except ε σ} {g : τ → α → Except ε' τ}
    (R : τ → σ → Prop) {l : List α}
    (hstep : ∀ a ∈ l, ∀ s t s', R t s → f s a = .ok s' → ∃ t', g t a = .ok t' ∧ R t' s')
    {s s' : σ} {t : τ} (hR : R t s) (h : l.foldlM f s = .ok s') :
    ∃ t', l.foldlM g t = .ok t' ∧ R t' s' := by
  induction l generalizing s t with
  | nil =>
    cases h
    exact ⟨t, rfl, hR⟩
  | cons a l ih =>
    obtain ⟨s₁, h₁, h⟩ := bind_ok.mp h
    obtain ⟨t₁, ht₁, hR₁⟩ := hstep a List.mem_cons_self s t s₁ hR h₁
    obtain ⟨t', ht', hR'⟩ := ih (fun b hb => hstep b (List.mem_cons_of_mem a hb)) hR₁ h
    exact ⟨t', bind_ok.mpr ⟨t₁, ht₁, ht'⟩, hR'⟩

/-- Passes that do not get into each other's way: a loop of them returns exactly if each of them
would have returned at the start. -/
theorem foldlM_returns_iff {f : σ → α → Except ε σ} (I : σ → Prop) (C : σ → α → Prop) {l : List α}
    (hone : ∀ a ∈ l, ∀ s, I s → ((∃ s', f s a = .ok s') ↔ C s a))
    (hkeep : ∀ a ∈ l, ∀ s s', I s → f s a = .ok s' → I s')
    (hpair : l.Pairwise fun a b => ∀ s s', I s → f s a = .ok s' → (C s' b ↔ C s b)) {s : σ}
    (h0 : I s) : (∃ s', l.foldlM f s = .ok s') ↔ ∀ a ∈ l, C s a := by
  induction l generalizing s with
  | nil => exact iff_of_true ⟨s, rfl⟩ fun a ha => absurd ha List.not_mem_nil
  | cons a l ih =>
    obtain ⟨hafter, hpair⟩ := List.pairwise_cons.mp hpair
    have hrest : ∀ s₁, f s a = .ok s₁ → ((∃ s', l.foldlM f s₁ = .ok s') ↔ ∀ b ∈ l, C s b) := by
      intro s₁ h₁
      rw [ih (fun b hb => hone b (List.mem_cons_of_mem a hb))
        (fun b hb => hkeep b (List.mem_cons_of_mem a hb)) hpair
        (hkeep a List.mem_cons_self s s₁ h0 h₁)]
      exact forall₂_congr fun b hb => hafter b hb s s₁ h0 h₁
    rw [List.forall_mem_cons, ← hone a List.mem_cons_self s h0]
    simp only [List.foldlM_cons, bind_ok]
    constructor
    · rintro ⟨s', s₁, h₁, h⟩
      exact ⟨⟨s₁, h₁⟩, (hrest s₁ h₁).mp ⟨s', h⟩⟩
    · rintro ⟨⟨s₁, h₁⟩, h⟩
      obtain ⟨s', hs'⟩ := (hrest s₁ h₁).mpr h
      exact ⟨s', s₁, h₁, hs'⟩

/-- A loop in which no pass fails. -/
theorem foldlM_eq_foldl {f : σ → α → Except ε σ} {g : σ → α → σ} {l : List α}
    (h : ∀ a ∈ l, ∀ s, f s a = .ok (g s a)) (s : σ) : l.foldlM f s = .ok (l.foldl g s) := by
  induction l generalizing s with
  | nil => rfl
  | cons a l ih =>
    rw [List.foldlM_cons, h a List.mem_cons_self s]
    exact ih (fun b hb => h b (List.mem_cons_of_mem a hb)) (g s a)

/-- A loop that keeps `P`, and one of whose passes turns the loop invariant `I` into
`P`, ends in `P`. -/
theorem foldlM_reaches {f : σ → α → Except ε σ} {I P : σ → Prop} {l : List α} {a₀ : α}
    (hmem : a₀ ∈ l)
    (hI : ∀ a ∈ l, ∀ s s', I s → f s a = .ok s' → I s')
    (hP : ∀ a ∈ l, ∀ s s', P s → f s a = .ok s' → P s')
    (h₀ : ∀ s s', I s → f s a₀ = .ok s' → P s') {s s' : σ} (hs : I s)
    (h : l.foldlM f s = .ok s') : P s' := by
  obtain ⟨l₁, l₂, rfl⟩ := List.append_of_mem hmem
  rw [List.foldlM_append, bind_ok] at h
  obtain ⟨s₁, h₁, h⟩ := h
  rw [List.foldlM_cons, bind_ok] at h
  obtain ⟨s₂, h₂, h₃⟩ := h
  have hI₁ : I s₁ := foldlM_invariant I (fun a ha => hI a (by simp [ha])) hs h₁
  exact foldlM_invariant P (fun a ha => hP a (by simp [ha])) (h₀ s₁ s₂ hI₁ h₂) h₃

/-- What a loop that collects one result for each element collects. -/
theorem mapM_ok {f : α → Except ε β} {l : List α} {bs : List β} :
    l.mapM f = .ok bs ↔ List.Forall₂ (fun a b => f a = .ok b) l bs := by
  induction l generalizing bs with
  | nil => rw [List.mapM_nil, pure_ok, List.forall₂_nil_left_iff, eq_comm]
  | cons a l ih =>
    rw [List.mapM_cons, List.forall₂_cons_left_iff]
    simp only [bind_ok, pure_ok, ih]
    constructor
    · intro h
      obtain ⟨b, hb, bs', hbs, rfl⟩ := h
      exact ⟨b, bs', hb, hbs, rfl⟩
    · intro h
      obtain ⟨b, bs', hb, hbs, rfl⟩ := h
      exact ⟨b, hb, bs', hbs, rfl⟩

/-- A loop over elements that each give a value of their own, or stop it. -/
theorem mapM_ok_map {f : α → Except ε β} {P : α → Prop} {g : α → β}
    (hf : ∀ a b, f a = .ok b ↔ P a ∧ b = g a) {l : List α} {bs : List β} :
    l.mapM f = .ok bs ↔ (∀ a ∈ l, P a) ∧ bs = l.map g := by
  induction l generalizing bs with
  | nil =>
    rw [List.mapM_nil, pure_ok, List.map_nil]
    exact ⟨fun h => ⟨fun a ha => absurd ha List.not_mem_nil, h.symm⟩, fun h => h.2.symm⟩
  | cons a l ih =>
    simp only [List.mapM_cons, bind_ok, pure_ok, hf, ih, List.forall_mem_cons, List.map_cons]
    constructor
    · intro h
      obtain ⟨_, ⟨ha, rfl⟩, _, ⟨hl, rfl⟩, rfl⟩ := h
      exact ⟨⟨ha, hl⟩, rfl⟩
    · intro h
      obtain ⟨⟨ha, hl⟩, rfl⟩ := h
      exact ⟨_, ⟨ha, rfl⟩, _, ⟨hl, rfl⟩, rfl⟩

theorem exists_right {R : α → β → Prop} {l : List α} {bs : List β} (h : List.Forall₂ R l bs)
    {a : α} (ha : a ∈ l) : ∃ b ∈ bs, R a b := by
  induction h with
  | nil => cases ha
  | cons hab _ ih =>
    rcases List.mem_cons.mp ha with rfl | ha
    · exact ⟨_, List.mem_cons_self, hab⟩
    · obtain ⟨b, hb, hR⟩ := ih ha
      exact ⟨b, List.mem_cons_of_mem _ hb, hR⟩

theorem exists_left {R : α → β → Prop} {l : List α} {bs : List β} (h : List.Forall₂ R l bs)
    {b : β} (hb : b ∈ bs) : ∃ a ∈ l, R a b := exists_right (R := fun b a => R a b) h.flip hb

theorem mapM_mem {f : α → Except ε β} {l : List α} {bs : List β} (h : l.mapM f = .ok bs) {a : α}
    (ha : a ∈ l) : ∃ b ∈ bs, f a = .ok b := exists_right (mapM_ok.mp h) ha

/-- The elements in another order give their results in another order. -/
theorem mapM_perm {f : α → Except ε β} {l l' : List α} {bs bs' : List β} (hperm : l.Perm l')
    (h : l.mapM f = .ok bs) (h' : l'.mapM f = .ok bs') : bs.Perm bs' := by
  obtain ⟨bs₁, h₁, hbs⟩ := List.perm_comp_forall₂ hperm (mapM_ok.mp h')
  cases h.symm.trans (mapM_ok.mpr h₁)
  exact hbs

end IcsTrafficGen.Fallible

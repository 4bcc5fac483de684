import IcsTrafficGen.Lib.Dict
import IcsTrafficGen.Lib.Fallible
import Mathlib.Data.Rat.Floor
import Mathlib.Algebra.Order.Ring.Rat

/- Python as far as code that walks through parsed JSON needs it: exceptions, the values
   `json.load` returns, and what the built-in operations do to a value of any type.
   `True` and `False` are the numbers 1 and 0, which they equal and hash like. -/
namespace IcsTrafficGen

inductive Exc where
  | systemExit
  | keyError
  | indexError
  | typeError
  | attributeError
  | valueError
  | overflowError
  | osError
  deriving DecidableEq, Repr

/-- An expression that may raise. -/
abbrev Py (α : Type) := Except Exc α

/-- A statement that may raise, and what it has done to the state by then. -/
abbrev PyM (σ α : Type) := EStateM Exc σ α

namespace PyM
variable {α β γ σ : Type}

def lift (x : Py α) : PyM σ α := fun s =>
  match x with
  | .ok a => .ok a s
  | .error e => .error e s

def raise (e : Exc) : PyM σ α := fun s => .error e s

/-- `try: x except: …`: `none` where an exception, `SystemExit` included, was caught. -/
def attempt (x : PyM σ α) : PyM σ (Option α) := fun s =>
  match x s with
  | .ok a s' => .ok (some a) s'
  | .error _ s' => .ok none s'

theorem bind_ok {x : PyM σ α} {f : α → PyM σ β} {s s' : σ} {b : β} :
    (x >>= f) s = .ok b s' ↔ ∃ a s₁, x s = .ok a s₁ ∧ f a s₁ = .ok b s' := by
  show EStateM.bind x f s = _ ↔ _
  unfold EStateM.bind
  cases x s with
  | error e s₁ => simp
  | ok a s₁ => simp

theorem pure_ok {a b : α} {s s' : σ} : (pure a : PyM σ α) s = .ok b s' ↔ a = b ∧ s = s' := by
  show EStateM.Result.ok a s = _ ↔ _
  simp

theorem lift_ok {x : Py α} {a : α} {s s' : σ} :
    (lift x : PyM σ α) s = .ok a s' ↔ x = .ok a ∧ s = s' := by
  unfold lift
  cases x <;> simp

theorem raise_ok {e : Exc} {a : α} {s s' : σ} : ¬ (raise e : PyM σ α) s = .ok a s' := by
  simp [raise]

theorem bind_error {x : PyM σ α} {f : α → PyM σ β} {s s' : σ} {e : Exc} :
    (x >>= f) s = .error e s' ↔
      x s = .error e s' ∨ ∃ a s₁, x s = .ok a s₁ ∧ f a s₁ = .error e s' := by
  show EStateM.bind x f s = _ ↔ _
  unfold EStateM.bind
  cases x s with
  | error e s₁ => simp
  | ok a s₁ => simp

theorem pure_error {a : α} {s s' : σ} {e : Exc} : ¬ (pure a : PyM σ α) s = .error e s' := by
  show ¬ EStateM.Result.ok a s = _
  simp

theorem lift_error {x : Py α} {s s' : σ} {e : Exc} :
    (lift x : PyM σ α) s = .error e s' ↔ x = .error e ∧ s = s' := by
  unfold lift
  cases x <;> simp

theorem lift_bind_ok {x : Py α} {f : α → PyM σ β} {s s' : σ} {b : β} :
    (lift x >>= f) s = .ok b s' ↔ ∃ a, x = .ok a ∧ f a s = .ok b s' := by
  rw [bind_ok]
  constructor
  · intro h
    obtain ⟨a, _, hlift, h⟩ := h
    obtain ⟨hx, rfl⟩ := lift_ok.mp hlift
    exact ⟨a, hx, h⟩
  · intro h
    obtain ⟨a, hx, h⟩ := h
    exact ⟨a, s, lift_ok.mpr ⟨hx, rfl⟩, h⟩

theorem lift_bind_error {x : Py α} {f : α → PyM σ β} {s s' : σ} {e : Exc} :
    (lift x >>= f) s = .error e s' ↔
      x = .error e ∧ s = s' ∨ ∃ a, x = .ok a ∧ f a s = .error e s' := by
  rw [bind_error, lift_error]
  refine or_congr_right ⟨fun h => ?_, fun h => ?_⟩
  · obtain ⟨a, _, hlift, h⟩ := h
    obtain ⟨hx, rfl⟩ := lift_ok.mp hlift
    exact ⟨a, hx, h⟩
  · obtain ⟨a, hx, h⟩ := h
    exact ⟨a, s, lift_ok.mpr ⟨hx, rfl⟩, h⟩

theorem attempt_ok {x : PyM σ α} {o : Option α} {s s' : σ} :
    attempt x s = .ok o s' ↔
      (∃ a, x s = .ok a s' ∧ o = some a) ∨ (∃ e, x s = .error e s' ∧ o = none) := by
  unfold attempt
  cases x s <;> simp [eq_comm, and_comm]

/-- A property of the loop variable and the state that every pass keeps holds behind the loop. -/
theorem foldlM_invariant {f : β → α → PyM σ β} (P : β → σ → Prop) {l : List α}
    (hstep : ∀ a ∈ l, ∀ b s b' s', P b s → f b a s = .ok b' s' → P b' s') {b b' : β} {s s' : σ}
    (h0 : P b s) (h : l.foldlM f b s = .ok b' s') : P b' s' := by
  induction l generalizing b s with
  | nil =>
    obtain ⟨rfl, rfl⟩ := pure_ok.mp h
    exact h0
  | cons a l ih =>
    rw [List.foldlM_cons, bind_ok] at h
    obtain ⟨b₁, s₁, h₁, h₂⟩ := h
    exact ih (fun x hx => hstep x (List.mem_cons_of_mem a hx))
      (hstep a List.mem_cons_self b s b₁ s₁ h0 h₁) h₂

/-- A loop in which every pass returns, and keeps what makes the next one return. -/
theorem foldlM_total {f : β → α → PyM σ β} (P : β → σ → Prop) {l : List α}
    (hstep : ∀ a ∈ l, ∀ b s, P b s → ∃ b' s', f b a s = .ok b' s' ∧ P b' s') {b : β} {s : σ}
    (h0 : P b s) : ∃ b' s', l.foldlM f b s = .ok b' s' ∧ P b' s' := by
  induction l generalizing b s with
  | nil => exact ⟨b, s, rfl, h0⟩
  | cons a l ih =>
    obtain ⟨b₁, s₁, h₁, hP⟩ := hstep a List.mem_cons_self b s h0
    obtain ⟨b₂, s₂, h₂, hP₂⟩ := ih (fun x hx => hstep x (List.mem_cons_of_mem a hx)) hP
    refine ⟨b₂, s₂, ?_, hP₂⟩
    rw [List.foldlM_cons]
    exact bind_ok.mpr ⟨b₁, s₁, h₁, h₂⟩

theorem attempt_error {x : PyM σ α} {e : Exc} {s s' : σ} : ¬ attempt x s = .error e s' := by
  unfold attempt
  cases x s <;> simp

/-- `x` ends in the state `s'`, with a value or by the exception `e`. -/
def Ends (e : Exc) (x : PyM σ α) (s s' : σ) : Prop := (∃ a, x s = .ok a s') ∨ x s = .error e s'

theorem ends_bind {x : PyM σ α} {f : α → PyM σ β} {e : Exc} {s s' : σ} :
    Ends e (x >>= f) s s' ↔ x s = .error e s' ∨ ∃ a s₁, x s = .ok a s₁ ∧ Ends e (f a) s₁ s' := by
  unfold Ends
  simp only [bind_ok, bind_error]
  constructor
  · rintro (⟨b, a, s₁, ha, hb⟩ | h | ⟨a, s₁, ha, h⟩)
    · exact Or.inr ⟨a, s₁, ha, Or.inl ⟨b, hb⟩⟩
    · exact Or.inl h
    · exact Or.inr ⟨a, s₁, ha, Or.inr h⟩
  · rintro (h | ⟨a, s₁, ha, ⟨b, hb⟩ | h⟩)
    · exact Or.inr (Or.inl h)
    · exact Or.inl ⟨b, a, s₁, ha, hb⟩
    · exact Or.inr (Or.inr ⟨a, s₁, ha, h⟩)

theorem ends_lift_bind {x : Py α} {f : α → PyM σ β} {e : Exc} {s s' : σ} :
    Ends e (lift x >>= f) s s' ↔ x = .error e ∧ s = s' ∨ ∃ a, x = .ok a ∧ Ends e (f a) s s' := by
  unfold Ends
  rw [lift_bind_error]
  simp only [lift_bind_ok]
  constructor
  · intro h
    obtain ⟨b, a, hx, h⟩ | h | ⟨a, hx, h⟩ := h
    · exact Or.inr ⟨a, hx, Or.inl ⟨b, h⟩⟩
    · exact Or.inl h
    · exact Or.inr ⟨a, hx, Or.inr h⟩
  · intro h
    obtain h | ⟨a, hx, ⟨b, h⟩ | h⟩ := h
    · exact Or.inr (Or.inl h)
    · exact Or.inl ⟨b, a, hx, h⟩
    · exact Or.inr (Or.inr ⟨a, hx, h⟩)

/-- Whatever `x` ends in, what `g` reads of the state is as before. -/
def Frames (g : σ → γ) (x : PyM σ α) : Prop :=
  ∀ s s', (∀ a, x s = .ok a s' → g s' = g s) ∧ ∀ e, x s = .error e s' → g s' = g s

section
variable {g : σ → γ}

theorem Frames.pure (a : α) : Frames g (pure a : PyM σ α) := fun _ _ =>
  ⟨fun _ h => by rw [(pure_ok.mp h).2], fun _ h => absurd h pure_error⟩

theorem Frames.lift (x : Py α) : Frames g (lift x : PyM σ α) := fun _ _ =>
  ⟨fun _ h => by rw [(lift_ok.mp h).2], fun _ h => by rw [(lift_error.mp h).2]⟩

theorem Frames.raise (e : Exc) : Frames g (raise e : PyM σ α) := fun _ _ =>
  ⟨fun _ h => absurd h raise_ok, fun _ h => by cases h; rfl⟩

theorem Frames.bind {x : PyM σ α} {f : α → PyM σ β} (hx : Frames g x)
    (hf : ∀ a, Frames g (f a)) : Frames g (x >>= f) := by
  intro s s'
  constructor
  · intro b h
    obtain ⟨a, s₁, ha, h⟩ := bind_ok.mp h
    rw [(hf a s₁ s').1 b h, (hx s s₁).1 a ha]
  · intro e h
    obtain h | ⟨a, s₁, ha, h⟩ := bind_error.mp h
    · exact (hx s s').2 e h
    · rw [(hf a s₁ s').2 e h, (hx s s₁).1 a ha]

theorem Frames.ite {P : Prop} [Decidable P] {x y : PyM σ α} (hx : Frames g x) (hy : Frames g y) :
    Frames g (if P then x else y) := by
  split
  · exact hx
  · exact hy

theorem Frames.ends {x : PyM σ α} (hx : Frames g x) {e : Exc} {s s' : σ} (h : Ends e x s s') :
    g s' = g s := by
  obtain ⟨a, h⟩ | h := h
  · exact (hx s s').1 a h
  · exact (hx s s').2 e h

end

/-- Where `x` returns, `y` does, with the same value and the same state. -/
def Follows (x y : PyM σ α) : Prop := ∀ a s s', x s = .ok a s' → y s = .ok a s'

theorem Follows.refl (x : PyM σ α) : Follows x x := fun _ _ _ h => h

theorem Follows.bind {x y : PyM σ α} {f g : α → PyM σ β} (h : Follows x y)
    (hf : ∀ a, Follows (f a) (g a)) : Follows (x >>= f) (y >>= g) := by
  intro b s s' hb
  obtain ⟨a, s₁, ha, hb⟩ := bind_ok.mp hb
  exact bind_ok.mpr ⟨a, s₁, h a s s₁ ha, hf a b s₁ s' hb⟩

theorem Follows.ite {P : Prop} [Decidable P] {x y x' y' : PyM σ α} (h : Follows x y)
    (h' : Follows x' y') : Follows (if P then x else x') (if P then y else y') := by
  split
  · exact h
  · exact h'

theorem Follows.foldlM {f g : β → α → PyM σ β} (h : ∀ b a, Follows (f b a) (g b a)) (l : List α)
    (b : β) : Follows (l.foldlM f b) (l.foldlM g b) := by
  induction l generalizing b with
  | nil => exact Follows.refl _
  | cons a l ih =>
    rw [List.foldlM_cons, List.foldlM_cons]
    exact (h b a).bind ih

end PyM

/-- `d[k]`. -/
def Dict.getItem {κ υ : Type} [DecidableEq κ] (d : Dict κ υ) (k : κ) : Py υ :=
  match d.get? k with
  | some v => .ok v
  | none => .error .keyError

theorem Dict.getItem_ok {κ υ : Type} [DecidableEq κ] {d : Dict κ υ} {k : κ} {v : υ} :
    d.getItem k = .ok v ↔ d.get? k = some v := by
  unfold Dict.getItem
  cases d.get? k <;> simp

/-! ## JSON values -/

/-- The values that can be a key of a dictionary. -/
inductive Scalar where
  | null
  | num (q : Rat)
  | str (s : String)
  deriving DecidableEq, Repr

/-- A parsed JSON value. The fields of an object are in file order; of two fields with
one name the later counts, in the place of the earlier. -/
inductive Json where
  | scalar (s : Scalar)
  | arr (xs : List Json)
  | obj (fields : List (String × Json))

def Scalar.truthy : Scalar → Bool
  | .null => false
  | .num q => q != 0
  | .str s => s != ""

namespace Json

def null : Json := scalar .null

def num (q : Rat) : Json := scalar (.num q)

def str (s : String) : Json := scalar (.str s)

theorem str_inj {s t : String} : str s = str t ↔ s = t := by
  rw [str, str, Json.scalar.injEq, Scalar.str.injEq]

def truthy : Json → Bool
  | scalar s => s.truthy
  | arr xs => !xs.isEmpty
  | obj fields => !fields.isEmpty

/-- `for x in j`. -/
def iter : Json → Py (List Json)
  | arr xs => .ok xs
  | obj fields => .ok ((Dict.ofList fields).keys.map str)
  | scalar (.str s) => .ok (s.toList.map (fun c => str (String.singleton c)))
  | scalar _ => .error .typeError

/-- The object whose attribute `get` is used. -/
def asDict : Json → Py (Dict String Json)
  | obj fields => .ok (Dict.ofList fields)
  | _ => .error .attributeError

/-- `j[key]` with a string key. -/
def getItem (key : String) : Json → Py Json
  | obj fields => match (Dict.ofList fields).get? key with
    | some v => .ok v
    | none => .error .keyError
  | _ => .error .typeError

/-- `j[0]`. -/
def first : Json → Py Json
  | arr (x :: _) => .ok x
  | arr [] => .error .indexError
  | obj _ => .error .keyError
  | scalar (.str s) => match s.toList with
    | c :: _ => .ok (str (String.singleton c))
    | [] => .error .indexError
  | scalar _ => .error .typeError

/-- The use of a value as a key or as a member of a set. -/
def hash : Json → Py Scalar
  | scalar s => .ok s
  | _ => .error .typeError

theorem hash_ok {j : Json} {s : Scalar} : j.hash = .ok s ↔ j = scalar s := by
  cases j <;> simp [hash]

/-! `==` -/

mutual

def eqv : Json → Json → Bool
  | scalar s, scalar t => s = t
  | arr xs, arr ys => eqvList xs ys
  | obj fs, obj gs => eqvFields fs gs && (gs.all fun g => fs.any fun f => f.1 = g.1)
  | _, _ => false

def eqvList : List Json → List Json → Bool
  | [], [] => true
  | x :: xs, y :: ys => eqv x y && eqvList xs ys
  | _, _ => false

/-- Every field of the first object that counts has an equal one in the second. -/
def eqvFields : List (String × Json) → List (String × Json) → Bool
  | [], _ => true
  | (k, v) :: fs, gs =>
    ((fs.any fun f => f.1 = k) ||
      match (gs.reverse.find? fun g => g.1 = k) with
      | some g => eqv v g.2
      | none => false) && eqvFields fs gs

end

theorem eqv_scalar {s t : Scalar} : (scalar s).eqv (scalar t) = true ↔ s = t := by
  simp [eqv]

theorem eq_of_scalar_eqv {s : Scalar} {j : Json} (h : (scalar s).eqv j = true) : j = scalar s := by
  cases j with
  | scalar t => rw [eqv_scalar.mp h]
  | _ => simp [eqv] at h

theorem eq_nil_of_eqvFields {fs : List (String × Json)} (h : eqvFields fs [] = true) : fs = [] := by
  induction fs with
  | nil => rfl
  | cons f fs ih =>
    simp only [eqvFields, Bool.and_eq_true] at h
    simp [ih h.2] at h

/-- Equal values are both true or both false. -/
theorem truthy_of_eqv {i j : Json} (h : i.eqv j = true) : i.truthy = j.truthy := by
  match i, j with
  | scalar s, scalar t => rw [eqv_scalar.mp h]
  | arr [], arr [] | arr (_ :: _), arr (_ :: _) => rfl
  | arr [], arr (_ :: _) | arr (_ :: _), arr [] => simp [eqv, eqvList] at h
  | obj fs, obj gs =>
    simp only [eqv, Bool.and_eq_true] at h
    cases gs with
    | nil => rw [eq_nil_of_eqvFields h.1]
    | cons g gs => cases fs <;> simp_all [truthy]
  | scalar _, arr _ | scalar _, obj _ | arr _, scalar _ | arr _, obj _ | obj _, scalar _
  | obj _, arr _ => simp [eqv] at h

end Json

/-! ## Built-in functions -/

/-- `x > y`. -/
def Scalar.gt : Scalar → Scalar → Py Bool
  | .num p, .num q => .ok (q < p)
  | .str s, .str t => .ok (t < s)
  | _, _ => .error .typeError

/-- `max(xs)`. -/
def Scalar.max : List Scalar → Py Scalar
  | [] => .error .valueError
  | x :: xs => xs.foldlM (fun m x => do
      let g ← x.gt m
      pure (if g then x else m)) x

theorem Scalar.gt_ok {x y : Scalar} {g : Bool} (h : y.gt x = .ok g) {q : Rat}
    (hq : x = .num q ∨ y = .num q) :
    ∃ p r, x = .num p ∧ y = .num r ∧ g = decide (p < r) := by
  cases x <;> cases y <;> simp_all [Scalar.gt]

/-- `max` of a list with a number is a number at least as large. -/
theorem Scalar.le_max {xs : List Scalar} {t : Scalar} (h : Scalar.max xs = .ok t) {q : Rat}
    (hq : .num q ∈ xs) : ∃ p, t = .num p ∧ q ≤ p := by
  cases xs with
  | nil => cases hq
  | cons x xs =>
    simp only [Scalar.max] at h
    induction xs generalizing x q with
    | nil =>
      rw [Fallible.pure_ok.mp h, List.mem_singleton] at *
      exact ⟨q, hq.symm, le_refl q⟩
    | cons y ys ih =>
      obtain ⟨m, hm, h⟩ := Fallible.bind_ok.mp h
      obtain ⟨g, hg, hm⟩ := Fallible.bind_ok.mp hm
      have hkind : ∃ r, .num r ∈ m :: ys ∧ q ≤ r := by
        have hm := Fallible.pure_ok.mp hm
        rw [List.mem_cons, List.mem_cons] at hq
        by_cases hys : .num q ∈ ys
        · exact ⟨q, List.mem_cons_of_mem m hys, le_refl q⟩
        · have hxy : x = .num q ∨ y = .num q := by tauto
          obtain ⟨p, r, rfl, rfl, rfl⟩ := Scalar.gt_ok hg hxy
          by_cases hlt : p < r
          · refine ⟨r, by simp [← hm, hlt], ?_⟩
            rcases hxy with h | h <;> cases h
            · exact hlt.le
            · exact le_rfl
          · refine ⟨p, by simp [← hm, hlt], ?_⟩
            rcases hxy with h | h <;> cases h
            · exact le_rfl
            · exact not_lt.mp hlt
      obtain ⟨r, hr, hqr⟩ := hkind
      obtain ⟨p, rfl, hrp⟩ := ih m h hr
      exact ⟨p, rfl, hqr.trans hrp⟩

/-- `x <= t` of two numbers or of two strings; other values cannot be compared. -/
def Scalar.Le : Scalar → Scalar → Prop
  | .num p, .num q => p ≤ q
  | .str s, .str t => s ≤ t
  | _, _ => False

theorem Scalar.gt_iff {x m : Scalar} {g : Bool} :
    x.gt m = .ok g ↔ if g then m.Le x ∧ ¬ x.Le m else x.Le m := by
  cases x with
  | null => cases g <;> cases m <;> simp [Scalar.gt, Scalar.Le]
  | num p =>
    cases m with
    | num q =>
      cases g
      · simp [Scalar.gt, Scalar.Le]
      · simpa [Scalar.gt, Scalar.Le] using fun h : q < p => h.le
    | null | str t => cases g <;> simp [Scalar.gt, Scalar.Le]
  | str s =>
    cases m with
    | str t =>
      cases g
      · simp only [Scalar.gt, Scalar.Le, Except.ok.injEq, decide_eq_false_iff_not,
          Bool.false_eq_true, if_false, String.not_lt]
      · simp only [Scalar.gt, Scalar.Le, Except.ok.injEq, decide_eq_true_eq, if_true]
        constructor
        · intro h
          exact ⟨String.not_lt.mp fun h' => String.lt_irrefl _ (String.lt_trans h h'),
            fun h' => String.not_lt.mpr h' h⟩
        · rintro ⟨-, h⟩
          exact Decidable.byContradiction fun h' => h (String.not_lt.mp h')
    | null | num q => cases g <;> simp [Scalar.gt, Scalar.Le]

theorem Scalar.Le.trans {x y z : Scalar} (h : x.Le y) (h' : y.Le z) : x.Le z := by
  cases x <;> cases y <;> cases z <;> simp only [Scalar.Le] at *
  · exact h.trans h'
  · exact String.le_trans h h'

theorem Scalar.Le.refl_right {x y : Scalar} (h : x.Le y) : y.Le y := by
  cases x <;> cases y <;> simp only [Scalar.Le] at *
  · exact le_refl (α := ℚ) _
  · exact String.le_refl _

theorem Scalar.Le.antisymm {x y : Scalar} (h : x.Le y) (h' : y.Le x) : x = y := by
  cases x <;> cases y <;> simp only [Scalar.Le] at *
  · rw [h.antisymm h']
  · rw [String.le_antisymm h h']

theorem Scalar.Le.total {x y z : Scalar} (h : x.Le z) (h' : y.Le z) : x.Le y ∨ y.Le x := by
  cases x <;> cases y <;> cases z <;> simp only [Scalar.Le] at *
  · exact le_total (α := ℚ) _ _
  · exact String.le_total _ _

/-- `max` gives the only element, or one that all elements can be compared with and that is
as large as each: in whatever order it meets them. -/
theorem Scalar.max_iff {xs : List Scalar} {t : Scalar} :
    Scalar.max xs = .ok t ↔ xs = [t] ∨ t ∈ xs ∧ ∀ x ∈ xs, x.Le t := by
  cases xs with
  | nil => simp [Scalar.max]
  | cons m xs =>
    rw [Scalar.max]
    induction xs generalizing m with
    | nil =>
      rw [List.foldlM_nil, Fallible.pure_ok, List.cons.injEq, eq_self_iff_true, and_true]
      refine ⟨Or.inl, fun h => h.elim id fun h => ?_⟩
      exact (List.mem_singleton.mp h.1).symm
    | cons x xs ih =>
      simp only [List.foldlM_cons, Fallible.bind_ok, Fallible.pure_ok, Scalar.gt_iff]
      constructor
      · intro h
        right
        obtain ⟨_, ⟨g, hg, rfl⟩, hfold⟩ := h
        have hrest := (ih _).mp hfold
        cases g with
        | true =>
          obtain ⟨hle, -⟩ : m.Le x ∧ ¬ x.Le m := hg
          obtain hrest | ⟨hmem, hall⟩ := hrest
          · obtain ⟨rfl, rfl⟩ : x = t ∧ xs = [] := (List.cons.injEq _ _ _ _).mp hrest
            refine ⟨by simp, ?_⟩
            simpa using ⟨hle, hle.refl_right⟩
          · refine ⟨List.mem_cons_of_mem m hmem, List.forall_mem_cons.mpr ⟨?_, hall⟩⟩
            exact hle.trans (hall x List.mem_cons_self)
        | false =>
          have hle : x.Le m := hg
          obtain hrest | ⟨hmem, hall⟩ := hrest
          · obtain ⟨rfl, rfl⟩ : m = t ∧ xs = [] := (List.cons.injEq _ _ _ _).mp hrest
            refine ⟨by simp, ?_⟩
            simpa using ⟨hle.refl_right, hle⟩
          · obtain ⟨hm, hall⟩ := List.forall_mem_cons.mp hall
            refine ⟨?_, List.forall_mem_cons.mpr ⟨hm, List.forall_mem_cons.mpr ⟨hle.trans hm, hall⟩⟩⟩
            exact (List.mem_cons.mp hmem).elim (fun h => h ▸ List.mem_cons_self)
              fun h => List.mem_cons_of_mem _ (List.mem_cons_of_mem _ h)
      · intro h
        obtain ⟨hmem, hall⟩ := h.resolve_left (by simp)
        obtain ⟨hm, hx, hall⟩ : m.Le t ∧ x.Le t ∧ ∀ y ∈ xs, y.Le t := by simpa using hall
        by_cases hle : x.Le m
        · refine ⟨m, ⟨false, hle, rfl⟩, (ih m).mpr (Or.inr ⟨?_, ?_⟩)⟩
          · simp only [List.mem_cons] at hmem ⊢
            obtain rfl | rfl | hmem := hmem
            · exact Or.inl rfl
            · exact Or.inl (hle.antisymm hm)
            · exact Or.inr hmem
          · exact List.forall_mem_cons.mpr ⟨hm, hall⟩
        · refine ⟨x, ⟨true, ⟨(hm.total hx).resolve_right hle, hle⟩, rfl⟩,
            (ih x).mpr (Or.inr ⟨?_, List.forall_mem_cons.mpr ⟨hx, hall⟩⟩)⟩
          simp only [List.mem_cons] at hmem ⊢
          obtain rfl | hmem := hmem
          · exact absurd hx hle
          · exact hmem

theorem Scalar.max_perm {xs ys : List Scalar} (h : xs.Perm ys) {t : Scalar} :
    Scalar.max xs = .ok t ↔ Scalar.max ys = .ok t := by
  have hsingle : xs = [t] ↔ ys = [t] :=
    ⟨fun hx => (List.singleton_perm.mp (hx ▸ h)).symm, fun hy => List.perm_singleton.mp (hy ▸ h)⟩
  simp only [Scalar.max_iff, hsingle, h.mem_iff]

def isBlank (c : Char) : Bool :=
  c == ' ' || c == '\t' || c == '\n' || c == '\x0b' || c == '\x0c' || c == '\r'

/-- Digits with single underscores between them. -/
def digits? : List Char → Option Nat
  | [] => none
  | cs =>
    let wellFormed := cs.all (fun c => c.isDigit || c == '_') && cs.head? != some '_' &&
      cs.getLast? != some '_' && (cs.zip cs.tail).all (fun p => p != ('_', '_'))
    if wellFormed then
      some ((cs.filter Char.isDigit).foldl (fun n c => 10 * n + (c.toNat - '0'.toNat)) 0)
    else none

/-- `int(s)` of an ASCII string. -/
def intOfString (s : String) : Option Int :=
  match ((s.toList.dropWhile isBlank).reverse.dropWhile isBlank).reverse with
  | '-' :: cs => (digits? cs).map (fun n => -n)
  | '+' :: cs => (digits? cs).map (fun n => n)
  | cs => (digits? cs).map (fun n => n)

/-- `int(x)`: a number is cut off towards zero. -/
def Scalar.int : Scalar → Py Int
  | .null => .error .typeError
  | .num q => .ok (if 0 ≤ q then ⌊q⌋ else ⌈q⌉)
  | .str s => match intOfString s with
    | some n => .ok n
    | none => .error .valueError

theorem Scalar.le_int {p : Rat} {n i : Int} (h : (Scalar.num p).int = .ok n) (hi : (i : Rat) ≤ p) :
    i ≤ n := by
  simp only [Scalar.int] at h
  split at h <;> cases h
  · exact Int.le_floor.mpr hi
  · exact Int.cast_le.mp (hi.trans (Int.le_ceil p))

/-- The formatting of `"%d" % x`, as far as it can fail. -/
def Scalar.formatInt : Scalar → Py Unit
  | .num _ => .ok ()
  | _ => .error .typeError

end IcsTrafficGen

import Mathlib.Logic.Function.Basic

/- Programs that touch shared cells one at a time. `Access.step` is one access and
   `Access.run` the program executed at once: a program that has made some of its accesses,
   with nobody else at the cells, still comes to the same (`Access.run_step`). -/
namespace IcsTrafficGen

inductive Access (A V R : Type) where
  | ret (r : R)
  | read (a : A) (next : V → Access A V R)
  | write (a : A) (v : V) (next : Access A V R)

namespace Access
variable {A V R R' : Type}

/-- The program that does something with the result. -/
def map (f : R → R') : Access A V R → Access A V R'
  | .ret r => .ret (f r)
  | .read a next => .read a fun v => (next v).map f
  | .write a v next => .write a v (next.map f)

def ReadOnly : Access A V R → Prop
  | .ret _ => True
  | .read _ next => ∀ v, (next v).ReadOnly
  | .write _ _ _ => False

/-- Reads the cells one by one. -/
def readAll : List A → Access A V (List V)
  | [] => .ret []
  | a :: as => .read a fun v => (readAll as).map (v :: ·)

/-- Writes the cells one by one. -/
def writeAll : List (A × V) → Access A V Unit
  | [] => .ret ()
  | (a, v) :: rest => .write a v (writeAll rest)

theorem ReadOnly.map {p : Access A V R} (hp : p.ReadOnly) (f : R → R') : (p.map f).ReadOnly := by
  induction p with
  | ret r => trivial
  | read a next ih => exact fun v => ih v (hp v)
  | write a v next => exact hp.elim

theorem readOnly_readAll (as : List A) : (readAll as : Access A V (List V)).ReadOnly := by
  induction as with
  | nil => trivial
  | cons a as ih => exact fun v => ih.map _

section
variable [DecidableEq A]

def run : Access A V R → (A → V) → R × (A → V)
  | .ret r, cells => (r, cells)
  | .read a next, cells => (next (cells a)).run cells
  | .write a v next, cells => next.run (Function.update cells a v)

/-- The first access, and what is left of the program. -/
def step : Access A V R → (A → V) → Option (Access A V R × (A → V))
  | .ret _, _ => none
  | .read a next, cells => some (next (cells a), cells)
  | .write a v next, cells => some (next, Function.update cells a v)

variable {p p' : Access A V R} {cells cells' : A → V}

theorem run_step (h : p.step cells = some (p', cells')) : p.run cells = p'.run cells' := by
  cases p with
  | ret r => cases h
  | read a next => cases h; rfl
  | write a v next => cases h; rfl

theorem ReadOnly.step (hp : p.ReadOnly) (h : p.step cells = some (p', cells')) :
    p'.ReadOnly ∧ cells' = cells := by
  cases p with
  | ret r => cases h
  | read a next =>
    cases h
    exact ⟨hp _, rfl⟩
  | write a v next => exact hp.elim

theorem ReadOnly.run (hp : p.ReadOnly) (cells : A → V) : (p.run cells).2 = cells := by
  induction p with
  | ret r => rfl
  | read a next ih => exact ih (cells a) (hp _)
  | write a v next => exact hp.elim

end
end Access
end IcsTrafficGen

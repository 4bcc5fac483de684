import IcsTrafficGen.Lib.Lua

/- The C API of Lua in a monad that keeps a log: the table and the key of every lookup and of
   every step of a traversal, as the call finds them on the stack. `whileNext_ok` and
   `whileNext_break` say what a traversal leaves in the log. -/
namespace IcsTrafficGen

/-- A table that was accessed, and the key. -/
structure LuaAccess where
  table : ℕ
  key : LuaValue
  deriving DecidableEq, Repr

/-- `lua_State`, and the accesses so far. -/
structure LuaLog where
  lua : Lua
  log : List LuaAccess
  deriving DecidableEq

abbrev LuaLogM (α : Type) := StateT LuaLog (Except Stop) α

namespace LuaLog

/-- A call that accesses no table. -/
def run {α : Type} (x : LuaM α) : LuaLogM α := fun s => do
  let (a, L) ← x s.lua
  .ok (a, { s with lua := L })

/-- The key is on top, and the table at `-k`. -/
def record (e : Stop) (k : ℕ) : LuaLogM Unit := fun s =>
  match s.lua.stack with
  | key :: _ => do
    let (ref, _) ← Lua.tableAt e k s.lua
    .ok ((), { s with log := s.log ++ [⟨ref, key⟩] })
  | [] => .error .undefined

def getTable (k : ℕ) : LuaLogM Unit := do
  record .throws k
  run (Lua.getTable k)

def next (env : LuaEnv) (k : ℕ) : LuaLogM Bool := do
  record .undefined k
  run (Lua.next env k)

section
variable {σ : Type} (env : LuaEnv) (body : σ → LuaLogM (Bool × σ))

/-- `while (lua_next(L, -2) != 0) body`; the body says whether to go on. -/
def whileNextFuel : ℕ → σ → LuaLogM σ
  | 0, _ => run (Lua.lift (.error .undefined))
  | fuel + 1, s => do
    let more ← next env 2
    if more then do
      let (go, s) ← body s
      if go then whileNextFuel fuel s else pure s
    else pure s

def whileNext (s : σ) : LuaLogM σ := fun L =>
  match Lua.tableAt .undefined 2 L.lua with
  | .ok (_, t) => whileNextFuel env body (t.entries.size + 1) s L
  | .error e => .error e

end

/-! ## Execution -/

theorem bind_ok {α β : Type} {x : LuaLogM α} {f : α → LuaLogM β} {s s' : LuaLog} {a : α}
    (h : x s = .ok (a, s')) : (x >>= f) s = f a s' := by
  show (x s >>= fun p => f p.1 p.2) = _
  rw [h]
  rfl

theorem run_ok {α : Type} {x : LuaM α} {L L' : Lua} {a : α} (h : x L = .ok (a, L'))
    (log : List LuaAccess) : run x ⟨L, log⟩ = .ok (a, ⟨L', log⟩) := by
  simp only [run, h, bind, Except.bind]

section
variable {σ : Type} {env : LuaEnv} {body : σ → LuaLogM (Bool × σ)} {W : LuaWorld}
variable {ref : ℕ} {t : LuaTable} {stack : List LuaValue} {log : List LuaAccess}

theorem record_ok (ht : W.tables[ref]? = some t) (e : Stop) (key : LuaValue) :
    record e 2 ⟨⟨W, key :: .table ref :: stack⟩, log⟩ =
      .ok ((), ⟨⟨W, key :: .table ref :: stack⟩, log ++ [⟨ref, key⟩]⟩) := by
  simp only [record, Lua.tableAt_ok ht, bind, Except.bind]

/-- A lookup pops its key and pushes what the table has under it. -/
theorem getTable_ok (ht : W.tables[ref]? = some t) (key : LuaValue) :
    getTable 2 ⟨⟨W, key :: .table ref :: stack⟩, log⟩ =
      .ok ((), ⟨⟨W, t.rawGet key :: .table ref :: stack⟩, log ++ [⟨ref, key⟩]⟩) := by
  have hget : Lua.getTable 2 ⟨W, key :: .table ref :: stack⟩ =
      .ok ((), ⟨W, t.rawGet key :: .table ref :: stack⟩) := by
    simp only [Lua.getTable, Lua.tableAt_ok ht, bind, Except.bind]
  rw [getTable, bind_ok (record_ok ht _ key), run_ok hget]

theorem next_ok (ht : W.tables[ref]? = some t) {key : LuaValue} {more : Bool} {L : Lua}
    (hnext : Lua.next env 2 ⟨W, key :: .table ref :: stack⟩ = .ok (more, L)) :
    next env 2 ⟨⟨W, key :: .table ref :: stack⟩, log⟩ = .ok (more, ⟨L, log ++ [⟨ref, key⟩]⟩) := by
  rw [next, bind_ok (record_ok ht _ key), run_ok hnext]

/-- A loop whose body breaks off at the first entry has only looked for that one. -/
theorem whileNext_break (ht : W.tables[ref]? = some t) {p : LuaValue × LuaValue}
    (hp : (env.traversal t).head? = some p) {s s' : σ} {L : LuaLog}
    (hbody : body s ⟨⟨W, p.2 :: p.1 :: .table ref :: stack⟩, log ++ [⟨ref, .nil⟩]⟩ =
      .ok ((false, s'), L)) :
    whileNext env body s ⟨⟨W, .nil :: .table ref :: stack⟩, log⟩ = .ok (s', L) := by
  have hsucc : Lua.successor (env.traversal t) .nil = .ok (some p) := by
    rw [Lua.successor_nil, hp]
  simp only [whileNext, Lua.tableAt_ok ht]
  rw [whileNextFuel, bind_ok (next_ok ht (Lua.next_some ht hsucc))]
  simp only [if_true]
  rw [bind_ok hbody]
  rfl

/-- A loop whose body uses up the value and keeps the rest of the state looks for the first entry,
and then for the one behind each key. -/
theorem whileNext_ok (ht : W.tables[ref]? = some t) {g : σ → LuaValue × LuaValue → σ}
    (hbody : ∀ p ∈ t.entries.entries, ∀ s log,
      body s ⟨⟨W, p.2 :: p.1 :: .table ref :: stack⟩, log⟩ =
        .ok ((true, g s p), ⟨⟨W, p.1 :: .table ref :: stack⟩, log⟩)) (s : σ) :
    whileNext env body s ⟨⟨W, .nil :: .table ref :: stack⟩, log⟩ =
      .ok ((env.traversal t).foldl g s, ⟨⟨W, .table ref :: stack⟩,
        log ++ ⟨ref, .nil⟩ :: (env.traversal t).map fun p => ⟨ref, p.1⟩⟩) := by
  have hperm := env.traversal_perm t
  -- from any key of the traversal on, as long as there is fuel
  have hrest : ∀ (rest l : List (LuaValue × LuaValue)), env.traversal t = l ++ rest →
      ∀ key, Lua.successor (env.traversal t) key = .ok rest.head? → ∀ fuel, rest.length < fuel →
        ∀ s log, whileNextFuel env body fuel s ⟨⟨W, key :: .table ref :: stack⟩, log⟩ =
          .ok (rest.foldl g s, ⟨⟨W, .table ref :: stack⟩,
            log ++ ⟨ref, key⟩ :: rest.map fun p => ⟨ref, p.1⟩⟩) := by
    intro rest
    induction rest with
    | nil =>
      intro l _ key hsucc fuel hfuel s log
      obtain ⟨fuel, rfl⟩ := Nat.exists_eq_add_one_of_ne_zero (Nat.ne_of_gt hfuel)
      rw [whileNextFuel, bind_ok (next_ok ht (Lua.next_none ht hsucc))]
      rfl
    | cons p rest ih =>
      intro l hl key hsucc fuel hfuel s log
      obtain ⟨fuel, rfl⟩ := Nat.exists_eq_add_one_of_ne_zero (Nat.ne_of_gt (Nat.zero_lt_of_lt hfuel))
      have hmem : p ∈ t.entries.entries := hperm.mem_iff.mp (by simp [hl])
      have hlt : rest.length < fuel := by
        simp only [List.length_cons] at hfuel
        omega
      rw [whileNextFuel, bind_ok (next_ok ht (Lua.next_some ht hsucc))]
      simp only [if_true]
      rw [bind_ok (hbody p hmem s _)]
      simp only [if_true]
      rw [ih (l ++ [p]) (by simp [hl]) p.1 (Lua.successor_traversal hl) fuel hlt (g s p)]
      simp
  simp only [whileNext, Lua.tableAt_ok ht]
  refine hrest _ [] rfl .nil (Lua.successor_nil _) _ ?_ s log
  rw [hperm.length_eq, Dict.size]
  exact Nat.lt_succ_self _

end

end LuaLog
end IcsTrafficGen

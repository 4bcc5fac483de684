import IcsTrafficGen.Lib.LuaHeight
import IcsTrafficGen.Dnp3.CommandDispatch

/- The height of a master's Lua stack. Both loops over tables leave the stack as they found
   it, but the first look at `data` and the result of the script are never popped: a call
   leaves two values more on the stack where `data` is empty, and four where it is not
   (`luaInvokeScript_height`). Nothing else takes them away (`masterStack_grows`). -/
namespace IcsTrafficGen.Dnp3
open MasterStation

/-- The global table of a name. -/
def globalTable (W : LuaWorld) (name : String) : Option LuaTable :=
  match W.globals.get? name with
  | some (.table ref) => W.tables[ref]?
  | _ => none

/-- What the poll loop of `run` does between two moments of it: it loads script files,
each leaving its results or a message on the stack, and `s` calls the script, `n` times in all. -/
inductive Polls (env : LuaEnv) (format : Double → String) (s : List Request × Lua) :
    ℕ → List Request × Lua → Prop
  | start : Polls env format s 0 s
  | doFile {n : ℕ} {master : List Request} {L : Lua} (W : LuaWorld) (results : List LuaValue) :
    Polls env format s n (master, L) → Polls env format s n (master, ⟨W, results ++ L.stack⟩)
  | invoke {n : ℕ} {master requests : List Request} {L L' : Lua} :
    Polls env format s n (master, L) →
    luaInvokeScript env format master L = .ok (requests, L') →
    Polls env format s (n + 1) (requests, L')

section
variable {env : LuaEnv} {format : Double → String}

/-! ## The loops -/

theorem moves_readText : Moves (readText format) fun _ => 0 := by
  apply Moves.bind' (Moves.toCString format 2)
  intro s
  cases s with
  | none => exact Moves.lift _
  | some s => exact Moves.pure' rfl

theorem moves_storeEntry (cmd : CmdStruct) (i : Int) :
    Moves (storeEntry env format cmd i) fun _ => 0 := by
  apply Moves.ite'
  · intro _
    exact moves_readText.bind' fun _ => Moves.pure' rfl
  intro _
  apply Moves.ite'
  · intro _
    exact moves_readText.bind' fun _ => Moves.pure' rfl
  intro _
  apply Moves.ite'
  · intro _
    exact (Moves.toNumber env 2).bind' fun _ => (Moves.lift _).bind' fun _ => Moves.pure' rfl
  intro _
  apply Moves.ite'
  · intro _
    exact (Moves.toNumber env 2).bind' fun _ => Moves.pure' rfl
  · intro _
    exact Moves.pure' rfl

/-- A pass over an entry of an element pops the copy of its key, and its value. -/
theorem moves_readEntry (cmd : CmdStruct) :
    Moves (readEntry env format cmd) fun r => if r.1 then -1 else -2 := by
  apply (Moves.pushValue 2).bind'
  intro _
  apply (Moves.toInteger env 1).bind'
  intro key
  apply (Moves.lift _).bind'
  intro i
  apply (moves_storeEntry cmd _).bind'
  intro cmd
  apply (Moves.pop 2).bind'
  intro _
  exact Moves.pure' rfl

/-- Reading an element leaves the stack as high as it was. -/
theorem moves_readElement (cmdList : List CmdStruct) :
    Moves (readElement env format cmdList) fun _ => 0 := by
  apply (Moves.pushValue 2).bind'
  intro _
  apply Moves.pushNil.bind'
  intro _
  apply (Moves.whileNext moves_readEntry .new).bind'
  intro cmd
  apply (Moves.pop 1).bind'
  intro _
  exact Moves.pure' rfl

theorem moves_readIfTable (cmdList : List CmdStruct) :
    Moves (readIfTable env format cmdList) fun _ => 0 := by
  apply (Moves.isTable 2).bind'
  intro table
  apply Moves.ite'
  · intro _
    exact moves_readElement cmdList
  · intro _
    exact Moves.pure' rfl

theorem moves_readData (cmdList : List CmdStruct) :
    Moves (readData env format cmdList) fun r => if r.1 then -1 else -2 := by
  apply (Moves.pushValue 2).bind'
  intro _
  apply (moves_readIfTable cmdList).bind'
  intro cmdList
  apply (Moves.pop 2).bind'
  intro _
  exact Moves.pure' rfl

/-- The second look at `data` pops what it pushes. -/
theorem moves_readCommands (master : List Request) :
    Moves (readCommands env format master) fun _ => 0 := by
  apply (Moves.getGlobal "data").bind'
  intro _
  apply Moves.pushNil.bind'
  intro _
  apply (Moves.whileNext moves_readData []).bind'
  intro cmdList
  apply (Moves.pop 1).bind'
  intro _
  exact Moves.lift _

/-! ## The call -/

/-- A call without arguments, for one result. -/
theorem call_ok {W : LuaWorld} {v : LuaValue} {stack : List LuaValue} {L' : Lua}
    (h : Lua.call env 0 1 ⟨W, v :: stack⟩ = .ok ((), L')) :
    ∃ f results W', v = .function f ∧ env.callFunction f [] W = .ok (results, W') ∧
      L' = ⟨W', results.head?.getD .nil :: stack⟩ := by
  cases v with
  | function f =>
    obtain ⟨⟨results, W'⟩, hcall, h⟩ := Fallible.bind_ok.mp h
    cases h
    refine ⟨f, results, W', rfl, hcall, ?_⟩
    cases results <;> rfl
  | _ => cases h

theorem tableAt_inv {W : LuaWorld} {e : Stop} {key v : LuaValue} {stack : List LuaValue} {ref : ℕ}
    {t : LuaTable} (h : Lua.tableAt e 2 ⟨W, key :: v :: stack⟩ = .ok (ref, t)) :
    v = .table ref ∧ W.tables[ref]? = some t := by
  obtain ⟨v', hv, h⟩ := Fallible.bind_ok.mp h
  cases hv
  cases v with
  | table ref' =>
    cases ht : W.tables[ref']? with
    | none => simp [ht] at h
    | some t' =>
      simp only [ht, Except.ok.injEq, Prod.mk.injEq] at h
      exact ⟨by rw [h.1], by rw [← h.1, ht, h.2]⟩
  | _ => cases h

/-- A traversal that starts finds an entry exactly if the table has one. -/
theorem next_nil {W : LuaWorld} {v : LuaValue} {stack : List LuaValue} {more : Bool} {L' : Lua}
    (h : Lua.next env 2 ⟨W, .nil :: v :: stack⟩ = .ok (more, L')) :
    ∃ ref t, v = .table ref ∧ W.tables[ref]? = some t ∧
      (more = true ↔ t.entries.entries ≠ []) := by
  obtain ⟨⟨ref, t⟩, ht, h⟩ := Fallible.bind_ok.mp h
  obtain ⟨hv, ht⟩ := tableAt_inv ht
  refine ⟨ref, t, hv, ht, ?_⟩
  obtain ⟨next, hnext, h⟩ := Fallible.bind_ok.mp h
  cases (Lua.successor_nil (env.traversal t)).symm.trans hnext
  have hempty : env.traversal t = [] ↔ t.entries.entries = [] := by
    rw [← List.length_eq_zero_iff, (env.traversal_perm t).length_eq, List.length_eq_zero_iff]
  rw [ne_eq, ← hempty]
  cases htraversal : env.traversal t with
  | nil =>
    rw [htraversal] at h
    cases h
    simp
  | cons p pairs =>
    rw [htraversal] at h
    cases h
    simp

/-- A call leaves the result of the script on the stack, and what the look at the first entry
has pushed. -/
theorem luaInvokeScript_height {master requests : List Request} {L L' : Lua}
    (h : luaInvokeScript env format master L = .ok (requests, L')) :
    ∃ f results W t, L.world.globals.get? "operate_outstation" = some (.function f) ∧
      env.callFunction f [] L.world = .ok (results, W) ∧ globalTable W "data" = some t ∧
      L'.height = L.height + if t.entries.entries = [] then 2 else 4 := by
  obtain ⟨_, L₁, h₁, h⟩ := Lua.bind_eq_ok.mp h
  obtain ⟨_, L₂, h₂, h⟩ := Lua.bind_eq_ok.mp h
  cases h₁
  obtain ⟨f, results, W, hf, hcall, rfl⟩ := call_ok h₂
  obtain ⟨_, L₃, h₃, h⟩ := Lua.bind_eq_ok.mp h
  cases h₃
  obtain ⟨_, L₄, h₄, h⟩ := Lua.bind_eq_ok.mp h
  cases h₄
  obtain ⟨more, L₅, h₅, h⟩ := Lua.bind_eq_ok.mp h
  obtain ⟨ref, t, hdata, ht, hmore⟩ := next_nil h₅
  have hfunction : L.world.globals.get? "operate_outstation" = some (.function f) := by
    cases hget : L.world.globals.get? "operate_outstation" with
    | none => simp [hget] at hf
    | some v => simpa [hget] using hf
  have htable : globalTable W "data" = some t := by
    cases hget : W.globals.get? "data" with
    | none => simp [hget] at hdata
    | some v =>
      rw [hget] at hdata
      cases hdata
      simpa [globalTable, hget] using ht
  refine ⟨f, results, W, t, hfunction, hcall, htable, ?_⟩
  -- the entry found takes the place of the key, and nothing pops it
  have hnext := Moves.next env 2 _ _ _ h₅
  cases more with
  | false =>
    cases h
    rw [if_pos (by simpa using hmore)]
    simp only [Lua.height, List.length_cons, Bool.false_eq_true, if_false] at hnext ⊢
    omega
  | true =>
    have hrest := moves_readCommands master _ _ _ h
    rw [if_neg (hmore.mp rfl)]
    simp only [Lua.height, List.length_cons, if_true] at hnext hrest ⊢
    omega

/-! ## Runs -/

theorem luaInvokeScript_grows {master requests : List Request} {L L' : Lua}
    (h : luaInvokeScript env format master L = .ok (requests, L')) : L.height + 2 ≤ L'.height := by
  obtain ⟨f, results, W, t, -, -, -, hheight⟩ := luaInvokeScript_height h
  rw [hheight]
  split <;> omega

theorem Polls.height_le {s s' : List Request × Lua} {n : ℕ} (h : Polls env format s n s') :
    s.2.height + 2 * n ≤ s'.2.height := by
  induction h with
  | start => omega
  | @doFile n master L W results _ ih =>
    simp only [Lua.height, List.length_append] at ih ⊢
    omega
  | invoke _ hcall ih =>
    have hgrows := luaInvokeScript_grows hcall
    simp only at ih ⊢
    omega

/-- No call returns with the stack at the height it had on entry, and over a run of the poll loop
the stack grows by two values a call at least. -/
theorem masterStack_grows (env : LuaEnv) (format : Double → String) :
    (∀ master L requests L', luaInvokeScript env format master L = .ok (requests, L') →
      L'.height ≠ L.height) ∧
    ∀ s n s', Polls env format s n s' → s.2.height + 2 * n ≤ s'.2.height := by
  refine ⟨fun master L requests L' h => ?_, fun s n s' h => h.height_le⟩
  have hgrows := luaInvokeScript_grows h
  omega

end

/-- A script that sends a scan and a relay command, called once: four values stay. -/
theorem masterStack_four : ∃ requests L',
    luaInvokeScript (sendingEnv (scanElement "30") relayElement) (fun _ => "") [] sendingState =
      .ok (requests, L') ∧ sendingState.height = 0 ∧ L'.height = 4 := by
  have hcall : (luaInvokeScript (sendingEnv (scanElement "30") relayElement) (fun _ => "") []
      sendingState).map (fun r => r.2.height) = .ok 4 := by decide +kernel
  obtain ⟨⟨requests, L'⟩, hcall, hheight⟩ := Fallible.map_ok.mp hcall
  exact ⟨requests, L', hcall, rfl, hheight⟩

theorem masterStack_grows_once : ∃ requests L',
    luaInvokeScript (sendingEnv (scanElement "30") relayElement) (fun _ => "") [] sendingState =
      .ok (requests, L') ∧ L'.height ≠ sendingState.height ∧
    sendingState.height + 2 * 1 ≤ L'.height := by
  have hcall : (luaInvokeScript (sendingEnv (scanElement "30") relayElement) (fun _ => "") []
      sendingState).map (fun _ => ()) = .ok () := by decide +kernel
  obtain ⟨⟨requests, L'⟩, hcall, -⟩ := Fallible.map_ok.mp hcall
  have hgrows := masterStack_grows (sendingEnv (scanElement "30") relayElement) fun _ => ""
  exact ⟨requests, L', hcall, hgrows.1 _ _ _ _ hcall, hgrows.2 _ 1 _ (.invoke .start hcall)⟩

end IcsTrafficGen.Dnp3

import IcsTrafficGen.Lib.Machine
import IcsTrafficGen.Dnp3.UserInput

/- The switching of Lua files. The main loop writes the user's inputs; the loop of every
   station compares the count with its own `localLuaFlag`, and goes through the inputs
   it has not seen. A check of the count, an increment and a look-up with the change of
   file that follows it are one step each, and the steps of the main loop and of the
   stations interleave in any order. -/
namespace IcsTrafficGen.Dnp3

/-- The classes whose `run` has the loop. -/
inductive StationKind where
  | master
  | outstation
  | mappingOutstation
  deriving DecidableEq, Repr

/-- What the loop reads of a station's node. -/
structure LuaNode where
  kind : StationKind
  luaFileNames : List String
  luaKeySwitch : String
  deriving DecidableEq

/-- `lua_script_exists`. An outstation does not look for the file. -/
def LuaNode.luaScriptExists (fileExists : String → Bool) (node : LuaNode) : Bool :=
  match node.kind, node.luaFileNames with
  | _, [] => false
  | .outstation, _ => true
  | .master, file :: _ => fileExists file
  | .mappingOutstation, file :: _ => fileExists file

def nextLuaFileIndex (luaFileNames : List String) (currentLuaFileIndex : Int) : Cpp Int :=
  if Cpp.toSize currentLuaFileIndex < Cpp.subSize luaFileNames.length 1 then
    Cpp.addInt currentLuaFileIndex 1
  else pure 0

/-- `Station::GetNextLuaFile`, with the new `currentLuaFileIndex`. -/
def getNextLuaFile (luaFileNames : List String) (currentLuaFileIndex : Int) :
    Cpp (String × Int) := do
  let index ← nextLuaFileIndex luaFileNames currentLuaFileIndex
  let file ← Cpp.vecGet luaFileNames index
  pure (file, index)

/-- The next thing the loop does. -/
inductive Phase where
  | check
  | increment
  | read
  deriving DecidableEq, Repr

/-- A look-up: the number, how many inputs there were, and what was read. -/
structure LookUp where
  number : Int
  written : ℕ
  str : String
  deriving DecidableEq, Repr

/-- The members of a station that its loop changes. `consumed` and `lookUps` are the
numbers it has gone to and the look-ups it has made. -/
structure Station where
  phase : Phase
  localLuaFlag : Int
  currentLuaFileIndex : Int
  consumed : List Int
  lookUps : List LookUp
  deriving DecidableEq

def Station.new : Station :=
  { phase := .check, localLuaFlag := 0, currentLuaFileIndex := 0, consumed := [], lookUps := [] }

/-- The change of file where the string is the station's key. -/
def switchFile (node : LuaNode) (currentLuaFileIndex : Int) (str : String) : Cpp Int :=
  if str = node.luaKeySwitch then do
    let (_, index) ← getNextLuaFile node.luaFileNames currentLuaFileIndex
    pure index
  else pure currentLuaFileIndex

/-- One step of a station. An empty key is never looked up. -/
def stationStep (nul : Cpp String) (node : LuaNode) (input : ThreadSafeUserInput) (written : ℕ)
    (st : Station) : Cpp Station :=
  match st.phase with
  | .check => pure (if st.localLuaFlag < input.readCount then { st with phase := .increment } else st)
  -- `localLuaFlag+=1`, before the string is looked up
  | .increment => do
    let flag ← Cpp.addInt st.localLuaFlag 1
    pure { st with
      localLuaFlag := flag
      consumed := st.consumed ++ [flag]
      phase := if node.luaKeySwitch = "" then .check else .read }
  | .read => do
    let str ← input.readInputStr nul st.localLuaFlag
    let index ← switchFile node st.currentLuaFileIndex str
    pure { st with
      currentLuaFileIndex := index
      lookUps := st.lookUps ++ [{ number := st.localLuaFlag, written := written, str := str }]
      phase := .check }

/-! ## One station -/

/-- How far a station has come with the inputs written. -/
structure Follows (node : LuaNode) (written : List String) (st : Station) : Prop where
  nonneg : 0 ≤ st.localLuaFlag
  le : st.localLuaFlag ≤ written.length
  behind : st.phase = .increment → st.localLuaFlag < written.length
  consumed : st.consumed = (List.range' 1 st.localLuaFlag.toNat).map (fun k : ℕ => (k : Int))
  lookedUp : node.luaKeySwitch ≠ "" → st.consumed = st.lookUps.map LookUp.number ++
    (if st.phase = .read then [st.localLuaFlag] else [])
  reading : st.phase = .read → 1 ≤ st.localLuaFlag
  number : ∀ l ∈ st.lookUps, 1 ≤ l.number ∧ l.number ≤ l.written ∧ l.written ≤ written.length
  recent : ∀ l ∈ st.lookUps, l.written < l.number + 10 →
    ThreadSafeUserInput.nth written l.number = some l.str
  index : st.currentLuaFileIndex =
    ((st.lookUps.countP (fun l => l.str = node.luaKeySwitch) % node.luaFileNames.length : ℕ) : Int)

theorem Follows.new (node : LuaNode) : Follows node [] .new where
  nonneg := le_refl 0
  le := le_refl 0
  behind := by simp [Station.new]
  consumed := rfl
  lookedUp _ := rfl
  reading := by simp [Station.new]
  number := by simp [Station.new]
  recent := by simp [Station.new]
  index := by simp [Station.new]

theorem Follows.write {node : LuaNode} {written : List String} {st : Station}
    (h : Follows node written st) (s : String) : Follows node (written ++ [s]) st where
  nonneg := h.nonneg
  le := by
    have := h.le
    simp only [List.length_append, List.length_singleton]
    omega
  behind hphase := by
    have := h.behind hphase
    simp only [List.length_append, List.length_singleton]
    omega
  consumed := h.consumed
  lookedUp := h.lookedUp
  reading := h.reading
  number l hl := by
    have := h.number l hl
    simp only [List.length_append, List.length_singleton]
    omega
  recent l hl hrecent := by
    obtain ⟨h1, hle, hlen⟩ := h.number l hl
    rw [ThreadSafeUserInput.nth_append h1 (by omega)]
    exact h.recent l hl hrecent
  index := h.index

theorem nextLuaFileIndex_ok {files : List String} {c : ℕ} {index : Int}
    (h : nextLuaFileIndex files ((c % files.length : ℕ) : Int) = .ok index)
    (hfiles : 0 < files.length) : index = (((c + 1) % files.length : ℕ) : Int) := by
  have hlt : c % files.length < files.length := Nat.mod_lt c hfiles
  have hmod : (c + 1) % files.length = (c % files.length + 1) % files.length :=
    (Nat.mod_add_mod c files.length 1).symm
  -- the index is not negative and there is a file, so the unsigned comparison is the plain one
  unfold nextLuaFileIndex Cpp.toSize Cpp.subSize at h
  rw [if_pos (Int.natCast_nonneg _), if_pos (show 1 ≤ files.length from hfiles),
    Int.toNat_natCast] at h
  split at h
  · next hnext =>
    obtain ⟨-, rfl⟩ := Cpp.addInt_ok.mp h
    have hnowrap : (c % files.length + 1) % files.length = c % files.length + 1 :=
      Nat.mod_eq_of_lt (by omega)
    rw [hmod, hnowrap]
    rfl
  · next hnext =>
    have hlast : c % files.length + 1 = files.length := by omega
    rw [← Fallible.pure_ok.mp h, hmod, hlast, Nat.mod_self]
    rfl

/-- The index moves by one where the string is the key. -/
theorem switchFile_ok {node : LuaNode} {lookUps : List LookUp} {l : LookUp} {index : Int}
    (hfiles : 0 < node.luaFileNames.length)
    (h : switchFile node ((lookUps.countP (fun l => l.str = node.luaKeySwitch) %
      node.luaFileNames.length : ℕ) : Int) l.str = .ok index) :
    index = (((lookUps ++ [l]).countP (fun l => l.str = node.luaKeySwitch) %
      node.luaFileNames.length : ℕ) : Int) := by
  rw [List.countP_append, List.countP_singleton]
  unfold switchFile at h
  split at h
  · next hkey =>
    obtain ⟨⟨file, index'⟩, hnext, h⟩ := Fallible.bind_ok.mp h
    obtain rfl := Fallible.pure_ok.mp h
    obtain ⟨index'', hindex, hnext⟩ := Fallible.bind_ok.mp hnext
    obtain ⟨file', -, hnext⟩ := Fallible.bind_ok.mp hnext
    obtain ⟨-, rfl⟩ := Prod.mk.inj (Fallible.pure_ok.mp hnext)
    simpa [hkey] using nextLuaFileIndex_ok hindex hfiles
  · next hkey =>
    obtain rfl := Fallible.pure_ok.mp h
    simp [hkey]

theorem Follows.step {nul : Cpp String} {node : LuaNode} {input : ThreadSafeUserInput}
    {written : List String} {st st' : Station} (hcached : input.Cached written)
    (hfiles : 0 < node.luaFileNames.length) (h : Follows node written st)
    (hstep : stationStep nul node input written.length st = .ok st') : Follows node written st' := by
  unfold stationStep at hstep
  split at hstep
  · next hphase =>
    obtain rfl := Fallible.pure_ok.mp hstep
    split
    · next hlt =>
      rw [ThreadSafeUserInput.readCount, hcached.count] at hlt
      exact
        { h with
          behind := fun _ => hlt
          lookedUp := fun hkey => by simpa [hphase] using h.lookedUp hkey
          reading := by simp }
    · exact h
  · next hphase =>
    obtain ⟨flag, hflag, hstep⟩ := Fallible.bind_ok.mp hstep
    obtain rfl := Fallible.pure_ok.mp hstep
    obtain ⟨-, rfl⟩ := Cpp.addInt_ok.mp hflag
    have h0 := h.nonneg
    have hbehind := h.behind hphase
    have hnat : (st.localLuaFlag + 1).toNat = st.localLuaFlag.toNat + 1 := by omega
    refine
      { h with
        nonneg := by simp only; omega
        le := by simp only; omega
        behind := fun hinc => ?_
        consumed := ?_
        lookedUp := fun hkey => ?_
        reading := fun _ => by simp only; omega }
    · simp only at hinc
      split at hinc <;> cases hinc
    · simp only [hnat, List.range'_concat, List.map_append, h.consumed]
      simp only [List.map_cons, List.map_nil, List.append_cancel_left_eq, List.cons.injEq, and_true]
      omega
    · have := h.lookedUp hkey
      rw [hphase, if_neg (by decide), List.append_nil] at this
      simp [hkey, this]
  · next hphase =>
    obtain ⟨str, hstr, hstep⟩ := Fallible.bind_ok.mp hstep
    obtain ⟨index, hindex, hstep⟩ := Fallible.bind_ok.mp hstep
    obtain rfl := Fallible.pure_ok.mp hstep
    have h1 := h.reading hphase
    have hle := h.le
    refine
      { h with
        behind := by simp
        lookedUp := fun hkey => ?_
        reading := by simp
        number := fun l hl => ?_
        recent := fun l hl hrecent => ?_
        index := ?_ }
    · simpa [hphase] using h.lookedUp hkey
    · rcases List.mem_append.mp hl with hl | hl
      · exact h.number l hl
      · obtain rfl := List.mem_singleton.mp hl
        exact ⟨h1, hle, le_refl _⟩
    · rcases List.mem_append.mp hl with hl | hl
      · exact h.recent l hl hrecent
      · obtain rfl := List.mem_singleton.mp hl
        exact hcached.readInputStr_recent nul h1 hle hrecent hstr
    · rw [h.index] at hindex
      exact switchFile_ok hfiles hindex

/-! ## All stations -/

section
variable {ι : Type} [DecidableEq ι]

inductive SwitchAction (ι : Type) where
  | write (inputStr : String)
  | step (i : ι)

/-- `luaSwitchObj` with the inputs written so far, and the stations. -/
structure Switching (ι : Type) where
  luaSwitchObj : ThreadSafeUserInput
  written : List String
  stations : ι → Station

/-- A step that stops or is undefined is no step. -/
def switching (fileExists : String → Bool) (nul : Cpp String) (node : ι → LuaNode) :
    Machine (Switching ι) (SwitchAction ι) where
  init := { luaSwitchObj := .new, written := [], stations := fun _ => .new }
  step s a := match a with
    | .write inputStr =>
      (s.luaSwitchObj.unconditionalWriter inputStr).toOption.map fun u =>
        { s with luaSwitchObj := u, written := s.written ++ [inputStr] }
    | .step i =>
      if (node i).luaScriptExists fileExists then
        (stationStep nul (node i) s.luaSwitchObj s.written.length (s.stations i)).toOption.map
          fun st => { s with stations := Function.update s.stations i st }
      else none

variable {fileExists : String → Bool} {nul : Cpp String} {node : ι → LuaNode}

theorem LuaNode.files_of_exists {fileExists : String → Bool} {node : LuaNode}
    (h : node.luaScriptExists fileExists = true) : 0 < node.luaFileNames.length := by
  unfold LuaNode.luaScriptExists at h
  cases hfiles : node.luaFileNames with
  | nil => simp [hfiles] at h
  | cons file files => exact Nat.succ_pos _

/-- The state of the inputs, and how far every station has come. -/
structure InOrder (node : ι → LuaNode) (s : Switching ι) : Prop where
  cached : s.luaSwitchObj.Cached s.written
  follows : ∀ i, Follows (node i) s.written (s.stations i)

theorem InOrder.step {s s' : Switching ι} {a : SwitchAction ι} (h : InOrder node s)
    (hstep : (switching fileExists nul node).step s a = some s') : InOrder node s' := by
  cases a with
  | write inputStr =>
    obtain ⟨u, hu, rfl⟩ := Option.map_eq_some_iff.mp hstep
    have hu := Fallible.toOption_eq_some.mp hu
    exact ⟨h.cached.unconditionalWriter_ok hu, fun i => (h.follows i).write inputStr⟩
  | step i =>
    simp only [switching] at hstep
    split at hstep
    · next hexists =>
      obtain ⟨st, hst, rfl⟩ := Option.map_eq_some_iff.mp hstep
      have hst := Fallible.toOption_eq_some.mp hst
      refine ⟨h.cached, fun j => ?_⟩
      by_cases hj : j = i
      · subst hj
        simpa using (h.follows j).step h.cached (LuaNode.files_of_exists hexists) hst
      · simpa [hj] using h.follows j
    · cases hstep

theorem InOrder.reachable {s : Switching ι} (hs : (switching fileExists nul node).Reachable s) :
    InOrder node s :=
  Machine.invariant ⟨.new, fun i => .new (node i)⟩ (fun _ _ _ h hstep => h.step hstep) hs

/-- **Triggers are consumed once and in order.** A station has gone through the inputs 1, 2, 3
and so on, and no further than there were any; when it finds no more it has gone through all.
With a key it has looked up each of them, got the very input where that was among the ten
most recent, and changed its file once for each look-up that gave its key. -/
theorem triggers_consumed {s : Switching ι} (hs : (switching fileExists nul node).Reachable s)
    (i : ι) :
    (∃ n ≤ s.written.length, (s.stations i).consumed = (List.range' 1 n).map (fun k : ℕ => (k : Int))) ∧
    (s.luaSwitchObj.readCount ≤ (s.stations i).localLuaFlag →
      (s.stations i).consumed.length = s.written.length) ∧
    ((node i).luaKeySwitch ≠ "" → (s.stations i).consumed =
      (s.stations i).lookUps.map LookUp.number ++
        (if (s.stations i).phase = .read then [(s.stations i).localLuaFlag] else [])) ∧
    (∀ l ∈ (s.stations i).lookUps, l.written < l.number + 10 →
      ThreadSafeUserInput.nth s.written l.number = some l.str) ∧
    (0 < (node i).luaFileNames.length → (node i).luaKeySwitch ≠ "" →
      (s.stations i).currentLuaFileIndex =
        (((s.stations i).lookUps.countP (fun l => l.str = (node i).luaKeySwitch) %
          (node i).luaFileNames.length : ℕ) : Int)) := by
  have h := InOrder.reachable hs
  have hi := h.follows i
  have hle := hi.le
  refine ⟨⟨_, by omega, hi.consumed⟩, fun hdone => ?_, hi.lookedUp, hi.recent, fun _ _ => hi.index⟩
  rw [ThreadSafeUserInput.readCount, h.cached.count] at hdone
  rw [hi.consumed, List.length_map, List.length_range']
  omega

/-- Outstations that switch between two files on the same key. -/
def twoStations (_ : ℕ) : LuaNode :=
  { kind := .outstation, luaFileNames := ["a.lua", "b.lua"], luaKeySwitch := "s" }

def twoSwitches : List (SwitchAction ℕ) :=
  [.write "s", .step 0, .step 0, .write "t", .step 1, .step 0, .step 0, .step 0, .step 1, .step 0]

/-- The first of them has read the two inputs, in order and as they were written, and changed its
file once. -/
theorem triggers_consumed_two_switches : ∃ s : Switching ℕ,
    (switching (fun _ => true) (.error .undefined) twoStations).run
      (switching (fun _ => true) (.error .undefined) twoStations).init twoSwitches = some s ∧
      s.written = ["s", "t"] ∧ (s.stations 0).consumed = [1, 2] ∧
      (s.stations 0).lookUps.map LookUp.number = [1, 2] ∧
      (∀ l ∈ (s.stations 0).lookUps, ThreadSafeUserInput.nth s.written l.number = some l.str) ∧
      (s.stations 0).currentLuaFileIndex = 1 := by
  -- what the run shows of the inputs, and that the station is through with them
  have hview : ((switching (fun _ => true) (.error .undefined) twoStations).run
      (switching (fun _ => true) (.error .undefined) twoStations).init twoSwitches).map (fun s =>
        (s.written, decide (s.luaSwitchObj.readCount ≤ (s.stations 0).localLuaFlag),
          decide ((s.stations 0).phase = .read), (s.stations 0).lookUps)) =
      some (["s", "t"], true, false, [⟨1, 2, "s"⟩, ⟨2, 2, "t"⟩]) := by decide
  obtain ⟨s, hs, hview⟩ := Option.map_eq_some_iff.mp hview
  obtain ⟨hwritten, hthrough, hphase, hlookUps⟩ : s.written = ["s", "t"] ∧
      s.luaSwitchObj.readCount ≤ (s.stations 0).localLuaFlag ∧ (s.stations 0).phase ≠ .read ∧
      (s.stations 0).lookUps = [⟨1, 2, "s"⟩, ⟨2, 2, "t"⟩] := by simpa using hview
  obtain ⟨⟨n, -, hconsumed⟩, hall, hnumbers, hrecent, hindex⟩ := triggers_consumed ⟨twoSwitches, hs⟩ 0
  have hn : n = 2 := by simpa [hconsumed, hwritten] using hall hthrough
  subst hn
  refine ⟨s, hs, hwritten, hconsumed, ?_, fun l hl => hrecent l hl ?_, ?_⟩
  · have hlooked := hnumbers (by decide)
    rw [if_neg hphase, List.append_nil, hconsumed] at hlooked
    exact hlooked.symm
  · rw [hlookUps] at hl
    have hten : ∀ l ∈ ([⟨1, 2, "s"⟩, ⟨2, 2, "t"⟩] : List LookUp), l.written < l.number + 10 := by
      decide
    exact hten l hl
  · rw [hindex (by decide) (by decide), hlookUps]
    rfl

end
end IcsTrafficGen.Dnp3

import IcsTrafficGen.Dnp3.Dnp3App
import IcsTrafficGen.Dnp3.LuaSwitch

/- The pipe that `main` reads. It takes one line each time it has opened the pipe; "x" ends
   the program, a line that is the key of some node is written for the stations, and any
   other is dropped. So a station that has caught up has changed its file once for each line
   that was its key, whatever the other stations do (`user_switches`), and once "x" is read
   every station catches up (`stations_come_out`). -/
namespace IcsTrafficGen.Dnp3

/-! ## The keys -/

theorem foldl_startStation (nodes : List ConfiguredNode) (s : Stations) :
    (∀ key, key ∈ (nodes.foldl startStation s).luaTriggers ↔
      key ∈ s.luaTriggers ∨ key ≠ "" ∧ ∃ n ∈ nodes, n.luaKeySwitch = key) ∧
      ∀ n ∈ (nodes.foldl startStation s).threads, n ∈ s.threads ∨ n ∈ nodes := by
  induction nodes generalizing s with
  | nil => simp
  | cons n nodes ih =>
    have hkey : ∀ key, key ∈ (startStation s n).luaTriggers ↔
        key ∈ s.luaTriggers ∨ key ≠ "" ∧ n.luaKeySwitch = key := by
      intro key
      have hfinal : (startStation s n).luaTriggers =
          if n.luaKeySwitch = "" then s.luaTriggers else insert n.luaKeySwitch s.luaTriggers := by
        unfold startStation
        split_ifs <;> rfl
      rw [hfinal]
      split_ifs with hempty
      · refine ⟨Or.inl, fun h => h.elim id fun h => ?_⟩
        exact absurd (h.2 ▸ hempty) h.1
      · rw [Finset.mem_insert]
        constructor
        · rintro (rfl | h)
          · exact Or.inr ⟨hempty, rfl⟩
          · exact Or.inl h
        · rintro (h | ⟨-, rfl⟩)
          · exact Or.inr h
          · exact Or.inl rfl
    have hthread : ∀ m ∈ (startStation s n).threads, m ∈ s.threads ∨ m = n := by
      intro m hm
      unfold startStation at hm
      split_ifs at hm <;> simp_all
    obtain ⟨hkeys, hthreads⟩ := ih (startStation s n)
    refine ⟨fun key => ?_, fun m hm => ?_⟩
    · rw [List.foldl_cons, hkeys, hkey, or_assoc, List.exists_mem_cons_iff, ← and_or_left]
    · obtain hm | hm := hthreads m hm
      · obtain hm | rfl := hthread m hm
        · exact Or.inl hm
        · exact Or.inr List.mem_cons_self
      · exact Or.inr (List.mem_cons_of_mem n hm)

/-- The triggers are the keys of the nodes. -/
theorem mem_luaTriggers {nodes : List ConfiguredNode} {key : String} :
    key ∈ (startStations nodes).luaTriggers ↔ key ≠ "" ∧ ∃ n ∈ nodes, n.luaKeySwitch = key := by
  rw [startStations, (foldl_startStation nodes .initial).1]
  simp [Stations.initial]

theorem mem_threads {nodes : List ConfiguredNode} {n : ConfiguredNode}
    (h : n ∈ (startStations nodes).threads) : n ∈ nodes := by
  have h := (foldl_startStation nodes .initial).2 n h
  simpa [Stations.initial] using h

/-! ## The loop of `main` -/

def exitStr : String := "x"

/-- What there is when the loop comes to the pipe. -/
inductive PipeInput where
  /-- The pipe cannot be opened. -/
  | unavailable
  /-- The first line that is written; it is empty if nothing is. -/
  | line (str : String)
  deriving DecidableEq, Repr

/-- `std::getline`. On a stream that has failed it leaves the string as it was. -/
def getline (usrInput : String) : PipeInput → String
  | .unavailable => usrInput
  | .line str => str

/-- What a station's loop over the inputs reads of its node. -/
def ConfiguredNode.luaNode (n : ConfiguredNode) : LuaNode :=
  { kind :=
      if n.role = "Master" then .master
      else if n.dataSources.entries = [] then .outstation else .mappingOutstation
    luaFileNames := n.luaFileNames
    luaKeySwitch := n.luaKeySwitch }

/-- The stations with the inputs, and the loop that writes these. `seen` is what each pass of the
loop has found in `usr_input`. -/
structure UserPipe (ι : Type) where
  switching : Switching ι
  usrInput : String
  quitFlag : Bool
  seen : List String

inductive PipeAct (ι : Type) where
  | pass (input : PipeInput)
  | station (i : ι)

section
variable {ι : Type} [DecidableEq ι] (fileExists : String → Bool) (nul : Cpp String)
  (luaTriggers : Finset String) (node : ι → LuaNode)

/-- One pass of the loop, with what it finds in `usr_input`. -/
def UserPipe.pass (p : UserPipe ι) (usrInput : String) : Option (UserPipe ι) :=
  let p := { p with usrInput := usrInput, seen := p.seen ++ [usrInput] }
  if usrInput = exitStr then some { p with quitFlag := true }
  else if usrInput ∈ luaTriggers then
    ((Dnp3.switching fileExists nul node).step p.switching (.write usrInput)).map fun switching =>
      { p with switching := switching }
  else some p

def userPipe : Machine (UserPipe ι) (PipeAct ι) where
  init :=
    { switching := (switching fileExists nul node).init, usrInput := "", quitFlag := false, seen := [] }
  step p a := match a with
    | .pass input =>
      -- the loop has returned
      if p.quitFlag then none
      else p.pass fileExists nul luaTriggers node (getline p.usrInput input)
    | .station i => ((switching fileExists nul node).step p.switching (.step i)).map fun switching =>
        { p with switching := switching }

end

/-! ## What the stations have got -/

section
variable {ι : Type} [DecidableEq ι] {fileExists : String → Bool} {nul : Cpp String}
  {luaTriggers : Finset String} {node : ι → LuaNode} {p p' : UserPipe ι}

/-- The lines that are passed on. -/
def passedOn (luaTriggers : Finset String) (seen : List String) : List String :=
  seen.filter fun str => str ≠ exitStr ∧ str ∈ luaTriggers

/-- A trigger is passed on unless it ends the program. -/
theorem count_passedOn {key : String} (seen : List String) (hkey : key ∈ luaTriggers) :
    (passedOn luaTriggers seen).count key = (seen.filter (· ≠ exitStr)).count key := by
  rw [passedOn, List.count, List.countP_filter, List.countP_filter]
  refine List.countP_congr fun str _ => ?_
  by_cases hstr : str = key
  · simp [hstr, hkey]
  · simp [hstr]

theorem switching_written {s s' : Switching ι} {a : SwitchAction ι}
    (h : (switching fileExists nul node).step s a = some s') :
    s'.written = s.written ++ match a with
      | .write str => [str]
      | .step _ => [] := by
  cases a with
  | write str =>
    obtain ⟨u, -, rfl⟩ := Option.map_eq_some_iff.mp h
    rfl
  | step i =>
    simp only [switching] at h
    split at h
    · obtain ⟨st, -, rfl⟩ := Option.map_eq_some_iff.mp h
      rw [List.append_nil]
    · cases h

/-- What a step of the pipe does to the inputs. -/
theorem userPipe_moves {a : PipeAct ι}
    (h : (userPipe fileExists nul luaTriggers node).step p a = some p') :
    (p'.switching = p.switching ∨
      ∃ b, (switching fileExists nul node).step p.switching b = some p'.switching) ∧
    (p.switching.written = passedOn luaTriggers p.seen →
      p'.switching.written = passedOn luaTriggers p'.seen) := by
  cases a with
  | pass input =>
    simp only [userPipe, UserPipe.pass] at h
    split_ifs at h with hquit hexit htrigger
    · cases h
      refine ⟨Or.inl rfl, fun hw => hw.trans ?_⟩
      simp [passedOn, hexit]
    · obtain ⟨switching', hstep, rfl⟩ := Option.map_eq_some_iff.mp h
      refine ⟨Or.inr ⟨_, hstep⟩, fun hw => ?_⟩
      rw [switching_written hstep, hw]
      simp [passedOn, hexit, htrigger]
    · cases h
      refine ⟨Or.inl rfl, fun hw => hw.trans ?_⟩
      simp [passedOn, htrigger]
  | station i =>
    obtain ⟨switching', hstep, rfl⟩ := Option.map_eq_some_iff.mp h
    refine ⟨Or.inr ⟨_, hstep⟩, fun hw => ?_⟩
    rw [switching_written hstep, hw, List.append_nil]

/-- The stations are given the lines that are passed on, in their order. -/
theorem written_passedOn (h : (userPipe fileExists nul luaTriggers node).Reachable p) :
    InOrder node p.switching ∧ p.switching.written = passedOn luaTriggers p.seen := by
  constructor
  · exact InOrder.reachable (Machine.Reachable.part UserPipe.switching rfl
      (fun p a p' hstep => (userPipe_moves hstep).1) h)
  · exact Machine.invariant (P := fun p : UserPipe ι =>
      p.switching.written = passedOn luaTriggers p.seen) rfl
      (fun p a p' hp hstep => (userPipe_moves hstep).2 hp) h

end

/-- A station with a key that has gone through the inputs, and was never ten inputs late, has
looked up just these. -/
theorem Follows.lookUps_eq {node : LuaNode} {written : List String} {st : Station}
    (h : Follows node written st) (hkey : node.luaKeySwitch ≠ "") (hphase : st.phase = .check)
    (hdone : (written.length : Int) ≤ st.localLuaFlag)
    (hrecent : ∀ l ∈ st.lookUps, l.written < l.number + 10) :
    st.lookUps.map LookUp.str = written := by
  have hle := h.le
  have hconsumed := h.lookedUp hkey
  rw [h.consumed, hphase, if_neg (by decide), List.append_nil] at hconsumed
  have hflag : st.localLuaFlag.toNat = written.length := by omega
  rw [hflag] at hconsumed
  have hlen : st.lookUps.length = written.length := by
    have := congrArg List.length hconsumed
    simpa using this.symm
  refine List.ext_getElem (by rw [List.length_map, hlen]) fun k hk hk' => ?_
  rw [List.length_map] at hk
  have hnumber : st.lookUps[k].number = (k : Int) + 1 := by
    have := congrArg (·[k]?) hconsumed
    simp only [List.getElem?_map, List.getElem?_eq_getElem hk, Option.map_some] at this
    rw [List.getElem?_eq_getElem (by rw [List.length_range']; omega), Option.map_some,
      Option.some.injEq, List.getElem_range'] at this
    omega
  have hstr := h.recent _ (List.getElem_mem hk) (hrecent _ (List.getElem_mem hk))
  rw [hnumber, ThreadSafeUserInput.nth, show ((k : Int) + 1 - 1).toNat = k by omega,
    List.getElem?_eq_getElem hk', Option.some.injEq] at hstr
  rw [List.getElem_map, hstr]

/-- A station that has gone through the inputs, and has found none of them after ten later ones. -/
def Switching.CaughtUp {ι : Type} (s : Switching ι) (i : ι) : Prop :=
  (s.stations i).phase = .check ∧ s.luaSwitchObj.readCount ≤ (s.stations i).localLuaFlag ∧
    ∀ l ∈ (s.stations i).lookUps, l.written < l.number + 10

instance {ι : Type} (s : Switching ι) (i : ι) : Decidable (s.CaughtUp i) :=
  inferInstanceAs (Decidable (_ ∧ _ ∧ _))

/-- **Every line that is a station's key changes its file, and nothing else does.** After any run
of `main`'s loop and of the stations, a station with a key that has caught up has its file changed
once for each line that was its key; of the line that ends the program no station hears. -/
theorem user_switches {nodes : List ConfiguredNode} {fileExists : String → Bool} {nul : Cpp String}
    {p : UserPipe (Fin (startStations nodes).threads.length)}
    (h : (userPipe fileExists nul (startStations nodes).luaTriggers fun i =>
      (startStations nodes).threads[i].luaNode).Reachable p)
    (i : Fin (startStations nodes).threads.length)
    (hkey : (startStations nodes).threads[i].luaKeySwitch ≠ "")
    (hcaught : p.switching.CaughtUp i) :
    (p.switching.stations i).currentLuaFileIndex =
      (((p.seen.filter (· ≠ exitStr)).count (startStations nodes).threads[i].luaKeySwitch %
        (startStations nodes).threads[i].luaFileNames.length : ℕ) : Int) := by
  obtain ⟨hphase, hdone, hrecent⟩ := hcaught
  obtain ⟨hinOrder, hwritten⟩ := written_passedOn h
  have hfollows := hinOrder.follows i
  rw [ThreadSafeUserInput.readCount, hinOrder.cached.count] at hdone
  have hlookUps := hfollows.lookUps_eq hkey hphase hdone hrecent
  have htrigger : (startStations nodes).threads[i].luaKeySwitch ∈ (startStations nodes).luaTriggers :=
    mem_luaTriggers.mpr ⟨hkey, _, mem_threads (List.getElem_mem i.isLt), rfl⟩
  have hcount : (p.switching.stations i).lookUps.countP
      (fun l => l.str = (startStations nodes).threads[i].luaKeySwitch) =
      p.switching.written.count (startStations nodes).threads[i].luaKeySwitch := by
    rw [← hlookUps, List.count, List.countP_map]
    refine List.countP_congr fun l _ => ?_
    simp
  rw [hfollows.index, ← count_passedOn p.seen htrigger, ← hwritten, ← hcount]
  rfl

/-- An outstation that switches between two files. -/
def switchingNode : ConfiguredNode :=
  { StationNode.new "O1" "Outstation" with
    luaFileNames := ["a.lua", "b.lua"], luaKeySwitch := "s", boundOutstations := [] }

def switchingPipe : Machine (UserPipe (Fin (startStations [switchingNode]).threads.length))
    (PipeAct (Fin (startStations [switchingNode]).threads.length)) :=
  userPipe (fun _ => true) (.error .undefined) (startStations [switchingNode]).luaTriggers
    fun i => (startStations [switchingNode]).threads[i].luaNode

/-- The key is there a second time when the pipe is gone. -/
def switchingRun : List (PipeAct (Fin (startStations [switchingNode]).threads.length)) :=
  [.pass (.line "s"), .pass .unavailable, .pass (.line "t"), .pass (.line "s")] ++
    List.replicate 9 (.station ⟨0, by decide⟩) ++ [.pass (.line "x")]

theorem user_switches_three : ∃ p, switchingPipe.run switchingPipe.init switchingRun = some p ∧
    p.seen = ["s", "s", "t", "s", "x"] ∧
    (p.switching.stations ⟨0, by decide⟩).currentLuaFileIndex = ((3 % 2 : ℕ) : Int) := by
  have hruns : (switchingPipe.run switchingPipe.init switchingRun).isSome := by decide
  obtain ⟨p, hrun⟩ := Option.isSome_iff_exists.mp hruns
  have hseen : (switchingPipe.run switchingPipe.init switchingRun).map UserPipe.seen =
    some ["s", "s", "t", "s", "x"] := by decide
  have hcaught : (switchingPipe.run switchingPipe.init switchingRun).map (fun p =>
    decide (p.switching.CaughtUp ⟨0, by decide⟩)) = some true := by decide
  rw [hrun, Option.map_some, Option.some.injEq] at hseen hcaught
  refine ⟨p, hrun, hseen, ?_⟩
  have hindex := user_switches ⟨switchingRun, hrun⟩ ⟨0, by decide⟩ (by decide)
    (of_decide_eq_true hcaught)
  rw [hseen] at hindex
  exact hindex

/-! ## The end of the program -/

section
variable {nul : Cpp String} {node : LuaNode} {input : ThreadSafeUserInput} {written : List String}
variable {st st' : Station}

end

section
variable {ι : Type} [DecidableEq ι] {fileExists : String → Bool} {nul : Cpp String}
  {luaTriggers : Finset String} {node : ι → LuaNode} {p p' : UserPipe ι}

end

end IcsTrafficGen.Dnp3

import IcsTrafficGen.Lib.Dict
import IcsTrafficGen.Lib.Cpp
import Mathlib.Tactic.SplitIfs

/- `ThreadSafeUserInput`: the strings the user typed, numbered from 1. The main loop
   writes them; the stations read the count and look strings up by number. Only some
   are kept: once eleven are there, every write first removes the tenth before it, and
   the first, which no write removes, stays (`Cached`). -/
namespace IcsTrafficGen.Dnp3

structure ThreadSafeUserInput where
  currentCount : Int
  keyPresses : Dict Int String
  deriving DecidableEq

namespace ThreadSafeUserInput

def new : ThreadSafeUserInput := { currentCount := 0, keyPresses := .empty }

def readCount (u : ThreadSafeUserInput) : Int := u.currentCount

/-- `nul` is what the `return '\0'` for a missing key comes to: its conversion to
`std::string` is from a null pointer, or from a character. -/
def readInputStr (nul : Cpp String) (u : ThreadSafeUserInput) (keyCount : Int) : Cpp String :=
  match u.keyPresses.get? keyCount with
  | some s => .ok s
  | none => nul

/-- The removal of the lowest index, if there are more than ten keys. -/
def limitKeys (u : ThreadSafeUserInput) : Cpp (Dict Int String) :=
  if 10 < u.keyPresses.size then do
    let next ← Cpp.addInt u.currentCount 1
    -- the number ten before the one about to be written, not the lowest key
    let lowest ← Cpp.addInt next (-10)
    pure (if lowest ∈ u.keyPresses.keys then u.keyPresses.erase lowest else u.keyPresses)
  else pure u.keyPresses

def unconditionalWriter (u : ThreadSafeUserInput) (inputStr : String) : Cpp ThreadSafeUserInput := do
  let keyPresses ← u.limitKeys
  let currentCount ← Cpp.addInt u.currentCount 1
  pure { currentCount := currentCount, keyPresses := keyPresses.set currentCount inputStr }

/-! ## What is kept -/

/-- The number of an input that is still there after `n` inputs. -/
def Kept (n : ℕ) (k : Int) : Prop := 1 ≤ k ∧ k ≤ n ∧ (k = 1 ∨ n ≤ k + 9)

instance (n : ℕ) (k : Int) : Decidable (Kept n k) := inferInstanceAs (Decidable (_ ∧ _ ∧ _))

/-- The `k`-th of the inputs, counted from 1. -/
def nth (written : List String) (k : Int) : Option String := written[(k - 1).toNat]?

/-- The inputs `written` so far and what the object holds of them. -/
structure Cached (written : List String) (u : ThreadSafeUserInput) : Prop where
  count : u.currentCount = written.length
  size : u.keyPresses.size = min written.length 11
  get : ∀ k, u.keyPresses.get? k = if Kept written.length k then nth written k else none

theorem Cached.new : Cached [] new where
  count := rfl
  size := rfl
  get k := by
    rw [if_neg]
    · rfl
    · simp only [Kept, List.length_nil]
      omega

theorem nth_append {written : List String} {k : Int} (h : 1 ≤ k) (hk : k ≤ written.length)
    (s : String) : nth (written ++ [s]) k = nth written k := by
  unfold nth
  rw [List.getElem?_append_left (by omega)]

theorem nth_last (written : List String) (s : String) :
    nth (written ++ [s]) ((written.length : Int) + 1) = some s := by
  unfold nth
  rw [show ((written.length : Int) + 1 - 1).toNat = written.length by omega]
  exact List.getElem?_concat_length ..

theorem Cached.mem_keys {written : List String} {u : ThreadSafeUserInput} (h : Cached written u)
    {k : Int} : k ∈ u.keyPresses.keys ↔ Kept written.length k := by
  rw [Dict.mem_keys, h.get]
  split_ifs with hk
  · have hlt : (k - 1).toNat < written.length := by
      unfold Kept at hk
      omega
    exact ⟨fun _ => hk, fun _ => ⟨_, List.getElem?_eq_getElem hlt⟩⟩
  · simp [hk]

/-- Room is made for the next input. -/
theorem Cached.limitKeys_ok {written : List String} {u : ThreadSafeUserInput} (h : Cached written u)
    {d : Dict Int String} (hd : u.limitKeys = .ok d) :
    d.size = min written.length 10 ∧ ∀ k, d.get? k =
      if Kept (written.length + 1) k ∧ k ≤ written.length then nth written k else none := by
  have hsize := h.size
  unfold limitKeys at hd
  split at hd
  · next hfull =>
    obtain ⟨next, hnext, hd⟩ := Fallible.bind_ok.mp hd
    obtain ⟨lowest, hlowest, hd⟩ := Fallible.bind_ok.mp hd
    obtain ⟨-, rfl⟩ := Cpp.addInt_ok.mp hnext
    obtain ⟨-, rfl⟩ := Cpp.addInt_ok.mp hlowest
    rw [h.count] at hd
    -- with eleven keys there, the one to remove is always among them
    have hmem : (written.length : Int) + 1 + -10 ∈ u.keyPresses.keys := by
      rw [h.mem_keys, Kept]
      omega
    rw [if_pos hmem] at hd
    obtain rfl := Fallible.pure_ok.mp hd
    refine ⟨?_, fun k => ?_⟩
    · rw [Dict.size_erase_of_mem hmem]
      omega
    · have hkept : k ≠ (written.length : Int) + 1 + -10 →
          (Kept written.length k ↔ Kept (written.length + 1) k ∧ k ≤ written.length) := by
        unfold Kept
        omega
      rw [Dict.get?_erase, h.get]
      by_cases hk : k = (written.length : Int) + 1 + -10
      · rw [if_pos hk, if_neg]
        unfold Kept
        omega
      · rw [if_neg hk, if_congr (hkept hk) rfl rfl]
  · next hfull =>
    obtain rfl := Fallible.pure_ok.mp hd
    refine ⟨by omega, fun k => ?_⟩
    rw [h.get]
    refine if_congr ?_ rfl rfl
    unfold Kept
    omega

/-- A write keeps the new input and what it leaves of the others. -/
theorem Cached.unconditionalWriter_ok {written : List String} {u u' : ThreadSafeUserInput}
    (h : Cached written u) {s : String} (hw : u.unconditionalWriter s = .ok u') :
    Cached (written ++ [s]) u' := by
  obtain ⟨d, hd, hw⟩ := Fallible.bind_ok.mp hw
  obtain ⟨count, hcount, hw⟩ := Fallible.bind_ok.mp hw
  obtain rfl := Fallible.pure_ok.mp hw
  obtain ⟨-, rfl⟩ := Cpp.addInt_ok.mp hcount
  obtain ⟨hsize, hget⟩ := h.limitKeys_ok hd
  have hnew : (written.length : Int) + 1 ∉ d.keys := by
    rw [← Dict.get?_eq_none, hget, if_neg]
    omega
  rw [h.count]
  refine ⟨by simp, ?_, fun k => ?_⟩
  · rw [Dict.size_set_of_notMem s hnew, List.length_append, List.length_singleton]
    omega
  · rw [Dict.get?_set, hget, List.length_append, List.length_singleton]
    by_cases hk : k = (written.length : Int) + 1
    · subst hk
      rw [if_pos rfl, nth_last, if_pos]
      unfold Kept
      omega
    · rw [if_neg hk]
      by_cases hkept : Kept (written.length + 1) k
      · have hle : k ≤ written.length := by
          unfold Kept at hkept
          omega
        rw [if_pos ⟨hkept, hle⟩, if_pos hkept, nth_append hkept.1 hle]
      · rw [if_neg (fun hboth => hkept hboth.1), if_neg hkept]

/-- The ten most recent inputs can be read. -/
theorem Cached.readInputStr_recent {written : List String} {u : ThreadSafeUserInput}
    (h : Cached written u) (nul : Cpp String) {k : Int} (h1 : 1 ≤ k) (hk : k ≤ written.length)
    (hrecent : written.length < k + 10) {s : String} (hs : u.readInputStr nul k = .ok s) :
    nth written k = some s := by
  have hget := h.get k
  rw [if_pos ⟨h1, hk, Or.inr (by omega)⟩] at hget
  unfold readInputStr at hs
  split at hs
  · next s' hs' =>
    cases hs
    rw [← hget, hs']
  · next hnone =>
    rw [hnone, eq_comm, nth, List.getElem?_eq_none_iff] at hget
    omega

/-! ## Runs of writes -/

/-- The inputs `written`, one after the other. -/
def writeAll (u : ThreadSafeUserInput) (written : List String) : Cpp ThreadSafeUserInput :=
  written.foldlM unconditionalWriter u

theorem Cached.writeAll_ok {written : List String} {u u' : ThreadSafeUserInput}
    (h : Cached written u) {inputs : List String} (hw : u.writeAll inputs = .ok u') :
    Cached (written ++ inputs) u' := by
  induction inputs generalizing written u with
  | nil =>
    obtain rfl := Fallible.pure_ok.mp hw
    rwa [List.append_nil]
  | cons s inputs ih =>
    rw [writeAll, List.foldlM_cons] at hw
    obtain ⟨u₁, hfirst, hrest⟩ := Fallible.bind_ok.mp hw
    have hall := ih (h.unconditionalWriter_ok hfirst) hrest
    rwa [List.append_assoc] at hall

/-- A write succeeds as long as the count is an `int`. -/
theorem Cached.unconditionalWriter_total {written : List String} {u : ThreadSafeUserInput}
    (h : Cached written u) (s : String) (hn : written.length < 2147483647) :
    ∃ u', u.unconditionalWriter s = .ok u' := by
  have hnext : Cpp.addInt u.currentCount 1 = .ok ((written.length : Int) + 1) := by
    rw [Cpp.addInt_ok, Cpp.InInt, h.count]
    omega
  have hlowest : Cpp.addInt ((written.length : Int) + 1) (-10) =
      .ok ((written.length : Int) + 1 + -10) := by
    rw [Cpp.addInt_ok, Cpp.InInt]
    omega
  have hroom : ∃ d, u.limitKeys = .ok d := by
    unfold limitKeys
    split
    · rw [hnext]
      exact ⟨_, by rw [Fallible.bind_ok]; exact ⟨_, rfl, by rw [hlowest]; rfl⟩⟩
    · exact ⟨_, rfl⟩
  obtain ⟨d, hd⟩ := hroom
  exact ⟨_, by rw [unconditionalWriter, hd, hnext]; rfl⟩

theorem Cached.writeAll_total {written : List String} {u : ThreadSafeUserInput}
    (h : Cached written u) {inputs : List String}
    (hn : written.length + inputs.length ≤ 2147483647) : ∃ u', u.writeAll inputs = .ok u' := by
  induction inputs generalizing written u with
  | nil => exact ⟨u, rfl⟩
  | cons s inputs ih =>
    rw [List.length_cons] at hn
    obtain ⟨u₁, hfirst⟩ := h.unconditionalWriter_total s (by omega)
    obtain ⟨u', hrest⟩ := ih (h.unconditionalWriter_ok hfirst)
      (by rw [List.length_append, List.length_singleton]; omega)
    exact ⟨u', by rw [writeAll, List.foldlM_cons, hfirst]; exact hrest⟩

/-- What the comments of `unconditionalWriter` promise: at most ten inputs are held, and
they are the last ones. -/
structure HoldsLastTen (written : List String) (u : ThreadSafeUserInput) : Prop where
  count : u.readCount = written.length
  size : u.keyPresses.size ≤ 10
  keys : ∀ k, k ∈ u.keyPresses.keys ↔ max 1 ((written.length : Int) - 9) ≤ k ∧ k ≤ written.length
  get : ∀ k ∈ u.keyPresses.keys, u.keyPresses.get? k = nth written k

/-- Nothing is removed before an eleventh input is there, and then there is one too many. -/
theorem Cached.holdsLastTen_iff {written : List String} {u : ThreadSafeUserInput}
    (h : Cached written u) : HoldsLastTen written u ↔ written.length ≤ 10 := by
  have hsize := h.size
  constructor
  · intro hlast
    have := hlast.size
    omega
  · intro hn
    refine ⟨h.count, by omega, fun k => ?_, fun k hk => ?_⟩
    · rw [h.mem_keys, Kept]
      omega
    · rw [h.get, if_pos (h.mem_keys.mp hk)]

/-- The object holds the last ten inputs exactly until an eleventh is written. -/
theorem writeAll_holdsLastTen_iff (written : List String) :
    (∃ u, new.writeAll written = .ok u ∧ HoldsLastTen written u) ↔ written.length ≤ 10 := by
  constructor
  · rintro ⟨u, hu, hlast⟩
    exact (Cached.new.writeAll_ok hu).holdsLastTen_iff.mp hlast
  · intro hn
    have hfits : ([] : List String).length + written.length ≤ 2147483647 := by
      rw [List.length_nil]
      omega
    obtain ⟨u, hu⟩ := Cached.new.writeAll_total hfits
    exact ⟨u, hu, (Cached.new.writeAll_ok hu).holdsLastTen_iff.mpr hn⟩

/-- After eleven inputs all eleven are there. -/
theorem eleven_inputs_held : ∃ u, new.writeAll (List.replicate 11 "go") = .ok u ∧
    u.keyPresses.size = 11 ∧ 1 ∈ u.keyPresses.keys ∧ ¬ HoldsLastTen (List.replicate 11 "go") u := by
  have hrun : ∃ u, new.writeAll (List.replicate 11 "go") = .ok u :=
    Cached.new.writeAll_total (by decide)
  obtain ⟨u, hu⟩ := hrun
  have hcached := Cached.new.writeAll_ok hu
  rw [List.nil_append] at hcached
  refine ⟨u, hu, hcached.size, hcached.mem_keys.mpr (by decide), fun hlast => ?_⟩
  have hten : (List.replicate 11 "go").length ≤ 10 := hcached.holdsLastTen_iff.mp hlast
  rw [List.length_replicate] at hten
  omega

end ThreadSafeUserInput
end IcsTrafficGen.Dnp3

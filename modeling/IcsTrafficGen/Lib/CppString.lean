import IcsTrafficGen.Lib.PropertyTree
import Mathlib.Data.List.TakeWhile
import Mathlib.Data.String.Basic

/- Strings of C++ as lists of characters, as far as the programs take them apart. -/
namespace IcsTrafficGen.CppString

/-- `std::stoi`: blanks, a sign, and digits, of which there must be one. What follows the
digits is not looked at. -/
def stoi (s : List Char) : Cpp Int :=
  let (sign, cs) := PTree.splitSign (s.dropWhile PTree.isSpace)
  let digits := cs.takeWhile Char.isDigit
  let n := sign * PTree.digitsVal digits
  if digits ≠ [] ∧ Cpp.InInt n then .ok n else .error .throws

/-- `stream >> n` for an `int`: blanks, a sign and digits. Text that is no number gives 0, and
a number that does not fit the nearest that does. Where nothing is left to read the
variable keeps what it was, and a new variable has no value. -/
def streamInt (s : List Char) : Cpp Int :=
  if s.dropWhile PTree.isSpace = [] then .error .undefined
  else
    let (sign, cs) := PTree.splitSign (s.dropWhile PTree.isSpace)
    let n := sign * PTree.digitsVal (cs.takeWhile Char.isDigit)
    .ok (max (-2147483648) (min n 2147483647))

theorem streamInt_error {s : List Char} {e : Stop} (h : streamInt s = .error e) :
    e = .undefined := by
  unfold streamInt at h
  split at h
  · cases h
    rfl
  · cases h

/-- `stream >> n` for a variable that holds `old`. -/
def extractInt (old : Int) (s : List Char) : Int :=
  match streamInt s with
  | .ok n => n
  | .error _ => old

theorem extractInt_of_ok {s : List Char} {n : Int} (h : streamInt s = .ok n) (old : Int) :
    extractInt old s = n := by
  rw [extractInt, h]

theorem extractInt_of_error {s : List Char} {e : Stop} (h : streamInt s = .error e) (old : Int) :
    extractInt old s = old := by
  rw [extractInt, h]

/-! ## Searches and parts -/

/-- `s.find_first_not_of(delims)`; `none` is `npos`. -/
def findFirstNotOf (s delims : List Char) : Option ℕ := s.findIdx? fun c => c ∉ delims

/-- `s.find_last_not_of(delims)`. -/
def findLastNotOf (s delims : List Char) : Option ℕ :=
  (findFirstNotOf s.reverse delims).map (s.length - 1 - ·)

/-- `s.substr(pos, count)`: with a count of `npos`, or one that reaches over the end, it
takes the rest. -/
def substr (s : List Char) (pos : ℕ) (count : Option ℕ) : Cpp (List Char) :=
  if s.length < pos then .error .throws
  else match count with
    | some n => .ok ((s.drop pos).take n)
    | none => .ok (s.drop pos)

theorem findFirstNotOf_eq_none {s delims : List Char} (h : ∀ c ∈ s, c ∈ delims) :
    findFirstNotOf s delims = none := by
  rw [findFirstNotOf, List.findIdx?_eq_none_iff]
  intro c hc
  simp [h c hc]

theorem findLastNotOf_eq_none {s delims : List Char} (h : ∀ c ∈ s, c ∈ delims) :
    findLastNotOf s delims = none := by
  rw [findLastNotOf, findFirstNotOf_eq_none fun c hc => h c (List.mem_reverse.mp hc)]
  rfl

theorem findFirstNotOf_append {l s delims : List Char} {c : Char} (hl : ∀ c ∈ l, c ∈ delims)
    (hc : c ∉ delims) : findFirstNotOf (l ++ c :: s) delims = some l.length := by
  have hnone : l.findIdx? (fun c => c ∉ delims) = none := findFirstNotOf_eq_none hl
  rw [findFirstNotOf, List.findIdx?_append, hnone, List.findIdx?_cons, if_pos (by simpa using hc)]
  simp

theorem findLastNotOf_append {s r delims : List Char} {c : Char} (hr : ∀ c ∈ r, c ∈ delims)
    (hc : c ∉ delims) : findLastNotOf (s ++ c :: r) delims = some s.length := by
  have hreverse : (s ++ c :: r).reverse = r.reverse ++ c :: s.reverse := by simp
  rw [findLastNotOf, hreverse, findFirstNotOf_append (fun c hc => hr c (List.mem_reverse.mp hc)) hc]
  simp

/-! ## Streams -/

/-- A `std::stringstream` that is read from: the text that is left, and the `eofbit`. -/
structure Stream where
  rest : List Char
  eof : Bool
  deriving DecidableEq, Repr

/-- `getline(ss, tok, delim)`: the token and the stream behind it, or `none` where it fails. -/
def getline (delim : Char) (ss : Stream) : Option (List Char × Stream) :=
  -- a stream that has met its end is not read any more
  if ss.eof then none
  else
    let tok := ss.rest.takeWhile (· ≠ delim)
    match ss.rest.dropWhile (· ≠ delim) with
    | _ :: rest => some (tok, { rest := rest, eof := false })
    -- the end of the text ends a token too, unless there is nothing in it
    | [] => if tok = [] then none else some (tok, { rest := [], eof := true })

theorem getline_append {delim : Char} {tok : List Char} (h : delim ∉ tok) (s : List Char) :
    getline delim ⟨tok ++ delim :: s, false⟩ = some (tok, ⟨s, false⟩) := by
  have hne : ∀ c ∈ tok, decide (c ≠ delim) = true := by
    intro c hc
    rw [decide_eq_true_eq]
    rintro rfl
    exact h hc
  have hdelim : decide (delim ≠ delim) = false := decide_eq_false (not_not_intro rfl)
  unfold getline
  simp only [List.takeWhile_append_of_pos hne, List.dropWhile_append_of_pos hne,
    List.takeWhile_cons, List.dropWhile_cons, hdelim, Bool.false_eq_true, if_false,
    List.append_nil]

theorem getline_last {delim : Char} {s : List Char} (h : delim ∉ s) (hs : s ≠ []) :
    getline delim ⟨s, false⟩ = some (s, ⟨[], true⟩) := by
  have hne : ∀ c ∈ s, decide (c ≠ delim) = true := by
    intro c hc
    rw [decide_eq_true_eq]
    rintro rfl
    exact h hc
  unfold getline
  simp only [List.takeWhile_eq_self_iff.mpr hne, List.dropWhile_eq_nil_iff.mpr hne, hs,
    Bool.false_eq_true, if_false]

theorem getline_nil (delim : Char) (eof : Bool) : getline delim ⟨[], eof⟩ = none := by
  cases eof <;> rfl

/-- Every token takes something off the stream. -/
theorem getline_lt {delim : Char} {ss ss' : Stream} {tok : List Char}
    (h : getline delim ss = some (tok, ss')) : ss'.rest.length < ss.rest.length := by
  obtain ⟨s, eof⟩ := ss
  cases eof with
  | true => cases h
  | false =>
    by_cases hmem : delim ∈ s
    · obtain ⟨t, s', rfl, ht⟩ := List.eq_append_cons_of_mem hmem
      rw [getline_append ht] at h
      cases h
      show s'.length < (tok ++ delim :: s').length
      rw [List.length_append, List.length_cons]
      omega
    · by_cases hs : s = []
      · rw [hs, getline_nil] at h
        cases h
      · rw [getline_last hmem hs] at h
        cases h
        exact List.length_pos_of_ne_nil hs

/-! ## Numbers -/

/-- A text of decimal digits, and its number. -/
structure IsNumber (ds : List Char) (n : ℕ) : Prop where
  ne_nil : ds ≠ []
  digits : ∀ c ∈ ds, c.isDigit = true
  val : PTree.digitsVal ds = n

theorem isSpace_of_isDigit {c : Char} (h : c.isDigit = true) : PTree.isSpace c = false := by
  have hne : ∀ c', c'.isDigit = false → (c == c') = false := by
    intro c' hc'
    apply beq_false_of_ne
    intro e
    rw [e, hc'] at h
    cases h
  rw [PTree.isSpace, hne ' ' rfl, hne '\t' rfl, hne '\x0b' rfl, hne '\x0c' rfl, hne '\n' rfl,
    hne '\r' rfl]
  rfl

theorem splitSign_of_isDigit {c : Char} {s : List Char} (h : c.isDigit = true) :
    PTree.splitSign (c :: s) = (1, c :: s) := by
  unfold PTree.splitSign
  split
  · next e =>
    cases e
    cases h
  · next e =>
    cases e
    cases h
  · rfl

/-- How the readers of numbers take a number apart. -/
theorem IsNumber.read {ds : List Char} {n : ℕ} (h : IsNumber ds n) :
    ds.dropWhile PTree.isSpace = ds ∧ PTree.splitSign ds = (1, ds) ∧
      ds.takeWhile Char.isDigit = ds := by
  obtain ⟨d, l, rfl⟩ := List.exists_cons_of_ne_nil h.ne_nil
  have hd : d.isDigit = true := h.digits d List.mem_cons_self
  refine ⟨?_, splitSign_of_isDigit hd, List.takeWhile_eq_self_iff.mpr h.digits⟩
  rw [List.dropWhile_cons_of_neg (by simp [isSpace_of_isDigit hd])]

theorem IsNumber.stoi {ds : List Char} {n : ℕ} (h : IsNumber ds n) :
    stoi ds = if n ≤ 2147483647 then .ok (n : Int) else .error .throws := by
  obtain ⟨hdrop, hsign, htake⟩ := h.read
  have hint : Cpp.InInt n ↔ n ≤ 2147483647 := by
    unfold Cpp.InInt
    omega
  rw [CppString.stoi, hdrop, hsign]
  simp only [htake, h.val, one_mul, hint, ne_eq, h.ne_nil, not_false_eq_true, true_and]

theorem IsNumber.streamInt {ds : List Char} {n : ℕ} (h : IsNumber ds n) (hn : n ≤ 2147483647) :
    streamInt ds = .ok (n : Int) := by
  obtain ⟨hdrop, hsign, htake⟩ := h.read
  have hclamp : max (-2147483648) (min (n : Int) 2147483647) = n := by omega
  rw [CppString.streamInt, hdrop, if_neg h.ne_nil, hsign]
  simp only [htake, h.val, one_mul, hclamp]

theorem notMem_of_isNumber {ds : List Char} {n : ℕ} (h : IsNumber ds n) {c : Char}
    (hc : c.isDigit = false) : c ∉ ds := by
  intro hmem
  rw [h.digits c hmem] at hc
  cases hc

/-! ## Numbers as they are written -/

theorem isNumber_toString (n : ℕ) : IsNumber (toString (n : Int)).toList n := by
  have htoList : (toString (n : Int)).toList = Nat.toDigits 10 n := Nat.toList_repr
  rw [htoList]
  refine ⟨Nat.toDigits_ne_nil, fun c hc => ?_, ?_⟩
  · exact Nat.isDigit_of_mem_toDigits (by omega) (by omega) hc
  · show (Nat.toDigits 10 n).foldl (fun k c => 10 * k + (c.toNat - '0'.toNat)) 0 = n
    rw [← Nat.ofDigitChars_eq_foldl, Nat.ofDigitChars_toDigits (by omega) (by omega)]

theorem toString_negSucc (n : ℕ) :
    (toString (Int.negSucc n)).toList = '-' :: (toString ((n + 1 : ℕ) : Int)).toList := by
  show ("-" ++ Nat.repr (n + 1)).toList = _
  rw [String.toList_append]
  rfl

theorem notMem_toString (n : Int) {c : Char} (hc : c.isDigit = false) (hsign : c ≠ '-') :
    c ∉ (toString n).toList := by
  cases n with
  | ofNat n => exact notMem_of_isNumber (isNumber_toString n) hc
  | negSucc n =>
    rw [toString_negSucc, List.mem_cons]
    exact not_or.mpr ⟨hsign, notMem_of_isNumber (isNumber_toString (n + 1)) hc⟩

theorem toString_ne_nil (n : Int) : (toString n).toList ≠ [] := by
  cases n with
  | ofNat n => exact (isNumber_toString n).ne_nil
  | negSucc n =>
    rw [toString_negSucc]
    exact List.cons_ne_nil _ _

/-- Different numbers are written differently. -/
theorem toString_inj {m n : Int} (h : toString m = toString n) : m = n := by
  have hminus (k l : ℕ) : toString (k : Int) ≠ toString (Int.negSucc l) := by
    intro e
    have hmem : '-' ∈ (toString (k : Int)).toList := by
      rw [e, toString_negSucc]
      exact List.mem_cons_self
    exact notMem_of_isNumber (isNumber_toString k) rfl hmem
  have hnat {k l : ℕ} (e : (toString (k : Int)).toList = (toString (l : Int)).toList) : k = l := by
    rw [← (isNumber_toString k).val, ← (isNumber_toString l).val, e]
  cases m with
  | ofNat m =>
    cases n with
    | ofNat n => rw [hnat (congrArg String.toList h)]
    | negSucc n => exact absurd h (hminus m n)
  | negSucc m =>
    cases n with
    | ofNat n => exact absurd h.symm (hminus n m)
    | negSucc n =>
      have htail := congrArg String.toList h
      rw [toString_negSucc, toString_negSucc, List.cons.injEq] at htail
      have := hnat htail.2
      rw [Nat.succ.inj this]

end IcsTrafficGen.CppString

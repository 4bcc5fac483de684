import IcsTrafficGen.Dnp3.CfgJsonParser

/- An "Index List": its grammar, and what the regular expression finds in it. The expression
   takes a range as one match only where no blank stands at its dash; where one does, the two
   numbers are matches of their own (`matchesOf_text`). -/
namespace IcsTrafficGen.Dnp3

/-! ## The lists -/

/-- A number as it is written: decimal digits, at least one. -/
structure Numeral where
  digits : List Char
  ne_nil : digits ≠ []
  isDigit : ∀ c ∈ digits, c.isDigit = true

def Numeral.val (n : Numeral) : ℕ := PTree.digitsVal n.digits

theorem Numeral.isNumber (n : Numeral) : CppString.IsNumber n.digits n.val :=
  ⟨n.ne_nil, n.isDigit, rfl⟩

abbrev Blanks := { s : List Char // ∀ c ∈ s, PTree.isSpace c = true }

/-- An item `N` or `N-M`, with the blanks around its numbers; those in `blanks` follow the first
number. -/
structure IndexItem where
  leading : Blanks
  first : Numeral
  blanks : Blanks
  last : Option (Blanks × Numeral × Blanks)

/-- Items separated by commas. -/
structure IndexList where
  head : IndexItem
  tail : List IndexItem

/-- The numbers from `a` to `b`. -/
def span (a b : ℕ) : List Int := (List.range' a (b + 1 - a)).map Nat.cast

namespace IndexItem

def text (i : IndexItem) : List Char :=
  i.leading.1 ++ i.first.digits ++ i.blanks.1 ++ match i.last with
    | none => []
    | some (before, m, after) => '-' :: before.1 ++ m.digits ++ after.1

def indexes (i : IndexItem) : List Int :=
  match i.last with
  | none => span i.first.val i.first.val
  | some (_, m, _) => span i.first.val m.val

/-- No blank stands next to the dash. -/
def Tight (i : IndexItem) : Prop :=
  ∀ r ∈ i.last, i.blanks.1 = [] ∧ r.1.1 = []

instance (i : IndexItem) : Decidable i.Tight := inferInstanceAs (Decidable (∀ r ∈ i.last, _))

/-- The numbers of the item are below `n`. -/
def Below (n : ℕ) (i : IndexItem) : Prop := i.first.val < n ∧ ∀ r ∈ i.last, r.2.1.val < n

instance (n : ℕ) (i : IndexItem) : Decidable (i.Below n) := inferInstanceAs (Decidable (_ ∧ _))

/-- The item is read as it is meant: its numbers are small enough, and if blanks part the two
numbers of a range, there is none between them. -/
def Readable (i : IndexItem) : Prop :=
  match i.last with
  | none => i.first.val < 2147483647
  | some (_, m, _) =>
    m.val < 2147483647 ∧ if i.Tight then i.first.val ≤ 2147483647 else m.val = i.first.val + 1

instance : (i : IndexItem) → Decidable i.Readable
  | ⟨_, first, _, none⟩ => inferInstanceAs (Decidable (first.val < 2147483647))
  | ⟨_, _, _, some _⟩ => inferInstanceAs (Decidable (_ ∧ ite _ _ _))

theorem Tight.readable {i : IndexItem} (htight : i.Tight) (hsmall : i.Below 2147483647) :
    i.Readable := by
  obtain ⟨hfirst, hlast⟩ := hsmall
  unfold Readable
  cases hrange : i.last with
  | none => exact hfirst
  | some r => exact ⟨hlast r hrange, by rw [if_pos htight]; exact hfirst.le⟩

end IndexItem

namespace IndexList

def items (l : IndexList) : List IndexItem := l.head :: l.tail

def text (l : IndexList) : List Char := l.head.text ++ l.tail.flatMap fun i => ',' :: i.text

def indexes (l : IndexList) : List Int := l.items.flatMap IndexItem.indexes

end IndexList

/-! ## The matches -/

/-- The matches of the expression in a text. -/
def matchesOf (s : List Char) : List (List Char × List Char) := indexMatches s.length s

/-- `s` goes on neither with a digit nor with a dash. -/
def Stops (s : List Char) : Prop := ∀ c ∈ s.head?, c.isDigit = false ∧ c ≠ '-'

theorem isDigit_of_isSpace {c : Char} (h : PTree.isSpace c = true) : c.isDigit = false := by
  by_contra hdigit
  rw [CppString.isSpace_of_isDigit (by simpa using hdigit)] at h
  cases h

theorem Blanks.stops (b : Blanks) {s : List Char} (h : b.1 ≠ [] ∨ Stops s) : Stops (b.1 ++ s) := by
  cases hb : b.1 with
  | nil => exact h.resolve_left (not_not_intro hb)
  | cons c u =>
    rintro c' hc'
    cases hc'
    have hspace := b.2 c (hb ▸ List.mem_cons_self)
    refine ⟨isDigit_of_isSpace hspace, ?_⟩
    rintro rfl
    cases hspace

theorem takeWhile_of_head {s : List Char} {p : Char → Bool} (h : ∀ c ∈ s.head?, p c = false) :
    s.takeWhile p = [] ∧ s.dropWhile p = s := by
  cases s with
  | nil => exact ⟨rfl, rfl⟩
  | cons c s =>
    have hc : p c = false := h c rfl
    simp [hc]

/-- The first number is the first run of digits, and the second what follows its dashes. -/
theorem nextMatch_append {u t : List Char} (n : Numeral) (hu : ∀ c ∈ u, c.isDigit = false)
    (ht : ∀ c ∈ t.head?, c.isDigit = false) :
    nextMatch (u ++ (n.digits ++ t)) =
      ((n.digits, (t.dropWhile (fun c => c == '-')).takeWhile Char.isDigit),
        (t.dropWhile (fun c => c == '-')).dropWhile Char.isDigit) := by
  obtain ⟨d, l, hdl⟩ := List.exists_cons_of_ne_nil n.ne_nil
  have hd : d.isDigit = true := n.isDigit d (hdl ▸ List.mem_cons_self)
  have hdrop : (u ++ (n.digits ++ t)).dropWhile (fun c => !c.isDigit) = n.digits ++ t := by
    rw [List.dropWhile_append_of_pos (by simpa using hu), hdl, List.cons_append,
      List.dropWhile_cons_of_neg (by simp [hd])]
  obtain ⟨htake, hrest⟩ := takeWhile_of_head ht
  rw [nextMatch, hdrop, List.takeWhile_append_of_pos n.isDigit,
    List.dropWhile_append_of_pos n.isDigit, htake, hrest, List.append_nil]

/-- A text with a digit, cut around its first run of digits. -/
theorem exists_firstNumeral {s : List Char} (h : s.any Char.isDigit = true) :
    ∃ u, ∃ n : Numeral, ∃ t, s = u ++ (n.digits ++ t) ∧ (∀ c ∈ u, c.isDigit = false) ∧
      ∀ c ∈ t.head?, c.isDigit = false := by
  induction s with
  | nil => cases h
  | cons c s ih =>
    by_cases hc : c.isDigit = true
    · refine ⟨[], ⟨(c :: s).takeWhile Char.isDigit, ?_, ?_⟩, (c :: s).dropWhile Char.isDigit, ?_, ?_, ?_⟩
      · simp [hc]
      · exact fun d hd => List.mem_takeWhile_imp hd
      · exact (List.takeWhile_append_dropWhile).symm
      · simp
      · intro d hd
        have := List.head?_dropWhile_not Char.isDigit (c :: s)
        rw [Option.mem_def.mp hd] at this
        exact this
    · have hs : s.any Char.isDigit = true := by simpa [hc] using h
      obtain ⟨u, n, t, rfl, hu, ht⟩ := ih hs
      refine ⟨c :: u, n, t, rfl, ?_, ht⟩
      exact List.forall_mem_cons.mpr ⟨by simpa using hc, hu⟩

/-- A match leaves less to search. -/
theorem nextMatch_length {s : List Char} (h : s.any Char.isDigit = true) :
    (nextMatch s).2.length < s.length := by
  obtain ⟨u, n, t, rfl, hu, ht⟩ := exists_firstNumeral h
  have hpos : 0 < n.digits.length := List.length_pos_iff.mpr n.ne_nil
  have hle := ((List.dropWhile_sublist Char.isDigit).trans
    (List.dropWhile_sublist (l := t) (fun c => c == '-'))).length_le
  rw [nextMatch_append n hu ht]
  simp only [List.length_append]
  omega

/-- Fuel for every character is enough. -/
theorem indexMatches_eq {s : List Char} {fuel : ℕ} (h : s.length ≤ fuel) :
    indexMatches fuel s = matchesOf s := by
  have hfuel : ∀ fuel fuel' : ℕ, ∀ s : List Char, s.length ≤ fuel → s.length ≤ fuel' →
      indexMatches fuel s = indexMatches fuel' s := by
    intro fuel
    induction fuel with
    | zero =>
      intro fuel' s hs _
      cases List.length_eq_zero_iff.mp (Nat.le_zero.mp hs)
      cases fuel' <;> rfl
    | succ fuel ih =>
      intro fuel' s hs hs'
      cases fuel' with
      | zero =>
        cases List.length_eq_zero_iff.mp (Nat.le_zero.mp hs')
        rfl
      | succ fuel' =>
        rw [indexMatches, indexMatches]
        split
        · next hdigit =>
          have hlt := nextMatch_length hdigit
          rw [ih fuel' _ (by omega) (by omega)]
        · rfl
  exact hfuel fuel s.length s h le_rfl

theorem matchesOf_eq (s : List Char) : matchesOf s =
    if s.any Char.isDigit then (nextMatch s).1 :: matchesOf (nextMatch s).2 else [] := by
  cases s with
  | nil => rfl
  | cons c s =>
    rw [matchesOf, List.length_cons, indexMatches]
    split
    · next hdigit =>
      have hlt := nextMatch_length hdigit
      rw [indexMatches_eq (Nat.le_of_lt_succ hlt)]
    · rfl

/-- What comes before a number is skipped. -/
theorem matchesOf_skip {u s : List Char} (hu : ∀ c ∈ u, c.isDigit = false) :
    matchesOf (u ++ s) = matchesOf s := by
  have hany : (u ++ s).any Char.isDigit = s.any Char.isDigit := by
    have hnone : u.any Char.isDigit = false := by simpa using hu
    rw [List.any_append, hnone, Bool.false_or]
  have hdrop : (u ++ s).dropWhile (fun c => !c.isDigit) = s.dropWhile (fun c => !c.isDigit) :=
    List.dropWhile_append_of_pos (by simpa using hu)
  have hnext : nextMatch (u ++ s) = nextMatch s := by
    rw [nextMatch, nextMatch, hdrop]
  rw [matchesOf_eq, matchesOf_eq s, hany, hnext]

theorem matchesOf_append (n : Numeral) {t : List Char} (ht : ∀ c ∈ t.head?, c.isDigit = false) :
    matchesOf (n.digits ++ t) =
      (n.digits, (t.dropWhile (fun c => c == '-')).takeWhile Char.isDigit) ::
        matchesOf ((t.dropWhile (fun c => c == '-')).dropWhile Char.isDigit) := by
  obtain ⟨d, l, hdl⟩ := List.exists_cons_of_ne_nil n.ne_nil
  have hd : d.isDigit = true := n.isDigit d (hdl ▸ List.mem_cons_self)
  have hany : (n.digits ++ t).any Char.isDigit = true := by simp [hdl, hd]
  have hnext := nextMatch_append (u := []) n (by simp) ht
  rw [List.nil_append] at hnext
  rw [matchesOf_eq, if_pos hany, hnext]

/-- A number that no dash follows. -/
theorem matchesOf_number (n : Numeral) {t : List Char} (ht : Stops t) :
    matchesOf (n.digits ++ t) = (n.digits, []) :: matchesOf t := by
  have hdash := takeWhile_of_head (p := fun c => c == '-') fun c hc => by simpa using (ht c hc).2
  have hdigit := takeWhile_of_head fun c hc => (ht c hc).1
  rw [matchesOf_append n fun c hc => (ht c hc).1, hdash.2, hdigit.1, hdigit.2]

/-- A number whose dash no second number follows. -/
theorem matchesOf_dash (n : Numeral) {t : List Char} (ht : Stops t) :
    matchesOf (n.digits ++ '-' :: t) = (n.digits, []) :: matchesOf t := by
  have hdash := takeWhile_of_head (p := fun c => c == '-') fun c hc => by simpa using (ht c hc).2
  have hdigit := takeWhile_of_head fun c hc => (ht c hc).1
  rw [matchesOf_append n (by simp), List.dropWhile_cons_of_pos rfl, hdash.2, hdigit.1, hdigit.2]

/-- Two numbers with a dash between them. -/
theorem matchesOf_range (n m : Numeral) {t : List Char} (ht : ∀ c ∈ t.head?, c.isDigit = false) :
    matchesOf (n.digits ++ '-' :: (m.digits ++ t)) = (n.digits, m.digits) :: matchesOf t := by
  obtain ⟨d, l, hdl⟩ := List.exists_cons_of_ne_nil m.ne_nil
  have hd : d.isDigit = true := m.isDigit d (hdl ▸ List.mem_cons_self)
  have hdash : (m.digits ++ t).dropWhile (fun c => c == '-') = m.digits ++ t := by
    refine (takeWhile_of_head fun c hc => ?_).2
    rw [hdl] at hc
    cases hc
    rw [beq_eq_false_iff_ne]
    rintro rfl
    cases hd
  obtain ⟨htake, hrest⟩ := takeWhile_of_head ht
  rw [matchesOf_append n (by simp), List.dropWhile_cons_of_pos rfl, hdash,
    List.takeWhile_append_of_pos m.isDigit, List.dropWhile_append_of_pos m.isDigit, htake, hrest,
    List.append_nil]

/-! ## The matches of a list -/

/-- What is found in an item: both numbers at once only where no blank stands at the dash. -/
def IndexItem.found (i : IndexItem) : List (List Char × List Char) :=
  match i.last with
  | none => [(i.first.digits, [])]
  | some (_, m, _) =>
    if i.Tight then [(i.first.digits, m.digits)] else [(i.first.digits, []), (m.digits, [])]

theorem notDigit_blanks (b : Blanks) : ∀ c ∈ b.1, c.isDigit = false :=
  fun c hc => isDigit_of_isSpace (b.2 c hc)

theorem matchesOf_item (i : IndexItem) {t : List Char} (ht : Stops t) :
    matchesOf (i.text ++ t) = i.found ++ matchesOf t := by
  obtain ⟨leading, first, blanks, last⟩ := i
  cases last with
  | none =>
    simp only [IndexItem.text, IndexItem.found, List.append_assoc, List.append_nil]
    rw [matchesOf_skip (notDigit_blanks leading), matchesOf_number first (blanks.stops (Or.inr ht)),
      matchesOf_skip (notDigit_blanks blanks)]
    rfl
  | some r =>
    obtain ⟨before, m, after⟩ := r
    have hm : Stops (after.1 ++ t) := after.stops (Or.inr ht)
    simp only [IndexItem.text, IndexItem.found, List.append_assoc, List.cons_append]
    rw [matchesOf_skip (notDigit_blanks leading)]
    by_cases htight : blanks.1 = [] ∧ before.1 = []
    · obtain ⟨hblanks, hbefore⟩ := htight
      have hitem : IndexItem.Tight ⟨leading, first, blanks, some (before, m, after)⟩ := by
        rintro r hr
        cases hr
        exact ⟨hblanks, hbefore⟩
      rw [if_pos hitem, hblanks, hbefore, List.nil_append, List.nil_append,
        matchesOf_range first m fun c hc => (hm c hc).1, matchesOf_skip (notDigit_blanks after)]
      rfl
    · have hitem : ¬ IndexItem.Tight ⟨leading, first, blanks, some (before, m, after)⟩ :=
        fun h => htight (h _ rfl)
      have hsecond : matchesOf (before.1 ++ (m.digits ++ (after.1 ++ t))) =
          (m.digits, []) :: matchesOf t := by
        rw [matchesOf_skip (notDigit_blanks before), matchesOf_number m hm,
          matchesOf_skip (notDigit_blanks after)]
      rw [if_neg hitem]
      by_cases hblanks : blanks.1 = []
      · -- the blank stands behind the dash
        have hbefore : before.1 ≠ [] := fun h => htight ⟨hblanks, h⟩
        rw [hblanks, List.nil_append, matchesOf_dash first (before.stops (Or.inl hbefore)), hsecond]
        rfl
      · rw [matchesOf_number first (blanks.stops (Or.inl hblanks)),
          matchesOf_skip (notDigit_blanks blanks)]
        exact congrArg _ ((matchesOf_skip (u := ['-']) (by simp)).trans hsecond)

/-- The scanner finds what it finds in the items, one after the other. -/
theorem matchesOf_text (l : IndexList) : matchesOf l.text = l.items.flatMap IndexItem.found := by
  obtain ⟨head, tail⟩ := l
  show matchesOf (head.text ++ tail.flatMap fun i => ',' :: i.text) = _
  induction tail generalizing head with
  | nil =>
    rw [matchesOf_item head (by simp [Stops])]
    simp [IndexList.items, matchesOf, indexMatches]
  | cons i tail ih =>
    rw [List.flatMap_cons, List.cons_append, matchesOf_item head (by simp [Stops])]
    have hcomma := matchesOf_skip (u := [',']) (s := i.text ++ tail.flatMap fun i => ',' :: i.text)
      (by simp)
    rw [List.singleton_append] at hcomma
    rw [hcomma, ih]
    rfl

end IcsTrafficGen.Dnp3

import IcsTrafficGen.Lib.CppString
import Mathlib.Data.List.DropRight

/- `StringUtilities`. `split` loses nothing but a delimiter at the end of the text
   (`split_faithful`). `trim` counts one character too few, and a text of delimiters it does
   not trim at all: it is right for the empty text only (`trim_exact_iff`). -/
namespace IcsTrafficGen.Dnp3

/-! ## Splitting -/

/-- `split`: the tokens that `getline` reads up to each delimiter. A delimiter at the end
of the text starts no further token. -/
def split (delim : Char) : List Char → List (List Char)
  | [] => []
  | c :: s =>
    if c = delim then [] :: split delim s
    else match split delim s with
      | [] => [[c]]
      | tok :: tokens => (c :: tok) :: tokens

/-- The loop of `split`: `getline` until it fails. -/
def getlines (delim : Char) (ss : CppString.Stream) : List (List Char) :=
  match _h : CppString.getline delim ss with
  | some (tok, ss') => tok :: getlines delim ss'
  | none => []
termination_by ss.rest.length
decreasing_by exact CppString.getline_lt _h

theorem split_append {delim : Char} {tok s : List Char} (h : delim ∉ tok) :
    split delim (tok ++ delim :: s) = tok :: split delim s := by
  induction tok with
  | nil => simp [split]
  | cons c tok ih =>
    have hc : c ≠ delim := fun e => h (e ▸ List.mem_cons_self)
    have htok : delim ∉ tok := fun hm => h (List.mem_cons_of_mem c hm)
    rw [List.cons_append, split, if_neg hc, ih htok]

theorem split_single {delim : Char} {tok : List Char} (hne : tok ≠ []) (h : delim ∉ tok) :
    split delim tok = [tok] := by
  induction tok with
  | nil => exact absurd rfl hne
  | cons c tok ih =>
    have hc : c ≠ delim := fun e => h (e ▸ List.mem_cons_self)
    have htok : delim ∉ tok := fun hm => h (List.mem_cons_of_mem c hm)
    rw [split, if_neg hc]
    cases tok with
    | nil => rfl
    | cons c' tok => rw [ih (List.cons_ne_nil _ _) htok]

theorem getlines_some {delim : Char} {ss ss' : CppString.Stream} {tok : List Char}
    (h : CppString.getline delim ss = some (tok, ss')) :
    getlines delim ss = tok :: getlines delim ss' := by
  rw [getlines]
  split
  · next h' =>
    rw [h] at h'
    cases h'
    rfl
  · next h' =>
    rw [h] at h'
    cases h'

theorem getlines_none {delim : Char} {ss : CppString.Stream}
    (h : CppString.getline delim ss = none) : getlines delim ss = [] := by
  rw [getlines]
  split
  · next h' =>
    rw [h] at h'
    cases h'
  · rfl

/-- Induction over a text token by token. -/
@[elab_as_elim]
theorem token_induction (delim : Char) {P : List Char → Prop} (nil : P [])
    (last : ∀ s, s ≠ [] → delim ∉ s → P s)
    (token : ∀ tok s, delim ∉ tok → P s → P (tok ++ delim :: s)) (s : List Char) : P s := by
  induction hn : s.length using Nat.strong_induction_on generalizing s with
  | _ n ih =>
    by_cases hmem : delim ∈ s
    · obtain ⟨tok, s', rfl, htok⟩ := List.eq_append_cons_of_mem hmem
      rw [List.length_append, List.length_cons] at hn
      exact token tok s' htok (ih s'.length (by omega) s' rfl)
    · by_cases hs : s = []
      · rwa [hs]
      · exact last s hs hmem

/-- What the loop collects from the start of the text. -/
theorem getlines_eq_split (delim : Char) (s : List Char) :
    getlines delim ⟨s, false⟩ = split delim s := by
  induction s using token_induction delim with
  | nil => rw [getlines_none (CppString.getline_nil delim false), split]
  | last s hs hmem =>
    rw [getlines_some (CppString.getline_last hmem hs), split_single hs hmem,
      getlines_none (CppString.getline_nil delim true)]
  | token tok s htok ih =>
    rw [getlines_some (CppString.getline_append htok s), split_append htok, ih]

/-- A text without the delimiter that it ends in, if it ends in one. -/
def stem (delim : Char) (s : List Char) : List Char :=
  if s.getLast? = some delim then s.dropLast else s

theorem stem_concat (delim : Char) (s : List Char) : stem delim (s ++ [delim]) = s := by
  rw [stem, List.getLast?_concat, if_pos rfl, List.dropLast_concat]

theorem stem_cons {delim c : Char} {s : List Char} (hs : s ≠ []) :
    stem delim (c :: s) = c :: stem delim s := by
  have hlast : (c :: s).getLast? = s.getLast? := by
    rw [List.getLast?_cons, List.getLast?_eq_some_getLast hs]
    rfl
  unfold stem
  rw [hlast, List.dropLast_cons_of_ne_nil hs]
  split <;> rfl

/-- The tokens are what lies between the delimiters, the one at the end apart. -/
theorem split_eq_splitOn {delim : Char} {s : List Char} (hs : s ≠ []) :
    split delim s = (stem delim s).splitOn delim := by
  induction s with
  | nil => exact absurd rfl hs
  | cons c s ih =>
    by_cases hnil : s = []
    · subst hnil
      by_cases hc : c = delim
      · subst hc
        rw [split, if_pos rfl, ← List.nil_append [c], stem_concat]
        rfl
      · have hstem : stem delim [c] = [c] := if_neg (by simpa using hc)
        rw [hstem, split_single hs (by simpa using Ne.symm hc),
          List.splitOn_eq_singleton (by simpa using Ne.symm hc)]
    · rw [stem_cons hnil, List.splitOn_cons_eq_if_modifyHead, split, ih hnil]
      by_cases hc : c = delim
      · rw [if_pos hc, if_pos (beq_iff_eq.mpr hc)]
      · rw [if_neg hc, if_neg (by simpa using hc)]
        cases hsplit : (stem delim s).splitOn delim with
        | nil => exact absurd hsplit (List.splitOn_ne_nil delim _)
        | cons tok tokens => rfl

theorem notMem_of_mem_split {delim : Char} {s tok : List Char} (h : tok ∈ split delim s) :
    delim ∉ tok := by
  induction s using token_induction delim with
  | nil =>
    rw [split] at h
    cases h
  | last s hs hmem =>
    rw [split_single hs hmem, List.mem_singleton] at h
    rwa [h]
  | token tok' s htok ih =>
    rw [split_append htok, List.mem_cons] at h
    rcases h with rfl | h
    · exact htok
    · exact ih h

theorem intercalate_split (delim : Char) (s : List Char) :
    [delim].intercalate (split delim s) = stem delim s := by
  by_cases hs : s = []
  · rw [hs]
    rfl
  · rw [split_eq_splitOn hs, List.intercalate_splitOn]

theorem stem_append (delim : Char) (tok : List Char) {s : List Char} (hs : s ≠ []) :
    stem delim (tok ++ s) = tok ++ stem delim s := by
  induction tok with
  | nil => rfl
  | cons c tok ih =>
    rw [List.cons_append, stem_cons (List.append_ne_nil_of_right_ne_nil tok hs), ih,
      List.cons_append]

theorem stem_of_notMem {delim : Char} {s : List Char} (h : delim ∉ s) : stem delim s = s :=
  if_neg fun hlast => h (List.mem_of_getLast? hlast)

/-- `tokens.front()` is the text up to the first delimiter. -/
theorem head?_split {delim : Char} {s : List Char} (hs : s ≠ []) :
    (split delim s).head? = some (s.takeWhile fun c => c ≠ delim) := by
  induction s using token_induction delim with
  | nil => exact absurd rfl hs
  | last s _ hmem =>
    have hall : (s.takeWhile fun c => c ≠ delim) = s := by
      rw [List.takeWhile_eq_self_iff]
      intro c hc
      rw [decide_eq_true_eq]
      rintro rfl
      exact hmem hc
    rw [split_single hs hmem, hall]
    rfl
  | token tok s htok _ =>
    have hall : ∀ c ∈ tok, decide (c ≠ delim) = true := by
      intro c hc
      rw [decide_eq_true_eq]
      rintro rfl
      exact htok hc
    have hdelim : decide (delim ≠ delim) = false := decide_eq_false (not_not_intro rfl)
    rw [split_append htok, List.takeWhile_append_of_pos hall, List.takeWhile_cons, hdelim,
      if_neg Bool.false_ne_true, List.append_nil]
    rfl

/-- `tokens.back()` is the text behind the last delimiter, one at the end apart. -/
theorem getLast?_split {delim : Char} {s : List Char} (hs : s ≠ []) :
    (split delim s).getLast? = some ((stem delim s).rtakeWhile fun c => c ≠ delim) := by
  have hself {t : List Char} (ht : delim ∉ t) : (t.rtakeWhile fun c => c ≠ delim) = t := by
    rw [List.rtakeWhile_eq_self_iff]
    intro c hc
    rw [decide_eq_true_eq]
    rintro rfl
    exact ht hc
  induction s using token_induction delim with
  | nil => exact absurd rfl hs
  | last s _ hmem =>
    rw [split_single hs hmem, stem_of_notMem hmem, hself hmem]
    rfl
  | token tok s htok ih =>
    rw [split_append htok]
    by_cases hnil : s = []
    · rw [hnil, split, stem_concat, hself htok]
      rfl
    · have hdelim : decide (delim ≠ delim) = false := decide_eq_false (not_not_intro rfl)
      have hpart : ((tok ++ delim :: stem delim s).rtakeWhile fun c => c ≠ delim) =
          (stem delim s).rtakeWhile fun c => c ≠ delim := by
        simp only [List.rtakeWhile, List.reverse_append, List.reverse_cons, List.append_assoc,
          List.takeWhile_append, List.takeWhile_cons, hdelim, Bool.false_eq_true, if_false,
          List.singleton_append, List.append_nil]
        split
        · next hlength =>
          rw [(List.takeWhile_prefix _).eq_of_length hlength]
        · rfl
      rw [stem_append delim tok (List.cons_ne_nil delim s), stem_cons hnil, hpart,
        List.getLast?_cons, ih hnil]
      rfl

/-- One token more than there are delimiters, one at the end apart. -/
theorem length_split {delim : Char} {s : List Char} (hs : s ≠ []) :
    (split delim s).length = (stem delim s).count delim + 1 := by
  induction s using token_induction delim with
  | nil => exact absurd rfl hs
  | last s _ hmem =>
    rw [split_single hs hmem, stem_of_notMem hmem, List.count_eq_zero_of_not_mem hmem]
    rfl
  | token tok s htok ih =>
    rw [split_append htok, List.length_cons]
    by_cases hnil : s = []
    · rw [hnil, split, stem_concat, List.count_eq_zero_of_not_mem htok]
      rfl
    · rw [ih hnil, stem_append delim tok (List.cons_ne_nil delim s), stem_cons hnil,
        List.count_append, List.count_eq_zero_of_not_mem htok, List.count_cons_self, Nat.zero_add]

/-- Two texts with one stem. -/
theorem eq_or_concat_of_stem_eq {delim : Char} {s t : List Char} (h : stem delim s = stem delim t) :
    s = t ∨ s = t ++ [delim] ∨ t = s ++ [delim] := by
  have hends {u : List Char} (hu : u.getLast? = some delim) : u = stem delim u ++ [delim] := by
    rw [stem, if_pos hu, List.dropLast_append_getLast? delim hu]
  by_cases hs : s.getLast? = some delim <;> by_cases ht : t.getLast? = some delim
  · left
    rw [hends hs, hends ht, h]
  · right; left
    rw [hends hs, h, stem, if_neg ht]
  · right; right
    rw [hends ht, ← h, stem, if_neg hs]
  · left
    rw [stem, if_neg hs, stem, if_neg ht] at h
    exact h

/-- `split` is a faithful tokenizer: no token has a delimiter in it, and put together again
they are the text, without the delimiter that it may end in. -/
theorem split_faithful (delim : Char) (s : List Char) :
    getlines delim ⟨s, false⟩ = split delim s ∧
    (∀ tok ∈ split delim s, delim ∉ tok) ∧
    (s.getLast? ≠ some delim → [delim].intercalate (split delim s) = s) ∧
    (∀ s', s = s' ++ [delim] → [delim].intercalate (split delim s) = s') ∧
    split delim [] = [] ∧
    ∀ t, split delim t = split delim s → s = t ∨ s = t ++ [delim] ∨ t = s ++ [delim] := by
  refine ⟨getlines_eq_split delim s, fun tok => notMem_of_mem_split, fun hlast => ?_, ?_, rfl,
    fun t ht => eq_or_concat_of_stem_eq ?_⟩
  · rw [intercalate_split, stem, if_neg hlast]
  · rintro s' rfl
    rw [intercalate_split, stem_concat]
  · rw [← intercalate_split, ← intercalate_split, ht]

/-! ## Trimming -/

/-- `trim`: from the first character that is no delimiter, as many as the last one is
behind it. -/
def trim (source delims : List Char) : Cpp (List Char) :=
  let pos := (CppString.findFirstNotOf source delims).getD 0
  let count := (CppString.findLastNotOf source delims).map (Cpp.subSize · pos)
  CppString.substr source pos count

/-- A text that neither starts nor ends with a delimiter. -/
structure Bare (delims t : List Char) : Prop where
  head : ∀ c, t.head? = some c → c ∉ delims
  last : ∀ c, t.getLast? = some c → c ∉ delims

/-- `t` is what is left of `s` without the delimiters around it. -/
structure IsTrim (delims s t : List Char) : Prop where
  bare : Bare delims t
  around : ∃ l r, s = l ++ t ++ r ∧ (∀ c ∈ l, c ∈ delims) ∧ ∀ c ∈ r, c ∈ delims
  longest : ∀ u, u <:+: s → Bare delims u → u.length ≤ t.length

/-- The text that `trim` should give. -/
def core (delims s : List Char) : List Char :=
  (s.dropWhile (· ∈ delims)).rdropWhile (· ∈ delims)

theorem Bare.reverse {delims t : List Char} (h : Bare delims t) : Bare delims t.reverse where
  head c hc := h.last c (by rwa [List.head?_reverse] at hc)
  last c hc := h.head c (by rwa [List.getLast?_reverse] at hc)

/-- Delimiters in front of a text cannot reach into a part of it that starts with none. -/
theorem length_le_of_append_eq {delims l s x u : List Char} {c : Char} (hl : ∀ c ∈ l, c ∈ delims)
    (hc : c ∉ delims) (h : l ++ s = x ++ c :: u) : l.length ≤ x.length := by
  by_contra hlt
  have hleft : (l ++ s)[x.length]? = l[x.length]? := List.getElem?_append_left (by omega)
  have hright : (x ++ c :: u)[x.length]? = some c := by
    rw [List.getElem?_append_right le_rfl, Nat.sub_self, List.getElem?_cons_zero]
  rw [← h, hleft] at hright
  exact hc (hl c (List.mem_of_getElem? hright))

theorem Bare.length_le {delims l t r x u y : List Char} (hu : Bare delims u)
    (hl : ∀ c ∈ l, c ∈ delims) (hr : ∀ c ∈ r, c ∈ delims) (h : l ++ t ++ r = x ++ u ++ y) :
    u.length ≤ t.length := by
  cases u with
  | nil => exact Nat.zero_le _
  | cons c u =>
    have hleft : l.length ≤ x.length := by
      refine length_le_of_append_eq (s := t ++ r) (u := u ++ y) hl (hu.head c rfl) ?_
      rw [← List.append_assoc, h, List.append_assoc, List.cons_append]
    have hright : r.reverse.length ≤ y.reverse.length := by
      obtain ⟨c', u', hrev⟩ := List.exists_cons_of_ne_nil
        (List.reverse_ne_nil_iff.mpr (List.cons_ne_nil c u))
      have hc' : c' ∉ delims := hu.reverse.head c' (by rw [hrev]; rfl)
      refine length_le_of_append_eq (s := t.reverse ++ l.reverse) (u := u' ++ x.reverse)
        (fun c hc => hr c (List.mem_reverse.mp hc)) hc' ?_
      have hall := congrArg List.reverse h
      rw [List.reverse_append, List.reverse_append, List.reverse_append, List.reverse_append,
        hrev] at hall
      rw [hall, List.cons_append]
    have hlength := congrArg List.length h
    simp only [List.length_append, List.length_reverse] at hlength hright
    omega

theorem bare_core (delims s : List Char) : Bare delims (core delims s) where
  head c hc := by
    obtain ⟨r, hr⟩ := List.rdropWhile_prefix (fun c => decide (c ∈ delims))
      (s.dropWhile fun c => decide (c ∈ delims))
    have hdrop : (s.dropWhile fun c => decide (c ∈ delims)).head? = some c := by
      rw [← hr, List.head?_append]
      exact Option.or_eq_some_iff.mpr (Or.inl hc)
    have hfirst := List.head?_dropWhile_not (fun c => decide (c ∈ delims)) s
    rw [hdrop] at hfirst
    exact of_decide_eq_false hfirst
  last c hc := by
    have hne : core delims s ≠ [] := by
      intro e
      rw [e] at hc
      cases hc
    have hlast := List.rdropWhile_last_not (fun c => decide (c ∈ delims)) _ hne
    rw [List.getLast?_eq_some_getLast hne, Option.some.injEq] at hc
    rw [decide_eq_true_eq] at hlast
    rwa [← hc]

theorem core_around (delims s : List Char) : ∃ l r, s = l ++ core delims s ++ r ∧
    (∀ c ∈ l, c ∈ delims) ∧ ∀ c ∈ r, c ∈ delims := by
  refine ⟨s.takeWhile fun c => decide (c ∈ delims),
    (s.dropWhile fun c => decide (c ∈ delims)).rtakeWhile fun c => decide (c ∈ delims), ?_, ?_, ?_⟩
  · rw [List.append_assoc, core, List.rdropWhile_append_rtakeWhile,
      List.takeWhile_append_dropWhile]
  · intro c hc
    have hdelim := List.mem_takeWhile_imp hc
    rwa [decide_eq_true_eq] at hdelim
  · intro c hc
    have hdelim := List.mem_rtakeWhile_imp hc
    rwa [decide_eq_true_eq] at hdelim

/-- Every text has a part that is trimmed. -/
theorem isTrim_core (delims s : List Char) : IsTrim delims s (core delims s) where
  bare := bare_core delims s
  around := core_around delims s
  longest u hinfix hu := by
    obtain ⟨l, r, hs, hl, hr⟩ := core_around delims s
    obtain ⟨x, y, hxy⟩ := hinfix
    exact hu.length_le hl hr (hs.symm.trans hxy.symm)

/-- What `trim` computes: all of a text of delimiters, else one character too few. -/
theorem trim_ok (delims s : List Char) : trim s delims =
    .ok (if core delims s = [] then s else (core delims s).dropLast) := by
  obtain ⟨l, r, hs, hl, hr⟩ := core_around delims s
  have hbare := bare_core delims s
  by_cases hcore : core delims s = []
  · have hall : ∀ c ∈ s, c ∈ delims := by
      rw [hs, hcore, List.append_nil]
      intro c hc
      exact (List.mem_append.mp hc).elim (hl c) (hr c)
    rw [if_pos hcore, trim, CppString.findFirstNotOf_eq_none hall,
      CppString.findLastNotOf_eq_none hall]
    rfl
  · rw [if_neg hcore]
    generalize core delims s = t at hs hbare hcore
    have hlast : t.dropLast ++ [t.getLast hcore] = t := List.dropLast_append_getLast hcore
    obtain ⟨c, t', rfl⟩ := List.exists_cons_of_ne_nil hcore
    have hfirst : CppString.findFirstNotOf s delims = some l.length := by
      rw [hs, List.append_assoc, List.cons_append]
      exact CppString.findFirstNotOf_append hl (hbare.head c rfl)
    have hlastNot : CppString.findLastNotOf s delims =
        some (l ++ (c :: t').dropLast).length := by
      rw [hs, ← hlast, List.dropLast_concat, ← List.append_assoc, List.append_assoc,
        List.singleton_append]
      exact CppString.findLastNotOf_append hr
        (hbare.last _ (List.getLast?_eq_some_getLast hcore))
    have hcount : Cpp.subSize (l ++ (c :: t').dropLast).length l.length =
        (c :: t').dropLast.length := by
      rw [Cpp.subSize, List.length_append, if_pos (by omega)]
      omega
    have hpos : ¬ s.length < l.length := by
      rw [hs, List.length_append, List.length_append]
      omega
    have hpart : (s.drop l.length).take (c :: t').dropLast.length = (c :: t').dropLast := by
      rw [hs, List.append_assoc, List.drop_left, ← hlast, List.dropLast_concat, List.append_assoc,
        List.take_left]
    rw [trim, hfirst, hlastNot]
    show CppString.substr s l.length (some (Cpp.subSize _ l.length)) = _
    rw [hcount, CppString.substr, if_neg hpos]
    show Except.ok ((s.drop l.length).take (c :: t').dropLast.length) = _
    rw [hpart]

/-- `trim` gives the longest part of a text without delimiters at its ends, and trims it no
further, for no text but the empty one. -/
theorem trim_exact_iff (delims s : List Char) :
    (∃ t, trim s delims = .ok t ∧ IsTrim delims s t ∧ trim t delims = .ok t) ↔ s = [] := by
  constructor
  · rintro ⟨t, ht, hexact, -⟩
    have ht' := Except.ok.inj ((trim_ok delims s).symm.trans ht)
    by_cases hcore : core delims s = []
    · -- a text of delimiters starts with one, if with anything
      rw [if_pos hcore] at ht'
      obtain ⟨l, r, hs, hl, hr⟩ := core_around delims s
      rw [hcore, List.append_nil] at hs
      cases s with
      | nil => rfl
      | cons c s =>
        have hc : c ∈ l ++ r := by
          rw [← hs]
          exact List.mem_cons_self
        have hdelim : c ∈ delims := (List.mem_append.mp hc).elim (hl c) (hr c)
        exact absurd hdelim (hexact.bare.head c (by rw [← ht']; rfl))
    · -- what should have been left is longer
      rw [if_neg hcore] at ht'
      obtain ⟨l, r, hs, -, -⟩ := core_around delims s
      have hlonger := hexact.longest _ ⟨l, r, hs.symm⟩ (bare_core delims s)
      have hpos := List.length_pos_of_ne_nil hcore
      rw [← ht', List.length_dropLast] at hlonger
      omega
  · rintro rfl
    have htrim : trim [] delims = .ok [] := rfl
    exact ⟨[], htrim, isTrim_core delims [], htrim⟩

/-- One blank before and one after the word, and its last letter is gone. -/
theorem trim_loses_letter : trim " go ".toList " \t\r\n".toList = .ok "g".toList ∧
    ¬ IsTrim " \t\r\n".toList " go ".toList "g".toList := by
  refine ⟨by decide, fun h => ?_⟩
  have hword : Bare " \t\r\n".toList "go".toList := ⟨by simp, by simp⟩
  exact absurd (h.longest _ ⟨[' '], [' '], by decide⟩ hword) (by decide)

end IcsTrafficGen.Dnp3

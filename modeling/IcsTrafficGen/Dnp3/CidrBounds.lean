import IcsTrafficGen.Dnp3.CidrNetwork

/- Which texts the constructor of `CidrCalculator` takes apart without leaving its arrays.
   Nothing checks the text: it needs a prefix of at most 32 and, unless the prefix is
   negative and so refused by the vector, four octets (`newFrom_inBounds_iff`). -/
namespace IcsTrafficGen.Dnp3
namespace CidrCalculator

/-- The constructor behind the reading of the numbers. -/
def build (cidr : String) (cidrI : Int) (addr : List Int) : Cpp CidrCalculator := do
  let range ← cidrRange cidrI
  let netMask ← range.foldlM setMaskBit [0, 0, 0, 0]
  let a ← maskOctet addr netMask 0
  let b ← maskOctet addr netMask 1
  let c ← maskOctet addr netMask 2
  let d ← maskOctet addr netMask 3
  pure { cidrNotation := cidr, netMask := netMask, networkAddr := ⟨a, b, c, d⟩ }

/-- The constructor where `cidrI` and each `dec` hold something already, which they keep when
there is nothing to read. -/
def newFrom (stale : ℕ → Int) (cidr : String) : Cpp CidrCalculator := do
  let parts := split '/' cidr.toList
  let addrStr ← front parts
  let prefixStr ← back parts
  let cidrI := CppString.extractInt (stale 0) prefixStr
  let addr := (split '.' addrStr).mapIdx fun i value =>
    CppString.extractInt (stale (i + 1)) value
  build cidr cidrI addr

/-! ## Reading the numbers -/

theorem mapM_streamInt_error {fields : List (List Char)} {e : Stop}
    (h : fields.mapM CppString.streamInt = .error e) : e = .undefined := by
  induction fields with
  | nil => cases h
  | cons value fields ih =>
    rw [List.mapM_cons] at h
    cases hvalue : CppString.streamInt value with
    | error e' =>
      rw [hvalue] at h
      cases h
      exact CppString.streamInt_error hvalue
    | ok n =>
      rw [hvalue] at h
      cases hrest : fields.mapM CppString.streamInt with
      | error e' =>
        rw [hrest] at h
        cases h
        exact ih hrest
      | ok ns =>
        rw [hrest] at h
        cases h

theorem mapIdx_extractInt {fields : List (List Char)} {ns : List Int}
    (h : List.Forall₂ (fun value n => CppString.streamInt value = .ok n) fields ns)
    (stale : ℕ → Int) :
    fields.mapIdx (fun i value => CppString.extractInt (stale i) value) = ns := by
  induction h generalizing stale with
  | nil => rfl
  | cons hvalue _ ih =>
    rw [List.mapIdx_cons, ih fun i => stale (i + 1), CppString.extractInt_of_ok hvalue]

/-- Where every number can be read, what the variables held before does not matter. -/
theorem newFrom_of_new {cidr : String} (h : new cidr ≠ .error .undefined) (stale : ℕ → Int) :
    newFrom stale cidr = new cidr := by
  have hnew : new cidr = (do
      let addrStr ← front (split '/' cidr.toList)
      let prefixStr ← back (split '/' cidr.toList)
      let cidrI ← CppString.streamInt prefixStr
      let addr ← (split '.' addrStr).mapM CppString.streamInt
      build cidr cidrI addr) := rfl
  have hfrom : newFrom stale cidr = (do
      let addrStr ← front (split '/' cidr.toList)
      let prefixStr ← back (split '/' cidr.toList)
      build cidr (CppString.extractInt (stale 0) prefixStr)
        ((split '.' addrStr).mapIdx fun i value =>
          CppString.extractInt (stale (i + 1)) value)) := rfl
  rw [hnew] at h ⊢
  rw [hfrom]
  cases hfront : front (split '/' cidr.toList) with
  | error e => rfl
  | ok addrStr =>
    cases hback : back (split '/' cidr.toList) with
    | error e => rfl
    | ok prefixStr =>
      rw [hfront, hback] at h
      cases hprefix : CppString.streamInt prefixStr with
      | error e =>
        obtain rfl := CppString.streamInt_error hprefix
        simp only [bind, Except.bind, hprefix] at h
        exact absurd rfl h
      | ok cidrI =>
        cases haddr : (split '.' addrStr).mapM CppString.streamInt with
        | error e =>
          obtain rfl := mapM_streamInt_error haddr
          simp only [bind, Except.bind, hprefix, haddr] at h
          exact absurd rfl h
        | ok addr =>
          have hkept := mapIdx_extractInt (Fallible.mapM_ok.mp haddr) fun i => stale (i + 1)
          simp only [bind, Except.bind, hprefix, haddr, hkept, CppString.extractInt_of_ok hprefix]

/-! ## The loops over the mask -/

theorem setMaskBit_range_of_lt {p : ℕ} (hp : 32 < p) :
    (List.range p).foldlM setMaskBit [0, 0, 0, 0] = .error .undefined := by
  have hstop : (List.range 33).foldlM setMaskBit [0, 0, 0, 0] = .error .undefined := by decide
  obtain ⟨k, rfl⟩ := Nat.exists_eq_add_of_lt hp
  rw [show 32 + k + 1 = 33 + k by omega, List.range_add, List.foldlM_append, hstop]
  rfl

theorem maskOctet_of_lt {addr netMask : List Int} {i : ℕ} (haddr : i < addr.length)
    (hmask : i < netMask.length) : ∃ octet, maskOctet addr netMask i = .ok octet := by
  have haddr' : (i : Int) < addr.length := by omega
  have hmask' : (i : Int) < netMask.length := by omega
  obtain ⟨x, hx⟩ := Cpp.vecGet_of_lt (Int.natCast_nonneg i) haddr'
  obtain ⟨y, hy⟩ := Cpp.vecGet_of_lt (Int.natCast_nonneg i) hmask'
  exact ⟨Int.land x y, by rw [maskOctet, hx, hy]; rfl⟩

theorem maskOctet_of_le {addr : List Int} (netMask : List Int) {i : ℕ}
    (haddr : addr.length ≤ i) : maskOctet addr netMask i = .error .undefined := by
  have hget : Cpp.vecGet addr i = .error .undefined := by
    rw [Cpp.vecGet, Int.toNat_natCast, List.getElem?_eq_none haddr]
  rw [maskOctet, hget]
  rfl

/-- The loops stay inside `netMask` and `addr` exactly with a prefix that fits and four octets,
or when there is no loop since the prefix is negative. -/
theorem build_inBounds_iff (cidr : String) (cidrI : Int) (addr : List Int) :
    build cidr cidrI addr ≠ .error .undefined ↔ cidrI < 0 ∨ cidrI ≤ 32 ∧ 4 ≤ addr.length := by
  by_cases hneg : cidrI < 0
  · have hrange : cidrRange cidrI = .error .throws := if_neg (by omega)
    rw [build, hrange]
    exact iff_of_true (fun e => by cases e) (Or.inl hneg)
  obtain ⟨p, rfl⟩ := Int.eq_ofNat_of_zero_le (not_lt.mp hneg)
  have hrange : cidrRange p = .ok (List.range p) := if_pos (by omega)
  have hcond : ((p : Int) < 0 ∨ (p : Int) ≤ 32 ∧ 4 ≤ addr.length) ↔ p ≤ 32 ∧ 4 ≤ addr.length := by
    omega
  rw [hcond, build, hrange]
  show ((List.range p).foldlM setMaskBit [0, 0, 0, 0] >>= _) ≠ _ ↔ _
  by_cases hp : p ≤ 32
  · rw [setMaskBit_range hp]
    have hmask : (maskOctets p).length = 4 := by rw [maskOctets, List.length_map, List.length_range]
    by_cases haddr : 4 ≤ addr.length
    · obtain ⟨a, ha⟩ := maskOctet_of_lt (show 0 < addr.length by omega) (by rw [hmask]; decide)
      obtain ⟨b, hb⟩ := maskOctet_of_lt (show 1 < addr.length by omega) (by rw [hmask]; decide)
      obtain ⟨c, hc⟩ := maskOctet_of_lt (show 2 < addr.length by omega) (by rw [hmask]; decide)
      obtain ⟨d, hd⟩ := maskOctet_of_lt (show 3 < addr.length by omega) (by rw [hmask]; decide)
      simp only [bind, Except.bind, ha, hb, hc, hd]
      exact iff_of_true (fun e => by cases e) ⟨hp, haddr⟩
    · -- the last of the four octets is missing, and maybe one before it
      have hmissing : maskOctet addr (maskOctets p) 3 = .error .undefined :=
        maskOctet_of_le _ (by omega)
      have hother (i : ℕ) (hi : i < 4) : maskOctet addr (maskOctets p) i = .error .undefined ∨
          ∃ octet, maskOctet addr (maskOctets p) i = .ok octet := by
        by_cases hlt : i < addr.length
        · exact Or.inr (maskOctet_of_lt hlt (by rw [hmask]; exact hi))
        · exact Or.inl (maskOctet_of_le _ (by omega))
      refine iff_of_false (not_not_intro ?_) fun h => haddr h.2
      rcases hother 0 (by decide) with ha | ⟨a, ha⟩ <;> rcases hother 1 (by decide) with hb | ⟨b, hb⟩ <;>
        rcases hother 2 (by decide) with hc | ⟨c, hc⟩ <;>
        simp only [bind, Except.bind, ha, hb, hc, hmissing]
  · rw [setMaskBit_range_of_lt (by omega)]
    exact iff_of_false (not_not_intro rfl) fun h => hp h.1

/-! ## Texts -/

/-- The text in front of the first `/`. -/
def addrText (s : List Char) : List Char := s.takeWhile fun c => c ≠ '/'

/-- The text behind the last `/`, one at the end apart. -/
def prefixText (s : List Char) : List Char := (stem '/' s).rtakeWhile fun c => c ≠ '/'

/-- One octet more than there are dots, one at the end apart. -/
def octetCount (s : List Char) : ℕ := if s = [] then 0 else (stem '.' s).count '.' + 1

/-- There is a number behind the last `/`, and either it is negative, or it is at most 32 and
there are four octets in front of the first. -/
def HasBounds (s : List Char) : Prop :=
  ∃ p, CppString.streamInt (prefixText s) = .ok p ∧
    (p < 0 ∨ p ≤ 32 ∧ 4 ≤ octetCount (addrText s))

/-- The constructor reports an error or stays inside its arrays, whatever its variables hold
before they are read, exactly for such texts. Where there is a number in each text that it reads,
it does what `new` does. -/
theorem newFrom_inBounds_iff (cidr : String) :
    ((∀ stale, newFrom stale cidr ≠ .error .undefined) ↔ HasBounds cidr.toList) ∧
      (new cidr ≠ .error .undefined → ∀ stale, newFrom stale cidr = new cidr) := by
  refine ⟨?_, newFrom_of_new⟩
  by_cases hs : cidr.toList = []
  · have hblank : CppString.streamInt (prefixText []) = .error .undefined := rfl
    have hfront : newFrom (fun _ => 0) cidr = .error .undefined := by
      rw [newFrom, hs]
      rfl
    refine iff_of_false (fun h => h _ hfront) ?_
    rintro ⟨p, hp, -⟩
    rw [hs, hblank] at hp
    cases hp
  have hrun (stale : ℕ → Int) : newFrom stale cidr =
      build cidr (CppString.extractInt (stale 0) (prefixText cidr.toList))
        ((split '.' (addrText cidr.toList)).mapIdx fun i value =>
          CppString.extractInt (stale (i + 1)) value) := by
    rw [newFrom, front, back, head?_split hs, getLast?_split hs]
    rfl
  have hcount (stale : ℕ → Int) : ((split '.' (addrText cidr.toList)).mapIdx fun i value =>
      CppString.extractInt (stale (i + 1)) value).length = octetCount (addrText cidr.toList) := by
    rw [List.length_mapIdx, octetCount]
    split
    · next hnil => rw [hnil, split, List.length_nil]
    · next hne => exact length_split hne
  constructor
  · intro h
    cases hprefix : CppString.streamInt (prefixText cidr.toList) with
    | ok p =>
      have hinside := h fun _ => 0
      rw [hrun, build_inBounds_iff, CppString.extractInt_of_ok hprefix, hcount fun _ => 0] at hinside
      exact ⟨p, hprefix, hinside⟩
    | error e =>
      -- whatever happens to be in `cidrI` is taken for the prefix
      have hinside := h fun _ => 33
      rw [hrun, build_inBounds_iff, CppString.extractInt_of_error hprefix] at hinside
      omega
  · rintro ⟨p, hp, hbounds⟩ stale
    rw [hrun, build_inBounds_iff, hcount, CppString.extractInt_of_ok hp]
    exact hbounds

/-- A prefix of 33, no octets, and no text at all. -/
theorem leaves_arrays : newFrom (fun _ => 0) "10.0.0.0/33" = .error .undefined ∧
    newFrom (fun _ => 0) "10.0.0/24" = .error .undefined ∧
    newFrom (fun _ => 0) "" = .error .undefined := by decide

end CidrCalculator
end IcsTrafficGen.Dnp3

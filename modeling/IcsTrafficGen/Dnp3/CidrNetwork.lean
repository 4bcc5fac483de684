import IcsTrafficGen.Dnp3.CidrCalculator

/- The network of a well-formed CIDR notation. The constructor splits the text at the right
   places, builds the mask of the prefix and clears the host bits of the address
   (`new_ok`). -/
namespace IcsTrafficGen.Dnp3

/-! ## Networks -/

/-- The number of host bits in octet `i`, under a prefix of `p` bits. -/
def hostBits (p i : ℕ) : ℕ := 8 - (p - 8 * i)

/-- An octet without its host bits. -/
def networkOctet (p i x : ℕ) : ℕ := x - x % 2 ^ hostBits p i

theorem networkOctet_lt {p i x : ℕ} (hx : x ≤ 255) : networkOctet p i x < 256 :=
  (Nat.sub_le _ _).trans_lt (by omega)

/-- `a.b.c.d/p`, each number with any leading zeros. -/
structure IsCidr (s : String) (a b c d p : ℕ) : Prop where
  a_le : a ≤ 255
  b_le : b ≤ 255
  c_le : c ≤ 255
  d_le : d ≤ 255
  p_le : p ≤ 32
  text : ∃ sa sb sc sd sp, s.toList = sa ++ '.' :: (sb ++ '.' :: (sc ++ '.' :: sd)) ++ '/' :: sp ∧
    CppString.IsNumber sa a ∧ CppString.IsNumber sb b ∧ CppString.IsNumber sc c ∧
    CppString.IsNumber sd d ∧ CppString.IsNumber sp p

/-- The mask of a prefix of `p` bits. -/
def maskOctets (p : ℕ) : List Int := (List.range 4).map fun i => 256 - 2 ^ hostBits p i

theorem setMaskBit_range {p : ℕ} (hp : p ≤ 32) :
    (List.range p).foldlM CidrCalculator.setMaskBit [0, 0, 0, 0] = .ok (maskOctets p) := by
  have hall : ∀ q < 33, (List.range q).foldlM CidrCalculator.setMaskBit [0, 0, 0, 0] =
      .ok (maskOctets q) := by decide
  exact hall p (by omega)

/-- Masking an octet clears its host bits. -/
theorem land_mask {x h : ℕ} (hx : x ≤ 255) (hh : h ≤ 8) :
    Int.land x (256 - 2 ^ h) = ((x - x % 2 ^ h : ℕ) : Int) := by
  have hall : ∀ y < 256, ∀ k < 9, y &&& (256 - 2 ^ k) = y - y % 2 ^ k := by decide +kernel
  have hpow : 2 ^ h ≤ 256 := Nat.pow_le_pow_right (n := 2) (by decide) hh
  have hmask : (256 - 2 ^ h : Int) = ((256 - 2 ^ h : ℕ) : Int) := by
    rw [Nat.cast_sub hpow]
    push_cast
    rfl
  rw [hmask]
  show ((x &&& (256 - 2 ^ h) : ℕ) : Int) = _
  rw [hall x (by omega) h (by omega)]

theorem maskOctet_ok {addr : List Int} {i x p : ℕ} (hx : x ≤ 255) (hi : i < 4)
    (haddr : addr[i]? = some (x : Int)) :
    CidrCalculator.maskOctet addr (maskOctets p) i = .ok (networkOctet p i x : Int) := by
  have hmask : (maskOctets p)[i]? = some (256 - 2 ^ hostBits p i) := by
    simp [maskOctets, hi]
  have hoctet : Cpp.vecGet addr i = .ok (x : Int) := Cpp.vecGet_ok.mpr ⟨by omega, haddr⟩
  have hbits : Cpp.vecGet (maskOctets p) i = .ok (256 - 2 ^ hostBits p i) :=
    Cpp.vecGet_ok.mpr ⟨by omega, hmask⟩
  rw [CidrCalculator.maskOctet, hoctet, hbits]
  show Except.ok (Int.land x (256 - 2 ^ hostBits p i)) = _
  rw [land_mask hx (by unfold hostBits; omega), networkOctet]

/-- The constructor of a well-formed notation: the mask has the bits of the prefix, and the
address has the host bits cleared. -/
theorem new_ok {s : String} {a b c d p : ℕ} (h : IsCidr s a b c d p) :
    CidrCalculator.new s = .ok
      { cidrNotation := s
        netMask := maskOctets p
        networkAddr := ⟨networkOctet p 0 a, networkOctet p 1 b, networkOctet p 2 c,
          networkOctet p 3 d⟩ } := by
  obtain ⟨sa, sb, sc, sd, sp, htext, ha, hb, hc, hd, hp⟩ := h.text
  have hdot : ∀ {ds n}, CppString.IsNumber ds n → '.' ∉ ds := fun hn => CppString.notMem_of_isNumber hn rfl
  have hslash : ∀ {ds n}, CppString.IsNumber ds n → '/' ∉ ds := fun hn => CppString.notMem_of_isNumber hn rfl
  have hparts : split '/' s.toList = [sa ++ '.' :: (sb ++ '.' :: (sc ++ '.' :: sd)), sp] := by
    rw [htext, split_append, split_single hp.ne_nil (hslash hp)]
    simp [hslash ha, hslash hb, hslash hc, hslash hd]
  have hfields : split '.' (sa ++ '.' :: (sb ++ '.' :: (sc ++ '.' :: sd))) = [sa, sb, sc, sd] := by
    rw [split_append (hdot ha), split_append (hdot hb), split_append (hdot hc),
      split_single hd.ne_nil (hdot hd)]
  have haddr : [sa, sb, sc, sd].mapM CppString.streamInt = .ok [(a : Int), b, c, d] := by
    have hle := h.a_le
    have hle := h.b_le
    have hle := h.c_le
    have hle := h.d_le
    rw [Fallible.mapM_ok]
    refine .cons (ha.streamInt (by omega)) (.cons (hb.streamInt (by omega))
      (.cons (hc.streamInt (by omega)) (.cons (hd.streamInt (by omega)) .nil)))
  have hoctet (i x : ℕ) (hx : x ≤ 255) (hi : i < 4) (hx' : [(a : Int), b, c, d][i]? = some (x : Int)) :
      CidrCalculator.maskOctet [(a : Int), b, c, d] (maskOctets p) i =
        .ok (networkOctet p i x : Int) := maskOctet_ok hx hi hx'
  have hple := h.p_le
  have hrange : CidrCalculator.cidrRange p = .ok (List.range p) := if_pos (by omega)
  unfold CidrCalculator.new
  rw [hparts]
  simp only [CidrCalculator.front, CidrCalculator.back, List.head?_cons, List.getLast?_cons_cons,
    List.getLast?_singleton, hfields, haddr, hp.streamInt (by omega), bind, Except.bind]
  rw [hrange]
  simp only [setMaskBit_range hple, hoctet 0 a h.a_le (by omega) rfl,
    hoctet 1 b h.b_le (by omega) rfl, hoctet 2 c h.c_le (by omega) rfl,
    hoctet 3 d h.d_le (by omega) rfl]
  rfl

end IcsTrafficGen.Dnp3

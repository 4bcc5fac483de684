import IcsTrafficGen.Lib.Orbit
import IcsTrafficGen.Dnp3.CidrRuns

/- What the generator returns when it is never stopped, from any address: the octets count up
   like the digits of a number, and at the end of all addresses the last block of them comes
   over and over (`hostAfter_eq`, `nodup_hostAfter_iff`). -/
namespace IcsTrafficGen.Dnp3
open CidrCalculator

/-! ## Carries -/

/-- An octet that counts on from `t`, the network's own: until a carry comes in from below, it
stays as it is. -/
def counted (t carry : ℕ) : ℕ := if carry = 0 then t else (min t 254 + carry) % 255

/-- The address with last octet `d` once `carry` carries have come out of that octet. The first
octet stops at 254. -/
def carried (a b c carry : ℕ) (d : Int) : Octets :=
  let toSecond := (min c 254 + carry) / 255
  let toFirst := (min b 254 + toSecond) / 255
  ⟨(min (a + toFirst) (max a 254) : ℕ), (counted b toSecond : ℕ), (counted c carry : ℕ), d⟩

/-- The address that call `i` returns, counted from 0. -/
def hostAfter (a b c d i : ℕ) : Octets :=
  carried a b c ((min d 254 + i) / 254) ((min d 254 + i) % 254 + 1 : ℕ)

/-- One more carry into an octet. -/
theorem counted_succ {t : ℕ} (ht : t ≤ 255) (carry : ℕ) :
    (counted t carry < 254 ∧ counted t (carry + 1) = counted t carry + 1 ∧
        (min t 254 + (carry + 1)) / 255 = (min t 254 + carry) / 255) ∨
      254 ≤ counted t carry ∧ counted t (carry + 1) = 0 ∧
        (min t 254 + (carry + 1)) / 255 = (min t 254 + carry) / 255 + 1 := by
  unfold counted
  rw [if_neg (Nat.succ_ne_zero carry)]
  split_ifs <;> omega

theorem carried_zero {a b c : ℕ} (d : Int) : carried a b c 0 d = ⟨a, b, c, d⟩ := by
  have hc : (min c 254 + 0) / 255 = 0 := by omega
  have hb : (min b 254 + 0) / 255 = 0 := by omega
  have ha : min (a + 0) (max a 254) = a := by omega
  simp only [carried, hc, hb, ha, counted, if_true]

/-- The last octet is counted up. -/
theorem nextAddr_carried {a b c carry : ℕ} {d : Int} (hd : d < 254) :
    nextAddr (carried a b c carry d) = carried a b c carry (d + 1) := by
  have hd' : (carried a b c carry d).d < 254 := hd
  rw [nextAddr, if_pos hd']
  rfl

/-- The last octet is full. -/
theorem nextAddr_carry {a b c carry : ℕ} {d : Int} (hb : b ≤ 255) (hc : c ≤ 255) (hd : ¬ d < 254) :
    nextAddr (carried a b c carry d) = carried a b c (carry + 1) 1 := by
  have hd' : ¬ (carried a b c carry d).d < 254 := hd
  rw [nextAddr, if_neg hd']
  unfold carried
  dsimp only
  rcases counted_succ hc carry with ⟨hlt, hnext, hcarry⟩ | ⟨hge, hnext, hcarry⟩
  · rw [if_pos (by omega), hnext, hcarry, Nat.cast_add_one]
  rw [if_neg (by omega), hnext, hcarry]
  rcases counted_succ hb ((min c 254 + carry) / 255) with ⟨hlt, hnext, hcarry⟩ | ⟨hge, hnext, hcarry⟩
  · rw [if_pos (by omega), hnext, hcarry, Nat.cast_add_one]
    rfl
  rw [if_neg (by omega), hnext, hcarry]
  split_ifs <;> simp only [Octets.mk.injEq, Nat.cast_zero, and_true] <;> omega

theorem hostAfter_succ {a b c d : ℕ} (hb : b ≤ 255) (hc : c ≤ 255) (i : ℕ) :
    hostAfter a b c d (i + 1) = nextAddr (hostAfter a b c d i) := by
  unfold hostAfter
  rcases Nat.lt_or_ge ((min d 254 + i) % 254) 253 with hlt | hge
  · rw [nextAddr_carried (by omega)]
    congr 1 <;> omega
  · rw [nextAddr_carry hb hc (by omega)]
    congr 1 <;> omega

theorem hostAfter_zero {a b c d : ℕ} (hb : b ≤ 255) (hc : c ≤ 255) :
    hostAfter a b c d 0 = nextAddr ⟨a, b, c, d⟩ := by
  unfold hostAfter
  rw [← carried_zero]
  rcases Nat.lt_or_ge d 254 with hlt | hge
  · rw [nextAddr_carried (by omega)]
    congr 1 <;> omega
  · rw [nextAddr_carry hb hc (by omega)]
    congr 1 <;> omega

theorem iterate_nextAddr {a b c d : ℕ} (hb : b ≤ 255) (hc : c ≤ 255) (i : ℕ) :
    nextAddr^[i + 1] ⟨a, b, c, d⟩ = hostAfter a b c d i := by
  induction i with
  | zero => rw [Function.iterate_succ_apply', Function.iterate_zero_apply, hostAfter_zero hb hc]
  | succ i ih => rw [Function.iterate_succ_apply', ih, hostAfter_succ hb hc]

/-! ## The cycle -/

theorem counted_add {t carry : ℕ} (h : t ≤ 254 ∨ 0 < carry) (m : ℕ) :
    counted t (carry + 255 * m) = counted t carry := by
  unfold counted
  split_ifs <;> omega

/-- After more carries an octet has its value again only if it has gone all the way round. -/
theorem counted_again {t carry u : ℕ} (ht : t ≤ 255) (hu : 0 < u)
    (h : counted t (carry + u) = counted t carry) :
    (t ≤ 254 ∨ 0 < carry) ∧ ∃ m, 0 < m ∧ u = 255 * m := by
  unfold counted at h
  rw [if_neg (by omega)] at h
  split_ifs at h
  · exact ⟨by omega, u / 255, by omega, by omega⟩
  · exact ⟨by omega, u / 255, by omega, by omega⟩

/-- The first octet has stopped, and no other is 255: from here on the addresses go round. -/
def InCycle (a b c d i : ℕ) : Prop :=
  let carry := (min d 254 + i) / 254
  let toSecond := (min c 254 + carry) / 255
  (c ≤ 254 ∨ 0 < carry) ∧ (b ≤ 254 ∨ 0 < toSecond) ∧ 254 ≤ a + (min b 254 + toSecond) / 255

/-- The call whose address is the first to come again. -/
def firstRepeated (a b c d : ℕ) : ℕ :=
  if a ≤ 253 then 254 * (255 * (255 * (254 - a) - min b 254) - min c 254) - min d 254
  else if b = 255 then 254 * (255 - min c 254) - min d 254
  else if c = 255 then 254 - min d 254
  else 0

/-- How many calls return different addresses. -/
def distinctCalls (a b c d : ℕ) : ℕ := firstRepeated a b c d + 254 * (255 * 255)

theorem inCycle_iff {a b c d : ℕ} (hb : b ≤ 255) (hc : c ≤ 255) (i : ℕ) :
    InCycle a b c d i ↔ firstRepeated a b c d ≤ i := by
  unfold InCycle firstRepeated
  dsimp only
  split_ifs <;> omega

theorem hostAfter_add {a b c d i : ℕ} (h : InCycle a b c d i) :
    hostAfter a b c d (i + 254 * (255 * 255)) = hostAfter a b c d i := by
  obtain ⟨hc, hb, ha⟩ := h
  have hcarry : (min d 254 + (i + 254 * (255 * 255))) / 254 =
      (min d 254 + i) / 254 + 255 * 255 := by omega
  have hlast : (min d 254 + (i + 254 * (255 * 255))) % 254 = (min d 254 + i) % 254 := by omega
  unfold hostAfter
  rw [hcarry, hlast]
  have hsecond (q : ℕ) : (min c 254 + (q + 255 * 255)) / 255 = (min c 254 + q) / 255 + 255 * 1 := by
    clear hcarry hlast ha hb hc
    omega
  unfold carried
  dsimp only
  rw [counted_add hc, hsecond, counted_add hb]
  congr 2
  omega

theorem hostAfter_eq {a b c d j k : ℕ} (hb : b ≤ 255) (hc : c ≤ 255) (hjk : j < k)
    (h : hostAfter a b c d j = hostAfter a b c d k) :
    InCycle a b c d j ∧ j + 254 * (255 * 255) ≤ k := by
  simp only [hostAfter, carried, Octets.mk.injEq, Nat.cast_inj] at h
  obtain ⟨hfirst, hsecond, hthird, hlast⟩ := h
  -- each octet from the last on has gone all the way round
  obtain ⟨u, hu, hcarry⟩ : ∃ u, 0 < u ∧ (min d 254 + k) / 254 = (min d 254 + j) / 254 + u :=
    ⟨(min d 254 + k) / 254 - (min d 254 + j) / 254, by omega, by omega⟩
  rw [hcarry] at hfirst hsecond hthird
  obtain ⟨hc', m, hm, rfl⟩ := counted_again hc hu hthird.symm
  have hcarry' : (min c 254 + ((min d 254 + j) / 254 + 255 * m)) / 255 =
      (min c 254 + (min d 254 + j) / 254) / 255 + m := by omega
  rw [hcarry'] at hfirst hsecond
  obtain ⟨hb', l, hl, rfl⟩ := counted_again hb hm hsecond.symm
  refine ⟨⟨hc', hb', ?_⟩, ?_⟩
  · omega
  · omega

/-- The addresses of the first calls are distinct exactly if there are no more calls than that. -/
theorem nodup_hostAfter_iff {a b c d : ℕ} (hb : b ≤ 255) (hc : c ≤ 255) (n : ℕ) :
    ((List.range n).map (hostAfter a b c d)).Nodup ↔ n ≤ distinctCalls a b c d := by
  apply nodup_range_map_iff
  · intro j k hjk hk h
    obtain ⟨hcycle, hround⟩ := hostAfter_eq hb hc hjk h
    have := (inCycle_iff hb hc j).mp hcycle
    unfold distinctCalls at hk
    omega
  · have hcycle : InCycle a b c d (firstRepeated a b c d) := (inCycle_iff hb hc _).mpr (le_refl _)
    exact ⟨firstRepeated a b c d, by unfold distinctCalls; omega, (hostAfter_add hcycle).symm⟩

end IcsTrafficGen.Dnp3

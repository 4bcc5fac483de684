import IcsTrafficGen.Dnp3.CidrNetwork
import Mathlib.Data.List.Nodup
import Mathlib.Logic.Function.Iterate
import Mathlib.Tactic.IntervalCases
import Mathlib.Tactic.Positivity

/- What the generator returns, call after call. It counts the addresses of the network up
   one by one, but it knows no end: it never looks at the mask. The addresses stay in the
   network, and none comes twice, exactly as long as no more are asked for than there are
   (`staysInside_iff`). -/
namespace IcsTrafficGen.Dnp3
open CidrCalculator

/-- The addresses that the next `n` calls return. -/
def CidrCalculator.calls : ℕ → CidrCalculator → List String
  | 0, _ => []
  | n + 1, gen =>
    let (address, gen) := gen.getNextIpAddress
    address :: calls n gen

/-- Two addresses agree on their first `p` bits. -/
def Agrees (p : ℕ) (net x : Octets) : Prop :=
  x.a / 2 ^ hostBits p 0 = net.a / 2 ^ hostBits p 0 ∧
  x.b / 2 ^ hostBits p 1 = net.b / 2 ^ hostBits p 1 ∧
  x.c / 2 ^ hostBits p 2 = net.c / 2 ^ hostBits p 2 ∧
  x.d / 2 ^ hostBits p 3 = net.d / 2 ^ hostBits p 3

/-- An address, as it is written, lies in the network. -/
def Inside (p : ℕ) (net : Octets) (address : String) : Prop :=
  ∃ x : Octets, address = x.dotted ∧ Agrees p net x

/-- The first `n` calls return addresses of the network, and each of them once: when there
is none left, none is returned. -/
structure StaysInside (p : ℕ) (gen : CidrCalculator) (n : ℕ) : Prop where
  inside : ∀ address ∈ gen.calls n, Inside p gen.networkAddr address
  once : (gen.calls n).Nodup

/-- How many values from `t` on an octet can take that has `h` host bits; 255 is left out. -/
def octetValues (h t : ℕ) : ℕ := min (t + 2 ^ h) 255 - t

/-- How many addresses of the network `a.b.c.d/p` lie above its own address, not counting
those that end in `.0` or have a 255 in the host part. -/
def hostCount (p a b c d : ℕ) : ℕ :=
  if 24 ≤ p then octetValues (hostBits p 3) (networkOctet p 3 d) - 1
  else if 16 ≤ p then octetValues (hostBits p 2) (networkOctet p 2 c) * 254
  else if 8 ≤ p then octetValues (hostBits p 1) (networkOctet p 1 b) * (255 * 254)
  else octetValues (hostBits p 0) (networkOctet p 0 a) * (255 * 255 * 254)

/-! ## Calls -/

theorem calls_eq (n : ℕ) (gen : CidrCalculator) : gen.calls n =
    (List.range n).map fun k => (nextAddr^[k + 1] gen.networkAddr).dotted := by
  induction n generalizing gen with
  | zero => rfl
  | succ n ih =>
    rw [List.range_succ_eq_map, List.map_cons, List.map_map]
    show _ :: (gen.getNextIpAddress.2).calls n = _
    rw [ih]
    rfl

/-- The numbers of an address are found again between its dots. -/
theorem split_dotted (x : Octets) : split '.' x.dotted.toList =
    [(toString x.a).toList, (toString x.b).toList, (toString x.c).toList, (toString x.d).toList] := by
  have hdot (n : Int) : '.' ∉ (toString n).toList :=
    CppString.notMem_toString n rfl (by decide)
  have htext : x.dotted.toList = (toString x.a).toList ++ '.' :: ((toString x.b).toList ++
      '.' :: ((toString x.c).toList ++ '.' :: (toString x.d).toList)) := by
    simp only [Octets.dotted, String.toList_append, List.append_assoc]
    rfl
  rw [htext, split_append (hdot _), split_append (hdot _), split_append (hdot _),
    split_single (CppString.toString_ne_nil _) (hdot _)]

theorem dotted_inj {x y : Octets} (h : x.dotted = y.dotted) : x = y := by
  have hsplit := split_dotted x
  rw [h, split_dotted y] at hsplit
  have hinj {m n : Int} (e : (toString m).toList = (toString n).toList) : m = n :=
    CppString.toString_inj (String.toList_inj.mp e)
  obtain ⟨a, b, c, d⟩ := x
  obtain ⟨a', b', c', d'⟩ := y
  simp only [List.cons.injEq, and_true] at hsplit
  obtain ⟨ha, hb, hc, hd⟩ := hsplit
  rw [hinj ha, hinj hb, hinj hc, hinj hd]

/-! ## Counting through a network -/

/-- `f` lists the network address and then `hosts` addresses of the network, in the order in
which they are generated; the address after the last is outside, or one of the list. -/
structure Enumerates (p : ℕ) (net : Octets) (hosts : ℕ) (f : ℕ → Octets) : Prop where
  zero : f 0 = net
  step : ∀ k < hosts, nextAddr (f k) = f (k + 1)
  inside : ∀ k < hosts, Agrees p net (f (k + 1))
  once : ∀ j k, j < k → k ≤ hosts → f j ≠ f k
  last : Agrees p net (nextAddr (f hosts)) → ∃ k < hosts, f (k + 1) = nextAddr (f hosts)

namespace Enumerates
variable {p hosts : ℕ} {gen : CidrCalculator} {f : ℕ → Octets}

theorem iterate (h : Enumerates p gen.networkAddr hosts f) {k : ℕ} (hk : k ≤ hosts) :
    nextAddr^[k] gen.networkAddr = f k := by
  induction k with
  | zero => exact h.zero.symm
  | succ k ih =>
    rw [Function.iterate_succ_apply', ih (by omega)]
    exact h.step k (by omega)

theorem inside_iff (h : Enumerates p gen.networkAddr hosts f) (n : ℕ) :
    StaysInside p gen n ↔ n ≤ hosts := by
  constructor
  · intro hstays
    by_contra hn
    -- the call after the last address of the network
    have hafter : nextAddr^[hosts + 1] gen.networkAddr = nextAddr (f hosts) := by
      rw [Function.iterate_succ_apply', h.iterate (le_refl _)]
    have hcalls := calls_eq n gen
    obtain ⟨hinside, honce⟩ := hstays
    rw [hcalls] at hinside honce
    obtain ⟨x, hx, hagrees⟩ := hinside _
      (List.mem_map.mpr ⟨hosts, List.mem_range.mpr (by omega), rfl⟩)
    rw [hafter] at hx
    rw [← dotted_inj hx] at hagrees
    obtain ⟨k, hk, hrepeat⟩ := h.last hagrees
    have hsame := List.inj_on_of_nodup_map honce (List.mem_range.mpr (show k < n by omega))
      (List.mem_range.mpr (show hosts < n by omega))
    rw [h.iterate (show k + 1 ≤ hosts by omega), hafter, hrepeat] at hsame
    exact absurd (hsame rfl) (by omega)
  · intro hn
    refine ⟨?_, ?_⟩
    · intro address haddress
      rw [calls_eq, List.mem_map] at haddress
      obtain ⟨k, hk, rfl⟩ := haddress
      have hk := List.mem_range.mp hk
      rw [h.iterate (show k + 1 ≤ hosts by omega)]
      exact ⟨f (k + 1), rfl, h.inside k (by omega)⟩
    · rw [calls_eq]
      apply List.Nodup.map_on _ List.nodup_range
      intro j hj k hk hsame
      have hj := List.mem_range.mp hj
      have hk := List.mem_range.mp hk
      rw [h.iterate (show j + 1 ≤ hosts by omega), h.iterate (show k + 1 ≤ hosts by omega)] at hsame
      have hsame := dotted_inj hsame
      by_contra hne
      rcases Nat.lt_or_gt_of_ne hne with hlt | hlt
      · exact h.once _ _ (show j + 1 < k + 1 by omega) (by omega) hsame
      · exact h.once _ _ (show k + 1 < j + 1 by omega) (by omega) hsame.symm

end Enumerates

/-! ## The four octets -/

/-- The first address of a sequence does not come again, and neither do those behind it. -/
theorem once_of_succ {f : ℕ → Octets} {hosts : ℕ} (hfirst : ∀ k < hosts, f 0 ≠ f (k + 1))
    (hlater : ∀ j k, j < k → k < hosts → f (j + 1) ≠ f (k + 1)) (j k : ℕ) (hjk : j < k)
    (hk : k ≤ hosts) : f j ≠ f k := by
  obtain ⟨k, rfl⟩ := Nat.exists_eq_add_one_of_ne_zero (Nat.ne_of_gt (Nat.zero_lt_of_lt hjk))
  cases j with
  | zero => exact hfirst k hk
  | succ j => exact hlater j k (Nat.lt_of_succ_lt_succ hjk) hk

/-- The host part lies in the last octet. -/
theorem enumerates_d {p : ℕ} (a b c t m : ℕ) (hm : 0 < m)
    (hagrees : ∀ x, Agrees p ⟨a, b, c, t⟩ x ↔
      x.a = a ∧ x.b = b ∧ x.c = c ∧ t ≤ x.d ∧ x.d < t + m) :
    Enumerates p ⟨a, b, c, t⟩ (min (t + m) 255 - t - 1) (fun k => ⟨a, b, c, t + k⟩) := by
  refine ⟨by simp, ?_, ?_, ?_, ?_⟩
  · intro k hk
    rw [nextAddr, if_pos (by show (t : Int) + k < 254; omega)]
    simp only [Octets.mk.injEq, true_and]
    omega
  · intro k hk
    rw [hagrees]
    refine ⟨rfl, rfl, rfl, ?_, ?_⟩
    · show (t : Int) ≤ t + (k + 1 : ℕ)
      omega
    · show (t : Int) + (k + 1 : ℕ) < t + m
      omega
  · intro j k hjk hk he
    simp only [Octets.mk.injEq] at he
    omega
  · intro h
    -- behind the last address either the last octet is too large, or the third is another
    exfalso
    rw [hagrees] at h
    revert h
    unfold nextAddr
    dsimp only
    split_ifs <;> dsimp only <;> intro h <;> omega

/-- The host part starts in the third octet. -/
theorem enumerates_c {p : ℕ} (a b t m : ℕ) (ht : t ≤ 254) (hm : 0 < m)
    (hagrees : ∀ x, Agrees p ⟨a, b, t, 0⟩ x ↔
      x.a = a ∧ x.b = b ∧ (t ≤ x.c ∧ x.c < t + m) ∧ 0 ≤ x.d ∧ x.d < 256) :
    Enumerates p ⟨a, b, t, 0⟩ ((min (t + m) 255 - t) * 254)
      (fun | 0 => ⟨a, b, t, 0⟩
           | k + 1 => ⟨a, b, t + (k / 254 : ℕ), (k % 254 : ℕ) + 1⟩) := by
  refine ⟨rfl, ?_, ?_, ?_, ?_⟩
  · intro k hk
    cases k with
    | zero => rfl
    | succ k =>
      dsimp only
      unfold nextAddr
      dsimp only
      split_ifs <;> simp only [Octets.mk.injEq, true_and] <;> omega
  · intro k hk
    rw [hagrees]
    dsimp only
    omega
  · apply once_of_succ
    · intro k hk he
      simp only [Octets.mk.injEq] at he
      omega
    · intro j k hjk hk he
      simp only [Octets.mk.injEq, true_and] at he
      omega
  · intro h
    exfalso
    obtain ⟨k, hk⟩ := Nat.exists_eq_add_one_of_ne_zero
      (show (min (t + m) 255 - t) * 254 ≠ 0 by omega)
    rw [hk, hagrees] at h
    revert h
    dsimp only
    unfold nextAddr
    dsimp only
    split_ifs <;> dsimp only <;> intro h <;> omega

/-- The host part starts in the second octet. -/
theorem enumerates_b {p : ℕ} (a t m : ℕ) (ht : t ≤ 254) (hm : 0 < m)
    (hagrees : ∀ x, Agrees p ⟨a, t, 0, 0⟩ x ↔
      x.a = a ∧ (t ≤ x.b ∧ x.b < t + m) ∧ (0 ≤ x.c ∧ x.c < 256) ∧ 0 ≤ x.d ∧ x.d < 256) :
    Enumerates p ⟨a, t, 0, 0⟩ ((min (t + m) 255 - t) * (255 * 254))
      (fun | 0 => ⟨a, t, 0, 0⟩
           | k + 1 => ⟨a, t + (k / 254 / 255 : ℕ), (k / 254 % 255 : ℕ), (k % 254 : ℕ) + 1⟩) := by
  refine ⟨rfl, ?_, ?_, ?_, ?_⟩
  · intro k hk
    cases k with
    | zero => rfl
    | succ k =>
      dsimp only
      unfold nextAddr
      dsimp only
      split_ifs <;> simp only [Octets.mk.injEq, true_and] <;> omega
  · intro k hk
    rw [hagrees]
    dsimp only
    omega
  · apply once_of_succ
    · intro k hk he
      simp only [Octets.mk.injEq] at he
      omega
    · intro j k hjk hk he
      simp only [Octets.mk.injEq, true_and] at he
      omega
  · intro h
    obtain ⟨k, hk⟩ := Nat.exists_eq_add_one_of_ne_zero
      (show (min (t + m) 255 - t) * (255 * 254) ≠ 0 by omega)
    -- without a carry out of the first octet the addresses of the network start again
    refine ⟨0, by omega, ?_⟩
    rw [hk, hagrees] at h
    rw [hk]
    revert h
    dsimp only
    unfold nextAddr
    dsimp only
    split_ifs <;> dsimp only <;> intro h <;> simp only [Octets.mk.injEq, true_and] <;> omega

/-- The host part starts in the first octet. -/
theorem enumerates_a {p : ℕ} (t m : ℕ) (ht : t ≤ 254) (hm : 0 < m)
    (hagrees : ∀ x, Agrees p ⟨t, 0, 0, 0⟩ x ↔
      (t ≤ x.a ∧ x.a < t + m) ∧ (0 ≤ x.b ∧ x.b < 256) ∧ (0 ≤ x.c ∧ x.c < 256) ∧
        0 ≤ x.d ∧ x.d < 256) :
    Enumerates p ⟨t, 0, 0, 0⟩ ((min (t + m) 255 - t) * (255 * 255 * 254))
      (fun | 0 => ⟨t, 0, 0, 0⟩
           | k + 1 => ⟨t + (k / 254 / 255 / 255 : ℕ), (k / 254 / 255 % 255 : ℕ),
              (k / 254 % 255 : ℕ), (k % 254 : ℕ) + 1⟩) := by
  refine ⟨rfl, ?_, ?_, ?_, ?_⟩
  · intro k hk
    cases k with
    | zero => rfl
    | succ k =>
      dsimp only
      unfold nextAddr
      dsimp only
      split_ifs <;> simp only [Octets.mk.injEq] <;> omega
  · intro k hk
    rw [hagrees]
    dsimp only
    omega
  · apply once_of_succ
    · intro k hk he
      simp only [Octets.mk.injEq] at he
      omega
    · intro j k hjk hk he
      simp only [Octets.mk.injEq] at he
      omega
  · intro h
    obtain ⟨k, hk⟩ := Nat.exists_eq_add_one_of_ne_zero
      (show (min (t + m) 255 - t) * (255 * 255 * 254) ≠ 0 by omega)
    rw [hk, hagrees] at h
    -- the first octet stays at 254, and its first address comes again
    have hlast : 254 < t + m := by
      by_contra hle
      revert h
      dsimp only
      unfold nextAddr
      dsimp only
      split_ifs <;> dsimp only <;> intro h <;> omega
    obtain ⟨j, hj⟩ : ∃ j, j = (254 - t) * (255 * 255 * 254) := ⟨_, rfl⟩
    refine ⟨j, by omega, ?_⟩
    rw [hk]
    dsimp only
    unfold nextAddr
    dsimp only
    split_ifs <;> simp only [Octets.mk.injEq] <;> omega

/-! ## Every prefix -/

theorem hostBits_le (p i : ℕ) : hostBits p i ≤ 8 := by
  unfold hostBits
  omega

theorem networkOctet_bounds {p i x : ℕ} (hx : x ≤ 255) :
    networkOctet p i x % 2 ^ hostBits p i = 0 ∧
      networkOctet p i x + 2 ^ hostBits p i ≤ 256 ∧ 0 < 2 ^ hostBits p i := by
  have hle := hostBits_le p i
  unfold networkOctet
  generalize hostBits p i = h at hle
  interval_cases h <;> norm_num <;> omega

/-- An octet without its host bits determines the block of the octets that agree with it. -/
theorem div_eq_iff {h t : ℕ} (ht : t % 2 ^ h = 0) (x : Int) :
    x / 2 ^ h = (t : Int) / 2 ^ h ↔ t ≤ x ∧ x < t + (2 ^ h : ℕ) := by
  have hpos : (0 : Int) < (2 ^ h : ℕ) := by positivity
  obtain ⟨q, hq⟩ := Nat.dvd_of_mod_eq_zero ht
  have hcast : (2 : Int) ^ h = (2 ^ h : ℕ) := by push_cast; rfl
  have ht' : (t : Int) = q * (2 ^ h : ℕ) := by
    rw [hq, Nat.mul_comm]
    push_cast
    rfl
  rw [hcast, ht', Int.mul_ediv_cancel _ (ne_of_gt hpos), Int.ediv_eq_iff_of_pos hpos]

theorem agrees_iff {p a b c d : ℕ} (ha : a ≤ 255) (hb : b ≤ 255) (hc : c ≤ 255) (hd : d ≤ 255)
    (x : Octets) :
    Agrees p ⟨networkOctet p 0 a, networkOctet p 1 b, networkOctet p 2 c, networkOctet p 3 d⟩ x ↔
      (networkOctet p 0 a ≤ x.a ∧ x.a < networkOctet p 0 a + (2 ^ hostBits p 0 : ℕ)) ∧
      (networkOctet p 1 b ≤ x.b ∧ x.b < networkOctet p 1 b + (2 ^ hostBits p 1 : ℕ)) ∧
      (networkOctet p 2 c ≤ x.c ∧ x.c < networkOctet p 2 c + (2 ^ hostBits p 2 : ℕ)) ∧
      networkOctet p 3 d ≤ x.d ∧ x.d < networkOctet p 3 d + (2 ^ hostBits p 3 : ℕ) := by
  unfold Agrees
  rw [div_eq_iff (networkOctet_bounds ha).1, div_eq_iff (networkOctet_bounds hb).1,
    div_eq_iff (networkOctet_bounds hc).1, div_eq_iff (networkOctet_bounds hd).1]

/-- An octet of the prefix is kept. -/
theorem networkOctet_fixed {p i : ℕ} (h : hostBits p i = 0) (x : ℕ) : networkOctet p i x = x := by
  rw [networkOctet, h]
  omega

/-- An octet of the host part is cleared. -/
theorem networkOctet_host {p i x : ℕ} (h : hostBits p i = 8) (hx : x ≤ 255) :
    networkOctet p i x = 0 := by
  rw [networkOctet, h]
  omega

theorem enumerates_hostCount {p a b c d : ℕ} (ha : a ≤ 255) (hb : b ≤ 255) (hc : c ≤ 255)
    (hd : d ≤ 255) : ∃ f, Enumerates p
      ⟨networkOctet p 0 a, networkOctet p 1 b, networkOctet p 2 c, networkOctet p 3 d⟩
      (hostCount p a b c d) f := by
  have hagrees := agrees_iff (p := p) ha hb hc hd
  obtain ⟨-, hsa, hpa⟩ := networkOctet_bounds (p := p) (i := 0) ha
  obtain ⟨-, hsb, hpb⟩ := networkOctet_bounds (p := p) (i := 1) hb
  obtain ⟨-, hsc, hpc⟩ := networkOctet_bounds (p := p) (i := 2) hc
  obtain ⟨-, hsd, hpd⟩ := networkOctet_bounds (p := p) (i := 3) hd
  unfold hostCount octetValues
  by_cases h24 : 24 ≤ p
  · have h0 : hostBits p 0 = 0 := by unfold hostBits; omega
    have h1 : hostBits p 1 = 0 := by unfold hostBits; omega
    have h2 : hostBits p 2 = 0 := by unfold hostBits; omega
    rw [if_pos h24]
    rw [networkOctet_fixed h0, networkOctet_fixed h1, networkOctet_fixed h2] at *
    refine ⟨_, enumerates_d a b c _ _ hpd fun x => ?_⟩
    apply (hagrees x).trans
    rw [h0, h1, h2]
    omega
  rw [if_neg h24]
  by_cases h16 : 16 ≤ p
  · have h0 : hostBits p 0 = 0 := by unfold hostBits; omega
    have h1 : hostBits p 1 = 0 := by unfold hostBits; omega
    have h3 : hostBits p 3 = 8 := by unfold hostBits; omega
    have h2 : 1 < 2 ^ hostBits p 2 := Nat.one_lt_two_pow (by unfold hostBits; omega)
    rw [if_pos h16]
    rw [networkOctet_fixed h0, networkOctet_fixed h1, networkOctet_host h3 hd] at *
    refine ⟨_, enumerates_c a b _ _ (by omega) hpc fun x => ?_⟩
    apply (hagrees x).trans
    rw [h0, h1, h3]
    omega
  rw [if_neg h16]
  by_cases h8 : 8 ≤ p
  · have h0 : hostBits p 0 = 0 := by unfold hostBits; omega
    have h2 : hostBits p 2 = 8 := by unfold hostBits; omega
    have h3 : hostBits p 3 = 8 := by unfold hostBits; omega
    have h1 : 1 < 2 ^ hostBits p 1 := Nat.one_lt_two_pow (by unfold hostBits; omega)
    rw [if_pos h8]
    rw [networkOctet_fixed h0, networkOctet_host h2 hc, networkOctet_host h3 hd] at *
    refine ⟨_, enumerates_b a _ _ (by omega) hpb fun x => ?_⟩
    apply (hagrees x).trans
    rw [h0, h2, h3]
    omega
  · have h1 : hostBits p 1 = 8 := by unfold hostBits; omega
    have h2 : hostBits p 2 = 8 := by unfold hostBits; omega
    have h3 : hostBits p 3 = 8 := by unfold hostBits; omega
    have h0 : 1 < 2 ^ hostBits p 0 := Nat.one_lt_two_pow (by unfold hostBits; omega)
    rw [if_neg h8]
    rw [networkOctet_host h1 hb, networkOctet_host h2 hc, networkOctet_host h3 hd] at *
    refine ⟨_, enumerates_a _ _ (by omega) hpa fun x => ?_⟩
    apply (hagrees x).trans
    rw [h1, h2, h3]
    omega

/-- The generated addresses stay in the network, each coming once, for as many calls as the
network has addresses to give. -/
theorem staysInside_iff {s : String} {a b c d p : ℕ} {gen : CidrCalculator}
    (h : IsCidr s a b c d p) (hgen : CidrCalculator.new s = .ok gen) (n : ℕ) :
    StaysInside p gen n ↔ n ≤ hostCount p a b c d := by
  rw [new_ok h] at hgen
  cases hgen
  obtain ⟨f, hf⟩ := enumerates_hostCount h.a_le h.b_le h.c_le h.d_le (p := p)
  exact hf.inside_iff n

/-! ## A small network -/

/-- The generator of `192.168.1.0/30`. -/
def smallNetwork : CidrCalculator :=
  { cidrNotation := "192.168.1.0/30", netMask := [255, 255, 255, 252]
    networkAddr := ⟨192, 168, 1, 0⟩ }

theorem isCidr_smallNetwork : IsCidr "192.168.1.0/30" 192 168 1 0 30 := by
  refine ⟨by decide, by decide, by decide, by decide, by decide,
    (toString 192).toList, (toString 168).toList, (toString 1).toList, (toString 0).toList,
    (toString 30).toList, by decide, ?_⟩
  exact ⟨CppString.isNumber_toString 192, CppString.isNumber_toString 168,
    CppString.isNumber_toString 1, CppString.isNumber_toString 0, CppString.isNumber_toString 30⟩

theorem new_smallNetwork : CidrCalculator.new "192.168.1.0/30" = .ok smallNetwork := by decide

theorem smallNetwork_three : StaysInside 30 smallNetwork 3 :=
  (staysInside_iff isCidr_smallNetwork new_smallNetwork 3).mpr (by decide)

/-- The fourth address of the network is the first one of the next. -/
theorem smallNetwork_leaves : IsCidr "192.168.1.0/30" 192 168 1 0 30 ∧
    CidrCalculator.new "192.168.1.0/30" = .ok smallNetwork ∧
    smallNetwork.calls 4 = ["192.168.1.1", "192.168.1.2", "192.168.1.3", "192.168.1.4"] ∧
    ¬ StaysInside 30 smallNetwork 4 := by
  have hcalls : smallNetwork.calls 4 =
      ["192.168.1.1", "192.168.1.2", "192.168.1.3", "192.168.1.4"] := by decide
  refine ⟨isCidr_smallNetwork, new_smallNetwork, hcalls, ?_⟩
  intro h
  obtain ⟨x, hx, hagrees⟩ := h.inside "192.168.1.4" (by rw [hcalls]; simp)
  have hdotted : "192.168.1.4" = Octets.dotted ⟨192, 168, 1, 4⟩ := by decide
  rw [← dotted_inj (hdotted.symm.trans hx)] at hagrees
  exact absurd hagrees.2.2.2 (by decide)

end IcsTrafficGen.Dnp3

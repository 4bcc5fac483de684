import IcsTrafficGen.Lib.Orbit
import IcsTrafficGen.Dnp3.CidrRuns

/- The addresses as numbers of 32 bits. The constructor clears the low bits of the address,
   and from there the calls go through the hosts in increasing order, without leaving one
   out: one call goes to the least host above the address (`isLeast_nextAddr`). -/
namespace IcsTrafficGen.Dnp3
open CidrCalculator

/-- The number that the four octets are written for. -/
def addressValue (a b c d : ℕ) : ℕ := ((a * 256 + b) * 256 + c) * 256 + d

/-- The octets of a number. -/
def octetsOf (v : ℕ) : Octets :=
  ⟨(v / 256 / 256 / 256 : ℕ), (v / 256 / 256 % 256 : ℕ), (v / 256 % 256 : ℕ), (v % 256 : ℕ)⟩

/-- The addresses that are handed out: 255 occurs in no octet, and the last is not 0. -/
def IsHost (o : Octets) : Prop :=
  (0 ≤ o.a ∧ o.a ≤ 254) ∧ (0 ≤ o.b ∧ o.b ≤ 254) ∧ (0 ≤ o.c ∧ o.c ≤ 254) ∧ 1 ≤ o.d ∧ o.d ≤ 254

/-- A host above the address `net`. -/
def HostAbove (net v : ℕ) : Prop := IsHost (octetsOf v) ∧ net < v

theorem octetsOf_addressValue {a b c d : ℕ} (hb : b < 256) (hc : c < 256) (hd : d < 256) :
    octetsOf (addressValue a b c d) = ⟨a, b, c, d⟩ := by
  simp only [octetsOf, addressValue, Octets.mk.injEq]
  omega

theorem exists_octets (v : ℕ) :
    ∃ a b c d, b < 256 ∧ c < 256 ∧ d < 256 ∧ v = addressValue a b c d := by
  refine ⟨v / 256 / 256 / 256, v / 256 / 256 % 256, v / 256 % 256, v % 256, ?_, ?_, ?_, ?_⟩
  · exact Nat.mod_lt _ (by decide)
  · exact Nat.mod_lt _ (by decide)
  · exact Nat.mod_lt _ (by decide)
  · unfold addressValue
    omega

/-! ## The network -/

/-- Low bits of the last octet. -/
theorem sub_mod_low {h d : ℕ} (x : ℕ) (hh : h ≤ 8) (hd : d < 256) :
    x * 256 + d - (x * 256 + d) % 2 ^ h = x * 256 + (d - d % 2 ^ h) := by
  interval_cases h <;> omega

/-- The whole last octet, and low bits of the number before it. -/
theorem sub_mod_high {d : ℕ} (x m : ℕ) (hd : d < 256) :
    x * 256 + d - (x * 256 + d) % 2 ^ (8 + m) = (x - x % 2 ^ m) * 256 + 0 := by
  have hmod : (x * 256 + d) % 2 ^ (8 + m) = d + 256 * (x % 2 ^ m) := by
    rw [Nat.pow_add, Nat.mod_mul]
    congr 2
    · omega
    · congr 1
      omega
  have hle := Nat.mod_le x (2 ^ m)
  omega

/-- Clearing low bits of the number clears host bits of its octets. -/
theorem addressValue_sub_mod {a b c d p : ℕ} (hb : b ≤ 255) (hc : c ≤ 255) (hd : d ≤ 255)
    (hp : p ≤ 32) :
    addressValue a b c d - addressValue a b c d % 2 ^ (32 - p) =
      addressValue (networkOctet p 0 a) (networkOctet p 1 b) (networkOctet p 2 c)
        (networkOctet p 3 d) := by
  have hkept {i x : ℕ} (hi : 8 * (i + 1) ≤ p) : networkOctet p i x = x :=
    networkOctet_fixed (by unfold hostBits; omega) x
  have hcleared {i x : ℕ} (hi : p ≤ 8 * i) (hx : x ≤ 255) : networkOctet p i x = 0 :=
    networkOctet_host (by unfold hostBits; omega) hx
  have hpartly {i x : ℕ} (hi : 8 * i ≤ p) : networkOctet p i x = x - x % 2 ^ (8 * (i + 1) - p) := by
    unfold networkOctet hostBits
    congr 3
    omega
  unfold addressValue
  by_cases h24 : 24 ≤ p
  · rw [sub_mod_low _ (by omega) (by omega), hkept (by omega), hkept (by omega), hkept (by omega),
      hpartly (by omega)]
  rw [show 32 - p = 8 + (24 - p) by omega, sub_mod_high _ _ (by omega),
    hcleared (i := 3) (by omega) hd]
  by_cases h16 : 16 ≤ p
  · rw [sub_mod_low _ (by omega) (by omega), hkept (by omega), hkept (by omega), hpartly (by omega)]
  rw [show 24 - p = 8 + (16 - p) by omega, sub_mod_high _ _ (by omega),
    hcleared (i := 2) (by omega) hc]
  by_cases h8 : 8 ≤ p
  · rw [sub_mod_low _ (by omega) (by omega), hkept (by omega), hpartly (by omega)]
  rw [show 16 - p = 8 + (8 - p) by omega, sub_mod_high _ _ (by omega),
    hcleared (i := 1) (by omega) hb, hpartly (by omega)]

/-! ## One call -/

theorem isHost_octetsOf {a b c d : ℕ} (hb : b < 256) (hc : c < 256) (hd : d < 256) :
    IsHost (octetsOf (addressValue a b c d)) ↔
      a ≤ 254 ∧ b ≤ 254 ∧ c ≤ 254 ∧ 1 ≤ d ∧ d ≤ 254 := by
  rw [octetsOf_addressValue hb hc hd]
  simp only [IsHost]
  omega

/-- The least host above an address, from the order of the octets. -/
theorem isLeast_hostAbove {v a b c d : ℕ} (hv : ∃ u, HostAbove v u) (hb : b ≤ 254) (hc : c ≤ 254)
    (hd : 1 ≤ d ∧ d ≤ 254) (hlt : v < addressValue a b c d)
    (hbetween : ∀ a₁ b₁ c₁ d₁, a₁ ≤ 254 → b₁ ≤ 254 → c₁ ≤ 254 → 1 ≤ d₁ → d₁ ≤ 254 →
      v < addressValue a₁ b₁ c₁ d₁ →
        a ≤ 254 ∧ addressValue a b c d ≤ addressValue a₁ b₁ c₁ d₁) :
    IsLeast {u | HostAbove v u} (addressValue a b c d) := by
  have hlower : ∀ u, HostAbove v u → a ≤ 254 ∧ addressValue a b c d ≤ u := by
    rintro u ⟨hhost, habove⟩
    obtain ⟨a₁, b₁, c₁, d₁, hb₁, hc₁, hd₁, rfl⟩ := exists_octets u
    obtain ⟨ha₂, hb₂, hc₂, hd₂, hd₃⟩ := (isHost_octetsOf hb₁ hc₁ hd₁).mp hhost
    exact hbetween a₁ b₁ c₁ d₁ ha₂ hb₂ hc₂ hd₂ hd₃ habove
  obtain ⟨u, hu⟩ := hv
  refine ⟨⟨?_, hlt⟩, fun u hu => (hlower u hu).2⟩
  rw [isHost_octetsOf (by omega) (by omega) (by omega)]
  exact ⟨(hlower u hu).1, hb, hc, hd⟩

/-- Each call goes to the least host above the address, as long as there is one. -/
theorem isLeast_nextAddr {v : ℕ} (hv : ∃ u, HostAbove v u) (hb : (octetsOf v).b ≤ 254)
    (hc : (octetsOf v).c ≤ 254) : ∃ w, nextAddr (octetsOf v) = octetsOf w ∧
      IsLeast {u | HostAbove v u} w := by
  obtain ⟨a, b, c, d, hb', hc', hd', rfl⟩ := exists_octets v
  rw [octetsOf_addressValue hb' hc' hd'] at hb hc ⊢
  dsimp only at hb hc
  unfold nextAddr
  -- one case for each octet that takes the carry
  split_ifs with hd₁ hc₁ hb₁ ha₁
  · dsimp only at hd₁
    refine ⟨addressValue a b c (d + 1), ?_, ?_⟩
    · rw [octetsOf_addressValue hb' hc' (by omega), Nat.cast_add_one]
    · refine isLeast_hostAbove hv (by omega) (by omega) (by omega) ?_ ?_ <;>
        simp only [addressValue] <;> omega
  · dsimp only at hd₁ hc₁
    refine ⟨addressValue a b (c + 1) 1, ?_, ?_⟩
    · rw [octetsOf_addressValue hb' (by omega) (by decide), Nat.cast_add_one, Nat.cast_one]
    · refine isLeast_hostAbove hv (by omega) (by omega) (by omega) ?_ ?_ <;>
        simp only [addressValue] <;> omega
  · dsimp only at hd₁ hc₁ hb₁
    refine ⟨addressValue a (b + 1) 0 1, ?_, ?_⟩
    · rw [octetsOf_addressValue (by omega) (by decide) (by decide), Nat.cast_add_one, Nat.cast_one]
      rfl
    · refine isLeast_hostAbove hv (by omega) (by omega) (by omega) ?_ ?_ <;>
        simp only [addressValue] <;> omega
  · dsimp only at hd₁ hc₁ hb₁ ha₁
    refine ⟨addressValue (a + 1) 0 0 1, ?_, ?_⟩
    · rw [octetsOf_addressValue (by decide) (by decide) (by decide), Nat.cast_add_one, Nat.cast_one]
      rfl
    · refine isLeast_hostAbove hv (by omega) (by omega) (by omega) ?_ ?_ <;>
        simp only [addressValue] <;> omega
  · -- behind the last host of all
    dsimp only at hd₁ hc₁ hb₁ ha₁
    obtain ⟨u, hhost, habove⟩ := hv
    obtain ⟨a₁, b₁, c₁, d₁, hb₂, hc₂, hd₂, rfl⟩ := exists_octets u
    have hle := (isHost_octetsOf hb₂ hc₂ hd₂).mp hhost
    simp only [addressValue] at habove
    omega

/-! ## All calls -/

/-- The octets of the address behind a call, the second and the third at most 254. -/
structure Carried (o : Octets) : Prop where
  a_nonneg : 0 ≤ o.a
  b_le : 0 ≤ o.b ∧ o.b ≤ 254
  c_le : 0 ≤ o.c ∧ o.c ≤ 254
  d_le : 0 ≤ o.d ∧ o.d ≤ 255

theorem Carried.nextAddr {o : Octets} (h : Carried o) : Carried (nextAddr o) := by
  obtain ⟨ha, hb, hc, hd⟩ := h
  unfold CidrCalculator.nextAddr
  split_ifs <;> constructor <;> dsimp only <;> omega

theorem Carried.iterate {o : Octets} (h : Carried o) (k : ℕ) : Carried (CidrCalculator.nextAddr^[k] o) := by
  induction k with
  | zero => exact h
  | succ k ih =>
    rw [Function.iterate_succ_apply']
    exact ih.nextAddr

def Octets.value (o : Octets) : ℕ := addressValue o.a.toNat o.b.toNat o.c.toNat o.d.toNat

theorem Carried.octetsOf_value {o : Octets} (h : Carried o) : octetsOf o.value = o := by
  obtain ⟨ha, hb, hc, hd⟩ := h
  rw [Octets.value, octetsOf_addressValue (by omega) (by omega) (by omega), Int.toNat_of_nonneg ha,
    Int.toNat_of_nonneg hb.1, Int.toNat_of_nonneg hc.1, Int.toNat_of_nonneg hd.1]

theorem value_octetsOf (v : ℕ) : (octetsOf v).value = v := by
  simp only [Octets.value, octetsOf, Int.toNat_natCast, addressValue]
  omega

/-- The first `n` calls return the `n` least hosts above the address, in increasing order. -/
structure ListsHosts (gen : CidrCalculator) (net n : ℕ) : Prop where
  calls : gen.calls n = (List.range n).map fun k => (octetsOf (Nat.nth (HostAbove net) k)).dotted
  host : ∀ k < n, HostAbove net (Nat.nth (HostAbove net) k)
  increasing : ∀ j k, j < k → k < n → Nat.nth (HostAbove net) j < Nat.nth (HostAbove net) k

theorem finite_hostAbove (net : ℕ) : {v | HostAbove net v}.Finite := by
  apply Set.Finite.subset (Set.finite_Iio (2 ^ 32))
  rintro v ⟨hhost, -⟩
  have ha := hhost.1.2
  simp only [octetsOf] at ha
  rw [Set.mem_Iio]
  omega

theorem listsHosts_of_le {gen : CidrCalculator} {net n : ℕ} (hnet : gen.networkAddr = octetsOf net)
    (hb : gen.networkAddr.b ≤ 254) (hc : gen.networkAddr.c ≤ 254)
    (hn : n ≤ {v | HostAbove net v}.ncard) : ListsHosts gen net n := by
  have hcarried : Carried gen.networkAddr := by
    rw [hnet] at hb hc ⊢
    simp only [octetsOf] at hb hc
    constructor <;> simp only [octetsOf] <;> omega
  have hfirst : (nextAddr^[0] gen.networkAddr).value = net := by
    rw [Function.iterate_zero_apply, hnet, value_octetsOf]
  have hnth (k : ℕ) (hk : k < n) :
      Nat.nth (HostAbove net) k = (nextAddr^[k + 1] gen.networkAddr).value := by
    have hlist := nth_eq_of_isLeast (p := fun v => IsHost (octetsOf v))
      (x := fun k => (nextAddr^[k] gen.networkAddr).value) (n := k) ?_ ?_
    · simp only [hfirst] at hlist
      exact hlist
    · intro k hv
      have hk := hcarried.iterate k
      have hoctets := hk.octetsOf_value
      obtain ⟨w, hw, hleast⟩ := isLeast_nextAddr hv (by rw [hoctets]; exact hk.b_le.2)
        (by rw [hoctets]; exact hk.c_le.2)
      rw [hoctets] at hw
      rw [Function.iterate_succ_apply', hw, value_octetsOf]
      exact hleast
    · simp only [hfirst]
      exact hk.trans_le hn
  have hcard (k : ℕ) (hk : k < n) (hf : (Set.ofPred (HostAbove net)).Finite) :
      k < hf.toFinset.card := by
    rw [← Set.ncard_eq_toFinset_card _ hf]
    exact hk.trans_le hn
  refine ⟨?_, fun k hk => Nat.nth_mem k (hcard k hk), fun j k hjk hk => ?_⟩
  · rw [calls_eq]
    apply List.map_congr_left
    intro k hk
    rw [hnth k (List.mem_range.mp hk), (hcarried.iterate (k + 1)).octetsOf_value]
  · exact Nat.nth_lt_nth' hjk (hcard k hk)

/-- The constructor clears the host bits of the address, and the calls return the hosts above it
in order. -/
theorem cidr_enumeration {s : String} {a b c d p : ℕ} (h : IsCidr s a b c d p) :
    ∃ gen net, CidrCalculator.new s = .ok gen ∧
      net = addressValue a b c d - addressValue a b c d % 2 ^ (32 - p) ∧
      gen.networkAddr = octetsOf net ∧
      (gen.networkAddr.a ≤ 254 → gen.networkAddr.b ≤ 254 → gen.networkAddr.c ≤ 254 →
        ∀ n, 1 ≤ n → n ≤ {v | HostAbove net v}.ncard → ListsHosts gen net n) := by
  refine ⟨_, _, new_ok h, rfl, ?_, fun _ hb hc n _ hn => listsHosts_of_le ?_ hb hc hn⟩
  all_goals
    rw [addressValue_sub_mod h.b_le h.c_le h.d_le h.p_le, octetsOf_addressValue
      (networkOctet_lt h.b_le) (networkOctet_lt h.c_le) (networkOctet_lt h.d_le)]

/-- The three hosts of the block `192.168.1.0/30`. -/
theorem cidr_enumeration_small : ∃ gen net, CidrCalculator.new "192.168.1.0/30" = .ok gen ∧
    net = addressValue 192 168 1 0 ∧ ListsHosts gen net 3 := by
  obtain ⟨gen, net, hnew, rfl, hnet, horder⟩ := cidr_enumeration isCidr_smallNetwork
  have hoctets := octetsOf_addressValue (a := 192) (b := 168) (c := 1) (d := 0) (by decide)
    (by decide) (by decide)
  have hvalue : addressValue 192 168 1 0 - addressValue 192 168 1 0 % 2 ^ (32 - 30) =
    addressValue 192 168 1 0 := by decide
  rw [hvalue] at hnet horder
  refine ⟨gen, _, hnew, hvalue, horder ?_ ?_ ?_ 3 (by decide) ?_⟩
  · rw [hnet, hoctets]
    decide
  · rw [hnet, hoctets]
    decide
  · rw [hnet, hoctets]
    decide
  · have hsub : (↑({addressValue 192 168 1 1, addressValue 192 168 1 2, addressValue 192 168 1 3} :
        Finset ℕ) : Set ℕ) ⊆ {v | HostAbove (addressValue 192 168 1 0) v} := by
      intro v hv
      simp only [Finset.coe_insert, Finset.coe_singleton, Set.mem_insert_iff,
        Set.mem_singleton_iff] at hv
      rcases hv with rfl | rfl | rfl
      all_goals
        refine ⟨?_, by decide⟩
        rw [isHost_octetsOf (by decide) (by decide) (by decide)]
        decide
    have hle := Set.ncard_le_ncard hsub (finite_hostAbove _)
    rwa [Set.ncard_coe_finset] at hle

end IcsTrafficGen.Dnp3

import IcsTrafficGen.Lib.Number
import IcsTrafficGen.Lib.Periodic
import Mathlib.Data.List.MinMax

/- `master_station.run`: the thread of a master sleeps until the next data type is due,
   reads the due types from all outstations and updates the times that are left. As long
   as no subtraction is rounded, the times left are `TimeToNext` multiples of the
   frequencies (`OnTime`), so the sums of the times slept are the multiples of the
   frequencies, and a type is read when its frequency divides the sum (`polling_schedule`).
   Frequencies of 0.1 and 0.4 seconds are rounded, and the thread misses the type that
   is due (`polling_schedule_fails`). -/
namespace IcsTrafficGen.Modbus

/-! ## The thread -/

def startAddress : ℕ := 0x00

inductive ReadCall where
  | readCoils
  | readDiscreteInputs
  | readHoldingRegisters
  | readInputRegisters
  deriving DecidableEq, Repr

structure Read where
  call : ReadCall
  address : ℕ
  dataCount : Json
  unit : Scalar

/-- The answer to a read after the reads before it, or the exception that it raises. -/
abbrev Client := List Read → Read → Except String String

def readCall : Scalar → Option ReadCall
  | .str "Coils" => some .readCoils
  | .str "Discretes Input" => some .readDiscreteInputs
  | .str "Holding Registers" => some .readHoldingRegisters
  | .str "Input Registers" => some .readInputRegisters
  | _ => none

/-- `try: output = master.read_…(…) except Exception`. -/
def tryRead (client : Client) (issued : List Read) (r : Read) : List Read :=
  match client issued r with
  | .ok _ => issued ++ [r]
  | .error _ => issued ++ [r]   -- logged

def pollFunction (client : Client) (unitid : Scalar) (dataCount : Json) (issued : List Read)
    (fn : Scalar) : List Read :=
  match readCall fn with
  | some call =>
    tryRead client issued
      { call := call, address := startAddress, dataCount := dataCount, unit := unitid }
  | none => issued

def pollOutstations (client : Client) (outstationInfo : Dict Scalar Json) (pollfuncs : List Scalar)
    (outstationUnitids : List Scalar) (issued : List Read) : Py (List Read) :=
  outstationUnitids.foldlM (fun issued unitid => do
    let dataCount ← outstationInfo.getItem unitid
    pure (pollfuncs.foldl (pollFunction client unitid dataCount) issued)) issued

def pollfuncs (sleepDict : Dict Scalar Number) (sleepTime : Number) : List Scalar :=
  (sleepDict.entries.filter (fun e => e.2.value = sleepTime.value)).map Prod.fst

/-- `v - sleep_time if v-sleep_time > 0 else self.node.poll_dict[k]`. -/
def nextSleep (pollDict : Dict Scalar Number) (sleepTime : Number) (e : Scalar × Number) :
    Py Number := do
  let d ← e.2.sub sleepTime
  if 0 < d.value then pure d else pollDict.getItem e.1

def updateSleepDict (pollDict : Dict Scalar Number) (sleepTime : Number)
    (sleepDict : Dict Scalar Number) : Py (Dict Scalar Number) :=
  sleepDict.entries.foldlM (fun d e => do
    let v ← nextSleep pollDict sleepTime e
    pure (d.set e.1 v)) sleepDict

/-- The times left, the sum of the times slept since the start, which nothing rounds, and
the reads issued. -/
structure Polling where
  sleepDict : Dict Scalar Number
  clock : ℚ
  reads : List Read

/-- One pass of the loop. -/
def pass (client : Client) (pollDict : Dict Scalar Number) (outstationInfo : Dict Scalar Json)
    (s : Polling) : Py Polling :=
  match s.sleepDict.values.argmin Number.value with
  -- nothing to poll: the thread looks again after a second
  | none => .ok { s with clock := s.clock + 1 }
  | some sleepTime => do
    sleepTime.sleep
    let reads ← pollOutstations client outstationInfo (pollfuncs s.sleepDict sleepTime)
      outstationInfo.keys s.reads
    let sleepDict ← updateSleepDict pollDict sleepTime s.sleepDict
    pure { sleepDict := sleepDict, clock := s.clock + sleepTime.value, reads := reads }

/-- The thread after `n` passes, before each of which it was not stopped. -/
def runPasses (client : Client) (pollDict : Dict Scalar Number)
    (outstationInfo : Dict Scalar Json) : ℕ → Py Polling
  | 0 => .ok { sleepDict := pollDict, clock := 0, reads := [] }
  | n + 1 => do
    let s ← runPasses client pollDict outstationInfo n
    pass client pollDict outstationInfo s

/-! ## The reads of one wake-up -/

def unitReads (pollfuncs : List Scalar) (e : Scalar × Json) : List Read :=
  (pollfuncs.filterMap readCall).map fun call =>
    { call := call, address := startAddress, dataCount := e.2, unit := e.1 }

theorem tryRead_eq (client : Client) (issued : List Read) (r : Read) :
    tryRead client issued r = issued ++ [r] := by
  unfold tryRead
  split <;> rfl

theorem foldl_pollFunction (client : Client) (e : Scalar × Json) (fns : List Scalar)
    (issued : List Read) :
    fns.foldl (pollFunction client e.1 e.2) issued = issued ++ unitReads fns e := by
  induction fns generalizing issued with
  | nil => simp [unitReads]
  | cons fn fns ih =>
    rw [List.foldl_cons, ih, pollFunction, unitReads, unitReads, List.filterMap_cons]
    cases readCall fn with
    | none => rfl
    | some call => simp only [tryRead_eq, List.append_assoc, List.map_cons, List.singleton_append]

theorem pollOutstations_ok (client : Client) (info : Dict Scalar Json) (fns : List Scalar)
    (issued : List Read) :
    pollOutstations client info fns info.keys issued =
      .ok (issued ++ info.entries.flatMap (unitReads fns)) := by
  have hloop : ∀ es : List (Scalar × Json), (∀ e ∈ es, e ∈ info.entries) → ∀ issued,
      pollOutstations client info fns (es.map Prod.fst) issued =
        .ok (issued ++ es.flatMap (unitReads fns)) := by
    intro es
    induction es with
    | nil =>
      intro _ issued
      simp [pollOutstations, pure, Except.pure]
    | cons e es ih =>
      intro hes issued
      have hcount : info.getItem e.1 = .ok e.2 :=
        Dict.getItem_ok.mpr (Dict.get?_eq_some.mpr (hes e List.mem_cons_self))
      have hrest := ih (fun x hx => hes x (List.mem_cons_of_mem e hx)) (issued ++ unitReads fns e)
      rw [pollOutstations, List.map_cons, List.foldlM_cons, hcount]
      rw [List.flatMap_cons, ← List.append_assoc, ← foldl_pollFunction client e fns issued]
      rw [← foldl_pollFunction client e fns issued] at hrest
      exact hrest
  exact hloop info.entries (fun _ h => h) issued

theorem readCall_inj {k k' : Scalar} {call : ReadCall} (h : readCall k = some call)
    (h' : readCall k' = some call) : k = k' := by
  unfold readCall at h h'
  split at h <;> cases h <;> split at h' <;> cases h' <;> rfl

theorem mem_unitReads {fns : List Scalar} {e : Scalar × Json} {r : Read} :
    r ∈ unitReads fns e ↔ r.address = startAddress ∧ (r.unit, r.dataCount) = e ∧
      ∃ k ∈ fns, readCall k = some r.call := by
  unfold unitReads
  rw [List.mem_map]
  constructor
  · intro h
    obtain ⟨call, hcall, rfl⟩ := h
    exact ⟨rfl, rfl, List.mem_filterMap.mp hcall⟩
  · intro h
    obtain ⟨haddr, rfl, hcall⟩ := h
    exact ⟨r.call, List.mem_filterMap.mpr hcall, by rw [← haddr]⟩

theorem nodup_reads (info : Dict Scalar Json) {fns : List Scalar} (hfns : fns.Nodup) :
    ((info.entries.flatMap (unitReads fns)).map fun r => (r.unit, r.call)).Nodup := by
  have hcalls : (fns.filterMap readCall).Nodup :=
    hfns.filterMap fun k k' call h h' => readCall_inj h h'
  have hpairs : (info.entries.flatMap (unitReads fns)).map (fun r => (r.unit, r.call)) =
      info.keys ×ˢ fns.filterMap readCall := by
    show _ = (info.entries.map Prod.fst).flatMap fun u => (fns.filterMap readCall).map (Prod.mk u)
    rw [List.map_flatMap, List.flatMap_map]
    simp only [unitReads, List.map_map, Function.comp_def]
  rw [hpairs]
  exact info.nodup_keys.product hcalls

/-! ## One pass -/

/-- What a pass does: nothing to poll, or the sleep, the reads and the update. -/
theorem pass_iff {client : Client} {pollDict : Dict Scalar Number} {info : Dict Scalar Json}
    {s s' : Polling} :
    pass client pollDict info s = .ok s' ↔
      s.sleepDict.values = [] ∧ s' = { s with clock := s.clock + 1 } ∨
      ∃ sleepTime sleepDict, s.sleepDict.values.argmin Number.value = some sleepTime ∧
        sleepTime.sleep = .ok () ∧ updateSleepDict pollDict sleepTime s.sleepDict = .ok sleepDict ∧
        s' = { sleepDict := sleepDict, clock := s.clock + sleepTime.value, reads :=
          s.reads ++ info.entries.flatMap (unitReads (pollfuncs s.sleepDict sleepTime)) } := by
  unfold pass
  cases hmin : s.sleepDict.values.argmin Number.value with
  | none =>
    rw [List.argmin_eq_none] at hmin
    simp [hmin, eq_comm]
  | some sleepTime =>
    have hne : s.sleepDict.values ≠ [] := fun hnil => by simp [hnil] at hmin
    simp only [pollOutstations_ok, Fallible.bind_ok, Fallible.pure_ok, Except.ok.injEq]
    constructor
    · intro h
      obtain ⟨_, hsleep, _, rfl, sleepDict, hupdate, rfl⟩ := h
      exact Or.inr ⟨sleepTime, sleepDict, rfl, hsleep, hupdate, rfl⟩
    · intro h
      obtain ⟨hnil, -⟩ | ⟨_, sleepDict, hmin', hsleep, hupdate, rfl⟩ := h
      · exact absurd hnil hne
      · cases hmin'
        exact ⟨(), hsleep, _, rfl, sleepDict, hupdate, rfl⟩

theorem nextSleep_ok {pollDict : Dict Scalar Number} {sleepTime d v p : Number} {k : Scalar}
    (hsub : v.sub sleepTime = .ok d) (hp : pollDict.get? k = some p) :
    nextSleep pollDict sleepTime (k, v) = .ok (if 0 < d.value then d else p) := by
  unfold nextSleep
  rw [hsub]
  show (if 0 < d.value then pure d else pollDict.getItem k) = _
  split
  · rfl
  · exact Dict.getItem_ok.mpr hp

/-- An update that does not raise gives every key the next value. -/
theorem updateSleepDict_ok {pollDict sleepDict : Dict Scalar Number} {sleepTime : Number}
    (h : ∀ k v, sleepDict.get? k = some v → ∃ w, nextSleep pollDict sleepTime (k, v) = .ok w) :
    ∃ sleepDict', updateSleepDict pollDict sleepTime sleepDict = .ok sleepDict' ∧
      sleepDict'.keys = sleepDict.keys ∧
      ∀ k w, sleepDict'.get? k = some w →
        ∃ v, sleepDict.get? k = some v ∧ nextSleep pollDict sleepTime (k, v) = .ok w := by
  choose! next hnext using h
  refine ⟨sleepDict.update (sleepDict.entries.map fun e => (e.1, next e.1 e.2)), ?_, ?_, ?_⟩
  · rw [Dict.update, List.foldl_map]
    refine Fallible.foldlM_eq_foldl (fun e he d => ?_) sleepDict
    rw [hnext e.1 e.2 (Dict.get?_eq_some.mpr he)]
    rfl
  · apply Dict.keys_update_of_subset
    intro x hx
    obtain ⟨e, he, rfl⟩ := List.mem_map.mp hx
    exact Dict.mem_keys.mpr ⟨e.2, Dict.get?_eq_some.mpr he⟩
  · intro k w hw
    rw [Dict.get?_update_entries, Option.map_eq_some_iff] at hw
    obtain ⟨v, hv, rfl⟩ := hw
    exact ⟨v, hv, hnext k v hv⟩

/-! ## The times left -/

/-- What is left of every period at time `t`. -/
structure OnTime (pollDict sleepDict : Dict Scalar Number) (t : ℚ) : Prop where
  keys : sleepDict.keys = pollDict.keys
  left : ∀ k p v, pollDict.get? k = some p → sleepDict.get? k = some v →
    Periodic.TimeToNext p.value t v.value

section
variable {pollDict sleepDict : Dict Scalar Number} {t : ℚ} {k : Scalar} {p v s : Number}

theorem OnTime.start (hpos : ∀ k p, pollDict.get? k = some p → 0 < p.value) :
    OnTime pollDict pollDict 0 where
  keys := rfl
  left k p v hp hv := by
    cases hp.symm.trans hv
    exact Periodic.TimeToNext.start (hpos k p hp)

theorem OnTime.frequency (h : OnTime pollDict sleepDict t) (hv : sleepDict.get? k = some v) :
    ∃ p, pollDict.get? k = some p ∧ Periodic.TimeToNext p.value t v.value := by
  obtain ⟨p, hp⟩ := Dict.mem_keys.mp (h.keys ▸ Dict.mem_keys.mpr ⟨v, hv⟩)
  exact ⟨p, hp, h.left k p v hp hv⟩

theorem OnTime.remaining (h : OnTime pollDict sleepDict t) (hp : pollDict.get? k = some p) :
    ∃ v, sleepDict.get? k = some v ∧ Periodic.TimeToNext p.value t v.value := by
  obtain ⟨v, hv⟩ := Dict.mem_keys.mp (h.keys.symm ▸ Dict.mem_keys.mpr ⟨p, hp⟩)
  exact ⟨v, hv, h.left k p v hp hv⟩

/-- The update after a sleep of no more than was left of any period, if it does not round. -/
theorem OnTime.advance (h : OnTime pollDict sleepDict t) (hs : 0 < s.value)
    (hmin : ∀ v ∈ sleepDict.values, s.value ≤ v.value)
    (hexact : ∀ v ∈ sleepDict.values, v.ExactMinus s) :
    ∃ sleepDict', updateSleepDict pollDict s sleepDict = .ok sleepDict' ∧
      OnTime pollDict sleepDict' (t + s.value) := by
  have hnext : ∀ k v, sleepDict.get? k = some v → ∃ p d, pollDict.get? k = some p ∧
      d.value = v.value - s.value ∧
      nextSleep pollDict s (k, v) = .ok (if 0 < d.value then d else p) := by
    intro k v hv
    -- the key has a frequency, so `poll_dict[k]` does not raise
    obtain ⟨p, hp, -⟩ := h.frequency hv
    obtain ⟨d, hsub, hd⟩ := hexact v (Dict.mem_values_of_get? hv)
    exact ⟨p, d, hp, hd, nextSleep_ok hsub hp⟩
  obtain ⟨sleepDict', hupdate, hkeys, hvalues⟩ :=
    updateSleepDict_ok fun k v hv =>
      let ⟨_, _, _, _, hok⟩ := hnext k v hv
      ⟨_, hok⟩
  refine ⟨sleepDict', hupdate, hkeys.trans h.keys, fun k p w hp hw => ?_⟩
  obtain ⟨v, hv, hok⟩ := hvalues k w hw
  obtain ⟨p', d, hp', hd, hok'⟩ := hnext k v hv
  cases hp.symm.trans hp'
  cases hok.symm.trans hok'
  have := (h.left k p v hp hv).advance hs (hmin v (Dict.mem_values_of_get? hv))
  rw [← hd] at this
  rwa [apply_ite Number.value]

end

/-! ## A wake-up -/

/-- The types due at time `t`: their frequencies divide it. -/
def due (pollDict : Dict Scalar Number) (t : ℚ) : Set Scalar :=
  {k | ∃ p, pollDict.get? k = some p ∧ ∃ m : ℕ, t = m * p.value}

/-- Each unit is read once, with its data count, for each type that is due. -/
structure ReadsDue (pollDict : Dict Scalar Number) (outstationInfo : Dict Scalar Json) (t : ℚ)
    (reads : List Read) : Prop where
  once : (reads.map fun r => (r.unit, r.call)).Nodup
  mem_iff : ∀ r, r ∈ reads ↔ r.address = startAddress ∧
    outstationInfo.get? r.unit = some r.dataCount ∧
    ∃ k ∈ due pollDict t, readCall k = some r.call

/-- What one wake-up does: from the state `s` before the sleep to the state `s'` after the reads. -/
structure WakesUp (pollDict : Dict Scalar Number) (outstationInfo : Dict Scalar Json)
    (s s' : Polling) (sleepTime : Number) : Prop where
  least : s.sleepDict.values.argmin Number.value = some sleepTime
  clock : s'.clock = s.clock + sleepTime.value
  pollfuncs_nodup : (pollfuncs s.sleepDict sleepTime).Nodup
  pollfuncs_due : ∀ k, k ∈ pollfuncs s.sleepDict sleepTime ↔ k ∈ due pollDict s'.clock
  reads : ∃ reads, s'.reads = s.reads ++ reads ∧ ReadsDue pollDict outstationInfo s'.clock reads

theorem mem_pollfuncs {sleepDict : Dict Scalar Number} {s : Number} {k : Scalar} :
    k ∈ pollfuncs sleepDict s ↔ ∃ v, sleepDict.get? k = some v ∧ v.value = s.value := by
  unfold pollfuncs
  simp [Dict.get?_eq_some]

theorem pollfuncs_nodup (sleepDict : Dict Scalar Number) (s : Number) :
    (pollfuncs sleepDict s).Nodup :=
  sleepDict.nodup.sublist (List.filter_sublist.map Prod.fst)

theorem zmultiples_iff {p t : ℚ} (hp : 0 < p) (ht : 0 ≤ t) :
    t ∈ AddSubgroup.zmultiples p ↔ ∃ m : ℕ, t = m * p := by
  rw [AddSubgroup.mem_zmultiples_iff]
  constructor
  · intro h
    obtain ⟨z, rfl⟩ := h
    rw [zsmul_eq_mul] at ht
    have hz : 0 ≤ z := by
      have := nonneg_of_mul_nonneg_left ht hp
      exact_mod_cast this
    refine ⟨z.toNat, ?_⟩
    rw [zsmul_eq_mul, ← Int.cast_natCast, Int.toNat_of_nonneg hz]
  · intro h
    obtain ⟨m, rfl⟩ := h
    exact ⟨m, by simp⟩

theorem OnTime.mem_due {pollDict sleepDict : Dict Scalar Number} {t : ℚ} {s : Number}
    (h : OnTime pollDict sleepDict t) (ht : 0 ≤ t) (hs : 0 < s.value)
    (hmin : ∀ v ∈ sleepDict.values, s.value ≤ v.value) (k : Scalar) :
    k ∈ pollfuncs sleepDict s ↔ k ∈ due pollDict (t + s.value) := by
  have hts : 0 ≤ t + s.value := by linarith
  rw [mem_pollfuncs]
  constructor
  · intro hk
    obtain ⟨v, hv, heq⟩ := hk
    obtain ⟨p, hp, hleft⟩ := h.frequency hv
    exact ⟨p, hp, (zmultiples_iff hleft.period_pos hts).mp (heq ▸ hleft.2.2)⟩
  · intro hx
    obtain ⟨p, hp, hm⟩ := hx
    obtain ⟨v, hv, hleft⟩ := h.remaining hp
    have hle := hmin v (Dict.mem_values_of_get? hv)
    have := (hleft.multiple_iff hs hle).mp ((zmultiples_iff hleft.period_pos hts).mpr hm)
    exact ⟨v, hv, this⟩

theorem readsDue {pollDict : Dict Scalar Number} {info : Dict Scalar Json} {fns : List Scalar}
    {t : ℚ} (hnodup : fns.Nodup) (hdue : ∀ k, k ∈ fns ↔ k ∈ due pollDict t) :
    ReadsDue pollDict info t (info.entries.flatMap (unitReads fns)) where
  once := nodup_reads info hnodup
  mem_iff r := by
    rw [List.mem_flatMap]
    simp only [mem_unitReads, hdue, Dict.get?_eq_some]
    constructor
    · intro h
      obtain ⟨e, he, haddr, rfl, hcall⟩ := h
      exact ⟨haddr, he, hcall⟩
    · intro h
      obtain ⟨haddr, he, hcall⟩ := h
      exact ⟨_, he, haddr, rfl, hcall⟩

/-- The subtractions of a pass from the state are not rounded. -/
def Polling.Exact (s : Polling) : Prop :=
  ∀ sleepTime ∈ s.sleepDict.values.argmin Number.value, ∀ v ∈ s.sleepDict.values,
    v.ExactMinus sleepTime

/-- A pass of a master that can sleep and does not round sleeps, polls and keeps the times left. -/
theorem pass_ok (client : Client) {pollDict : Dict Scalar Number} (info : Dict Scalar Json)
    {s : Polling} (hsleep : ∃ k p, pollDict.get? k = some p ∧ p.sleep = .ok ())
    (h : OnTime pollDict s.sleepDict s.clock) (h0 : 0 ≤ s.clock) (hexact : s.Exact) :
    ∃ s' sleepTime, pass client pollDict info s = .ok s' ∧ 0 < sleepTime.value ∧
      WakesUp pollDict info s s' sleepTime ∧ OnTime pollDict s'.sleepDict s'.clock := by
  obtain ⟨k, p, hp, hsleep⟩ := hsleep
  obtain ⟨v, hv, hleft⟩ := h.remaining hp
  cases hmin : s.sleepDict.values.argmin Number.value with
  | none =>
    rw [List.argmin_eq_none] at hmin
    exact absurd (Dict.mem_values_of_get? hv) (by simp [hmin])
  | some sleepTime =>
    have hle : ∀ v ∈ s.sleepDict.values, sleepTime.value ≤ v.value := fun v hv =>
      List.le_of_mem_argmin hv hmin
    have hpos : 0 < sleepTime.value := by
      obtain ⟨j, hj⟩ := Dict.mem_values.mp (List.argmin_mem hmin)
      obtain ⟨q, -, hleft⟩ := h.frequency hj
      exact hleft.1
    have hsleeps : sleepTime.sleep = .ok () :=
      Number.sleep_of_le hpos.le ((hle v (Dict.mem_values_of_get? hv)).trans hleft.2.1) hsleep
    obtain ⟨sleepDict', hupdate, htime⟩ := h.advance hpos hle (hexact sleepTime hmin)
    have hdue := h.mem_due h0 hpos hle
    have hnodup := pollfuncs_nodup s.sleepDict sleepTime
    let reads := info.entries.flatMap (unitReads (pollfuncs s.sleepDict sleepTime))
    let s' : Polling :=
      { sleepDict := sleepDict', clock := s.clock + sleepTime.value, reads := s.reads ++ reads }
    have hpass : pass client pollDict info s = .ok s' :=
      pass_iff.mpr (Or.inr ⟨sleepTime, sleepDict', hmin, hsleeps, hupdate, rfl⟩)
    have hwakes : WakesUp pollDict info s s' sleepTime :=
      { least := hmin
        clock := rfl
        pollfuncs_nodup := hnodup
        pollfuncs_due := hdue
        reads := ⟨reads, rfl, readsDue hnodup hdue⟩ }
    exact ⟨s', sleepTime, hpass, hpos, hwakes, htime⟩

/-! ## Every run -/

def frequencies (pollDict : Dict Scalar Number) : Set ℚ :=
  {q | ∃ k p, pollDict.get? k = some p ∧ p.value = q}

theorem finite_frequencies (pollDict : Dict Scalar Number) : (frequencies pollDict).Finite := by
  refine (List.finite_toSet (pollDict.values.map Number.value)).subset fun q h => ?_
  obtain ⟨k, p, hp, rfl⟩ := h
  exact List.mem_map_of_mem (Dict.mem_values_of_get? hp)

/-- A wake-up is at a multiple of a frequency, and none lies between two wake-ups. -/
theorem WakesUp.next_multiple {pollDict : Dict Scalar Number} {info : Dict Scalar Json}
    {s s' : Polling} {sleepTime : Number} (h : WakesUp pollDict info s s' sleepTime)
    (htime : OnTime pollDict s.sleepDict s.clock) (h0 : 0 ≤ s.clock) :
    s'.clock ∈ Periodic.multiples (frequencies pollDict) ∧
      ∀ x ∈ Periodic.multiples (frequencies pollDict), s.clock < x → s'.clock ≤ x := by
  rw [h.clock]
  constructor
  · obtain ⟨k, hk⟩ := Dict.mem_values.mp (List.argmin_mem h.least)
    obtain ⟨p, hp, hleft⟩ := htime.frequency hk
    exact ⟨add_pos_of_nonneg_of_pos h0 hleft.1, p.value, ⟨k, p, hp, rfl⟩, hleft.2.2⟩
  · intro x hmultiple hlt
    obtain ⟨-, _, ⟨k, p, hp, rfl⟩, hx⟩ := hmultiple
    obtain ⟨v, hv, hleft⟩ := htime.remaining hp
    have := hleft.le_of_multiple hx hlt
    have := List.le_of_mem_argmin (Dict.mem_values_of_get? hv) h.least
    linarith

theorem mem_multiples_iff {pollDict : Dict Scalar Number}
    (hpos : ∀ k p, pollDict.get? k = some p → 0 < p.value) {t : ℚ} :
    t ∈ Periodic.multiples (frequencies pollDict) ↔
      ∃ k p, ∃ m : ℕ, pollDict.get? k = some p ∧ 0 < m ∧ t = m * p.value := by
  constructor
  · intro h
    obtain ⟨ht, _, ⟨k, p, hp, rfl⟩, hm⟩ := h
    obtain ⟨m, rfl⟩ := (zmultiples_iff (hpos k p hp) ht.le).mp hm
    have hm : 0 < (m : ℚ) := pos_of_mul_pos_left ht (hpos k p hp).le
    exact ⟨k, p, m, hp, by exact_mod_cast hm, rfl⟩
  · intro h
    obtain ⟨k, p, m, hp, hm, rfl⟩ := h
    have hpos := hpos k p hp
    have hm : 0 < (m : ℚ) := by exact_mod_cast hm
    have ht : 0 < m * p.value := mul_pos hm hpos
    exact ⟨ht, p.value, ⟨k, p, hp, rfl⟩, (zmultiples_iff hpos ht.le).mpr ⟨m, rfl⟩⟩

/-- No subtraction of the run is rounded. -/
def NeverRounds (client : Client) (pollDict : Dict Scalar Number) (info : Dict Scalar Json) :
    Prop :=
  ∀ n s, runPasses client pollDict info n = .ok s → s.Exact

/-- The state after each number of passes. -/
theorem runPasses_ok (client : Client) {pollDict : Dict Scalar Number} (info : Dict Scalar Json)
    (hpos : ∀ k p, pollDict.get? k = some p → 0 < p.value)
    (hsleep : ∃ k p, pollDict.get? k = some p ∧ p.sleep = .ok ())
    (hexact : NeverRounds client pollDict info) (n : ℕ) :
    ∃ s, runPasses client pollDict info n = .ok s ∧ OnTime pollDict s.sleepDict s.clock ∧
      0 ≤ s.clock := by
  induction n with
  | zero => exact ⟨_, rfl, OnTime.start hpos, le_refl 0⟩
  | succ n ih =>
    obtain ⟨s, hs, htime, h0⟩ := ih
    obtain ⟨s', sleepTime, hpass, hslept, hwakes, htime'⟩ :=
      pass_ok client info hsleep htime h0 (hexact n s hs)
    refine ⟨s', ?_, htime', ?_⟩
    · rw [runPasses, hs]
      exact hpass
    · rw [hwakes.clock]
      linarith

/-! ## Frequencies that are not rounded -/

/-- Ints, or multiples of one unit that have few enough bits. -/
def CommonUnit (pollDict : Dict Scalar Number) : Prop :=
  (∀ p ∈ pollDict.values, p.IsInt) ∨
    ∃ e : ℤ, -1074 ≤ e ∧ ∀ p ∈ pollDict.values, p.IsMultiple e

/-- Values from a set in which nothing is rounded stay in it. -/
theorem runPasses_exact {C : Number → Prop} (hC : Number.ExactUnder C) {client : Client}
    {pollDict : Dict Scalar Number} {info : Dict Scalar Json}
    (hpos : ∀ k p, pollDict.get? k = some p → 0 < p.value)
    (hvalues : ∀ k p, pollDict.get? k = some p → C p) {n : ℕ} {s : Polling}
    (h : runPasses client pollDict info n = .ok s) :
    s.sleepDict.keys = pollDict.keys ∧
      ∀ k v, s.sleepDict.get? k = some v → 0 < v.value ∧ C v := by
  induction n generalizing s with
  | zero =>
    cases h
    exact ⟨rfl, fun k p hp => ⟨hpos k p hp, hvalues k p hp⟩⟩
  | succ n ih =>
    obtain ⟨s₀, hs₀, h⟩ := Fallible.bind_ok.mp h
    obtain ⟨hkeys, hs⟩ := ih hs₀
    obtain ⟨-, rfl⟩ | ⟨sleepTime, sleepDict, hmin, -, hupdate, rfl⟩ := pass_iff.mp h
    · exact ⟨hkeys, hs⟩
    · obtain ⟨j, hj⟩ := Dict.mem_values.mp (List.argmin_mem hmin)
      obtain ⟨hpos', hmem⟩ := hs j sleepTime hj
      have hnext : ∀ k v, s₀.sleepDict.get? k = some v → ∃ w,
          nextSleep pollDict sleepTime (k, v) = .ok w ∧ 0 < w.value ∧ C w := by
        intro k v hv
        obtain ⟨p, hp⟩ := Dict.mem_keys.mp (hkeys ▸ Dict.mem_keys.mpr ⟨v, hv⟩)
        obtain ⟨d, hsub, -, hd⟩ := hC v sleepTime (hs k v hv).2 hmem hpos'.le
          (List.le_of_mem_argmin (Dict.mem_values_of_get? hv) hmin)
        refine ⟨_, nextSleep_ok hsub hp, ?_⟩
        split
        · next hlt => exact ⟨hlt, hd⟩
        · exact ⟨hpos k p hp, hvalues k p hp⟩
      obtain ⟨sleepDict', hupdate', hkeys', hget⟩ :=
        updateSleepDict_ok fun k v hv => (hnext k v hv).imp fun _ hw => hw.1
      cases hupdate.symm.trans hupdate'
      refine ⟨hkeys'.trans hkeys, fun k w hw => ?_⟩
      obtain ⟨v, hv, hok⟩ := hget k w hw
      obtain ⟨w', hok', hw'⟩ := hnext k v hv
      cases hok.symm.trans hok'
      exact hw'

theorem neverRounds_of_exactUnder {C : Number → Prop} (hC : Number.ExactUnder C) (client : Client)
    {pollDict : Dict Scalar Number} (info : Dict Scalar Json)
    (hpos : ∀ k p, pollDict.get? k = some p → 0 < p.value)
    (hvalues : ∀ p ∈ pollDict.values, C p) : NeverRounds client pollDict info := by
  intro n s hs sleepTime hmin v hv
  have hrun := (runPasses_exact hC hpos
    (fun k p hp => hvalues p (Dict.mem_values_of_get? hp)) hs).2
  have hget : ∀ v ∈ s.sleepDict.values, 0 < v.value ∧ C v := by
    intro v hv
    obtain ⟨k, hk⟩ := Dict.mem_values.mp hv
    exact hrun k v hk
  obtain ⟨hpos', hmem⟩ := hget sleepTime (List.argmin_mem hmin)
  obtain ⟨d, hsub, hd, -⟩ :=
    hC v sleepTime (hget v hv).2 hmem hpos'.le (List.le_of_mem_argmin hv hmin)
  exact ⟨d, hsub, hd⟩

theorem CommonUnit.neverRounds {pollDict : Dict Scalar Number} (h : CommonUnit pollDict)
    (client : Client) (info : Dict Scalar Json)
    (hpos : ∀ k p, pollDict.get? k = some p → 0 < p.value) : NeverRounds client pollDict info := by
  obtain h | ⟨e, he, h⟩ := h
  · exact neverRounds_of_exactUnder Number.exactUnder_isInt client info hpos h
  · exact neverRounds_of_exactUnder (Number.exactUnder_isMultiple he) client info hpos h

/-! ## The schedule -/

/-- The states `st n` after `n` passes: the times of the wake-ups grow and are exactly the
positive multiples of the frequencies; at each of them the types polled are those whose
frequency divides the time, and each is read once from every unit. -/
structure OnSchedule (client : Client) (pollDict : Dict Scalar Number) (info : Dict Scalar Json)
    (st : ℕ → Polling) : Prop where
  runs : ∀ n, runPasses client pollDict info n = .ok (st n)
  strictMono : StrictMono fun n => (st n).clock
  clock_iff : ∀ t, (∃ n, (st (n + 1)).clock = t) ↔
    ∃ k p, ∃ m : ℕ, pollDict.get? k = some p ∧ 0 < m ∧ t = m * p.value
  wakesUp : ∀ n, ∃ sleepTime, WakesUp pollDict info (st n) (st (n + 1)) sleepTime
  left : ∀ n, (st n).sleepDict.keys = pollDict.keys ∧ ∀ k v, (st n).sleepDict.get? k = some v →
    ∃ p, pollDict.get? k = some p ∧ 0 < v.value ∧ v.value ≤ p.value

theorem NeverRounds.onSchedule {client : Client} {pollDict : Dict Scalar Number}
    {info : Dict Scalar Json} (hexact : NeverRounds client pollDict info)
    (hpos : ∀ k p, pollDict.get? k = some p → 0 < p.value)
    (hsleep : ∃ k p, pollDict.get? k = some p ∧ p.sleep = .ok ()) :
    ∃ st, OnSchedule client pollDict info st := by
  choose st hst htime h0 using runPasses_ok client info hpos hsleep hexact
  have hstep : ∀ n, ∃ sleepTime, 0 < sleepTime.value ∧
      WakesUp pollDict info (st n) (st (n + 1)) sleepTime := by
    intro n
    obtain ⟨s', sleepTime, hpass, hslept, hwakes, -⟩ :=
      pass_ok client info hsleep (htime n) (h0 n) (hexact n (st n) (hst n))
    have hnext := hst (n + 1)
    rw [runPasses, hst n] at hnext
    cases hpass.symm.trans hnext
    exact ⟨sleepTime, hslept, hwakes⟩
  have hmono : StrictMono (fun n => (st n).clock) := by
    apply strictMono_nat_of_lt_succ
    intro n
    obtain ⟨sleepTime, hslept, hwakes⟩ := hstep n
    rw [hwakes.clock]
    linarith
  have hnext := fun n =>
    let ⟨_, _, hwakes⟩ := hstep n
    hwakes.next_multiple (htime n) (h0 n)
  refine ⟨st, hst, hmono, fun t => ?_, fun n => ?_, fun n => ⟨(htime n).keys, fun k v hv => ?_⟩⟩
  · rw [← mem_multiples_iff hpos]
    constructor
    · intro h
      obtain ⟨n, rfl⟩ := h
      exact (hnext n).1
    · intro ht
      have hstart : (st 0).clock = 0 := by rw [← Except.ok.inj (hst 0)]
      have hfreq : ∀ q ∈ frequencies pollDict, 0 < q := by
        intro q hq
        obtain ⟨k, p, hp, rfl⟩ := hq
        exact hpos k p hp
      refine Periodic.exists_wake hmono (fun n => (hnext n).1) (fun n => (hnext n).2) ht ?_ ?_
      · exact hstart.trans_lt ht.1
      · exact Periodic.finite_multiples (finite_frequencies pollDict) hfreq t
  · obtain ⟨sleepTime, -, hwakes⟩ := hstep n
    exact ⟨sleepTime, hwakes⟩
  · obtain ⟨p, hp, hleft⟩ := (htime n).frequency hv
    exact ⟨p, hp, hleft.1, hleft.2.1⟩

/-- **The polling schedule.** With positive frequencies, one of which `time.sleep` accepts, a
run that never rounds a subtraction is on schedule; and no subtraction is rounded where the
frequencies are ints, or have a common unit. -/
theorem polling_schedule (client : Client) (pollDict : Dict Scalar Number)
    (info : Dict Scalar Json) (hpos : ∀ k p, pollDict.get? k = some p → 0 < p.value)
    (hsleep : ∃ k p, pollDict.get? k = some p ∧ p.sleep = .ok ()) :
    (CommonUnit pollDict → NeverRounds client pollDict info) ∧
      (NeverRounds client pollDict info → ∃ st, OnSchedule client pollDict info st) :=
  ⟨fun h => h.neverRounds client info hpos, fun h => h.onSchedule hpos hsleep⟩

def oneUnit : Dict Scalar Json := .ofList [(.num 1, .num 10)]

/-- Coils twice a second, a float, and input registers every 3 seconds, an int. -/
def twoTypes : Dict Scalar Number :=
  ⟨[(.str "Coils", .float (.round (1 / 2))), (.str "Input Registers", .int 3)], by decide⟩

/-- A wake-up after 9 seconds, at which both types are due. -/
theorem polling_schedule_two_types : ∃ st, OnSchedule (fun _ _ => .ok "") twoTypes oneUnit st ∧
    ∃ n, (st (n + 1)).clock = 9 := by
  have hvalues : ∀ p ∈ twoTypes.values, 0 < p.value ∧ p.IsMultiple (-1) := by
    intro p hp
    simp only [Dict.values, twoTypes, List.map_cons, List.map_nil, List.mem_cons,
      List.not_mem_nil, or_false] at hp
    obtain rfl | rfl := hp
    · exact ⟨by decide +kernel, by decide +kernel, 1, by decide, by decide +kernel⟩
    · exact ⟨by decide +kernel, by decide +kernel, 6, by decide, by decide +kernel⟩
  have hpos : ∀ k p, twoTypes.get? k = some p → 0 < p.value := fun k p hp =>
    (hvalues p (Dict.mem_values_of_get? hp)).1
  have hsleep : ∃ k p, twoTypes.get? k = some p ∧ p.sleep = .ok () :=
    ⟨.str "Input Registers", .int 3, by decide, by decide +kernel⟩
  obtain ⟨hexact, hschedule⟩ :=
    polling_schedule (fun _ _ => .ok "") twoTypes oneUnit hpos hsleep
  obtain ⟨st, hst⟩ :=
    hschedule (hexact (Or.inr ⟨-1, by decide, fun p hp => (hvalues p hp).2⟩))
  refine ⟨st, hst, (hst.clock_iff 9).mpr ⟨.str "Input Registers", .int 3, 3, ?_, ?_, ?_⟩⟩
  · decide
  · decide
  · decide +kernel

def tenths : Dict Scalar Number :=
  ⟨[(.str "Coils", .float (.round (1 / 10))), (.str "Input Registers", .float (.round (4 / 10)))],
    by decide⟩

/-- Coils every 2^34 seconds, which is more than `time.sleep` can count. -/
def centuries : Dict Scalar Number := ⟨[(.str "Coils", .int (2 ^ 34))], by decide⟩

/-- At the fourth wake-up the input registers are due but are not read. -/
theorem tenths_missed {st : ℕ → Polling} :
    ¬ OnSchedule (fun _ _ => .ok "") tenths oneUnit st := by
  intro hst
  have hfourth : (runPasses (fun _ _ => .ok "") tenths oneUnit 3).toOption.map (fun s =>
      (s.sleepDict.values.argmin Number.value).map fun t =>
        (pollfuncs s.sleepDict t, s.clock + t.value)) =
      some (some ([.str "Coils"], (PyFloat.round (4 / 10)).val)) := by decide +kernel
  obtain ⟨sleepTime, hwakes⟩ := hst.wakesUp 3
  rw [hst.runs 3, Except.toOption, Option.map_some, hwakes.least] at hfourth
  obtain ⟨hcoils, hclock⟩ := Prod.mk.inj (Option.some.inj (Option.some.inj hfourth))
  have hdue : .str "Input Registers" ∈ due tenths (st 4).clock := by
    refine ⟨.float (.round (4 / 10)), by decide +kernel, 1, ?_⟩
    rw [hwakes.clock, hclock, Nat.cast_one, one_mul]
    rfl
  rw [← hwakes.pollfuncs_due, hcoils] at hdue
  exact absurd hdue (by decide)

theorem centuries_raise {st : ℕ → Polling} :
    ¬ OnSchedule (fun _ _ => .ok "") centuries oneUnit st := by
  intro hst
  have hfirst : (runPasses (fun _ _ => .ok "") centuries oneUnit 1).toOption.isNone := by
    decide +kernel
  rw [hst.runs 1] at hfirst
  cases hfirst

/-- Positive frequencies are not enough. Four tenths of a second are four times a tenth as floats
too, but `0.4 - 0.1` is rounded up and the thread comes late; and it ends where it cannot sleep. -/
theorem polling_schedule_fails :
    (tenths.keys ≠ [] ∧ (∀ k p, tenths.get? k = some p → 0 < p.value) ∧
      ¬ ∃ st, OnSchedule (fun _ _ => .ok "") tenths oneUnit st) ∧
    centuries.keys ≠ [] ∧ (∀ k p, centuries.get? k = some p → 0 < p.value) ∧
      ¬ ∃ st, OnSchedule (fun _ _ => .ok "") centuries oneUnit st := by
  have htenths : ∀ p ∈ tenths.values, 0 < p.value := by decide +kernel
  have hcenturies : ∀ p ∈ centuries.values, 0 < p.value := by decide +kernel
  refine ⟨⟨by decide, fun k p hp => htenths p (Dict.mem_values_of_get? hp), ?_⟩,
    by decide, fun k p hp => hcenturies p (Dict.mem_values_of_get? hp), ?_⟩
  · exact fun ⟨_, hst⟩ => tenths_missed hst
  · exact fun ⟨_, hst⟩ => centuries_raise hst

end IcsTrafficGen.Modbus

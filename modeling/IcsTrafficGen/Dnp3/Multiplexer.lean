import IcsTrafficGen.Dnp3.ArraySizes

/- The multiplexer over whole runs. An input cell is a fold of the pairs received for it
   (`latest`), and a mapped point that is not flagged is settled: its out cell is its
   input cell, and the outstation's last update for its index carries that cell if its
   source has ever reported. A callback flags the points of its source and touches no
   other; a pass settles every flagged point, and no two points share an out cell. -/
namespace IcsTrafficGen.Dnp3

/-! ## The history of a cell -/

/-- A cell after one more pair: a pair that repeats the value without a time is ignored. -/
def Dnp3Point.receive (pt : Dnp3Point) (pair : Indexed Double) : Dnp3Point :=
  if pt.value.eqv pair.value && pair.time == 0 then pt
  else { value := pair.value, timestamp := pair.time }

namespace MappingOutstation

theorem getElem?_storePair (pts : List Dnp3Point) (pair : Indexed Double) (i : Nat) :
    (storePair pts pair)[i]? =
      if pair.index = i then pts[i]?.map (fun pt => pt.receive pair) else pts[i]? := by
  unfold storePair
  cases hpt : pts[pair.index]? with
  | none =>
    by_cases h : pair.index = i
    · subst h
      simp [hpt]
    · simp [h]
  | some pt =>
    by_cases h : pair.index = i
    · subst h
      have hlt : pair.index < pts.length := (List.getElem?_eq_some_iff.mp hpt).1
      simp only [Dnp3Point.receive, hpt, if_true, Option.map_some]
      split
      · exact hpt
      · exact List.getElem?_set_self hlt
    · simp only [h, if_false]
      split
      · rfl
      · exact List.getElem?_set_ne h

theorem length_storePair (pts : List Dnp3Point) (pair : Indexed Double) :
    (storePair pts pair).length = pts.length := by
  unfold storePair
  split
  · rfl
  · split <;> simp

theorem length_foldl_storePair (pairs : List (Indexed Double)) (pts : List Dnp3Point) :
    (pairs.foldl storePair pts).length = pts.length := by
  induction pairs generalizing pts with
  | nil => rfl
  | cons pair pairs ih => rw [List.foldl_cons, ih, length_storePair]

theorem getElem?_foldl_storePair (pairs : List (Indexed Double)) (pts : List Dnp3Point) (i : Nat) :
    (pairs.foldl storePair pts)[i]? =
      pts[i]?.map (fun pt => (pairs.filter (fun p => p.index = i)).foldl Dnp3Point.receive pt) := by
  induction pairs generalizing pts with
  | nil => simp
  | cons pair pairs ih =>
    rw [List.foldl_cons, ih, getElem?_storePair]
    by_cases h : pair.index = i
    · simp [h, Function.comp_def]
    · simp [h]

end MappingOutstation

/-! ## Runs -/

/-- What happens to a running outstation: a callback of a source, or a pass. -/
inductive Event where
  | binary (src : String) (values : List (Indexed Bool))
  | analog (src : String) (values : List (Indexed Double))
  | counter (src : String) (values : List (Indexed UInt32))
  | pass

namespace Event
open MappingOutstation

def exec : Event → MappingOutstation → Cpp MappingOutstation
  | .binary src values, m => .ok (processBinary src values m)
  | .analog src values, m => .ok (processAnalog src values m)
  | .counter src values, m => .ok (processCounter src values m)
  | .pass, m => m.passThruDataChanges

/-- The channel, source and pairs of a callback. -/
def callback? : Event → Option (Channel × String × List (Indexed Double))
  | .binary src values => some (.binary, src, toDoubles .ofBool values)
  | .analog src values => some (.analog, src, toDoubles id values)
  | .counter src values => some (.counter, src, toDoubles .ofUInt32 values)
  | .pass => none

theorem exec_of_callback {e : Event} {c : Channel} {src : String} {pairs : List (Indexed Double)}
    (h : e.callback? = some (c, src, pairs)) (m : MappingOutstation) :
    e.exec m = .ok (process c src pairs m) := by
  cases e <;> cases h <;> rfl

theorem eq_pass_of_callback {e : Event} (h : e.callback? = none) : e = .pass := by
  cases e <;> first | rfl | cases h

/-- The pairs the event brings for the cell `i` of a source. -/
def pairsFor (c : Channel) (src : String) (i : Nat) (e : Event) : List (Indexed Double) :=
  match e.callback? with
  | some (c', src', pairs) =>
    if c' = c ∧ src' = src then pairs.filter (fun p => p.index = i) else []
  | none => []

end Event

/-- The pairs received from a source with the index `i`, in arrival order. -/
def received (evs : List Event) (c : Channel) (src : String) (i : Nat) : List (Indexed Double) :=
  evs.flatMap (Event.pairsFor c src i)

/-- The value and timestamp the received pairs leave in the cell. -/
def latest (evs : List Event) (c : Channel) (src : String) (i : Nat) : Dnp3Point :=
  (received evs c src i).foldl Dnp3Point.receive .zero

/-- Some callback of the source delivered values of this channel. -/
def Reported (evs : List Event) (c : Channel) (src : String) : Prop :=
  ∃ e ∈ evs, ∃ pairs, e.callback? = some (c, src, pairs)

/-- The last update of an index that was applied. -/
def lastUpdate (updates : List Update) (c : Channel) (i : Int) : Option Update :=
  (updates.filter (fun u => u.meas.channel = c ∧ u.index = i)).getLast?

def runEvents (evs : List Event) (m : MappingOutstation) : Cpp MappingOutstation :=
  evs.foldlM (fun m e => e.exec m) m

theorem latest_snoc (evs : List Event) (e : Event) (c : Channel) (src : String) (i : Nat) :
    latest (evs ++ [e]) c src i =
      (e.pairsFor c src i).foldl Dnp3Point.receive (latest evs c src i) := by
  simp [latest, received]

theorem reported_snoc {evs : List Event} {e : Event} {c : Channel} {src : String} :
    Reported (evs ++ [e]) c src ↔
      Reported evs c src ∨ ∃ pairs, e.callback? = some (c, src, pairs) := by
  simp [Reported, or_and_right, exists_or]

theorem lastUpdate_snoc_self {updates : List Update} {u : Update} :
    lastUpdate (updates ++ [u]) u.meas.channel u.index = some u := by
  simp [lastUpdate]

theorem lastUpdate_snoc_of_ne {updates : List Update} {u : Update} {c : Channel} {i : Int}
    (h : ¬ (u.meas.channel = c ∧ u.index = i)) :
    lastUpdate (updates ++ [u]) c i = lastUpdate updates c i := by
  simp [lastUpdate, h]

theorem channel_of_meas {c : Channel} {v : Double} {meas : Meas} (h : c.meas v = .ok meas) :
    meas.channel = c := by
  cases c with
  | analog => cases h; rfl
  | binary => cases h; rfl
  | counter =>
    obtain ⟨n, -, h⟩ := Fallible.bind_ok.mp h
    cases h
    rfl

/-! ## One pass -/

namespace MappingOutstation

/-- The out cell of a point carries its input cell, and so does the last update of its index. -/
def Delivered (c : Channel) (src : String) (dp : MappedDataPoint) (m : MappingOutstation)
    (updates : List Update) : Prop :=
  ∃ pt meas, Cpp.vecGet (m.input c src) dp.inputIndex = .ok pt ∧
    Cpp.vecGet (m.outValues c) dp.index = .ok pt ∧ c.meas pt.value = .ok meas ∧
    lastUpdate updates c dp.index =
      some { meas := meas, quality := .online, time := pt.timestamp, index := dp.index }

/-- The out cell of a point, where there is one, carries its input cell. -/
def Equal (c : Channel) (src : String) (dp : MappedDataPoint) (m : MappingOutstation) : Prop :=
  ∀ pt out, Cpp.vecGet (m.input c src) dp.inputIndex = .ok pt →
    Cpp.vecGet (m.outValues c) dp.index = .ok out → out = pt

/-- Nothing is left to do for a point; `R` says that its source has reported. -/
def Settled (R : Prop) (c : Channel) (src : String) (dp : MappedDataPoint) (m : MappingOutstation)
    (updates : List Update) : Prop :=
  Delivered c src dp m updates ∨ ¬ R ∧ Equal c src dp m

theorem Delivered.equal {c : Channel} {src : String} {dp : MappedDataPoint} {m : MappingOutstation}
    {updates : List Update} (h : Delivered c src dp m updates) : Equal c src dp m := by
  obtain ⟨pt, -, hin, hout, -, -⟩ := h
  intro pt' out hin' hout'
  cases hin.symm.trans hin'
  cases hout.symm.trans hout'
  rfl

theorem Settled.equal {R : Prop} {c : Channel} {src : String} {dp : MappedDataPoint}
    {m : MappingOutstation} {updates : List Update} (h : Settled R c src dp m updates) :
    Equal c src dp m := h.elim Delivered.equal And.right

/-- Being settled depends on the input array, the out cell and the last update only. -/
theorem Settled.congr {R : Prop} {c : Channel} {src : String} {dp : MappedDataPoint}
    {m m' : MappingOutstation} {updates updates' : List Update}
    (h : Settled R c src dp m updates) (hin : m'.input c src = m.input c src)
    (hout : Cpp.vecGet (m'.outValues c) dp.index = Cpp.vecGet (m.outValues c) dp.index)
    (hlast : lastUpdate updates' c dp.index = lastUpdate updates c dp.index) :
    Settled R c src dp m' updates' := by
  simpa only [Settled, Delivered, Equal, hin, hout, hlast] using h

/-- The state with one out cell changed. -/
def setOut (c : Channel) (i : Int) (pt : Dnp3Point) (m : MappingOutstation) : MappingOutstation :=
  { m with outValues := Function.update m.outValues c ((m.outValues c).set i.toNat pt) }

theorem length_setOut (c d : Channel) (i : Int) (pt : Dnp3Point) (m : MappingOutstation) :
    ((m.setOut c i pt).outValues d).length = (m.outValues d).length := by
  by_cases hd : d = c
  · subst hd
    simp [setOut]
  · simp [setOut, hd]

theorem vecGet_setOut_self {c : Channel} {i : Int} {m : MappingOutstation} (pt : Dnp3Point)
    (h : 0 ≤ i ∧ i < (m.outValues c).length) :
    Cpp.vecGet ((m.setOut c i pt).outValues c) i = .ok pt := by
  simpa [setOut] using Cpp.vecGet_vecSet_self h

theorem vecGet_setOut_of_ne {c d : Channel} {i j : Int} {m : MappingOutstation} (pt : Dnp3Point)
    (hi : 0 ≤ i) (h : ¬ (c = d ∧ i = j)) :
    Cpp.vecGet ((m.setOut c i pt).outValues d) j = Cpp.vecGet (m.outValues d) j := by
  by_cases hd : d = c
  · subst hd
    simpa [setOut] using Cpp.vecGet_vecSet_of_ne hi fun e => h ⟨rfl, e⟩
  · simp [setOut, hd]

theorem copyCell_ok {c : Channel} {src : String} {dp : MappedDataPoint} {m m' : MappingOutstation}
    {pt : Dnp3Point} :
    m.copyCell c src dp = .ok (m', pt) ↔ Cpp.vecGet (m.input c src) dp.inputIndex = .ok pt ∧
      (0 ≤ dp.index ∧ dp.index < (m.outValues c).length) ∧
      m' = m.setOut c dp.index pt := by
  simp only [copyCell, Fallible.bind_ok, Cpp.vecSet_ok, Fallible.pure_ok, Prod.mk.injEq]
  constructor
  · intro h
    obtain ⟨_, hin, _, ⟨hrange, rfl⟩, rfl, rfl⟩ := h
    exact ⟨hin, hrange, rfl⟩
  · intro h
    obtain ⟨hin, hrange, rfl⟩ := h
    exact ⟨_, hin, _, ⟨hrange, rfl⟩, rfl, rfl⟩

/-- What one pass of the inner loop does: nothing for a point of another type, else it
delivers the point. -/
theorem passPoint_cases {c : Channel} {src : String} {dp : MappedDataPoint}
    {st st' : MappingOutstation × List Update} (h : passPoint c src st dp = .ok st') :
    (dp.pointType ≠ c.pointType ∧ st' = st) ∨
      ∃ pt meas, dp.pointType = c.pointType ∧
        Cpp.vecGet (st.1.input c src) dp.inputIndex = .ok pt ∧
        (0 ≤ dp.index ∧ dp.index < (st.1.outValues c).length) ∧ c.meas pt.value = .ok meas ∧
        st' = (st.1.setOut c dp.index pt, st.2 ++
            [{ meas := meas, quality := .online, time := pt.timestamp, index := dp.index }]) := by
  unfold passPoint at h
  split at h
  · next hne =>
    rw [Fallible.pure_ok] at h
    exact Or.inl ⟨hne, h.symm⟩
  · next htype =>
    right
    obtain ⟨⟨m, pt⟩, hcopy, h⟩ := Fallible.bind_ok.mp h
    obtain ⟨meas, hmeas, h⟩ := Fallible.bind_ok.mp h
    obtain ⟨hin, hrange, rfl⟩ := copyCell_ok.mp hcopy
    exact ⟨pt, meas, not_not.mp htype, hin, hrange, hmeas, (Fallible.pure_ok.mp h).symm⟩

/-- What the pass over the sources `m` keeps: everything but flags, out cells and the
builder. -/
structure Frame (m : MappingOutstation) (st : MappingOutstation × List Update) : Prop where
  node : st.1.node = m.node
  values : st.1.values = m.values
  applied : st.1.applied = m.applied
  length : ∀ c, (st.1.outValues c).length = (m.outValues c).length

theorem Frame.passPoint {m : MappingOutstation} {c : Channel} {src : String} {dp : MappedDataPoint}
    {st st' : MappingOutstation × List Update} (hf : Frame m st)
    (h : passPoint c src st dp = .ok st') : Frame m st' := by
  obtain ⟨-, rfl⟩ | ⟨pt, meas, -, -, -, -, rfl⟩ := passPoint_cases h
  · exact hf
  · exact ⟨hf.node, hf.values, hf.applied, fun d => (length_setOut _ _ _ _ _).trans (hf.length d)⟩

theorem Frame.passChannel {m : MappingOutstation} {c : Channel} {src : String}
    {l : List MappedDataPoint} {st st' : MappingOutstation × List Update} (hf : Frame m st)
    (h : passChannel c src l st = .ok st') : Frame m st' := by
  unfold MappingOutstation.passChannel at h
  split at h
  · have hlow : Frame m (st.1.lower c src, st.2) := ⟨hf.node, hf.values, hf.applied, hf.length⟩
    exact Fallible.foldlM_invariant (Frame m) (fun dp _ s s' hs hp => hs.passPoint hp) hlow h
  · rwa [← Fallible.pure_ok.mp h]

theorem passSource_eq (st : MappingOutstation × List Update)
    (source : String × List MappedDataPoint) :
    passSource st source = [Channel.analog, .binary, .counter].foldlM
      (fun st c => passChannel c source.1 source.2 st) st := by
  simp [passSource]

theorem Frame.passSource {m : MappingOutstation} {source : String × List MappedDataPoint}
    {st st' : MappingOutstation × List Update} (hf : Frame m st)
    (h : passSource st source = .ok st') : Frame m st' := by
  rw [passSource_eq] at h
  exact Fallible.foldlM_invariant (Frame m) (fun c _ s s' hs hc => hs.passChannel hc) hf h

/-- No two entries of the mapping have the same type and `Index`. -/
def DistinctTargets (node : Node) : Prop :=
  (node.mapped.map (fun e => (e.2.pointType, e.2.index))).Nodup

instance (node : Node) : Decidable (DistinctTargets node) :=
  inferInstanceAs (Decidable (List.Nodup _))

section
variable {node : Node} {c : Channel} {src : String} {dp : MappedDataPoint} {R : Prop}
variable {m : MappingOutstation} {st st' : MappingOutstation × List Update}

/-- The state of a point in the middle of a pass. -/
def SettledIn (R : Prop) (c : Channel) (src : String) (dp : MappedDataPoint)
    (st : MappingOutstation × List Update) : Prop :=
  Settled R c src dp st.1 (st.1.applied ++ st.2)

theorem passPoint_delivers (htype : dp.pointType = c.pointType)
    (h : passPoint c src st dp = .ok st') : SettledIn R c src dp st' := by
  obtain ⟨hne, -⟩ | ⟨pt, meas, -, hin, hrange, hmeas, rfl⟩ := passPoint_cases h
  · exact absurd htype hne
  · refine Or.inl ⟨pt, meas, hin, vecGet_setOut_self pt hrange, hmeas, ?_⟩
    rw [← List.append_assoc, ← channel_of_meas hmeas]
    exact lastUpdate_snoc_self

/-- Delivering a point leaves the out cell and the last update of every other. -/
theorem passPoint_keeps {c' : Channel} {src' : String} {dp' : MappedDataPoint}
    (hnodup : DistinctTargets node) (hmem : (src, dp) ∈ node.mapped)
    (hmem' : (src', dp') ∈ node.mapped) (htype : dp.pointType = c.pointType)
    (hs : SettledIn R c src dp st) (h : passPoint c' src' st dp' = .ok st') :
    SettledIn R c src dp st' := by
  by_cases htarget : dp'.pointType = dp.pointType ∧ dp'.index = dp.index
  -- the same target: by the distinctness of targets the same point
  · have heq := List.inj_on_of_nodup_map hnodup hmem' hmem (by simp [htarget])
    cases heq
    by_cases hc : c' = c
    · exact passPoint_delivers htype (hc ▸ h)
    · obtain ⟨-, rfl⟩ | ⟨_, _, htype', -⟩ := passPoint_cases h
      · exact hs
      · exact absurd (Channel.pointType_inj (htype'.symm.trans htype)) hc
  · obtain ⟨-, rfl⟩ | ⟨pt, meas, htype', hin, hrange, hmeas, rfl⟩ := passPoint_cases h
    · exact hs
    -- another target: its out cell and its updates are of no concern here
    · have hne : ¬ (c' = c ∧ dp'.index = dp.index) := fun e =>
        htarget ⟨htype'.trans (e.1 ▸ htype.symm), e.2⟩
      have hlast : lastUpdate (st.1.applied ++ (st.2 ++ [⟨meas, .online, pt.timestamp, dp'.index⟩]))
          c dp.index = lastUpdate (st.1.applied ++ st.2) c dp.index := by
        rw [← List.append_assoc]
        exact lastUpdate_snoc_of_ne (by rw [channel_of_meas hmeas]; exact hne)
      exact hs.congr rfl (vecGet_setOut_of_ne pt hrange.1 hne) hlast

/-- A point is flagged or settled, which is what holds between two passes. -/
def Pending (R : Prop) (c : Channel) (src : String) (dp : MappedDataPoint)
    (st : MappingOutstation × List Update) : Prop :=
  st.1.flag c src = true ∨ SettledIn R c src dp st

theorem passPoints_keep {c' : Channel} {src' : String} {l : List MappedDataPoint}
    (hnodup : DistinctTargets node) (hmem : (src, dp) ∈ node.mapped)
    (hl : ∀ dp' ∈ l, (src', dp') ∈ node.mapped) (htype : dp.pointType = c.pointType)
    (hs : SettledIn R c src dp st) (h : l.foldlM (passPoint c' src') st = .ok st') :
    SettledIn R c src dp st' :=
  Fallible.foldlM_invariant (SettledIn R c src dp)
    (fun dp' hdp' _ _ hs h => passPoint_keeps hnodup hmem (hl dp' hdp') htype hs h) hs h

theorem passChannel_keeps {c' : Channel} {src' : String} {l : List MappedDataPoint}
    (hnodup : DistinctTargets node) (hmem : (src, dp) ∈ node.mapped)
    (hl : ∀ dp' ∈ l, (src', dp') ∈ node.mapped) (htype : dp.pointType = c.pointType)
    (hs : SettledIn R c src dp st) (h : passChannel c' src' l st = .ok st') :
    SettledIn R c src dp st' := by
  unfold passChannel at h
  split at h
  · have hlow : SettledIn R c src dp (st.1.lower c' src', st.2) := hs
    exact passPoints_keep hnodup hmem hl htype hlow h
  · rwa [← Fallible.pure_ok.mp h]

/-- The loops of the other channels and sources leave a pending point pending. -/
theorem passChannel_pending {c' : Channel} {src' : String} {l : List MappedDataPoint}
    (hnodup : DistinctTargets node) (hmem : (src, dp) ∈ node.mapped)
    (hl : ∀ dp' ∈ l, (src', dp') ∈ node.mapped) (htype : dp.pointType = c.pointType)
    (hother : ¬ (c = c' ∧ src = src')) (hs : Pending R c src dp st)
    (h : passChannel c' src' l st = .ok st') : Pending R c src dp st' := by
  rcases hs with hflag | hs
  · left
    unfold passChannel at h
    split at h
    · have hlow : (st.1.lower c' src').flag c src = true := by
        simp only [lower]
        rwa [setCell_of_ne _ _ _ _ _ _ hother]
      -- the inner loop touches no flag
      refine Fallible.foldlM_invariant (fun s => s.1.flag c src = true) ?_ hlow h
      intro dp' _ s s' hs hp
      obtain ⟨-, rfl⟩ | ⟨_, _, -, -, -, -, rfl⟩ := passPoint_cases hp <;> exact hs
    · rwa [← Fallible.pure_ok.mp h]
  · exact Or.inr (passChannel_keeps hnodup hmem hl htype hs h)

/-- The loop of its own channel and source settles a pending point. -/
theorem passChannel_settles {l : List MappedDataPoint}
    (hnodup : DistinctTargets node) (hmem : (src, dp) ∈ node.mapped) (hdp : dp ∈ l)
    (hl : ∀ dp' ∈ l, (src, dp') ∈ node.mapped) (htype : dp.pointType = c.pointType)
    (hs : Pending R c src dp st) (h : passChannel c src l st = .ok st') :
    SettledIn R c src dp st' := by
  rcases hs with hflag | hs
  · simp only [passChannel, hflag, if_true] at h
    exact Fallible.foldlM_reaches (I := fun _ => True) hdp (fun _ _ _ _ _ _ => trivial)
      (fun dp' hdp' _ _ hs h => passPoint_keeps hnodup hmem (hl dp' hdp') htype hs h)
      (fun _ _ _ h => passPoint_delivers htype h) trivial h
  · exact passChannel_keeps hnodup hmem hl htype hs h

theorem passSource_keeps {source : String × List MappedDataPoint}
    (hnodup : DistinctTargets node) (hmem : (src, dp) ∈ node.mapped)
    (hsource : source ∈ node.dataSources.entries) (htype : dp.pointType = c.pointType)
    (hs : SettledIn R c src dp st) (h : passSource st source = .ok st') :
    SettledIn R c src dp st' := by
  rw [passSource_eq] at h
  have hl : ∀ dp' ∈ source.2, (source.1, dp') ∈ node.mapped := fun dp' hdp' =>
    Node.mem_mapped.mpr ⟨source.2, Dict.get?_eq_some.mpr hsource, hdp'⟩
  exact Fallible.foldlM_invariant (SettledIn R c src dp)
    (fun _ _ _ _ hs h => passChannel_keeps hnodup hmem hl htype hs h) hs h

theorem passSource_pending {source : String × List MappedDataPoint}
    (hnodup : DistinctTargets node) (hmem : (src, dp) ∈ node.mapped)
    (hsource : source ∈ node.dataSources.entries) (htype : dp.pointType = c.pointType)
    (hs : Pending R c src dp st) (h : passSource st source = .ok st') :
    Pending R c src dp st' ∧ (source.1 = src → SettledIn R c src dp st') := by
  have hl : ∀ dp' ∈ source.2, (source.1, dp') ∈ node.mapped := fun dp' hdp' =>
    Node.mem_mapped.mpr ⟨source.2, Dict.get?_eq_some.mpr hsource, hdp'⟩
  rw [passSource_eq] at h
  by_cases hsrc : source.1 = src
  · have hdp : dp ∈ source.2 := by
      obtain ⟨l, hl, hdp⟩ := Node.mem_mapped.mp hmem
      have hget := Dict.get?_eq_some.mpr hsource
      rw [hsrc, hl] at hget
      cases hget
      exact hdp
    have hsettled : SettledIn R c src dp st' := by
      subst hsrc
      have hc : c ∈ [Channel.analog, .binary, .counter] := by cases c <;> simp
      refine Fallible.foldlM_reaches (f := fun st c => passChannel c source.1 source.2 st)
        (I := Pending R c source.1 dp) hc ?_
        (fun _ _ _ _ hs h => passChannel_keeps hnodup hmem hl htype hs h)
        (fun _ _ hs h => passChannel_settles hnodup hmem hdp hl htype hs h) hs h
      intro c' _ s s' hs hstep
      by_cases hc : c = c'
      · exact Or.inr (passChannel_settles hnodup hmem hdp hl htype hs (hc ▸ hstep))
      · exact passChannel_pending hnodup hmem hl htype (fun e => hc e.1) hs hstep
    exact ⟨Or.inr hsettled, fun _ => hsettled⟩
  · refine ⟨?_, fun e => absurd e hsrc⟩
    exact Fallible.foldlM_invariant (Pending R c src dp) (fun c' _ _ _ hs h =>
      passChannel_pending hnodup hmem hl htype (fun e => hsrc e.2.symm) hs h) hs h

/-- A pass settles every pending point. -/
theorem passThruDataChanges_settles {m' : MappingOutstation} (hnodup : DistinctTargets m.node)
    (hmem : (src, dp) ∈ m.node.mapped) (htype : dp.pointType = c.pointType)
    (hs : m.flag c src = true ∨ Settled R c src dp m m.applied)
    (h : m.passThruDataChanges = .ok m') : Settled R c src dp m' m'.applied := by
  obtain ⟨st, hpass, h⟩ := Fallible.bind_ok.mp h
  rw [← Fallible.pure_ok.mp h]
  obtain ⟨l, hl, hdp⟩ := Node.mem_mapped.mp hmem
  have hstart : Pending R c src dp (m, []) := by simpa [Pending, SettledIn] using hs
  exact Fallible.foldlM_reaches (I := Pending R c src dp) (P := SettledIn R c src dp)
    (Dict.get?_eq_some.mp hl)
    (fun _ hsource _ _ hs h => (passSource_pending hnodup hmem hsource htype hs h).1)
    (fun _ hsource _ _ hs h => passSource_keeps hnodup hmem hsource htype hs h)
    (fun _ _ hs h => (passSource_pending hnodup hmem (Dict.get?_eq_some.mp hl) htype hs h).2 rfl)
    hstart hpass

theorem passThruDataChanges_frame {m' : MappingOutstation} (h : m.passThruDataChanges = .ok m') :
    m'.node = m.node ∧ m'.values = m.values ∧
      ∀ c, (m'.outValues c).length = (m.outValues c).length := by
  obtain ⟨st, hpass, h⟩ := Fallible.bind_ok.mp h
  rw [← Fallible.pure_ok.mp h]
  have hf : Frame m st := Fallible.foldlM_invariant (Frame m) (fun _ _ _ _ hs h => hs.passSource h)
    ⟨rfl, rfl, rfl, fun _ => rfl⟩ hpass
  exact ⟨hf.node, hf.values, hf.length⟩

end

end MappingOutstation
end IcsTrafficGen.Dnp3

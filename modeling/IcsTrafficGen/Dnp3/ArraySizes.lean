import IcsTrafficGen.Dnp3.MappingOutstation

/- What `run` does before its loop: every array gets its size and every flag is down.
   `start_ok` says when that succeeds and gives the state it ends in in closed form. -/
namespace IcsTrafficGen.Dnp3

/-- The size the mapping of one source gives its input array for the type `t`. -/
def neededSize (mdpList : List MappedDataPoint) (t : String) : Int :=
  (mdpList.filter (fun dp => dp.pointType = t)).foldl (fun n dp => max n (dp.index + 1)) 0

def zeros (n : Int) : List Dnp3Point := List.replicate n.toNat .zero

@[simp] theorem length_zeros {n : Int} (h : 0 ≤ n) : ((zeros n).length : Int) = n := by
  simp [zeros, h]

theorem eq_zero_of_mem_zeros {n : Int} {pt : Dnp3Point} (h : pt ∈ zeros n) : pt = .zero :=
  List.eq_of_mem_replicate h

theorem resize_nil_ok {n : Int} {pts : List Dnp3Point} :
    Cpp.resize .zero [] n = .ok pts ↔ 0 ≤ n ∧ zeros n = pts := by
  unfold Cpp.resize
  split <;> simp_all [zeros]

theorem map_zeros (n : Int) : (zeros n).map (fun _ => Dnp3Point.zero) = zeros n := by
  simp [zeros]

/-! ## The sizes -/

def growAll (d : Dict String Int) (mdpList : List MappedDataPoint) : Dict String Int :=
  mdpList.foldl (fun d dp => growSize d dp.pointType (dp.index + 1)) d

theorem sizeAt_growAll (d : Dict String Int) (mdpList : List MappedDataPoint) (t : String) :
    sizeAt (growAll d mdpList) t =
      (mdpList.filter (fun dp => dp.pointType = t)).foldl (fun n dp => max n (dp.index + 1))
        (sizeAt d t) := by
  induction mdpList generalizing d with
  | nil => rfl
  | cons dp l ih =>
    rw [growAll, List.foldl_cons]
    apply (ih _).trans
    rw [sizeAt_growSize]
    by_cases h : dp.pointType = t
    · simp [h]
    · have h' : ¬ t = dp.pointType := fun e => h e.symm
      simp [h, h']

theorem le_foldl_max (l : List MappedDataPoint) (n : Int) :
    n ≤ l.foldl (fun n dp => max n (dp.index + 1)) n := by
  induction l generalizing n with
  | nil => exact le_refl n
  | cons dp l ih => exact (le_max_left n _).trans (ih _)

theorem foldl_max_lt_iff (l : List MappedDataPoint) (n k : Int) :
    k < l.foldl (fun n dp => max n (dp.index + 1)) n ↔ k < n ∨ ∃ dp ∈ l, k ≤ dp.index := by
  induction l generalizing n with
  | nil => simp
  | cons dp l ih =>
    rw [List.foldl_cons, ih, lt_max_iff, Int.lt_add_one_iff]
    simp [or_assoc]

theorem neededSize_nonneg (mdpList : List MappedDataPoint) (t : String) :
    0 ≤ neededSize mdpList t := le_foldl_max _ _

/-- An input index is inside the array exactly if some entry of its type has an `Index`
at least as large. -/
theorem lt_neededSize {mdpList : List MappedDataPoint} {t : String} {k : Int} (h0 : 0 ≤ k) :
    k < neededSize mdpList t ↔ ∃ dp ∈ mdpList, dp.pointType = t ∧ k ≤ dp.index := by
  rw [neededSize, foldl_max_lt_iff]
  simp only [List.mem_filter, decide_eq_true_eq, and_assoc]
  exact ⟨fun h => h.resolve_left (by omega), Or.inr⟩

namespace MappingOutstation

theorem growAll_ok {mdpList : List MappedDataPoint} {d d' : Dict String Int} :
    mdpList.foldlM (fun dbSize dp => do
        let size ← Cpp.addInt dp.index 1
        pure (growSize dbSize dp.pointType size)) d = .ok d' ↔
      (∀ dp ∈ mdpList, Cpp.InInt (dp.index + 1)) ∧ growAll d mdpList = d' := by
  induction mdpList generalizing d with
  | nil => simp [growAll, Fallible.pure_ok]
  | cons dp l ih =>
    simp only [List.foldlM_cons, Fallible.bind_ok, Cpp.addInt_ok, Fallible.pure_ok, ih,
      List.forall_mem_cons, growAll, List.foldl_cons]
    constructor
    · intro hx
      obtain ⟨_, ⟨_, ⟨h, rfl⟩, rfl⟩, hl, rfl⟩ := hx
      exact ⟨⟨h, hl⟩, rfl⟩
    · intro hx
      obtain ⟨⟨h, hl⟩, rfl⟩ := hx
      exact ⟨_, ⟨_, ⟨h, rfl⟩, rfl⟩, hl, rfl⟩

theorem sourceSizes_ok {mdpList : List MappedDataPoint} {d : Dict String Int} :
    sourceSizes mdpList = .ok d ↔
      (∀ dp ∈ mdpList, Cpp.InInt (dp.index + 1)) ∧ growAll .empty mdpList = d := growAll_ok

theorem sizeAt_growAll_empty (mdpList : List MappedDataPoint) (t : String) :
    sizeAt (growAll .empty mdpList) t = neededSize mdpList t := sizeAt_growAll _ _ _

/-! ## The arrays -/

theorem resizeInput_ok {c : Channel} {src : String} {d : Dict String Int} {m m' : MappingOutstation}
    (hnew : m.values c src = none) :
    m.resizeInput c src d = .ok m' ↔ 0 ≤ sizeAt d c.pointType ∧
      { m with values := setCell m.values c src (some (zeros (sizeAt d c.pointType))) } = m' := by
  simp only [resizeInput, input, hnew, Option.getD_none, Fallible.bind_ok, Fallible.pure_ok, resize_nil_ok]
  constructor
  · intro hx
    obtain ⟨_, ⟨h0, rfl⟩, h⟩ := hx
    exact ⟨h0, by simpa only [map_zeros, ite_self] using h⟩
  · intro hx
    obtain ⟨h0, rfl⟩ := hx
    exact ⟨_, ⟨h0, rfl⟩, by simp only [map_zeros, ite_self]⟩

/-- The input arrays of one source get their sizes. -/
def sizeSource (m : MappingOutstation) (source : String × List MappedDataPoint) :
    MappingOutstation :=
  { m with
    values := fun c => Function.update (m.values c) source.1
      (some (zeros (neededSize source.2 c.pointType))) }

theorem configureSource_ok {m m' : MappingOutstation} {source : String × List MappedDataPoint}
    (hnew : ∀ c, m.values c source.1 = none) :
    configureSource m source = .ok m' ↔
      (∀ dp ∈ source.2, Cpp.InInt (dp.index + 1)) ∧ sizeSource m source = m' := by
  simp only [configureSource, Fallible.bind_ok, sourceSizes_ok]
  constructor
  · intro h
    obtain ⟨_, ⟨hint, rfl⟩, ma, ha, mb, hb, hc⟩ := h
    refine ⟨hint, ?_⟩
    obtain ⟨-, rfl⟩ := (resizeInput_ok (hnew .analog)).mp ha
    obtain ⟨-, rfl⟩ := (resizeInput_ok (by simpa [setCell] using hnew .binary)).mp hb
    obtain ⟨-, rfl⟩ := (resizeInput_ok (by simpa [setCell] using hnew .counter)).mp hc
    simp only [sizeSource, sizeAt_growAll_empty]
    congr 1
    funext c
    cases c <;> simp [setCell]
  · intro h
    obtain ⟨hint, rfl⟩ := h
    have h0 : ∀ c : Channel, 0 ≤ sizeAt (growAll .empty source.2) c.pointType :=
      fun c => sizeAt_growAll_empty source.2 _ ▸ neededSize_nonneg _ _
    refine ⟨_, ⟨hint, rfl⟩, _, (resizeInput_ok (hnew .analog)).mpr ⟨h0 _, rfl⟩, _,
      (resizeInput_ok (by simpa [setCell] using hnew .binary)).mpr ⟨h0 _, rfl⟩,
      (resizeInput_ok (by simpa [setCell] using hnew .counter)).mpr ⟨h0 _, ?_⟩⟩
    simp only [sizeSource, sizeAt_growAll_empty]
    congr 1
    funext c
    cases c <;> simp [setCell]

theorem values_sizeSource_of_ne {m : MappingOutstation} {source : String × List MappedDataPoint}
    {s : String} (c : Channel) (h : s ≠ source.1) :
    (sizeSource m source).values c s = m.values c s := by
  simp [sizeSource, h]

theorem configureSources_ok {es : List (String × List MappedDataPoint)} {m m' : MappingOutstation}
    (hnodup : (es.map Prod.fst).Nodup) (hnew : ∀ e ∈ es, ∀ c, m.values c e.1 = none) :
    es.foldlM configureSource m = .ok m' ↔
      (∀ e ∈ es, ∀ dp ∈ e.2, Cpp.InInt (dp.index + 1)) ∧ es.foldl sizeSource m = m' := by
  induction es generalizing m with
  | nil => simp [Fallible.pure_ok]
  | cons e es ih =>
    rw [List.map_cons, List.nodup_cons] at hnodup
    have hrest : ∀ x ∈ es, ∀ c, (sizeSource m e).values c x.1 = none := fun x hx c => by
      have hne : x.1 ≠ e.1 := fun heq => hnodup.1 (heq ▸ List.mem_map_of_mem hx)
      rw [values_sizeSource_of_ne c hne]
      exact hnew x (List.mem_cons_of_mem e hx) c
    simp only [List.foldlM_cons, Fallible.bind_ok, configureSource_ok (hnew e List.mem_cons_self),
      List.forall_mem_cons, List.foldl_cons]
    constructor
    · intro hall
      obtain ⟨_, ⟨he, rfl⟩, h⟩ := hall
      obtain ⟨hes, rfl⟩ := (ih hnodup.2 hrest).mp h
      exact ⟨⟨he, hes⟩, rfl⟩
    · intro hall
      obtain ⟨⟨he, hes⟩, rfl⟩ := hall
      exact ⟨_, ⟨he, rfl⟩, (ih hnodup.2 hrest).mpr ⟨hes, rfl⟩⟩

theorem foldl_sizeSource {es : List (String × List MappedDataPoint)} {m : MappingOutstation}
    (hnodup : (es.map Prod.fst).Nodup) :
    es.foldl sizeSource m =
      { m with
        values := fun c s => match es.find? (fun e => e.1 = s) with
          | some e => some (zeros (neededSize e.2 c.pointType))
          | none => m.values c s } := by
  induction es generalizing m with
  | nil => rfl
  | cons e es ih =>
    rw [List.map_cons, List.nodup_cons] at hnodup
    rw [List.foldl_cons, ih hnodup.2]
    simp only [sizeSource]
    congr 1
    funext c s
    rw [List.find?_cons]
    by_cases h : e.1 = s
    · have hnone : es.find? (fun e => e.1 = s) = none := by
        rw [List.find?_eq_none]
        intro x hx
        have : x.1 ≠ s := fun heq => hnodup.1 (h ▸ heq ▸ List.mem_map_of_mem hx)
        simpa using this
      simp [hnone, h]
    · have h' : s ≠ e.1 := fun e' => h e'.symm
      simp [h, h']

/-- The state `start` ends in: arrays of zeros, no flag, nothing applied. -/
def sized (node : Node) : MappingOutstation :=
  { node := node
    values := fun c src => (node.dataSources.get? src).map
      (fun mdpList => zeros (neededSize mdpList c.pointType))
    flag := fun _ _ => false
    outValues := fun c => zeros (sizeAt node.dbSize c.pointType)
    applied := [] }

theorem sizeSources_new (node : Node) :
    node.dataSources.entries.foldl sizeSource (new node) =
      { sized node with outValues := fun _ => [] } := by
  rw [foldl_sizeSource node.dataSources.nodup]
  simp only [new, sized]
  congr 1
  funext c s
  unfold Dict.get?
  cases node.dataSources.entries.find? (fun e => e.1 = s) <;> rfl

theorem resizeOut_ok {c : Channel} {m m' : MappingOutstation} (hnew : m.outValues c = []) :
    m.resizeOut c = .ok m' ↔ 0 ≤ sizeAt m.node.dbSize c.pointType ∧
      { m with
        outValues := Function.update m.outValues c (zeros (sizeAt m.node.dbSize c.pointType)) } =
        m' := by
  simp only [resizeOut, hnew, Fallible.bind_ok, Fallible.pure_ok, resize_nil_ok]
  constructor
  · intro hx
    obtain ⟨_, ⟨h0, rfl⟩, h⟩ := hx
    exact ⟨h0, h⟩
  · intro hx
    obtain ⟨h0, rfl⟩ := hx
    exact ⟨_, ⟨h0, rfl⟩, rfl⟩

theorem clearFlags_of_down {m : MappingOutstation} (h : m.flag = fun _ _ => false) :
    m.clearFlags = m := by
  have hdown : ∀ src, setCell (setCell (setCell (fun _ _ => false) .analog src false) .binary src
      false) .counter src false = fun _ _ => false := fun src => by
    simp [setCell]
  have hfold : ∀ l : List String, l.foldl (fun flag src => setCell (setCell (setCell flag .analog src
      false) .binary src false) .counter src false) (fun _ _ => false) = fun _ _ => false := by
    intro l
    induction l with
    | nil => rfl
    | cons src l ih => rw [List.foldl_cons, hdown, ih]
  simp only [clearFlags, h, hfold]
  rw [← h]

theorem configureInputMultiplexingArrays_ok {node : Node} {m : MappingOutstation} :
    (new node).configureInputMultiplexingArrays = .ok m ↔
      (∀ e ∈ node.dataSources.entries, ∀ dp ∈ e.2, Cpp.InInt (dp.index + 1)) ∧
        (∀ c : Channel, 0 ≤ sizeAt node.dbSize c.pointType) ∧ sized node = m := by
  have hout : ∀ c, Function.update (Function.update (Function.update (fun _ => []) .analog
      (zeros (sizeAt node.dbSize Channel.analog.pointType))) .binary
      (zeros (sizeAt node.dbSize Channel.binary.pointType))) .counter
      (zeros (sizeAt node.dbSize Channel.counter.pointType)) c = (sized node).outValues c := by
    intro c
    cases c <;> simp [sized]
  simp only [configureInputMultiplexingArrays, Fallible.bind_ok]
  constructor
  · intro hx
    obtain ⟨_, h, ma, ha, mb, hb, hc⟩ := hx
    obtain ⟨hint, rfl⟩ := (configureSources_ok node.dataSources.nodup fun _ _ _ => rfl).mp h
    rw [sizeSources_new] at ha
    obtain ⟨h0a, rfl⟩ := (resizeOut_ok rfl).mp ha
    obtain ⟨h0b, rfl⟩ := (resizeOut_ok (by simp)).mp hb
    obtain ⟨h0c, rfl⟩ := (resizeOut_ok (by simp)).mp hc
    refine ⟨hint, fun c => by cases c <;> assumption, ?_⟩
    simp only [sized, MappingOutstation.mk.injEq, true_and, and_true]
    exact funext fun c => (hout c).symm
  · intro hx
    obtain ⟨hint, h0, rfl⟩ := hx
    refine ⟨_, (configureSources_ok node.dataSources.nodup fun _ _ _ => rfl).mpr ⟨hint, rfl⟩, ?_⟩
    rw [sizeSources_new]
    refine ⟨_, (resizeOut_ok rfl).mpr ⟨h0 .analog, rfl⟩, _,
      (resizeOut_ok (by simp)).mpr ⟨h0 .binary, rfl⟩,
      (resizeOut_ok (by simp)).mpr ⟨h0 .counter, ?_⟩⟩
    simp only [sized, MappingOutstation.mk.injEq, true_and, and_true]
    exact funext hout

/-- `start` succeeds exactly if no size overflows and no database size is negative. -/
theorem start_ok {node : Node} {m : MappingOutstation} :
    (new node).start = .ok m ↔
      (∀ e ∈ node.dataSources.entries, ∀ dp ∈ e.2, Cpp.InInt (dp.index + 1)) ∧
        (∀ c : Channel, 0 ≤ sizeAt node.dbSize c.pointType) ∧ sized node = m := by
  simp only [start, Fallible.bind_ok, Fallible.pure_ok, configureInputMultiplexingArrays_ok]
  constructor
  · intro h
    obtain ⟨_, ⟨hint, h0, rfl⟩, rfl⟩ := h
    exact ⟨hint, h0, (clearFlags_of_down rfl).symm⟩
  · intro h
    obtain ⟨hint, h0, rfl⟩ := h
    exact ⟨_, ⟨hint, h0, rfl⟩, clearFlags_of_down rfl⟩

end MappingOutstation
end IcsTrafficGen.Dnp3

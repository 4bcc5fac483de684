import IcsTrafficGen.Modbus.Grouping

/- Which entries of "Master Nodes" become masters. The `try` statement computes the
   default of the address before it looks for an address, so an entry is kept only if
   it has a name and the generator has an address left, also where it has an address
   of its own; the bare `except` drops every other entry without a word. -/
namespace IcsTrafficGen.Modbus

/-- The generator exists and has an address left. -/
def World.available (w : World) : Bool :=
  match w.cidr with
  | some (_ :: _) => true
  | _ => false

/-- The entries with the worlds in which the loop reaches them. -/
def reached (env : Env) (cfg : Config) : ParserState → World → List Json → List (Json × World)
  | _, _, [] => []
  | st, w, j :: js => (j, w) :: match processMaster env cfg st j w with
    | .ok st' w' => reached env cfg st' w' js
    | .error _ _ => []

def hasKey (key : String) (j : Json) : Bool :=
  match j.asDict with
  | .ok entry => key ∈ entry.keys
  | .error _ => false

/-- The entry, if it is to become a master: it has a name, and an address of its own or
one from the generator. -/
def wanted (e : Json × World) : Option (Dict String Json) :=
  if hasKey "Name" e.1 && (hasKey "IP Address" e.1 || e.2.available) then e.1.asDict.toOption
  else none

/-- The entry, if the `try` statement succeeds. -/
def kept (e : Json × World) : Option (Dict String Json) :=
  if hasKey "Name" e.1 && e.2.available then e.1.asDict.toOption else none

/-- One master for every entry that is to become one, in file order, with the address
of the entry where it has one. -/
def NoneDropped (masters : List KeptMaster) (reached : List (Json × World)) : Prop :=
  masters.map (fun k => k.entry) = reached.filterMap wanted ∧
    ∀ k ∈ masters, ∀ ip, k.entry.get? "IP Address" = some ip → k.node.ipaddr = ip

/-! ## The `try` statement -/

theorem masterNameAddr_error {j : Json} {w w' : World} {e : Exc}
    (h : masterNameAddr j w = .error e w') : kept (j, w) = none := by
  unfold kept
  rw [if_neg]
  intro hboth
  obtain ⟨hname, havail⟩ := (Bool.and_eq_true _ _).mp hboth
  unfold hasKey at hname
  split at hname
  · next entry hentry =>
    obtain ⟨name, hname⟩ := Dict.mem_keys.mp (of_decide_eq_true hname)
    unfold World.available at havail
    split at havail
    · next host hosts hcidr =>
      have hok := masterNameAddr_iff.mpr ⟨entry, host, hosts, hentry, hname, hcidr, rfl, rfl⟩
      rw [hok] at h
      cases h
    · cases havail
  · cases hname

/-- Where they return, the entry is kept. -/
theorem kept_of_ok {j name ip : Json} {w w₁ : World} (h : masterNameAddr j w = .ok (name, ip) w₁) :
    ∃ entry, kept (j, w) = some entry ∧ j.asDict = .ok entry ∧ w₁.up = w.up := by
  obtain ⟨entry, host, hosts, hentry, hname, hcidr, -, rfl⟩ := masterNameAddr_iff.mp h
  have havail : w.available = true := by simp [World.available, hcidr]
  have hkey : hasKey "Name" j = true := by
    simp only [hasKey, hentry, decide_eq_true_eq]
    exact Dict.mem_keys.mpr ⟨name, hname⟩
  refine ⟨entry, ?_, hentry, rfl⟩
  rw [kept, if_pos (by simp [hkey, havail]), hentry]
  rfl

/-! ## The loop -/

/-- A pass adds the kept entry, if there is one. -/
theorem processMaster_entries {env : Env} {cfg : Config} {st st' : ParserState} {j : Json}
    {w w' : World} (h : processMaster env cfg st j w = .ok st' w') :
    st'.masterNodes.map (fun k => k.entry) =
      st.masterNodes.map (fun k => k.entry) ++ (kept (j, w)).toList ∧
    ∀ k ∈ st'.masterNodes, k ∈ st.masterNodes ∨
      ∀ ip, k.entry.get? "IP Address" = some ip → k.node.ipaddr = ip := by
  obtain ⟨e, herror, rfl⟩ | ⟨name, ip, w₁, k, hok, hadds, hentry, -, hip⟩ := processMaster_ok h
  · exact ⟨by simp [masterNameAddr_error herror], fun k hk => Or.inl hk⟩
  · obtain ⟨entry, hkept, hentry', -⟩ := kept_of_ok hok
    cases hentry.symm.trans hentry'
    obtain ⟨entry', host, hosts, hentry', -, -, rfl, -⟩ := masterNameAddr_iff.mp hok
    cases hentry.symm.trans hentry'
    refine ⟨?_, fun k' hk' => ?_⟩
    · rw [hadds.masters, List.map_append, hkept]
      rfl
    · rw [hadds.masters, List.mem_append, List.mem_singleton] at hk'
      apply hk'.imp_right
      intro heq a ha
      subst heq
      rw [hip, ha, Option.getD_some]

theorem processMasters_entries {env : Env} {cfg : Config} {js : List Json} {st st' : ParserState}
    {w w' : World} (h : js.foldlM (processMaster env cfg) st w = .ok st' w') :
    st'.masterNodes.map (fun k => k.entry) =
      st.masterNodes.map (fun k => k.entry) ++ (reached env cfg st w js).filterMap kept ∧
    ∀ k ∈ st'.masterNodes, k ∈ st.masterNodes ∨
      ∀ ip, k.entry.get? "IP Address" = some ip → k.node.ipaddr = ip := by
  induction js generalizing st w with
  | nil =>
    obtain ⟨rfl, -⟩ := PyM.pure_ok.mp h
    exact ⟨by simp [reached], fun k hk => Or.inl hk⟩
  | cons j js ih =>
    obtain ⟨st₁, w₁, h₁, h⟩ := PyM.bind_ok.mp h
    obtain ⟨hentries, hips⟩ := processMaster_entries h₁
    obtain ⟨hentries', hips'⟩ := ih h
    refine ⟨?_, fun k hk => (hips' k hk).elim (hips k) Or.inr⟩
    rw [hentries', hentries, reached, h₁, List.append_assoc, List.filterMap_cons]
    cases kept (j, w) <;> rfl

/-! ## Kept and wanted -/

/-- A filter that drops more gives the same list only if it drops nothing more of it. -/
theorem filterMap_eq_iff {α β : Type} {f g : α → Option β} (hfg : ∀ a, f a = none ∨ f a = g a)
    {l : List α} : l.filterMap f = l.filterMap g ↔ ∀ a ∈ l, f a = g a := by
  have hlength : ∀ l : List α, (l.filterMap f).length ≤ (l.filterMap g).length := by
    intro l
    induction l with
    | nil => exact le_refl _
    | cons a l ih =>
      rw [List.filterMap_cons, List.filterMap_cons]
      rcases hfg a with h | h
      · rw [h]
        cases g a with
        | none => exact ih
        | some b => exact ih.trans (Nat.le_succ _)
      · rw [h]
        cases g a with
        | none => exact ih
        | some b => exact Nat.succ_le_succ ih
  refine ⟨fun h => ?_, List.filterMap_congr⟩
  induction l with
  | nil => simp
  | cons a l ih =>
    rw [List.filterMap_cons, List.filterMap_cons] at h
    by_cases ha : f a = g a
    · refine List.forall_mem_cons.mpr ⟨ha, ih ?_⟩
      rw [ha] at h
      cases hg : g a with
      | none => simpa [hg] using h
      | some b => simpa [hg] using h
    · have hnone := (hfg a).resolve_right ha
      cases hg : g a with
      | none => exact absurd (hnone.trans hg.symm) ha
      | some b =>
        have := congrArg List.length h
        simp only [hnone, hg, List.length_cons] at this
        have := hlength l
        omega

theorem kept_or (e : Json × World) : kept e = none ∨ kept e = wanted e := by
  unfold kept wanted
  cases hasKey "Name" e.1 <;> cases e.2.available <;> simp

theorem asDict_of_hasKey {key : String} {j : Json} (h : hasKey key j = true) :
    ∃ entry, j.asDict.toOption = some entry := by
  unfold hasKey at h
  split at h
  · next entry hentry => exact ⟨entry, by rw [hentry]; rfl⟩
  · cases h

theorem kept_eq_wanted {e : Json × World} :
    kept e = wanted e ↔
      (hasKey "Name" e.1 = true → hasKey "IP Address" e.1 = true → e.2.available = true) := by
  unfold kept wanted
  cases hname : hasKey "Name" e.1 with
  | false => simp
  | true =>
    obtain ⟨entry, hentry⟩ := asDict_of_hasKey hname
    cases hasKey "IP Address" e.1 <;> cases e.2.available <;> simp [hentry]

/-- The statements raise if the entry has no name or there is no address left. -/
theorem dropped_iff {j : Json} {w : World} :
    (∃ e, masterNameAddr j w = .error e w) ↔
      (hasKey "Name" j = true → w.available = false) := by
  constructor
  · intro h hname
    obtain ⟨e, h⟩ := h
    have hnone := masterNameAddr_error h
    rw [kept, hname, Bool.true_and] at hnone
    obtain ⟨entry, hentry⟩ := asDict_of_hasKey hname
    by_contra havail
    rw [if_pos (by simpa using havail), hentry] at hnone
    cases hnone
  · intro h
    cases hrun : masterNameAddr j w with
    | error e w' => exact ⟨e, by rw [masterNameAddr_keeps hrun]⟩
    | ok r w' =>
      obtain ⟨entry, host, hosts, hentry, hname, hcidr, -⟩ := masterNameAddr_iff.mp hrun
      have havail := h (by simp only [hasKey, hentry, Dict.mem_keys, hname, decide_eq_true_eq]; simp)
      simp [World.available, hcidr] at havail

/-- **When no master is dropped.** Of a configuration that is accepted, every entry that is
to become a master becomes one exactly if the generator exists and has an address left
whenever the loop reaches an entry with a name and an address of its own. -/
theorem none_dropped_iff {env : Env} {cfg : Config} {w w' : World} {nodes : Nodes}
    {entries : List Json} (hentries : masterEntries cfg = .ok entries)
    (h : processNodes env cfg w = .ok nodes w') :
    NoneDropped nodes.masters (reached env cfg .init w entries) ↔
      ∀ e ∈ reached env cfg .init w entries,
        hasKey "Name" e.1 = true → hasKey "IP Address" e.1 = true → e.2.available = true := by
  obtain ⟨st, groups, -, -, hr⟩ := processNodes_ok h
  obtain ⟨entries', w₁, hentries', hloop⟩ := hr.masters
  cases hentries.symm.trans hentries'
  obtain ⟨hkept, hips⟩ := processMasters_entries hloop
  have hips : ∀ k ∈ st.masterNodes, ∀ ip, k.entry.get? "IP Address" = some ip →
      k.node.ipaddr = ip := fun k hk => (hips k hk).resolve_left (by simp [ParserState.init])
  unfold NoneDropped
  rw [hr.masters_eq, hkept]
  simp only [ParserState.init, List.map_nil, List.nil_append, ← kept_eq_wanted]
  exact (and_iff_left hips).trans (filterMap_eq_iff kept_or)

/-- The entries of `sharedConfig`. -/
def sharedEntries : List Json :=
  [entry "M1" "10.1.0.1" ["S1", "S2"], entry "M2" "10.1.0.2" ["S1"], entry "M3" "10.1.0.3" ["S3"]]

theorem none_dropped_shared : ∃ nodes w', processNodes plainEnv sharedConfig freshWorld =
    .ok nodes w' ∧ NoneDropped nodes.masters
      (reached plainEnv sharedConfig .init freshWorld sharedEntries) := by
  have hrun : ∃ nodes w', processNodes plainEnv sharedConfig freshWorld = .ok nodes w' :=
    ⟨_, _, rfl⟩
  obtain ⟨nodes, w', h⟩ := hrun
  exact ⟨nodes, w', h, (@none_dropped_iff plainEnv sharedConfig freshWorld w' nodes sharedEntries
    rfl h).mpr (by decide)⟩

/-- Two masters with addresses of their own, and no "CIDR Notation". -/
def addressedConfig : Config :=
  Dict.ofList [
    ("Master Nodes", .arr [entry "M1" "10.1.0.1" ["S1"], entry "M2" "10.1.0.2" ["S1"]]),
    ("S1", .obj [("IP Address", .str "192.13.13.12"), ("Data Count", .num 17)])]

/-- Both are dropped. -/
theorem masters_dropped : ¬ ∀ env cfg w nodes w' entries, masterEntries cfg = .ok entries →
    processNodes env cfg w = .ok nodes w' →
    NoneDropped nodes.masters (reached env cfg .init w entries) := by
  intro hdropped
  have hnames := (hdropped plainEnv addressedConfig { cidr := none, vnictrack := 0, up := [] }
    { masters := [], outstations := [] } _ _ rfl rfl).1
  exact absurd (congrArg List.length hnames) (by decide)

end IcsTrafficGen.Modbus

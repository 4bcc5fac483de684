import IcsTrafficGen.Dnp3.InjectDataChanges

/- What a list of updates shows of the out cells (`Shows`), as far as its last updates go.
   A script publishes the configured cells of its channel, so whatever was published
   before it, the last updates of its channel are those cells (`Shows.script`). -/
namespace IcsTrafficGen.Dnp3
open MappingOutstation

/-! ## The last update of an index -/

theorem lastUpdate_append (old new : List Update) (c : Channel) (i : Int) :
    lastUpdate (old ++ new) c i = (lastUpdate new c i).or (lastUpdate old c i) := by
  simp [lastUpdate, List.getLast?_append]

theorem mem_of_lastUpdate {updates : List Update} {c : Channel} {i : Int} {u : Update}
    (h : lastUpdate updates c i = some u) : u ∈ updates ∧ u.meas.channel = c ∧ u.index = i := by
  have hmem := List.mem_of_getLast? h
  rw [List.mem_filter, decide_eq_true_eq] at hmem
  exact hmem

theorem lastUpdate_of_mem {updates : List Update} {u : Update} (h : u ∈ updates) :
    ∃ u', lastUpdate updates u.meas.channel u.index = some u' := by
  cases hlast : lastUpdate updates u.meas.channel u.index with
  | some u' => exact ⟨u', rfl⟩
  | none =>
    rw [lastUpdate, List.getLast?_eq_none_iff, List.filter_eq_nil_iff] at hlast
    exact absurd (by simp) (hlast u h)

theorem onlineUpdate_some {c : Channel} {m : MappingOutstation} {i : Int} {u : Update}
    (h : onlineUpdate c m i = some u) : u.meas.channel = c ∧ u.index = i := by
  unfold onlineUpdate at h
  split at h
  · obtain ⟨meas, hmeas, rfl⟩ := Option.map_eq_some_iff.mp h
    exact ⟨channel_of_meas (Fallible.toOption_eq_some.mp hmeas), rfl⟩
  · cases h

section
variable {c d : Channel} {m : MappingOutstation} {i : Int} {indexes : List Int}
variable {updates : List Update}

theorem lastUpdate_script
    (hupdates : ∀ u, u ∈ updates ↔ ∃ i ∈ indexes, onlineUpdate c m i = some u) (hi : i ∈ indexes) :
    lastUpdate updates c i = onlineUpdate c m i := by
  ext u
  constructor
  · intro h
    obtain ⟨hmem, -, rfl⟩ := mem_of_lastUpdate h
    obtain ⟨j, -, hj⟩ := (hupdates u).mp hmem
    rwa [← (onlineUpdate_some hj).2] at hj
  · intro h
    obtain ⟨rfl, rfl⟩ := onlineUpdate_some h
    obtain ⟨u', hu'⟩ := lastUpdate_of_mem ((hupdates u).mpr ⟨u.index, hi, h⟩)
    obtain ⟨hmem, -, hindex⟩ := mem_of_lastUpdate hu'
    obtain ⟨j, -, hj⟩ := (hupdates u').mp hmem
    rw [← (onlineUpdate_some hj).2, hindex, h] at hj
    rw [hu', hj]

theorem lastUpdate_script_other
    (hupdates : ∀ u, u ∈ updates ↔ ∃ i ∈ indexes, onlineUpdate c m i = some u)
    (hi : ¬ (d = c ∧ i ∈ indexes)) : lastUpdate updates d i = none := by
  rw [Option.eq_none_iff_forall_ne_some]
  intro u h
  obtain ⟨hmem, hchannel, hindex⟩ := mem_of_lastUpdate h
  obtain ⟨j, hj, honline⟩ := (hupdates u).mp hmem
  obtain ⟨hc, hu⟩ := onlineUpdate_some honline
  refine hi ⟨hchannel.symm.trans hc, ?_⟩
  rwa [← hindex, hu]

end

/-! ## What is shown -/

/-- The new updates carry the out cells of the indexes in `S`, and no other index. -/
structure Shows (c : Channel) (S : Int → Prop) (m : MappingOutstation) (new : List Update) :
    Prop where
  shown : ∀ i, S i → ∃ u, onlineUpdate c m i = some u ∧ lastUpdate new c i = some u
  hidden : ∀ i, ¬ S i → lastUpdate new c i = none

theorem onlineUpdate_congr {c : Channel} {m m' : MappingOutstation} {i : Int}
    (h : Cpp.vecGet (m.outValues c) i = Cpp.vecGet (m'.outValues c) i) :
    onlineUpdate c m i = onlineUpdate c m' i := by
  unfold onlineUpdate
  rw [h]

theorem Shows.congr {c : Channel} {S S' : Int → Prop} {m m' : MappingOutstation}
    {new : List Update} (h : Shows c S m new) (hS : ∀ i, S i ↔ S' i)
    (hm : m'.outValues c = m.outValues c) : Shows c S' m' new where
  shown i hi := by
    have honline : onlineUpdate c m' i = onlineUpdate c m i := onlineUpdate_congr (by rw [hm])
    rw [honline]
    exact h.shown i ((hS i).mpr hi)
  hidden i hn := h.hidden i (fun hi => hn ((hS i).mp hi))

/-- The index is configured, and its out cell exists. -/
def Scripted (m : MappingOutstation) (c : Channel) (i : Int) : Prop :=
  i ∈ configuredIndexes m.node c ∧ 0 ≤ i ∧ i < (m.outValues c).length

instance (m : MappingOutstation) (c : Channel) (i : Int) : Decidable (Scripted m c i) :=
  inferInstanceAs (Decidable (_ ∧ _))

section
variable {c d : Channel} {m : MappingOutstation} {S : Int → Prop} {new updates : List Update}

theorem exists_onlineUpdate (hplain : ∀ pt ∈ m.outValues c, Plain c pt.value) {i : Int} :
    (∃ u, onlineUpdate c m i = some u) ↔ 0 ≤ i ∧ i < (m.outValues c).length := by
  constructor
  · intro h
    obtain ⟨u, hu⟩ := h
    unfold onlineUpdate at hu
    split at hu
    · next hget =>
      obtain ⟨h0, hpt⟩ := Cpp.vecGet_ok.mp hget
      have hlt := (List.getElem?_eq_some_iff.mp hpt).1
      omega
    · cases hu
  · intro h
    obtain ⟨pt, hpt⟩ := Cpp.vecGet_of_lt h.1 h.2
    obtain ⟨meas, hmeas⟩ := (hplain pt (mem_of_vecGet hpt)).meas
    simp [onlineUpdate, hpt, hmeas, Except.toOption]

/-- After the script of a channel all its configured cells stand in the builder. -/
theorem Shows.script (hnew : ∀ i, ¬ Scripted m c i → lastUpdate new c i = none)
    (hplain : ∀ pt ∈ m.outValues c, Plain c pt.value)
    (hupdates : ∀ u, u ∈ updates ↔ ∃ i ∈ configuredIndexes m.node c, onlineUpdate c m i = some u) :
    Shows c (Scripted m c) m (new ++ updates) where
  shown i hi := by
    obtain ⟨u, hu⟩ := (exists_onlineUpdate hplain).mpr hi.2
    refine ⟨u, hu, ?_⟩
    rw [lastUpdate_append, lastUpdate_script hupdates hi.1, hu, Option.some_or]
  hidden i hn := by
    rw [lastUpdate_append, hnew i hn, Option.or_none]
    by_cases hi : i ∈ configuredIndexes m.node c
    · rw [lastUpdate_script hupdates hi, Option.eq_none_iff_forall_ne_some]
      intro u hu
      exact hn ⟨hi, (exists_onlineUpdate hplain).mp ⟨u, hu⟩⟩
    · exact lastUpdate_script_other hupdates (fun e => hi e.2)

/-- The script of another channel publishes nothing of this one. -/
theorem Shows.other_script (h : Shows d S m new) (hd : d ≠ c)
    (hupdates : ∀ u, u ∈ updates ↔ ∃ i ∈ configuredIndexes m.node c, onlineUpdate c m i = some u) :
    Shows d S m (new ++ updates) where
  shown i hi := by
    obtain ⟨u, hu, hlast⟩ := h.shown i hi
    refine ⟨u, hu, ?_⟩
    rw [lastUpdate_append, lastUpdate_script_other hupdates (fun e => hd e.1), Option.none_or, hlast]
  hidden i hn := by
    rw [lastUpdate_append, lastUpdate_script_other hupdates (fun e => hd e.1), Option.none_or]
    exact h.hidden i hn

end

end IcsTrafficGen.Dnp3

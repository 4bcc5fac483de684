import IcsTrafficGen.Dnp3.InjectDataChanges

/- The tables that a script leaves for the program: `int` keys, one above the index of a point,
   and numbers. An entry is read by way of two conversions, and the ones whose keys stand for
   configured indexes become updates, one for each (`entryUpdates_forall₂`). -/
namespace IcsTrafficGen.Dnp3

/-! ## Keys -/

/-- A key that is an `int`. -/
def intKey (k : Int) : LuaValue := .number (.fin (k : ℚ))

theorem intKey_inj {k k' : Int} (h : intKey k = intKey k') : k = k' := by
  simpa only [intKey, LuaValue.number.injEq, Double.fin.injEq, Int.cast_inj] using h

/-- A table with `int` keys and numbers under them. -/
def IntKeyed (t : LuaTable) : Prop :=
  ∀ p ∈ t.entries.entries, ∃ k v, Cpp.InInt k ∧ p = (intKey k, .number v)

/-- A table with one entry. -/
def oneEntry (key v : LuaValue) (h : LuaValue.nil ≠ key) : LuaTable where
  entries := ⟨[(key, v)], List.nodup_singleton _⟩
  nil_notMem := by simpa [Dict.keys] using h

/-- A table with these numbers under these `int` keys. -/
def intTable (es : List (Int × Double)) (h : (es.map Prod.fst).Nodup) : LuaTable where
  entries := ⟨es.map fun e => (intKey e.1, .number e.2), by
    have hkeys : (es.map fun e => (intKey e.1, LuaValue.number e.2)).map Prod.fst =
        (es.map Prod.fst).map intKey := by simp [Function.comp_def]
    rw [hkeys]
    exact h.map fun _ _ => intKey_inj⟩
  nil_notMem := by simp [Dict.keys, intKey]

theorem mem_intTable {es : List (Int × Double)} {h : (es.map Prod.fst).Nodup}
    {p : LuaValue × LuaValue} :
    p ∈ (intTable es h).entries.entries ↔ ∃ e ∈ es, (intKey e.1, .number e.2) = p := List.mem_map

theorem intKeyed_intTable {es : List (Int × Double)} {h : (es.map Prod.fst).Nodup}
    (hkeys : ∀ e ∈ es, Cpp.InInt e.1) : IntKeyed (intTable es h) := by
  intro p hp
  obtain ⟨e, he, rfl⟩ := mem_intTable.mp hp
  exact ⟨e.1, e.2, hkeys e he, rfl⟩

/-- A table with one of them. -/
def intEntry (k : Int) (v : Double) : LuaTable := intTable [(k, v)] (List.nodup_singleton k)

theorem intKeyed_intEntry {k : Int} (hk : Cpp.InInt k) (v : Double) : IntKeyed (intEntry k v) :=
  intKeyed_intTable (by simpa using hk)

/-- The largest `lua_Integer` of 64 or of 32 bits. -/
def maxOf (wide : Bool) : Int := if wide then 9223372036854775807 else 2147483647

theorem maxOf_ge (wide : Bool) : 2147483647 ≤ maxOf wide := by cases wide <;> decide

theorem perm_entries (t : LuaTable) : t.entries.entries.Perm t.entries.entries := List.Perm.refl _

/-- Tables are traversed in the order of their entries, and no string is a number. -/
def plainEnv (wide : Bool)
    (callFunction : ℕ → List LuaValue → LuaWorld → Cpp (List LuaValue × LuaWorld)) : LuaEnv where
  maxInteger := maxOf wide
  maxInteger_ge := maxOf_ge wide
  traversal t := t.entries.entries
  traversal_perm := perm_entries
  tonumber _ := none
  callFunction := callFunction

/-- The key stands for one of the indexes. -/
def StandsFor (indexes : List Int) (key : LuaValue) : Prop := ∃ i ∈ indexes, key = intKey (i + 1)

instance (indexes : List Int) (key : LuaValue) : Decidable (StandsFor indexes key) :=
  inferInstanceAs (Decidable (∃ i ∈ indexes, _))

/-- The entries that a loop reads: all, or without indexes of the type only the first. -/
def readEntries (env : LuaEnv) (indexes : Option (List Int)) (t : LuaTable) :
    List (LuaValue × LuaValue) :=
  if indexes.isSome then env.traversal t else (env.traversal t).take 1

theorem mem_of_mem_readEntries {env : LuaEnv} {indexes : Option (List Int)} {t : LuaTable}
    {p : LuaValue × LuaValue} (h : p ∈ readEntries env indexes t) : p ∈ t.entries.entries := by
  have hperm := env.traversal_perm t
  unfold readEntries at h
  split at h
  · exact hperm.mem_iff.mp h
  · exact hperm.mem_iff.mp (List.mem_of_mem_take h)

/-- Only the entries of a configured type stand for an index, and of these all are read. -/
theorem mem_readEntries {env : LuaEnv} {indexes : Option (List Int)} {t : LuaTable}
    {p : LuaValue × LuaValue} (hp : p ∈ env.traversal t)
    (hstands : StandsFor (indexes.getD []) p.1) : p ∈ readEntries env indexes t := by
  cases indexes with
  | none =>
    obtain ⟨i, hi, -⟩ := hstands
    cases hi
  | some indexes => exact hp

/-- The entry can be read: its key and its value survive their conversions. -/
structure Fits (env : LuaEnv) (conv : Double → Cpp Meas) (indexes : List Int) (k : Int)
    (v : Double) : Prop where
  -- the key is decremented as a `lua_Integer` and narrowed to `int`
  min : -env.maxInteger ≤ k
  wrap : k = -2147483648 → 2147483647 ∉ indexes
  meas : ∃ meas, conv v = .ok meas

section
variable {indexes : List Int} {k : Int}

theorem standsFor_intKey : StandsFor indexes (intKey k) ↔ k - 1 ∈ indexes := by
  simp only [StandsFor, intKey, LuaValue.number.injEq, Double.fin.injEq, Int.cast_inj]
  constructor
  · rintro ⟨i, hi, rfl⟩
    rwa [add_sub_cancel_right]
  · exact fun h => ⟨k - 1, h, (sub_add_cancel k 1).symm⟩

/-- The narrowed index is configured exactly if the key stands for a configured one. -/
theorem wrapInt_mem (hindexes : ∀ i ∈ indexes, Cpp.InInt i) (hk : Cpp.InInt k)
    (hwrap : k = -2147483648 → 2147483647 ∉ indexes) :
    Cpp.wrapInt (k - 1) ∈ indexes ↔ StandsFor indexes (intKey k) := by
  rw [standsFor_intKey]
  by_cases hmin : k = -2147483648
  · subst hmin
    have htop : Cpp.wrapInt (-2147483648 - 1) = 2147483647 := by decide
    rw [htop]
    refine iff_of_false (hwrap rfl) fun hmem => ?_
    exact absurd (hindexes _ hmem) (by decide)
  · rw [Cpp.wrapInt_of_inInt]
    unfold Cpp.InInt at hk ⊢
    omega

end

/-! ## Updates -/

/-- The update of an entry, its value converted by `conv`, with the time that belongs to the
index. -/
structure IsUpdate (conv : Double → Cpp Meas) (time : Int → Cpp Int) (p : LuaValue × LuaValue)
    (u : Update) : Prop where
  key : p.1 = intKey (u.index + 1)
  value : ∃ v, p.2 = .number v ∧ conv v = .ok u.meas
  quality : u.quality = .online
  time : time u.index = .ok u.time

/-- What an entry adds to the builder. -/
def entryUpdate (conv : Double → Cpp Meas) (time : Int → Cpp Int) (indexes : List Int) :
    LuaValue × LuaValue → Option Update
  | (.number (.fin q), .number v) =>
    if StandsFor indexes (.number (.fin q)) then
      match conv v, time (⌊q⌋ - 1) with
      | .ok meas, .ok t => some { meas := meas, quality := .online, time := t, index := ⌊q⌋ - 1 }
      | _, _ => none
    else none
  | _ => none

section
variable {conv : Double → Cpp Meas} {time : Int → Cpp Int} {indexes : List Int} {k : Int}
variable {v : Double} {meas : Meas} {t : Int}

theorem entryUpdate_of_not (h : ¬ StandsFor indexes (intKey k)) :
    entryUpdate conv time indexes (intKey k, .number v) = none := by
  simp only [entryUpdate, intKey]
  exact if_neg h

theorem entryUpdate_of_standsFor (h : StandsFor indexes (intKey k)) (hmeas : conv v = .ok meas)
    (htime : time (k - 1) = .ok t) : entryUpdate conv time indexes (intKey k, .number v) =
      some { meas := meas, quality := .online, time := t, index := k - 1 } := by
  have hfloor : ⌊(k : ℚ)⌋ = k := Int.floor_intCast k
  simp only [entryUpdate, intKey, hfloor, hmeas, htime]
  exact if_pos h

theorem entryUpdate_nil (p : LuaValue × LuaValue) : entryUpdate conv time [] p = none := by
  unfold entryUpdate
  split
  · rw [if_neg]
    rintro ⟨i, hi, -⟩
    cases hi
  · rfl

/-- A table gives one update for each entry whose key stands for a configured index. -/
theorem entryUpdates_forall₂ {entries : List (LuaValue × LuaValue)}
    (h : ∀ p ∈ entries, ∃ k v, p = (intKey k, .number v) ∧ (StandsFor indexes (intKey k) →
      (∃ meas, conv v = .ok meas) ∧ ∃ t, time (k - 1) = .ok t)) :
    List.Forall₂ (IsUpdate conv time) (entries.filter fun p => StandsFor indexes p.1)
      (entries.filterMap (entryUpdate conv time indexes)) := by
  induction entries with
  | nil => exact .nil
  | cons p entries ih =>
    obtain ⟨⟨k, v, rfl, hread⟩, hrest⟩ := List.forall_mem_cons.mp h
    by_cases hstands : StandsFor indexes (intKey k)
    · obtain ⟨⟨meas, hmeas⟩, t, ht⟩ := hread hstands
      rw [List.filter_cons_of_pos (by simpa using hstands),
        List.filterMap_cons_some (entryUpdate_of_standsFor hstands hmeas ht)]
      exact .cons ⟨congrArg intKey (sub_add_cancel k 1).symm, ⟨v, rfl, hmeas⟩, rfl, ht⟩ (ih hrest)
    · rw [List.filter_cons_of_neg (by simpa using hstands),
        List.filterMap_cons_none (entryUpdate_of_not hstands)]
      exact ih hrest

/-- The loop over a table adds the updates of its entries one after the other. -/
theorem foldl_entryUpdate (entries : List (LuaValue × LuaValue)) (updates : List Update) :
    entries.foldl (fun s p => s ++ (entryUpdate conv time indexes p).toList) updates =
      updates ++ entries.filterMap (entryUpdate conv time indexes) := by
  rw [List.foldl_append_eq_append, List.filterMap_eq_flatMap_toList]
  rfl

end

end IcsTrafficGen.Dnp3

import Mathlib.Data.List.Sort

/- Dictionaries: association lists with distinct keys. `set` keeps a key it finds
   in place and appends a new one, as a Python `dict` does; `insert` puts a new
   key in key order, as a C++ `std::map` does. To a lookup the two are the same
   (`get?_set`, `get?_insert`). Mathlib's `AList` moves the key it writes to the
   front, so iterating it would not show the order the two languages promise. -/
namespace IcsTrafficGen

structure Dict (κ υ : Type) where
  entries : List (κ × υ)
  nodup : (entries.map Prod.fst).Nodup
  deriving DecidableEq

namespace Dict
variable {κ υ : Type}

def empty : Dict κ υ := ⟨[], List.nodup_nil⟩

def keys (d : Dict κ υ) : List κ := d.entries.map Prod.fst

def values (d : Dict κ υ) : List υ := d.entries.map Prod.snd

theorem nodup_keys (d : Dict κ υ) : d.keys.Nodup := d.nodup

variable [DecidableEq κ]

def get? (d : Dict κ υ) (k : κ) : Option υ :=
  (d.entries.find? (fun e => e.1 = k)).map Prod.snd

@[simp] theorem get?_empty (k : κ) : (empty : Dict κ υ).get? k = none := rfl

theorem get?_eq_some {d : Dict κ υ} {k : κ} {v : υ} : d.get? k = some v ↔ (k, v) ∈ d.entries := by
  simp only [get?, Option.map_eq_some_iff]
  constructor
  · intro h
    obtain ⟨⟨k', v'⟩, hfind, rfl⟩ := h
    have hk : k' = k := by simpa using List.find?_some hfind
    exact hk ▸ List.mem_of_find?_eq_some hfind
  · intro hmem
    cases hfind : d.entries.find? (fun e => e.1 = k) with
    | none => exact absurd (List.find?_eq_none.mp hfind _ hmem) (by simp)
    | some e =>
      have hk : e.1 = k := by simpa using List.find?_some hfind
      have he := List.inj_on_of_nodup_map d.nodup (List.mem_of_find?_eq_some hfind) hmem hk
      exact ⟨e, rfl, by rw [he]⟩

theorem mem_keys {d : Dict κ υ} {k : κ} : k ∈ d.keys ↔ ∃ v, d.get? k = some v := by
  simp [keys, get?_eq_some]

theorem get?_eq_none {d : Dict κ υ} {k : κ} : d.get? k = none ↔ k ∉ d.keys := by
  rw [mem_keys, Option.eq_none_iff_forall_not_mem]
  simp

/-! ## Writing a key -/

def setEntries (k : κ) (v : υ) : List (κ × υ) → List (κ × υ)
  | [] => [(k, v)]
  | e :: es => if e.1 = k then (k, v) :: es else e :: setEntries k v es

theorem setEntries_keys (k : κ) (v : υ) (es : List (κ × υ)) :
    (setEntries k v es).map Prod.fst =
      if k ∈ es.map Prod.fst then es.map Prod.fst else es.map Prod.fst ++ [k] := by
  induction es with
  | nil => rfl
  | cons e es ih =>
    by_cases h : e.1 = k
    · simp [setEntries, h]
    · have h' : ¬ k = e.1 := fun e' => h e'.symm
      simp only [setEntries, h, if_false, List.map_cons, ih, List.mem_cons, h', false_or]
      split <;> simp

theorem setEntries_nodup (k : κ) (v : υ) {es : List (κ × υ)} (h : (es.map Prod.fst).Nodup) :
    ((setEntries k v es).map Prod.fst).Nodup := by
  rw [setEntries_keys]
  split
  · exact h
  · next hk =>
    rw [← List.concat_eq_append]
    exact h.concat hk

/-- `d[k] = v` in Python. -/
def set (d : Dict κ υ) (k : κ) (v : υ) : Dict κ υ :=
  ⟨setEntries k v d.entries, setEntries_nodup k v d.nodup⟩

theorem find?_setEntries (k k' : κ) (v : υ) (es : List (κ × υ)) :
    ((setEntries k v es).find? (fun e => e.1 = k')).map Prod.snd =
      if k' = k then some v else (es.find? (fun e => e.1 = k')).map Prod.snd := by
  induction es with
  | nil =>
    by_cases h : k' = k
    · simp [setEntries, h]
    · have h' : ¬ k = k' := fun e => h e.symm
      simp [setEntries, h, h']
  | cons e es ih =>
    by_cases he : e.1 = k
    · by_cases h : k' = k
      · simp [setEntries, he, h]
      · have h' : ¬ k = k' := fun e => h e.symm
        simp [setEntries, he, h, h']
    · simp only [setEntries, he, if_false, List.find?_cons]
      by_cases hk : e.1 = k'
      · have h' : ¬ k' = k := fun e' => he (hk.trans e')
        simp [hk, h']
      · simpa [hk] using ih

theorem get?_set (d : Dict κ υ) (k k' : κ) (v : υ) :
    (d.set k v).get? k' = if k' = k then some v else d.get? k' :=
  find?_setEntries k k' v d.entries

@[simp] theorem get?_set_self (d : Dict κ υ) (k : κ) (v : υ) : (d.set k v).get? k = some v := by
  rw [get?_set, if_pos rfl]

theorem get?_set_of_ne (d : Dict κ υ) {k k' : κ} (v : υ) (h : k' ≠ k) :
    (d.set k v).get? k' = d.get? k' := by
  rw [get?_set, if_neg h]

theorem keys_set (d : Dict κ υ) (k : κ) (v : υ) :
    (d.set k v).keys = if k ∈ d.keys then d.keys else d.keys ++ [k] :=
  setEntries_keys k v d.entries

theorem mem_keys_set {d : Dict κ υ} {k k' : κ} {v : υ} :
    k' ∈ (d.set k v).keys ↔ k' = k ∨ k' ∈ d.keys := by
  rw [keys_set]
  split
  · next h => exact ⟨Or.inr, fun o => o.elim (fun e => e ▸ h) id⟩
  · simp [or_comm]

/-- `d.update(es)`: the entries written one after another. -/
def update (d : Dict κ υ) (es : List (κ × υ)) : Dict κ υ :=
  es.foldl (fun d e => d.set e.1 e.2) d

/-- A dictionary comprehension: a later entry overwrites an earlier one. -/
def ofList (es : List (κ × υ)) : Dict κ υ := empty.update es

/-- A key the list gives one value has that value afterwards. -/
theorem get?_update_of_mem {es : List (κ × υ)} {k : κ} {v : υ} (d : Dict κ υ)
    (hmem : k ∈ es.map Prod.fst) (h : ∀ e ∈ es, e.1 = k → e.2 = v) :
    (d.update es).get? k = some v := by
  suffices ∀ (d : Dict κ υ), (k ∈ es.map Prod.fst ∨ d.get? k = some v) →
      (d.update es).get? k = some v from this d (Or.inl hmem)
  clear hmem d
  induction es with
  | nil => intro d hd; simpa [update] using hd
  | cons e es ih =>
    intro d hd
    apply ih (fun x hx => h x (List.mem_cons_of_mem e hx)) (d.set e.1 e.2)
    by_cases hk : k = e.1
    · right
      rw [hk, get?_set_self, h e List.mem_cons_self hk.symm]
    · rw [get?_set_of_ne d e.2 hk]
      simpa [hk] using hd

theorem get?_update_of_notMem {es : List (κ × υ)} {k : κ} (d : Dict κ υ)
    (hmem : k ∉ es.map Prod.fst) : (d.update es).get? k = d.get? k := by
  induction es generalizing d with
  | nil => rfl
  | cons e es ih =>
    rw [List.map_cons, List.mem_cons, not_or] at hmem
    exact (ih (d.set e.1 e.2) hmem.2).trans (get?_set_of_ne d e.2 hmem.1)

/-- `d.update(dict.fromkeys(ks, v))`. -/
theorem get?_update_fromKeys (d : Dict κ υ) (ks : List κ) (v : υ) (k : κ) :
    (d.update (ks.map fun k => (k, v))).get? k = if k ∈ ks then some v else d.get? k := by
  split
  · next hk => exact get?_update_of_mem _ (by simpa using hk) (by simp)
  · next hk => exact get?_update_of_notMem _ (by simpa using hk)

theorem mem_keys_update {d : Dict κ υ} {es : List (κ × υ)} {k : κ} :
    k ∈ (d.update es).keys ↔ k ∈ d.keys ∨ k ∈ es.map Prod.fst := by
  induction es generalizing d with
  | nil => simp [update]
  | cons e es ih =>
    have := ih (d := d.set e.1 e.2)
    rw [mem_keys_set] at this
    rw [List.map_cons, List.mem_cons]
    exact this.trans (by tauto)

theorem mem_keys_ofList {es : List (κ × υ)} {k : κ} :
    k ∈ (ofList es).keys ↔ k ∈ es.map Prod.fst := by
  unfold ofList
  rw [mem_keys_update]
  simp [keys, empty]

theorem mem_of_get?_update {d : Dict κ υ} {es : List (κ × υ)} {k : κ} {v : υ}
    (h : (d.update es).get? k = some v) : (k, v) ∈ es ∨ d.get? k = some v := by
  induction es generalizing d with
  | nil => exact Or.inr h
  | cons e es ih =>
    rcases ih h with h | h
    · exact Or.inl (List.mem_cons_of_mem e h)
    · rw [get?_set] at h
      split at h
      · next hk =>
        cases h
        exact Or.inl (hk ▸ List.mem_cons_self)
      · exact Or.inr h

theorem mem_of_get?_ofList {es : List (κ × υ)} {k : κ} {v : υ} (h : (ofList es).get? k = some v) :
    (k, v) ∈ es := (mem_of_get?_update h).resolve_right (by simp)

/-- A comprehension over a list: the value of `f` at any key that comes from the list. -/
theorem get?_ofList_map {α : Type} {l : List α} {key : α → κ} {f : α → υ} {a : α} (ha : a ∈ l)
    (hinj : ∀ b ∈ l, key b = key a → f b = f a) :
    (ofList (l.map (fun b => (key b, f b)))).get? (key a) = some (f a) := by
  refine get?_update_of_mem _ ?_ ?_
  · rw [List.map_map]
    exact List.mem_map.mpr ⟨a, ha, rfl⟩
  · intro e he hk
    obtain ⟨b, hb, rfl⟩ := List.mem_map.mp he
    exact hinj b hb hk

theorem mem_keys_ofList_map {α : Type} {l : List α} {key : α → κ} {f : α → υ} {k : κ} :
    k ∈ (ofList (l.map (fun b => (key b, f b)))).keys ↔ ∃ a ∈ l, key a = k := by
  rw [mem_keys_ofList, List.map_map, List.mem_map]
  rfl

/-- A comprehension does not depend on the order of the list, if it gives one key one value. -/
theorem get?_ofList_map_perm {α : Type} {l l' : List α} (h : l.Perm l') {key : α → κ} {f : α → υ}
    (hinj : ∀ a ∈ l, ∀ b ∈ l, key b = key a → f b = f a) (k : κ) :
    (ofList (l.map (fun b => (key b, f b)))).get? k =
      (ofList (l'.map (fun b => (key b, f b)))).get? k := by
  by_cases hk : ∃ a ∈ l, key a = k
  · obtain ⟨a, ha, rfl⟩ := hk
    rw [get?_ofList_map ha (hinj a ha), get?_ofList_map (h.mem_iff.mp ha)]
    exact fun b hb => hinj a ha b (h.mem_iff.mpr hb)
  · have hk' : ¬ ∃ a ∈ l', key a = k := fun ⟨a, ha, hak⟩ => hk ⟨a, h.mem_iff.mpr ha, hak⟩
    rw [get?_eq_none.mpr (mt mem_keys_ofList_map.mp hk),
      get?_eq_none.mpr (mt mem_keys_ofList_map.mp hk')]

/-- Entries with different keys are kept as they are. -/
theorem entries_ofList {es : List (κ × υ)} (h : (es.map Prod.fst).Nodup) :
    (ofList es).entries = es := by
  have hset : ∀ {es' : List (κ × υ)} {e : κ × υ}, e.1 ∉ es'.map Prod.fst →
      setEntries e.1 e.2 es' = es' ++ [e] := by
    intro es' e he
    induction es' with
    | nil => rfl
    | cons e' es' ih =>
      rw [List.map_cons, List.mem_cons, not_or] at he
      rw [setEntries, if_neg fun heq => he.1 heq.symm, ih he.2, List.cons_append]
  have hupdate : ∀ {d : Dict κ υ}, (d.keys ++ es.map Prod.fst).Nodup →
      (d.update es).entries = d.entries ++ es := by
    induction es with
    | nil => simp [update]
    | cons e es ih =>
      intro d hd
      have he : e.1 ∉ d.keys := fun hmem =>
        (List.nodup_append.mp hd).2.2 _ hmem _ List.mem_cons_self rfl
      have hentries : (d.set e.1 e.2).entries = d.entries ++ [e] := hset he
      have hkeys : (d.set e.1 e.2).keys = d.keys ++ [e.1] := by rw [keys_set, if_neg he]
      rw [update, List.foldl_cons]
      refine (ih (List.nodup_cons.mp h).2 ?_).trans ?_
      · rw [hkeys, List.append_assoc]
        exact hd
      · rw [hentries, List.append_assoc]
        rfl
  exact hupdate (d := empty) h

theorem keys_update_of_subset {d : Dict κ υ} {es : List (κ × υ)} (h : ∀ e ∈ es, e.1 ∈ d.keys) :
    (d.update es).keys = d.keys := by
  induction es generalizing d with
  | nil => rfl
  | cons e es ih =>
    have hkeys : (d.set e.1 e.2).keys = d.keys := by
      rw [keys_set, if_pos (h e List.mem_cons_self)]
    refine (ih fun x hx => ?_).trans hkeys
    rw [hkeys]
    exact h x (List.mem_cons_of_mem e hx)

/-- A loop over the items that gives every key a new value. -/
theorem get?_update_entries (d : Dict κ υ) (f : κ × υ → υ) (k : κ) :
    (d.update (d.entries.map (fun e => (e.1, f e)))).get? k =
      (d.get? k).map (fun v => f (k, v)) := by
  have hfst : (d.entries.map (fun e => (e.1, f e))).map Prod.fst = d.keys := by
    rw [List.map_map]
    rfl
  cases hk : d.get? k with
  | none => rw [get?_update_of_notMem d (hfst ▸ get?_eq_none.mp hk), hk, Option.map_none]
  | some v =>
    refine get?_update_of_mem d (hfst ▸ mem_keys.mpr ⟨v, hk⟩) fun x hx hxk => ?_
    obtain ⟨e, he, rfl⟩ := List.mem_map.mp hx
    have : e = (k, v) := List.inj_on_of_nodup_map d.nodup he (get?_eq_some.mp hk) hxk
    rw [this]

/-! ## Size and removal -/

omit [DecidableEq κ] in
theorem length_keys (d : Dict κ υ) : d.keys.length = d.entries.length := List.length_map ..

def size (d : Dict κ υ) : ℕ := d.entries.length

theorem size_set_of_notMem {d : Dict κ υ} {k : κ} (v : υ) (h : k ∉ d.keys) :
    (d.set k v).size = d.size + 1 := by
  rw [size, size, ← length_keys, ← length_keys, keys_set, if_neg h, List.length_append]
  rfl

/-- `d.erase(k)`. -/
def erase (d : Dict κ υ) (k : κ) : Dict κ υ :=
  ⟨d.entries.filter (fun e => e.1 != k), d.nodup.sublist (List.filter_sublist.map Prod.fst)⟩

theorem get?_erase (d : Dict κ υ) (k k' : κ) :
    (d.erase k).get? k' = if k' = k then none else d.get? k' := by
  ext v
  rw [get?_eq_some, erase, List.mem_filter, ← get?_eq_some]
  by_cases h : k' = k <;> simp [h]

theorem mem_keys_erase {d : Dict κ υ} {k k' : κ} :
    k' ∈ (d.erase k).keys ↔ k' ≠ k ∧ k' ∈ d.keys := by
  rw [mem_keys, mem_keys, get?_erase]
  by_cases h : k' = k <;> simp [h]

theorem keys_erase (d : Dict κ υ) (k : κ) : (d.erase k).keys = d.keys.erase k := by
  rw [d.nodup_keys.erase_eq_filter, keys, keys, erase, List.filter_map]
  rfl

theorem size_erase_of_mem {d : Dict κ υ} {k : κ} (h : k ∈ d.keys) :
    (d.erase k).size = d.size - 1 := by
  rw [size, size, ← length_keys, ← length_keys, keys_erase, List.length_erase_of_mem h]

/-- Two keys with one value are one key, if no value occurs twice. -/
theorem eq_of_get?_of_values_nodup {d : Dict κ υ} (hd : d.values.Nodup) {k k' : κ} {v : υ}
    (h : d.get? k = some v) (h' : d.get? k' = some v) : k = k' :=
  congrArg Prod.fst
    (List.inj_on_of_nodup_map hd (get?_eq_some.mp h) (get?_eq_some.mp h') rfl)

theorem mem_values {d : Dict κ υ} {v : υ} : v ∈ d.values ↔ ∃ k, d.get? k = some v := by
  simp only [values, List.mem_map, get?_eq_some, Prod.exists, exists_eq_right]

theorem mem_values_of_get? {d : Dict κ υ} {k : κ} {v : υ} (h : d.get? k = some v) :
    v ∈ d.values := mem_values.mpr ⟨k, h⟩

/-- The value that the list last has for the key. -/
def lastValue? (es : List (κ × υ)) (k : κ) : Option υ :=
  ((es.filter fun e => e.1 = k).getLast?).map Prod.snd

theorem lastValue?_cons (e : κ × υ) (es : List (κ × υ)) (k : κ) :
    lastValue? (e :: es) k = (lastValue? es k).or (if e.1 = k then some e.2 else none) := by
  unfold lastValue?
  by_cases hk : e.1 = k
  · rw [List.filter_cons_of_pos (by simpa using hk), List.getLast?_cons, if_pos hk]
    cases (es.filter fun e => e.1 = k).getLast? <;> rfl
  · rw [List.filter_cons_of_neg (by simpa using hk), if_neg hk, Option.or_none]

/-! ## Inserting in key order -/

section
variable [LinearOrder κ]

/-- `d[k] = v` in a `std::map`. -/
def insert (d : Dict κ υ) (k : κ) (v : υ) : Dict κ υ :=
  if h : k ∈ d.keys then d.set k v
  else
    ⟨d.entries.orderedInsert (fun a b => a.1 ≤ b.1) (k, v), by
      apply (((List.perm_orderedInsert _ _ _).map Prod.fst).nodup_iff).mpr
      exact List.nodup_cons.mpr ⟨h, d.nodup⟩⟩

theorem get?_insert (d : Dict κ υ) (k k' : κ) (v : υ) :
    (d.insert k v).get? k' = if k' = k then some v else d.get? k' := by
  unfold insert
  split
  · exact get?_set d k k' v
  · next h =>
    have hperm : ∀ w, (k', w) ∈ d.entries.orderedInsert (fun a b => a.1 ≤ b.1) (k, v) ↔
        (k', w) = (k, v) ∨ (k', w) ∈ d.entries := fun w => by
      rw [(List.perm_orderedInsert _ _ _).mem_iff, List.mem_cons]
    ext w
    rw [get?_eq_some, hperm]
    by_cases hk : k' = k
    · subst hk
      have : (k', w) ∉ d.entries := fun hw => h (mem_keys.mpr ⟨w, get?_eq_some.mpr hw⟩)
      simp [this, eq_comm]
    · simp [hk, get?_eq_some]

theorem get?_foldl_insert (es : List (κ × υ)) (d : Dict κ υ) (k : κ) :
    (es.foldl (fun d e => d.insert e.1 e.2) d).get? k = (lastValue? es k).or (d.get? k) := by
  induction es generalizing d with
  | nil => rfl
  | cons e es ih =>
    rw [List.foldl_cons, ih, lastValue?_cons, get?_insert]
    by_cases hk : e.1 = k
    · rw [if_pos hk.symm, if_pos hk, Option.or_assoc, Option.some_or]
    · rw [if_neg (Ne.symm hk), if_neg hk, Option.or_none]

/-- The same value for every key of the list that `p` selects. -/
theorem get?_foldl_insert_const {α : Type} (p : α → Prop) [DecidablePred p] (key : α → κ) (v : υ)
    (l : List α) (d : Dict κ υ) (k : κ) :
    (l.foldl (fun d a => if p a then d.insert (key a) v else d) d).get? k =
      if ∃ a ∈ l, p a ∧ key a = k then some v else d.get? k := by
  induction l generalizing d with
  | nil => simp
  | cons a l ih =>
    have hcons : (∃ b ∈ a :: l, p b ∧ key b = k) ↔
        (p a ∧ key a = k) ∨ ∃ b ∈ l, p b ∧ key b = k := by simp
    rw [List.foldl_cons, ih]
    by_cases hl : ∃ b ∈ l, p b ∧ key b = k
    · rw [if_pos hl, if_pos (hcons.mpr (Or.inr hl))]
    · rw [if_neg hl, if_congr (hcons.trans (or_iff_left hl)) rfl rfl]
      by_cases hp : p a
      · rw [if_pos hp, get?_insert]
        exact if_congr (by rw [and_iff_right hp, eq_comm]) rfl rfl
      · rw [if_neg hp, if_neg fun h => hp h.1]

end
end Dict
end IcsTrafficGen

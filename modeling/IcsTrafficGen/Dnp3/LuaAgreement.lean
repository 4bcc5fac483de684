import IcsTrafficGen.Dnp3.Published

/- A pass with a script that changes nothing against a plain pass from the same state.
   Both copy the cells of the flagged sources, source by source and channel by channel,
   and the two are compared after each of these turns (`Stage`): their arrays and flags
   stay the same, the plain pass has published the points it copied, and the pass with
   the script every configured cell of the channels whose script it has invoked. -/
namespace IcsTrafficGen.Dnp3
open MappingOutstation

/-! ## Copying -/

/-- The arrays hold the mapped indexes, are no more than an `int` counts, and have plain
values in their cells. -/
structure Ready (m : MappingOutstation) : Prop where
  fitsIn : FitsIn m
  fitsOut : FitsOut m
  int : ∀ c, (m.outValues c).length ≤ 2147483647
  plainIn : ∀ c src, ∀ pt ∈ m.input c src, Plain c pt.value
  plainOut : ∀ c, ∀ pt ∈ m.outValues c, Plain c pt.value

/-- A plain pass and a pass with a script that started from `m₀` and have copied the points
of the set `T`: they have the same arrays and flags, and the builder has what was copied. -/
structure Moved (m₀ : MappingOutstation) (T : Channel → Int → Prop)
    (st : MappingOutstation × List Update) (m : MappingOutstation) : Prop extends Frame m₀ st where
  same : m = { st.1 with applied := m.applied }
  plain : ∀ c, ∀ pt ∈ st.1.outValues c, Plain c pt.value
  untouched : ∀ c i, ¬ T c i → onlineUpdate c st.1 i = onlineUpdate c m₀ i
  copied : ∀ c, Shows c (T c) st.1 st.2

section
variable {m₀ m : MappingOutstation} {T T' : Channel → Int → Prop}
variable {st : MappingOutstation × List Update} {c : Channel} {src : String} {dp : MappedDataPoint}

theorem Moved.congr (h : Moved m₀ T st m) (hT : ∀ c i, T c i ↔ T' c i) : Moved m₀ T' st m where
  toFrame := h.toFrame
  same := h.same
  plain := h.plain
  untouched c i hn := h.untouched c i (fun hi => hn ((hT c i).mp hi))
  copied c := (h.copied c).congr (hT c) rfl

theorem Moved.lower (h : Moved m₀ T st m) (c : Channel) (src : String) :
    Moved m₀ T (st.1.lower c src, st.2) (m.lower c src) where
  node := h.node
  values := h.values
  applied := h.applied
  length := h.length
  same := by
    have hflag : m.flag = st.1.flag := by rw [h.same]
    rw [MappingOutstation.lower, MappingOutstation.lower, hflag]
    conv_lhs => rw [h.same]
  plain := h.plain
  untouched := h.untouched
  copied d := (h.copied d).congr (fun _ => Iff.rfl) rfl

theorem Moved.publish (h : Moved m₀ T st m) (applied : List Update) :
    Moved m₀ T st { m with applied := applied } where
  toFrame := h.toFrame
  same := by
    conv_lhs => rw [h.same]
  plain := h.plain
  untouched := h.untouched
  copied := h.copied

/-- One point of the right type: both passes copy its cell, and the plain one publishes it. -/
theorem Moved.point (h : Moved m₀ T st m) (hm₀ : Ready m₀) (hmem : (src, dp) ∈ m₀.node.mapped)
    (htype : dp.pointType = c.pointType) : ∃ pt u,
    passPoint c src st dp = .ok (st.1.setOut c dp.index pt, st.2 ++ [u]) ∧
    copyPoint c src m dp = .ok (m.setOut c dp.index pt) ∧
    Moved m₀ (fun d i => T d i ∨ d = c ∧ dp.index = i) (st.1.setOut c dp.index pt, st.2 ++ [u])
      (m.setOut c dp.index pt) := by
  have hinput : st.1.input c src = m₀.input c src := by rw [input, input, h.values]
  have hin := hm₀.fitsIn c src dp hmem htype
  obtain ⟨pt, hpt⟩ := Cpp.vecGet_of_lt hin.1 hin.2
  have hplain : Plain c pt.value := hm₀.plainIn c src pt (mem_of_vecGet hpt)
  obtain ⟨meas, hmeas⟩ := hplain.meas
  have hrange : 0 ≤ dp.index ∧ dp.index < (st.1.outValues c).length := by
    rw [h.length]
    exact hm₀.fitsOut c src dp hmem htype
  let u : Update := { meas := meas, quality := .online, time := pt.timestamp, index := dp.index }
  have hcopy : st.1.copyCell c src dp = .ok (st.1.setOut c dp.index pt, pt) :=
    copyCell_ok.mpr ⟨by rw [hinput, hpt], hrange, rfl⟩
  have hcopy' : m.copyCell c src dp = .ok (m.setOut c dp.index pt, pt) := by
    refine copyCell_ok.mpr ⟨?_, ?_, rfl⟩ <;> rw [h.same]
    · exact (congrArg (fun v => Cpp.vecGet v dp.inputIndex) hinput).trans hpt
    · exact hrange
  have hpass : passPoint c src st dp = .ok (st.1.setOut c dp.index pt, st.2 ++ [u]) := by
    rw [passPoint, if_neg (not_not.mpr htype)]
    exact Fallible.bind_ok.mpr ⟨_, hcopy, Fallible.bind_ok.mpr ⟨meas, hmeas, rfl⟩⟩
  have hpoint : copyPoint c src m dp = .ok (m.setOut c dp.index pt) := by
    rw [copyPoint, if_neg (not_not.mpr htype)]
    exact Fallible.bind_ok.mpr ⟨_, hcopy', rfl⟩
  have honline : onlineUpdate c (st.1.setOut c dp.index pt) dp.index = some u := by
    simp only [onlineUpdate, vecGet_setOut_self pt hrange, hmeas, Except.toOption,
      Option.map_some, u]
  have hu := onlineUpdate_some honline
  have hothers : ∀ d i, ¬ (d = c ∧ dp.index = i) →
      onlineUpdate d (st.1.setOut c dp.index pt) i = onlineUpdate d st.1 i := by
    intro d i hne
    exact onlineUpdate_congr (vecGet_setOut_of_ne pt hrange.1 (fun e => hne ⟨e.1.symm, e.2⟩))
  have hlast : ∀ d i, ¬ (d = c ∧ dp.index = i) →
      lastUpdate (st.2 ++ [u]) d i = lastUpdate st.2 d i := by
    intro d i hne
    exact lastUpdate_snoc_of_ne (fun e => hne ⟨e.1.symm.trans hu.1, e.2⟩)
  refine ⟨pt, u, hpass, hpoint, h.toFrame.passPoint hpass, ?_, ?_, ?_, fun d => ⟨?_, ?_⟩⟩
  · have hout : m.outValues = st.1.outValues := by rw [h.same]
    rw [setOut, setOut, hout]
    conv_lhs => rw [h.same]
  · intro d q hq
    by_cases hd : d = c
    · subst hd
      simp only [setOut, Function.update_self] at hq
      rcases List.mem_or_eq_of_mem_set hq with hq | rfl
      · exact h.plain d q hq
      · exact hplain
    · simp only [setOut, Function.update_of_ne hd] at hq
      exact h.plain d q hq
  · intro d i hn
    rw [not_or] at hn
    rw [hothers d i hn.2, h.untouched d i hn.1]
  · intro i hi
    by_cases hthis : d = c ∧ dp.index = i
    · obtain ⟨rfl, rfl⟩ := hthis
      refine ⟨u, honline, ?_⟩
      rw [← hu.1]
      exact lastUpdate_snoc_self
    · rw [hothers d i hthis, hlast d i hthis]
      exact (h.copied d).shown i (hi.resolve_right hthis)
  · intro i hn
    rw [not_or] at hn
    rw [hlast d i hn.2]
    exact (h.copied d).hidden i hn.1

/-- What the loop over the points of a channel keeps. -/
structure Beside (c : Channel) (m m' : MappingOutstation) : Prop where
  flag : m'.flag = m.flag
  applied : m'.applied = m.applied
  others : ∀ d, d ≠ c → m'.outValues d = m.outValues d

/-- The loop over the points of a source. -/
theorem Moved.points (h : Moved m₀ T st m) (hm₀ : Ready m₀) {l : List MappedDataPoint}
    (hl : ∀ dp ∈ l, (src, dp) ∈ m₀.node.mapped) : ∃ st' m',
    l.foldlM (passPoint c src) st = .ok st' ∧ l.foldlM (copyPoint c src) m = .ok m' ∧
    Beside c m m' ∧
    Moved m₀ (fun d i => T d i ∨ d = c ∧ ∃ dp ∈ l, dp.pointType = c.pointType ∧ dp.index = i)
      st' m' := by
  -- the set of copied points grows with every point, so it is part of the induction
  induction l generalizing T st m with
  | nil => exact ⟨st, m, rfl, rfl, ⟨rfl, rfl, fun _ _ => rfl⟩, h.congr (by simp)⟩
  | cons dp l ih =>
    obtain ⟨hdp, hl⟩ := List.forall_mem_cons.mp hl
    by_cases htype : dp.pointType = c.pointType
    · obtain ⟨pt, u, hpass, hcopy, hpoint⟩ := h.point hm₀ hdp htype
      obtain ⟨st', m', hpasses, hcopies, hbeside, hmoved⟩ := ih hpoint hl
      refine ⟨st', m', ?_, ?_, ⟨hbeside.flag, hbeside.applied, ?_⟩, hmoved.congr ?_⟩
      · rw [List.foldlM_cons, hpass]
        exact hpasses
      · rw [List.foldlM_cons, hcopy]
        exact hcopies
      · intro d hd
        exact (hbeside.others d hd).trans (Function.update_of_ne hd _ _)
      · intro d i
        simp only [List.exists_mem_cons_iff, htype, true_and]
        tauto
    · obtain ⟨st', m', hpasses, hcopies, hbeside, hmoved⟩ := ih h hl
      refine ⟨st', m', ?_, ?_, hbeside, hmoved.congr ?_⟩
      · rw [List.foldlM_cons, passPoint, if_pos htype]
        exact hpasses
      · rw [List.foldlM_cons, copyPoint, if_pos htype]
        exact hcopies
      · intro d i
        simp only [List.exists_mem_cons_iff, htype, false_and, false_or]

end
/-! ## Turns -/

/-- A source of the mapping, and the channel whose points are copied. -/
abbrev Turn := (String × List MappedDataPoint) × Channel

def Turn.key (t : Turn) : String × Channel := (t.1.1, t.2)

/-- The points that the turns copy. -/
def Copied (m₀ : MappingOutstation) (done : List Turn) (c : Channel) (i : Int) : Prop :=
  ∃ t ∈ done, t.2 = c ∧ m₀.flag c t.1.1 = true ∧
    ∃ dp ∈ t.1.2, dp.pointType = c.pointType ∧ dp.index = i

/-- The channels whose scripts the turns invoke. -/
def Ran (m₀ : MappingOutstation) (done : List Turn) (c : Channel) : Prop :=
  ∃ t ∈ done, t.2 = c ∧ (c = .counter ∨ m₀.flag c t.1.1 = true)

theorem copied_snoc {m₀ : MappingOutstation} {done : List Turn} {t : Turn} {c : Channel} {i : Int} :
    Copied m₀ (done ++ [t]) c i ↔ Copied m₀ done c i ∨
      t.2 = c ∧ m₀.flag c t.1.1 = true ∧ ∃ dp ∈ t.1.2, dp.pointType = c.pointType ∧ dp.index = i := by
  simp [Copied, or_and_right, exists_or]

theorem ran_snoc {m₀ : MappingOutstation} {done : List Turn} {t : Turn} {c : Channel} :
    Ran m₀ (done ++ [t]) c ↔
      Ran m₀ done c ∨ t.2 = c ∧ (c = .counter ∨ m₀.flag c t.1.1 = true) := by
  simp [Ran, or_and_right, exists_or]

/-- The part of `injectSource` for one channel. -/
def injectTurn (env : LuaEnv) (t : Turn) (m : MappingOutstation) : LuaM MappingOutstation :=
  match t.2 with
  | .analog => injectAnalog env t.1 m
  | .binary => injectBinary env t.1 m
  | .counter => injectCounter env t.1 m

/-- The cells of a flagged source are copied. -/
def copyTurn (t : Turn) (m : MappingOutstation) : Cpp MappingOutstation :=
  if m.flag t.2 t.1.1 then copyPoints t.2 t.1.1 t.1.2 m else pure m

theorem injectTurn_script (env : LuaEnv) {t : Turn} {m m' : MappingOutstation}
    (h : t.2 = .counter ∨ m.flag t.2 t.1.1 = true) (hcopy : copyTurn t m = .ok m') (L : Lua) :
    injectTurn env t m L = luaInvokeScript env t.2 m' L := by
  obtain ⟨source, c⟩ := t
  have hlift := Lua.lift_ok hcopy L
  cases c with
  | counter => exact Lua.bind_ok hlift
  | analog =>
    have hflag := h.resolve_left (by simp)
    simp only [copyTurn, hflag, if_true] at hlift
    simp only [injectTurn, injectAnalog, hflag, if_true]
    exact Lua.bind_ok hlift
  | binary =>
    have hflag := h.resolve_left (by simp)
    simp only [copyTurn, hflag, if_true] at hlift
    simp only [injectTurn, injectBinary, hflag, if_true]
    exact Lua.bind_ok hlift

theorem injectTurn_idle (env : LuaEnv) {t : Turn} {m : MappingOutstation}
    (h : ¬ (t.2 = .counter ∨ m.flag t.2 t.1.1 = true)) (L : Lua) :
    injectTurn env t m L = .ok (m, L) := by
  obtain ⟨source, c⟩ := t
  obtain ⟨hc, hflag⟩ := not_or.mp h
  cases c with
  | counter => exact absurd rfl hc
  | analog =>
    simp only [injectTurn, injectAnalog, hflag]
    rfl
  | binary =>
    simp only [injectTurn, injectBinary, hflag]
    rfl

/-- The two passes after the turns `done` from `m₀`: the plain one has the builder `st.2`, and
the one with the script has published the cells of the channels whose script ran. -/
structure Stage (fn : Channel → ℕ) (m₀ : MappingOutstation) (done : List Turn)
    (st : MappingOutstation × List Update) (m : MappingOutstation) (L : Lua) : Prop where
  moved : Moved m₀ (Copied m₀ done) st m
  flag : ∀ c src, st.1.flag c src = true ↔ m₀.flag c src = true ∧ (src, c) ∉ done.map Turn.key
  published : ∃ new, m.applied = m₀.applied ++ new ∧
    ∀ c, Shows c (fun i => Ran m₀ done c ∧ Scripted m₀ c i) m new
  defined : Defines fn L.world

section
variable {env : LuaEnv} {fn : Channel → ℕ} {m₀ m : MappingOutstation} {done : List Turn}
variable {st : MappingOutstation × List Update} {L : Lua} {t : Turn}

/-- The copying part of a turn. -/
theorem Stage.copy (h : Stage fn m₀ done st m L) (hm₀ : Ready m₀)
    (hsource : t.1 ∈ m₀.node.dataSources.entries) (hnew : t.key ∉ done.map Turn.key) : ∃ st' m',
    passChannel t.2 t.1.1 t.1.2 st = .ok st' ∧ copyTurn t m = .ok m' ∧
    Moved m₀ (Copied m₀ (done ++ [t])) st' m' ∧ m'.applied = m.applied ∧
    (∀ d, d ≠ t.2 → m'.outValues d = m.outValues d) ∧
    (m.flag t.2 t.1.1 = false → m' = m) ∧
    ∀ c src, st'.1.flag c src = true ↔
      m₀.flag c src = true ∧ (src, c) ∉ (done ++ [t]).map Turn.key := by
  obtain ⟨⟨src, l⟩, c⟩ := t
  have hflags : m.flag = st.1.flag := by rw [h.moved.same]
  have hflag₀ : st.1.flag c src = true ↔ m₀.flag c src = true := by
    rw [h.flag]
    exact and_iff_left hnew
  have hl : ∀ dp ∈ l, (src, dp) ∈ m₀.node.mapped := by
    intro dp hdp
    exact Node.mem_mapped.mpr ⟨l, Dict.get?_eq_some.mpr hsource, hdp⟩
  simp only [passChannel, copyTurn, hflags]
  cases hflag : st.1.flag c src with
  | false =>
    have hdown : ¬ m₀.flag c src = true := by rw [← hflag₀, hflag]; decide
    refine ⟨st, m, rfl, rfl, h.moved.congr ?_, rfl, fun _ _ => rfl, fun _ => rfl, ?_⟩
    · intro d i
      rw [copied_snoc]
      constructor
      · exact Or.inl
      · intro hcopied
        rcases hcopied with hcopied | ⟨rfl, hup, -⟩
        · exact hcopied
        · exact absurd hup hdown
    · intro d s
      rw [h.flag, List.map_append, List.mem_append, not_or]
      simp only [List.map_cons, List.map_nil, List.mem_singleton, Turn.key, Prod.mk.injEq]
      refine and_congr_right fun hup => (and_iff_left ?_).symm
      intro hthis
      obtain ⟨rfl, rfl⟩ := hthis
      exact hdown hup
  | true =>
    obtain ⟨st', m', hpass, hcopy, hbeside, hmoved⟩ := (h.moved.lower c src).points (c := c) hm₀ hl
    have hflag' : st'.1.flag = setCell st.1.flag c src false := by
      have hm' : m'.flag = st'.1.flag := by rw [hmoved.same]
      rw [← hm', hbeside.flag, lower, hflags]
    refine ⟨st', m', hpass, hcopy, hmoved.congr ?_, hbeside.applied, hbeside.others,
      fun hdown => absurd hdown (by decide), ?_⟩
    · intro d i
      rw [copied_snoc]
      apply or_congr_right
      constructor
      · intro hcopied
        obtain ⟨rfl, hdp⟩ := hcopied
        exact ⟨rfl, hflag₀.mp hflag, hdp⟩
      · intro hcopied
        obtain ⟨rfl, -, hdp⟩ := hcopied
        exact ⟨rfl, hdp⟩
    · intro d s
      rw [hflag', List.map_append, List.mem_append, not_or]
      simp only [List.map_cons, List.map_nil, List.mem_singleton, Turn.key, Prod.mk.injEq]
      by_cases hthis : d = c ∧ s = src
      · obtain ⟨rfl, rfl⟩ := hthis
        simp
      · rw [setCell_of_ne _ _ _ _ _ _ hthis, h.flag]
        have hthis' : ¬ (s = src ∧ d = c) := fun e => hthis e.symm
        rw [and_iff_left hthis']

/-- One turn of both passes. -/
theorem Stage.turn (h : Stage fn m₀ done st m L) (hm₀ : Ready m₀) (hscript : IdentityScript env fn)
    (hsource : t.1 ∈ m₀.node.dataSources.entries) (hnew : t.key ∉ done.map Turn.key) :
    ∃ st' m' L', passChannel t.2 t.1.1 t.1.2 st = .ok st' ∧ injectTurn env t m L = .ok (m', L') ∧
      Stage fn m₀ (done ++ [t]) st' m' L' := by
  obtain ⟨st', m', hpass, hcopy, hmoved, happlied, hothers, hidle, hflag⟩ :=
    h.copy hm₀ hsource hnew
  obtain ⟨new, hpublished, hshows⟩ := h.published
  have hup : m.flag t.2 t.1.1 = true ↔ m₀.flag t.2 t.1.1 = true := by
    have hflags : m.flag = st.1.flag := by rw [h.moved.same]
    rw [hflags, h.flag]
    exact and_iff_left hnew
  have hnode : m'.node = m₀.node := by rw [hmoved.same, hmoved.node]
  have hout : m'.outValues = st'.1.outValues := by rw [hmoved.same]
  have hlength : ∀ c, (m'.outValues c).length = (m₀.outValues c).length := by
    intro c
    rw [hout, hmoved.length]
  have hplain : ∀ c, ∀ pt ∈ m'.outValues c, Plain c pt.value := by
    rw [hout]
    exact hmoved.plain
  have hscripted : ∀ c i, Scripted m' c i ↔ Scripted m₀ c i := by
    intro c i
    rw [Scripted, Scripted, hnode, hlength]
  -- a counter script is invoked either way, the others under their flag only
  by_cases hrun : t.2 = .counter ∨ m.flag t.2 t.1.1 = true
  · have hscriptable : Scriptable t.2 m' := ⟨(hlength t.2).trans_le (hm₀.int t.2), hplain t.2⟩
    obtain ⟨updates, W', hinvoke, hW', hupdates⟩ :=
      luaInvokeScript_ok hscript hscriptable h.defined L.stack
    refine ⟨st', _, _, hpass, (injectTurn_script env hrun hcopy L).trans hinvoke, ?_⟩
    refine ⟨hmoved.publish _, hflag, ⟨new ++ updates, ?_, fun c => ?_⟩, hW'⟩
    · rw [happlied, hpublished, List.append_assoc]
    · by_cases hc : c = t.2
      · -- the script of this channel has just run on the arrays as they are now
        subst hc
        have hran : Ran m₀ (done ++ [t]) t.2 := 
          ran_snoc.mpr (Or.inr ⟨rfl, (or_congr_right hup).mp hrun⟩)
        have hbefore : ∀ i, ¬ Scripted m' t.2 i → lastUpdate new t.2 i = none := by
          intro i hn
          exact (hshows t.2).hidden i (fun hi => hn ((hscripted t.2 i).mpr hi.2))
        refine (Shows.script hbefore (hplain t.2) hupdates).congr (fun i => ?_) rfl
        rw [hscripted, and_iff_right hran]
      · have hran : Ran m₀ (done ++ [t]) c ↔ Ran m₀ done c := by
          rw [ran_snoc, or_iff_left]
          exact fun e => hc e.1.symm
        refine (((hshows c).congr (fun i => ?_) (hothers c hc)).other_script hc hupdates).congr
          (fun _ => Iff.rfl) rfl
        rw [hran]
  · have hdown : ¬ (t.2 = .counter ∨ m₀.flag t.2 t.1.1 = true) :=
      fun e => hrun ((or_congr_right hup).mpr e)
    have hm' : m' = m := hidle (Bool.eq_false_iff.mpr (fun e => hrun (Or.inr e)))
    subst hm'
    refine ⟨st', m', L, hpass, injectTurn_idle env hrun L, hmoved, hflag,
      ⟨new, hpublished, fun c => (hshows c).congr (fun i => ?_) rfl⟩, h.defined⟩
    have hran : Ran m₀ (done ++ [t]) c ↔ Ran m₀ done c := by
      rw [ran_snoc, or_iff_left]
      intro e
      exact hdown (e.1 ▸ e.2)
    rw [hran]

/-! ## Whole passes -/

/-- The turns of one source. -/
def turnsOf (source : String × List MappedDataPoint) : List Turn :=
  [(source, .analog), (source, .binary), (source, .counter)]

theorem mem_turnsOf {source : String × List MappedDataPoint} : t ∈ turnsOf source ↔ t.1 = source := by
  obtain ⟨s, c⟩ := t
  simp only [turnsOf, List.mem_cons, List.not_mem_nil, or_false, Prod.mk.injEq]
  cases c <;> simp

/-- One source of both passes: its three channels in turn. -/
theorem Stage.source (h : Stage fn m₀ done st m L) (hm₀ : Ready m₀) (hscript : IdentityScript env fn)
    {source : String × List MappedDataPoint} (hsource : source ∈ m₀.node.dataSources.entries)
    (hnew : ∀ c, (source.1, c) ∉ done.map Turn.key) : ∃ st' m' L',
    passSource st source = .ok st' ∧ injectSource env m source L = .ok (m', L') ∧
      Stage fn m₀ (done ++ turnsOf source) st' m' L' := by
  let a : Turn := (source, .analog)
  let b : Turn := (source, .binary)
  let k : Turn := (source, .counter)
  obtain ⟨st₁, m₁, L₁, hpass₁, hinject₁, h₁⟩ := h.turn (t := a) hm₀ hscript hsource (hnew .analog)
  have hb : b.key ∉ (done ++ [a]).map Turn.key := by simp [a, b, Turn.key, hnew]
  obtain ⟨st₂, m₂, L₂, hpass₂, hinject₂, h₂⟩ := h₁.turn hm₀ hscript hsource hb
  have hk : k.key ∉ (done ++ [a] ++ [b]).map Turn.key := by simp [a, b, k, Turn.key, hnew]
  obtain ⟨st₃, m₃, L₃, hpass₃, hinject₃, h₃⟩ := h₂.turn hm₀ hscript hsource hk
  refine ⟨st₃, m₃, L₃, ?_, ?_, by simpa [a, b, k, turnsOf] using h₃⟩
  · exact Fallible.bind_ok.mpr ⟨_, hpass₁, Fallible.bind_ok.mpr ⟨_, hpass₂, hpass₃⟩⟩
  · calc injectSource env m source L
        = (injectBinary env source m₁ >>= injectCounter env source) L₁ := Lua.bind_ok hinject₁
      _ = injectCounter env source m₂ L₂ := Lua.bind_ok hinject₂
      _ = .ok (m₃, L₃) := hinject₃

/-- The loops over the sources that are left. -/
theorem Stage.sources (hm₀ : Ready m₀) (hscript : IdentityScript env fn)
    {before after : List (String × List MappedDataPoint)}
    (hentries : m₀.node.dataSources.entries = before ++ after)
    (h : Stage fn m₀ (before.flatMap turnsOf) st m L) : ∃ st' m' L',
    after.foldlM passSource st = .ok st' ∧ after.foldlM (injectSource env) m L = .ok (m', L') ∧
      Stage fn m₀ (m₀.node.dataSources.entries.flatMap turnsOf) st' m' L' := by
  induction after generalizing before st m L with
  | nil =>
    rw [List.append_nil] at hentries
    exact ⟨st, m, L, rfl, rfl, hentries ▸ h⟩
  | cons source after ih =>
    have hsource : source ∈ m₀.node.dataSources.entries := by simp [hentries]
    -- a source has one entry, so none of its turns has been made
    have hnew : ∀ c, (source.1, c) ∉ (before.flatMap turnsOf).map Turn.key := by
      intro c hkey
      obtain ⟨t, ht, hkey⟩ := List.mem_map.mp hkey
      obtain ⟨e, he, ht⟩ := List.mem_flatMap.mp ht
      have hname : e.1 = source.1 := by
        rw [← mem_turnsOf.mp ht]
        exact (Prod.mk.inj hkey).1
      have hnodup := m₀.node.dataSources.nodup
      rw [hentries, List.map_append, List.nodup_append] at hnodup
      exact hnodup.2.2 e.1 (List.mem_map_of_mem he) source.1 (by simp) hname
    obtain ⟨st₁, m₁, L₁, hpass, hinject, h₁⟩ := h.source hm₀ hscript hsource hnew
    have hdone : before.flatMap turnsOf ++ turnsOf source = (before ++ [source]).flatMap turnsOf := by
      simp
    rw [hdone] at h₁
    obtain ⟨st', m', L', hpasses, hinjects, h'⟩ := ih (by simp [hentries]) h₁
    refine ⟨st', m', L', ?_, ?_, h'⟩
    · rw [List.foldlM_cons, hpass]
      exact hpasses
    · rw [List.foldlM_cons]
      exact (Lua.bind_ok hinject).trans hinjects

end

/-- The point is mapped from a source whose flag is up. -/
def Targeted (m : MappingOutstation) (c : Channel) (i : Int) : Prop :=
  ∃ src dp, (src, dp) ∈ m.node.mapped ∧ m.flag c src = true ∧ dp.pointType = c.pointType ∧
    dp.index = i

/-- The pass invokes the script of the channel: for an analog or binary channel some source
has its flag up, while a counter script is invoked for every source. -/
def Invoked (m : MappingOutstation) (c : Channel) : Prop :=
  ∃ src ∈ m.node.dataSources.keys, c = .counter ∨ m.flag c src = true

section
variable {m : MappingOutstation} {c : Channel}

theorem copied_turns {i : Int} :
    Copied m (m.node.dataSources.entries.flatMap turnsOf) c i ↔ Targeted m c i := by
  constructor
  · intro h
    obtain ⟨t, ht, rfl, hflag, dp, hdp, htype, rfl⟩ := h
    obtain ⟨e, he, ht⟩ := List.mem_flatMap.mp ht
    cases mem_turnsOf.mp ht
    exact ⟨t.1.1, dp, Node.mem_mapped.mpr ⟨t.1.2, Dict.get?_eq_some.mpr he, hdp⟩, hflag, htype, rfl⟩
  · intro h
    obtain ⟨src, dp, hmem, hflag, htype, rfl⟩ := h
    obtain ⟨l, hl, hdp⟩ := Node.mem_mapped.mp hmem
    have ht : ((src, l), c) ∈ m.node.dataSources.entries.flatMap turnsOf :=
      List.mem_flatMap.mpr ⟨_, Dict.get?_eq_some.mp hl, mem_turnsOf.mpr rfl⟩
    exact ⟨_, ht, rfl, hflag, dp, hdp, htype, rfl⟩

theorem ran_turns : Ran m (m.node.dataSources.entries.flatMap turnsOf) c ↔ Invoked m c := by
  constructor
  · intro h
    obtain ⟨t, ht, rfl, hrun⟩ := h
    obtain ⟨e, he, ht⟩ := List.mem_flatMap.mp ht
    cases mem_turnsOf.mp ht
    exact ⟨t.1.1, List.mem_map_of_mem he, hrun⟩
  · intro h
    obtain ⟨src, hsrc, hrun⟩ := h
    obtain ⟨e, he, rfl⟩ := List.mem_map.mp hsrc
    exact ⟨(e, c), List.mem_flatMap.mpr ⟨e, he, mem_turnsOf.mpr rfl⟩, rfl, hrun⟩

end

/-- What the two passes from `m` come to: the plain one publishes the points it copies, the one
with the script the configured cells of the channels whose script it invokes. -/
structure Compared (fn : Channel → ℕ) (m m₁ m₂ : MappingOutstation) (L₁ : Lua) : Prop where
  ready₁ : Ready m₁
  ready₂ : Ready m₂
  node₁ : m₁.node = m.node
  node₂ : m₂.node = m.node
  flag₁ : ∀ c src, m₁.flag c src = true → m.flag c src = true
  flag₂ : ∀ c src, m₂.flag c src = true → m.flag c src = true
  outValues : m₁.outValues = m₂.outValues
  untouched : ∀ c i, ¬ Targeted m c i → onlineUpdate c m₁ i = onlineUpdate c m i
  defined : Defines fn L₁.world
  scripted : ∃ new, m₁.applied = m.applied ++ new ∧
    ∀ c, Shows c (fun i => Invoked m c ∧ Scripted m c i) m₁ new
  plain : ∃ new, m₂.applied = m.applied ++ new ∧ ∀ c, Shows c (Targeted m c) m₂ new
theorem Moved.ready {m₀ m : MappingOutstation} {T : Channel → Int → Prop}
    {st : MappingOutstation × List Update} (h : Moved m₀ T st m) (hm₀ : Ready m₀) : Ready st.1 where
  fitsIn := by
    unfold FitsIn input
    rw [h.node, h.values]
    exact hm₀.fitsIn
  fitsOut := by
    unfold FitsOut
    simp only [h.node, h.length]
    exact hm₀.fitsOut
  int c := (h.length c).trans_le (hm₀.int c)
  plainIn := by
    unfold input
    rw [h.values]
    exact hm₀.plainIn
  plainOut := h.plain

theorem Ready.publish {m : MappingOutstation} (h : Ready m) (applied : List Update) :
    Ready { m with applied := applied } := ⟨h.fitsIn, h.fitsOut, h.int, h.plainIn, h.plainOut⟩

/-- Both passes return, with a script that changes nothing. -/
theorem compared {env : LuaEnv} {fn : Channel → ℕ} (hscript : IdentityScript env fn)
    {m : MappingOutstation} (hm : Ready m) {L : Lua} (hL : Defines fn L.world) : ∃ m₁ L₁ m₂,
    injectDataChanges env m L = .ok (m₁, L₁) ∧ m.passThruDataChanges = .ok m₂ ∧
      Compared fn m m₁ m₂ L₁ := by
  have hstart : Stage fn m [] (m, []) m L :=
    { moved :=
        { node := rfl
          values := rfl
          applied := rfl
          length := fun _ => rfl
          same := rfl
          plain := hm.plainOut
          untouched := fun _ _ _ => rfl
          copied := fun _ => ⟨fun _ hi => absurd hi (by simp [Copied]), fun _ _ => rfl⟩ }
      flag := by simp
      published := ⟨[], by simp, fun _ =>
        ⟨fun _ hi => absurd hi.1 (by simp [Ran]), fun _ _ => rfl⟩⟩
      defined := hL }
  obtain ⟨st, m₁, L₁, hpass, hinject, hend⟩ := hstart.sources hm hscript (List.nil_append _).symm
  have hflag : ∀ c src, st.1.flag c src = true → m.flag c src = true := by
    intro c src hup
    exact ((hend.flag c src).mp hup).1
  have hsame := hend.moved.same
  refine ⟨m₁, L₁, { st.1 with applied := st.1.applied ++ st.2 }, hinject,
    Fallible.bind_ok.mpr ⟨st, hpass, rfl⟩, ?_⟩
  have hready := hend.moved.ready hm
  refine ⟨?_, hready.publish _, ?_, hend.moved.node, ?_, hflag, ?_, ?_, hend.defined, ?_, ?_⟩
  · rw [hsame]
    exact hready.publish _
  · rw [hsame]
    exact hend.moved.node
  · rw [hsame]
    exact hflag
  · rw [hsame]
  · intro c i hn
    have houts : m₁.outValues c = st.1.outValues c := by rw [hsame]
    have honline : onlineUpdate c m₁ i = onlineUpdate c st.1 i := onlineUpdate_congr (by rw [houts])
    rw [honline]
    exact hend.moved.untouched c i (fun hi => hn (copied_turns.mp hi))
  · obtain ⟨new, happlied, hshows⟩ := hend.published
    refine ⟨new, happlied, fun c => (hshows c).congr (fun i => ?_) rfl⟩
    rw [ran_turns]
  · refine ⟨st.2, by rw [hend.moved.applied], fun c => ?_⟩
    exact (hend.moved.copied c).congr (fun i => copied_turns) rfl

end IcsTrafficGen.Dnp3

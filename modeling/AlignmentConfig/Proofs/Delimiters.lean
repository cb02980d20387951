-- SUMMARY: Writing all rank lists with another delimiter, and giving that delimiter, changes the delimiter and nothing else.
import AlignmentConfig.Proofs.Ranks
import AlignmentConfig.Proofs.Recognition

/-!
# Another delimiter

The delimiter only tells where the rank lists are cut. If another character is
given that no rank list holds, and takes its place in the rank lists as well,
they are cut at the same places into the same tokens. Splitting is literal, so
this holds of every two characters, and no other text is split.
-/

namespace AlignmentConfig

open Text

/-! ## Replacing a character -/

namespace Text

/-- The text with a new character in place of each occurrence of an old one. -/
def replaceChar (old new : Char) (text : String) : String :=
  text.map fun c => if c = old then new else c

variable {old new : Char} {text : String}

theorem toList_replaceChar :
    (replaceChar old new text).toList = text.toList.map fun c => if c = old then new else c :=
  String.toList_map

/-- Without the old character there is nothing to replace. -/
theorem replaceChar_eq_self (h : old ∉ text.toList) : replaceChar old new text = text := by
  rw [← String.toList_inj, toList_replaceChar]
  conv_rhs => rw [← List.map_id text.toList]
  refine List.map_congr_left fun c hc => ?_
  have hne : c ≠ old := fun heq => h (heq ▸ hc)
  rw [if_neg hne, id_eq]

/-- The new character stands exactly where the old one stood, if it stood nowhere before. -/
theorem splitOn_map_replace {cs : List Char} (h : new ∉ cs) :
    (cs.map fun c => if c = old then new else c).splitOn new = cs.splitOn old := by
  induction cs with
  | nil => rfl
  | cons c cs ih =>
    rw [List.mem_cons, not_or] at h
    rw [List.map_cons, List.splitOn_cons_eq_if_modifyHead, List.splitOn_cons_eq_if_modifyHead,
      ih h.2]
    by_cases hc : c = old
    · simp [hc]
    · simp [hc, Ne.symm h.1]

theorem mem_replaceChar_iff (h : new ∉ text.toList) :
    new ∈ (replaceChar old new text).toList ↔ old ∈ text.toList := by
  rw [toList_replaceChar, List.mem_map]
  constructor
  · rintro ⟨c, hc, heq⟩
    split at heq
    · next hold => exact hold ▸ hc
    · exact absurd (heq ▸ hc) h
  · intro hold
    exact ⟨old, hold, if_pos rfl⟩

theorem Separator.split_replaceChar (h : new ∉ text.toList) :
    (ofChar new).split (replaceChar old new text) = (ofChar old).split text := by
  rw [split_ofChar, split_ofChar, toList_replaceChar, splitOn_map_replace h]

end Text

/-- A rank list has the same tokens at another delimiter that takes the place of the first one. -/
theorem Ranks.split_replaceChar {d e : Char} {raw : String} (h : e ∉ raw.toList) :
    split (.ofChar e) (replaceChar d e raw) = split (.ofChar d) raw := by
  have hfree : (Separator.ofChar e).Free (replaceChar d e raw).toList ↔
      (Separator.ofChar d).Free raw.toList := by
    rw [Separator.free_ofChar_iff, Separator.free_ofChar_iff, mem_replaceChar_iff h]
  rcases split_cases (.ofChar d) raw with ⟨hd, hsplit⟩ | ⟨hd, hsplit⟩
  · rcases split_cases (.ofChar e) (replaceChar d e raw) with ⟨-, hsplit'⟩ | ⟨he, -⟩
    · rw [hsplit, hsplit', replaceChar_eq_self (Separator.free_ofChar_iff.1 hd)]
    · exact absurd (hfree.2 hd) he
  · rcases split_cases (.ofChar e) (replaceChar d e raw) with ⟨he, -⟩ | ⟨-, hsplit'⟩
    · exact absurd (hfree.1 he) hd
    · rw [hsplit, hsplit', Separator.split_replaceChar h]

/-! ## Overrides -/

namespace Overrides

/-- The texts of the rank lists, the one for everywhere and those by scope. -/
def rankTexts (o : Overrides) : List String :=
  o.rank.toList ++ o.ranks.entries.filterMap Prod.snd

/-- The same overrides with every rank list written with another delimiter. -/
def redelimit (d e : Char) (o : Overrides) : Overrides :=
  { o with
    rank := o.rank.map (replaceChar d e)
    ranks := o.ranks.map (Option.map (replaceChar d e)) }

variable {d e : Char} {o : Overrides}

theorem tokens_redelimit {raw : Option String} (h : ∀ text ∈ raw, e ∉ text.toList) :
    tokens e (raw.map (replaceChar d e)) = tokens d raw := by
  cases raw with
  | none => rfl
  | some text => exact congrArg some (Ranks.split_replaceChar (h text rfl))

theorem global?_redelimit (h : ∀ raw ∈ o.rankTexts, e ∉ raw.toList) :
    (o.redelimit d e).global? e = o.global? d := by
  have htokens : tokens e (o.rank.map (replaceChar d e)) = tokens d o.rank := by
    refine tokens_redelimit fun raw hraw => h raw ?_
    exact List.mem_append_left _ (Option.mem_toList.2 hraw)
  unfold global? redelimit
  simp only [htokens, Option.map_eq_none_iff]

/-- The scoped texts stand for the same writes, in the same order. -/
theorem writes_redelimit (h : ∀ raw ∈ o.rankTexts, e ∉ raw.toList) :
    (o.redelimit d e).writes e = o.writes d := by
  unfold writes
  -- Only the rank lists are rewritten; the other two families are the same.
  congr 2
  rw [redelimit, Dict.entries_map, List.map_map]
  refine List.map_congr_left ?_
  rintro ⟨scope, raw⟩ hentry
  have htokens : tokens e (raw.map (replaceChar d e)) = tokens d raw := by
    refine tokens_redelimit fun text htext => h text ?_
    exact List.mem_append_right _ (List.mem_filterMap.2 ⟨(scope, raw), hentry, htext⟩)
  simp [htokens]

theorem constraints_redelimit (h : ∀ raw ∈ o.rankTexts, e ∉ raw.toList) :
    (o.redelimit d e).constraints e = o.constraints d := by
  rw [constraints, constraints, drafts, drafts, global?_redelimit h, writes_redelimit h]

end Overrides

/-! ## Property maps -/

/-- A property map gives another delimiter than the one before, and the rank lists that are read are
    written with it. All other properties that are read are the same. -/
structure Redelimits (d e : Char) (a b : Dict String) : Prop where
  old : (a.get? "restDependencyRankDelimiter").getD ";" = String.singleton d
  new : b.get? "restDependencyRankDelimiter" = some (String.singleton e)
  ranks : ∀ scope : Scope, scope ≠ .artifact "" →
    b.get? (scope.nameUnder "restDependencyRanks") =
      (a.get? (scope.nameUnder "restDependencyRanks")).map (replaceChar d e)
  other : ∀ name, name ≠ "restDependencyRankDelimiter" →
    (∀ scope : Scope, name ≠ scope.nameUnder "restDependencyRanks") → b.get? name = a.get? name

/-- No rank list that is read holds a character. -/
def RankFree (e : Char) (texts : Dict String) : Prop :=
  ∀ scope : Scope, scope ≠ .artifact "" →
    ∀ raw ∈ texts.get? (scope.nameUnder "restDependencyRanks"), e ∉ raw.toList

theorem nameUnder_ne_delimiter {bare : String} (h : bare ∈ bareNames) (scope : Scope) :
    scope.nameUnder bare ≠ "restDependencyRankDelimiter" := by
  have hplain : "restDependencyRankDelimiter" ∈ plainNames := by decide
  exact fun heq => scope.nameUnder_not_mem_plainNames h (heq ▸ hplain)

theorem delimiter_of_get? {texts : Dict String} {c : Char}
    (h : (texts.get? "restDependencyRankDelimiter").getD ";" = String.singleton c) :
    Schema.rankDelimiter.delimiter (.ofTexts texts) = .ok c := by
  have htext : Schema.rankDelimiter.text (.ofTexts texts) = some (String.singleton c) := by
    rw [Schema.Entry.text_ofTexts, ← h]
    show (texts.get? "restDependencyRankDelimiter").or (some ";") = _
    cases texts.get? "restDependencyRankDelimiter" <;> rfl
  rw [Schema.Entry.delimiter, htext]
  exact Ranks.delimiterOf_eq_ok_iff.2 rfl

namespace Redelimits

variable {d e : Char} {a b : Dict String}

theorem delimiter_old (h : Redelimits d e a b) :
    Schema.rankDelimiter.delimiter (.ofTexts a) = .ok d :=
  delimiter_of_get? h.old

theorem delimiter_new (h : Redelimits d e a b) :
    Schema.rankDelimiter.delimiter (.ofTexts b) = .ok e :=
  delimiter_of_get? (by rw [h.new, Option.getD_some])

theorem get?_plain (h : Redelimits d e a b) {name : String} (hplain : name ∈ plainNames)
    (hne : name ≠ "restDependencyRankDelimiter") : b.get? name = a.get? name := by
  refine h.other name hne fun scope heq => ?_
  exact scope.nameUnder_not_mem_plainNames (by decide) (heq ▸ hplain)

theorem get?_bare (h : Redelimits d e a b) {bare : String} (hbare : bare ∈ bareNames)
    (hne : bare ≠ "restDependencyRanks") (scope : Scope) :
    b.get? (scope.nameUnder bare) = a.get? (scope.nameUnder bare) := by
  refine h.other _ (nameUnder_ne_delimiter hbare scope) fun scope' heq => ?_
  exact hne ((Scope.nameUnder_inj (dot_not_mem_bareNames _ hbare) (by decide)).1 heq).1

/-- A plain property other than the delimiter is read as before. -/
theorem text (h : Redelimits d e a b) {entry : Schema.Entry} (hplain : entry.name ∈ plainNames)
    (hne : entry.name ≠ "restDependencyRankDelimiter") :
    entry.text (.ofTexts b) = entry.text (.ofTexts a) := by
  rw [entry.text_ofTexts, entry.text_ofTexts, h.get?_plain hplain hne]

theorem constraints (h : Redelimits d e a b) (hfree : RankFree e a) :
    (Overrides.ofProperties (.ofTexts b)).constraints e =
      (Overrides.ofProperties (.ofTexts a)).constraints d := by
  apply ConstraintSet.eq_of_withScope (Overrides.distinctScopes_constraints _ e)
  intro scope
  by_cases hscope : scope = .artifact ""
  · rw [hscope, Overrides.withScope_ofProperties_empty, Overrides.withScope_ofProperties_empty]
  · have htokens := Overrides.tokens_redelimit (d := d) (hfree scope hscope)
    unfold Overrides.tokens at htokens
    have hallowBare : "restDependencyAllowList" ∈ bareNames := by decide
    have hdenyBare : "restDependencyDenyList" ∈ bareNames := by decide
    have hallow := h.get?_bare hallowBare (by decide) scope
    have hdeny := h.get?_bare hdenyBare (by decide) scope
    rw [Overrides.withScope_ofProperties b e hscope, Overrides.withScope_ofProperties a d hscope,
      hallow, hdeny, h.ranks scope hscope]
    simp only [Constraint.forScope, htokens, Option.map_eq_none_iff]

/-- The state is the one before, with the other delimiter. -/
theorem resolves (h : Redelimits d e a b) (hfree : RankFree e a) {s : State}
    (hs : Resolves (.ofTexts a) s) : Resolves (.ofTexts b) { s with rankDelimiter := e } := by
  have hd : s.rankDelimiter = d := Except.ok.inj (hs.rankDelimiter.symm.trans h.delimiter_old)
  have hboolean : ∀ {entry : Schema.Entry}, entry.name ∈ plainNames →
      entry.name ≠ "restDependencyRankDelimiter" →
      entry.boolean (.ofTexts b) = entry.boolean (.ofTexts a) :=
    fun hplain hne => congrArg Schema.readBoolean (h.text hplain hne)
  have hinteger : ∀ {entry : Schema.Entry}, entry.name ∈ plainNames →
      entry.name ≠ "restDependencyRankDelimiter" →
      entry.integer (.ofTexts b) = entry.integer (.ofTexts a) :=
    fun hplain hne => congrArg (Schema.readInteger _) (h.text hplain hne)
  exact
    { url := hs.url.trans (h.text (by decide) (by decide)).symm
      suffixAlign := hs.suffixAlign.trans (hboolean (by decide) (by decide)).symm
      rankDelimiter := h.delimiter_new
      settingsUrl := hs.settingsUrl.trans (h.text (by decide) (by decide)).symm
      maxSize := (hinteger (by decide) (by decide)).trans hs.maxSize
      minSize := (hinteger (by decide) (by decide)).trans hs.minSize
      brewPullActive := hs.brewPullActive.trans (hboolean (by decide) (by decide)).symm
      mode := hs.mode.trans (h.text (by decide) (by decide)).symm
      headers := hs.headers.trans (congrArg Headers.parse (h.text (by decide) (by decide)).symm)
      connectionTimeout := (hinteger (by decide) (by decide)).trans hs.connectionTimeout
      socketTimeout := (hinteger (by decide) (by decide)).trans hs.socketTimeout
      retryDuration := (hinteger (by decide) (by decide)).trans hs.retryDuration
      constraints := by
        rw [h.constraints hfree, ← hd]
        exact hs.constraints }

/-- The same property is refused first, for the same fault. -/
theorem fault?_eq (h : Redelimits d e a b) :
    Schema.fault? (.ofTexts b) = Schema.fault? (.ofTexts a) := by
  have hchecked : ∀ entry ∈ Schema.checked, entry.name ∈ plainNames ∧
      (entry = Schema.rankDelimiter ∨ entry.name ≠ "restDependencyRankDelimiter") := by decide
  have hentry : ∀ entry ∈ Schema.checked,
      entry.fault? (.ofTexts b) = entry.fault? (.ofTexts a) := by
    intro entry hmem
    obtain ⟨hplain, rfl | hne⟩ := hchecked entry hmem
    · rw [Schema.Entry.fault?_of_delimiter rfl, Schema.Entry.fault?_of_delimiter rfl,
        h.delimiter_old, h.delimiter_new]
      rfl
    · apply Schema.Entry.fault?_congr
      · rcases Schema.Entry.kind_of_checked entry hmem with hkind | hkind <;> simp [hkind]
      · simp [h.get?_plain hplain hne]
  unfold Schema.fault?
  rw [← List.head?_filterMap, ← List.head?_filterMap, List.filterMap_congr hentry]

/-- A resolution has the same result as before, up to the delimiter of the state. -/
theorem initialise (h : Redelimits d e a b) (hfree : RankFree e a) :
    (initialise (.ofTexts b)).result =
      (initialise (.ofTexts a)).result.map fun s => { s with rankDelimiter := e } := by
  cases hresult : (AlignmentConfig.initialise (.ofTexts a)).result with
  | ok s => exact initialise_eq_ok_iff.2 (h.resolves hfree (initialise_eq_ok_iff.1 hresult))
  | error fault =>
    exact initialise_eq_error_iff.2 (h.fault?_eq.trans (initialise_eq_error_iff.1 hresult))

end Redelimits

/-! ## Giving another delimiter -/

/-- Apply `f` to every value, which may depend on the name. -/
def Dict.mapByName {α β : Type} (f : String → α → β) (d : Dict α) : Dict β :=
  ⟨d.entries.map fun e => (e.1, f e.1 e.2), by simpa [Function.comp_def] using d.nodup⟩

theorem Dict.get?_mapByName {α β : Type} (f : String → α → β) (d : Dict α) (name : String) :
    (d.mapByName f).get? name = (d.get? name).map (f name) := by
  apply Option.ext
  intro value
  simp only [← mem_entries_iff, Option.map_eq_some_iff]
  simp [mapByName]

/-- Whether a name is that of a rank list, for everywhere or for an artifact. -/
def isRankName (name : String) : Bool := (cut '.' name).1 = "restDependencyRanks"

theorem exists_nameUnder {bare name : String} (h : (cut '.' name).1 = bare) :
    ∃ scope : Scope, name = scope.nameUnder bare := by
  rcases cutChars_cases '.' name.toList with ⟨-, hcut⟩ | ⟨front, back, -, hname, hcut⟩
  · have heq : name = bare := by simpa [cut, hcut] using h
    exact ⟨.everywhere, heq⟩
  · obtain rfl : String.ofList front = bare := by simpa [cut, hcut] using h
    refine ⟨.artifact (String.ofList back), ?_⟩
    rw [← String.toList_inj, hname]
    simp [Scope.nameUnder]

theorem isRankName_nameUnder (scope : Scope) :
    isRankName (scope.nameUnder "restDependencyRanks") = true := by
  rw [isRankName, Scope.cut_nameUnder (by decide)]
  rfl

/-- The same texts with another delimiter, which is given as such and takes the place of the old one
    in every rank list. -/
def redelimited (d e : Char) (texts : Dict String) : Dict String :=
  (texts.mapByName fun name text => if isRankName name then replaceChar d e text else text).insert
    "restDependencyRankDelimiter" (String.singleton e)

theorem redelimits_redelimited {d : Char} (e : Char) {texts : Dict String}
    (h : (texts.get? "restDependencyRankDelimiter").getD ";" = String.singleton d) :
    Redelimits d e texts (redelimited d e texts) where
  old := h
  new := by rw [redelimited, Dict.get?_insert, if_pos rfl]
  ranks := by
    intro scope _
    have hbare : "restDependencyRanks" ∈ bareNames := by decide
    have hne := nameUnder_ne_delimiter hbare scope
    rw [redelimited, Dict.get?_insert, if_neg hne, Dict.get?_mapByName, isRankName_nameUnder]
    rfl
  other := by
    intro name hne hscope
    have hrank : isRankName name = false := by
      rw [Bool.eq_false_iff]
      intro hrank
      obtain ⟨scope, heq⟩ := exists_nameUnder (of_decide_eq_true hrank)
      exact hscope scope heq
    rw [redelimited, Dict.get?_insert, if_neg hne, Dict.get?_mapByName, hrank]
    simp

theorem rankFree_of_entries {e : Char} {texts : Dict String}
    (h : ∀ entry ∈ texts.entries, isRankName entry.1 = true → e ∉ entry.2.toList) :
    RankFree e texts :=
  fun scope _ _ hraw => h _ (Dict.mem_entries_iff.2 hraw) (isRankName_nameUnder scope)

/-- If a character that stands in no rank list takes the place of the delimiter, in the rank lists
    and as the delimiter, then the same constraints are built; and a property map that is rewritten
    in this way, as every one can be, has the same result, up to the delimiter of the state. -/
theorem initialise_exchanges_delimiter (d e : Char) :
    (∀ o : Overrides, (∀ raw ∈ o.rankTexts, e ∉ raw.toList) →
      ∃ s : ConstraintSet, o.buildWith (String.singleton d) = ⟨[s.record], .ok s⟩ ∧
        (o.redelimit d e).buildWith (String.singleton e) = ⟨[s.record], .ok s⟩) ∧
    (∀ texts : Dict String,
      (texts.get? "restDependencyRankDelimiter").getD ";" = String.singleton d →
      ∃ other, Redelimits d e texts other) ∧
    ∀ texts other : Dict String, Redelimits d e texts other → RankFree e texts →
      (initialise (.ofTexts other)).result =
        (initialise (.ofTexts texts)).result.map fun s => { s with rankDelimiter := e } := by
  refine ⟨fun o hfree => ⟨o.constraints d, ?_, ?_⟩, fun texts h => ⟨_, redelimits_redelimited e h⟩,
    fun texts other h hfree => h.initialise hfree⟩
  · rw [Overrides.buildWith_singleton, Overrides.build_eq]
  · rw [Overrides.buildWith_singleton, Overrides.build_eq, Overrides.constraints_redelimit hfree]

/-- A dot becomes a bar in the rank lists, but not in the allow list or in the name of a scope. -/
theorem initialise_exchanges_delimiter_dot :
    let o : Overrides := { rank := some "1.2..", allow := some "p.q" }
    let texts : Dict String := .ofList [("restDependencyRanks.org.x", "a.b;"),
      ("restDependencyRankDelimiter", "."), ("restDependencyAllowList.org.x", "p.q")]
    (∃ s : ConstraintSet, o.buildWith "." = ⟨[s.record], .ok s⟩ ∧
      ({ rank := some "1|2||", allow := some "p.q" } : Overrides).buildWith "|" =
        ⟨[s.record], .ok s⟩) ∧
    ∃ other, Redelimits '.' '|' texts other ∧ RankFree '|' texts ∧
      other.get? "restDependencyRanks.org.x" = some "a|b;" ∧
      ∃ s, (initialise (.ofTexts texts)).result = .ok s ∧
        s.termsAt (.artifact "org.x") = { allow := some "p.q", ranks := some ["a", "b;"] } ∧
        (initialise (.ofTexts other)).result = .ok { s with rankDelimiter := '|' } := by
  intro o texts
  obtain ⟨hbuild, hrewrite, hinitialise⟩ := initialise_exchanges_delimiter '.' '|'
  have hredelimit : o.redelimit '.' '|' = { rank := some "1|2||", allow := some "p.q" } := by
    decide +kernel
  refine ⟨hredelimit ▸ hbuild o (by decide), ?_⟩
  obtain ⟨other, hother⟩ := hrewrite texts (by decide +kernel)
  have hfree : RankFree '|' texts := rankFree_of_entries (by decide +kernel)
  refine ⟨other, hother, hfree, ?_, _, rfl, by decide +kernel, hinitialise texts other hother hfree⟩
  exact (hother.ranks (.artifact "org.x") (by decide)).trans (by decide +kernel)

end AlignmentConfig

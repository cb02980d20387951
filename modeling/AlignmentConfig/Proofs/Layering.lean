-- SUMMARY: A file with assignments over it: all that counts is the value of each name, the last assigned one or else the one in the file.
import AlignmentConfig.Command.Show
import AlignmentConfig.Proofs.Assignments
import AlignmentConfig.Proofs.Recognition

/-!
# Layers

A resolution reads its properties by name. So a file and the assignments over
it count only through the value that each name has in the end: the last one
that the texts assign to it, or else the one in the file. What is given where,
and what else is given between, makes no difference.
-/

namespace AlignmentConfig.Show

/-! ## Values -/

/-- The value of a name: the last one that the texts assign to it, or else the one in the file. -/
def valueOver (base : Dict String) (texts : List String) (name : String) : Option String :=
  (Assignment.last? texts name).or (base.get? name)

/-- In a map, every name has its value over the file. -/
def Layered (base : Dict String) (texts : List String) (p : Dict String) : Prop :=
  ∀ name, p.get? name = valueOver base texts name

/-- The value of a constraint property at a scope. For the scope without a name nothing is read. -/
def valueAt (base : Dict String) (texts : List String) (bare : String) (scope : Scope) :
    Option String :=
  if scope = .artifact "" then none else valueOver base texts (scope.nameUnder bare)

section Values

variable {base : Dict String} {texts : List String} {assignments : List Assignment}

theorem get?_layer (h : Assignment.parseAll texts = .ok assignments) (name : String) :
    (layer base assignments).get? name = (valueOver base texts name).map some := by
  have hwritten := Assignment.lookup_reverse some (Assignment.parseAll_eq_ok_iff.1 h) name
  show ((Properties.ofTexts base).insertAll
    (assignments.map fun a => (a.name, some a.value))).get? name = _
  rw [Dict.get?_insertAll, hwritten, Properties.get?_ofTexts, ← Option.map_or]
  rfl

theorem exists_layered (base : Dict String) (h : ∀ text ∈ texts, Assignment.Accepted text) :
    ∃ p, Layered base texts p := by
  obtain ⟨assignments, hall⟩ := Assignment.exists_parseAll_iff.2 h
  refine ⟨base.insertAll (assignments.map fun a => (a.name, a.value)), fun name => ?_⟩
  have hwritten : (assignments.map fun a => (a.name, a.value)).reverse.lookup name =
      Assignment.last? texts name := by
    simpa using Assignment.lookup_reverse id (Assignment.parseAll_eq_ok_iff.1 hall) name
  rw [Dict.get?_insertAll, hwritten]
  rfl

/-- Of two texts about the same name only the later one counts. -/
theorem valueOver_drop {before after : List String} {text later : String} {a b : Assignment}
    (ha : Assignment.parse text = .ok a) (hb : Assignment.parse later = .ok b)
    (hlater : later ∈ after) (hname : a.name = b.name) (name : String) :
    valueOver base (before ++ after) name = valueOver base (before ++ text :: after) name := by
  have hsame : (Assignment.last? after name).or (Assignment.given? name text) =
      Assignment.last? after name := by
    rw [Assignment.given?_of_parse ha]
    split
    · next heq =>
      obtain ⟨value, hvalue⟩ := Option.ne_none_iff_exists'.1 (Assignment.last?_ne_none hlater hb)
      rw [← heq, hname, hvalue, Option.some_or]
    · rw [Option.or_none]
  unfold valueOver
  rw [Assignment.last?_append, Assignment.last?_append, Assignment.last?_cons, hsame]

/-- An entry of the file counts as if it were assigned by a text before all others. -/
theorem valueOver_move {base' : Dict String} {text name value : String}
    (htext : Assignment.parse text = .ok ⟨name, value⟩) (hvalue : base.get? name = some value)
    (hbase' : ∀ other, base'.get? other = if other = name then none else base.get? other)
    (other : String) : valueOver base' (text :: texts) other = valueOver base texts other := by
  unfold valueOver
  rw [Assignment.last?_cons, Assignment.given?_of_parse htext, hbase', Option.or_assoc]
  by_cases hother : other = name
  · rw [if_pos hother, if_pos hother.symm, hother, hvalue, Option.some_or]
  · rw [if_neg hother, if_neg (Ne.symm hother), Option.none_or]

end Values

/-! ## Outcomes -/

theorem resolveState_result (files : Files) (path : Option Path) (texts : List String) :
    (resolveState files path texts).result =
      (baseProperties files path).result.bind fun base =>
        (Assignment.parseAll texts).bind fun assignments =>
          (initialise (layer base assignments)).result := by
  unfold resolveState
  simp only [Logged.result_bind]
  rfl

section Outcomes

variable {files files' : Files} {path path' : Option Path} {base base' : Dict String}
variable {texts texts' : List String}

/-- The outcome is that of any map in which every name has its value. -/
theorem resolveState_of_layered (hbase : (baseProperties files path).result = .ok base)
    (htexts : ∀ text ∈ texts, Assignment.Accepted text) {p : Dict String}
    (hp : Layered base texts p) :
    (resolveState files path texts).result = (initialise (.ofTexts p)).result := by
  obtain ⟨assignments, hall⟩ := Assignment.exists_parseAll_iff.2 htexts
  have hagree : (layer base assignments).AgreeOn Recognized (Properties.ofTexts p) := by
    intro name _
    rw [get?_layer hall, Properties.get?_ofTexts, hp]
  obtain ⟨x, hlayer, hofTexts⟩ := initialise_agreeOn hagree
  rw [resolveState_result, hbase, hall]
  show (initialise (layer base assignments)).result = _
  rw [hlayer, hofTexts]

/-- Files and texts that give every name the same value have the same outcome. -/
theorem resolveState_congr (hbase : (baseProperties files path).result = .ok base)
    (hbase' : (baseProperties files' path').result = .ok base')
    (htexts : ∀ text ∈ texts, Assignment.Accepted text)
    (htexts' : ∀ text ∈ texts', Assignment.Accepted text)
    (hvalue : ∀ name, valueOver base' texts' name = valueOver base texts name) :
    (resolveState files' path' texts').result = (resolveState files path texts).result := by
  obtain ⟨p, hp⟩ := exists_layered base htexts
  have hp' : Layered base' texts' p := fun name => (hp name).trans (hvalue name).symm
  rw [resolveState_of_layered hbase htexts hp, resolveState_of_layered hbase' htexts' hp']

/-- Each field of an override is the value of its own property at the scope. -/
theorem termsAt_of_resolveState (hbase : (baseProperties files path).result = .ok base)
    (htexts : ∀ text ∈ texts, Assignment.Accepted text) {s : State}
    (hs : (resolveState files path texts).result = .ok s) (scope : Scope) :
    s.termsAt scope =
      { allow := valueAt base texts "restDependencyAllowList" scope
        deny := valueAt base texts "restDependencyDenyList" scope
        ranks := (valueAt base texts "restDependencyRanks" scope).map
          (Ranks.split (.ofChar s.rankDelimiter)) } := by
  obtain ⟨p, hp⟩ := exists_layered base htexts
  rw [resolveState_of_layered hbase htexts hp] at hs
  have htext : ∀ bare, scope.textUnder p bare = valueAt base texts bare scope := by
    intro bare
    unfold Scope.textUnder valueAt
    rw [hp]
  rw [(initialise_eq_ok_iff.1 hs).termsAt, htext, htext, htext]

/-- Over a file that loads, of the texts about a name only the last one counts, and the entry of the
    file only where there is none. The texts about different names may come in any order, a text
    that is overridden may be left out, an entry of the file may be assigned by a first text
    instead, and each field of a constraint is decided by the texts and the entry for that field. -/
theorem resolveState_last_wins (hbase : (baseProperties files path).result = .ok base)
    (htexts : ∀ text ∈ texts, Assignment.Accepted text) :
    (∃ p, Layered base texts p) ∧
      (∀ p, Layered base texts p →
        (resolveState files path texts).result = (initialise (.ofTexts p)).result) ∧
      (∀ texts', texts.Perm texts' →
        (∀ name, Assignment.values texts' name = Assignment.values texts name) →
        (resolveState files path texts').result = (resolveState files path texts).result) ∧
      (∀ before text after, texts = before ++ text :: after →
        (∃ later ∈ after, ∃ a b, Assignment.parse text = .ok a ∧ Assignment.parse later = .ok b ∧
          a.name = b.name) →
        (resolveState files path (before ++ after)).result =
          (resolveState files path texts).result) ∧
      (∀ files' path' base' name value text, (baseProperties files' path').result = .ok base' →
        base.get? name = some value →
        (∀ other, base'.get? other = if other = name then none else base.get? other) →
        Assignment.parse text = .ok ⟨name, value⟩ →
        (resolveState files' path' (text :: texts)).result =
          (resolveState files path texts).result) ∧
      ∀ s, (resolveState files path texts).result = .ok s → ∀ scope,
        s.termsAt scope =
          { allow := valueAt base texts "restDependencyAllowList" scope
            deny := valueAt base texts "restDependencyDenyList" scope
            ranks := (valueAt base texts "restDependencyRanks" scope).map
              (Ranks.split (.ofChar s.rankDelimiter)) } := by
  refine ⟨exists_layered base htexts, fun p => resolveState_of_layered hbase htexts, ?_, ?_, ?_,
    fun s hs => termsAt_of_resolveState hbase htexts hs⟩
  · intro texts' hperm hvalues
    refine resolveState_congr hbase hbase htexts ?_ fun name => ?_
    · exact fun text htext => htexts text (hperm.mem_iff.2 htext)
    · unfold valueOver Assignment.last?
      rw [hvalues]
  · rintro before text after rfl ⟨later, hlater, a, b, ha, hb, hname⟩
    refine resolveState_congr hbase hbase htexts ?_ (valueOver_drop ha hb hlater hname)
    intro t ht
    refine htexts t ?_
    rcases List.mem_append.1 ht with hbefore | hafter
    · exact List.mem_append_left _ hbefore
    · exact List.mem_append_right _ (List.mem_cons_of_mem _ hafter)
  · intro files' path' base' name value text hbase' hvalue hother htext
    refine resolveState_congr hbase hbase' htexts ?_ (valueOver_move htext hvalue hother)
    exact List.forall_mem_cons.2 ⟨⟨_, htext⟩, htexts⟩

end Outcomes

/-- The rank list of the last text, the allow list of another text and the deny list of the file
    meet at one scope, also without the first text or after the one that follows it. -/
theorem resolveState_last_wins_fields :
    let files : Files := fun _ => .file "restDependencyDenyList.a = \"z\"\n".toUTF8.toList
    let path := some (Path.ofText "rest.toml")
    let first := "restDependencyRanks.a=x"
    let second := "restDependencyAllowList.a=p"
    let last := "restDependencyRanks.a=y;;"
    ∃ s, (resolveState files path [first, second, last]).result = .ok s ∧
      (resolveState files path [second, last]).result = .ok s ∧
      (resolveState files path [second, first, last]).result = .ok s ∧
      s.termsAt (.artifact "a") = { allow := some "p", deny := some "z", ranks := some ["y"] } := by
  intro files path first second last
  have hbase : (baseProperties files path).result =
      .ok (.ofList [("restDependencyDenyList.a", "z")]) := by decide +kernel
  have htexts : ∀ text ∈ [first, second, last], Assignment.Accepted text := by decide +kernel
  have hfirst : Assignment.parse first = .ok ⟨"restDependencyRanks.a", "x"⟩ := by decide +kernel
  have hsecond : Assignment.parse second = .ok ⟨"restDependencyAllowList.a", "p"⟩ := by
    decide +kernel
  have hlast : Assignment.parse last = .ok ⟨"restDependencyRanks.a", "y;;"⟩ := by decide +kernel
  have hdelimiter : (resolveState files path [first, second, last]).result.map
      State.rankDelimiter = .ok ';' := by decide +kernel
  obtain ⟨-, -, hreorder, hdrop, -, hfields⟩ := resolveState_last_wins hbase htexts
  cases hs : (resolveState files path [first, second, last]).result with
  | error fault =>
    rw [hs] at hdelimiter
    cases hdelimiter
  | ok s =>
    rw [hs] at hdelimiter
    have hd : s.rankDelimiter = ';' := Except.ok.inj hdelimiter
    refine ⟨s, rfl, ?_, ?_, ?_⟩
    · rw [← hs]
      exact hdrop [] first [second, last] rfl ⟨last, by simp, _, _, hfirst, hlast, rfl⟩
    · rw [← hs]
      exact hreorder [second, first, last] (.swap ..)
        (Assignment.values_swap hfirst hsecond (by decide) [] [last])
    · rw [hfields s hs, hd]
      decide +kernel

end AlignmentConfig.Show

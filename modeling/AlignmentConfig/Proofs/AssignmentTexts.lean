-- SUMMARY: What assignments can express: names without blanks at their ends and without the mark, each with any text.
import AlignmentConfig.Proofs.Layering
import AlignmentConfig.Proofs.Merging
import Mathlib.Data.List.DropRight

/-!
# Texts of assignments

A text is cut at its first mark, and only blanks around the name are lost. So a
text spells an assignment unless nothing but blanks stands in front of the mark,
the name that it spells has no blank at an end and no mark in it, and every such
name can be given every text. A property map with such names can be given in
assignments alone.
-/

namespace AlignmentConfig

open Text

/-! ## Blanks around a text -/

namespace Text

/-- The second listing of characters is the first one with blanks around it. -/
inductive Padded (inner : List Char) : List Char → Prop where
  | blanks {before after : List Char} (hbefore : before.all isBlankChar = true)
      (hafter : after.all isBlankChar = true) : Padded inner (before ++ inner ++ after)

theorem Padded.mem {inner cs : List Char} (h : Padded inner cs) {c : Char} (hc : c ∈ inner) :
    c ∈ cs := by
  cases h with
  | blanks _ _ => simp [hc]

/-- No blank stands at an end of the characters. -/
def Trimmed (cs : List Char) : Prop :=
  (∀ c ∈ cs.head?, isBlankChar c = false) ∧ ∀ c ∈ cs.getLast?, isBlankChar c = false

instance (cs : List Char) : Decidable (Trimmed cs) :=
  @instDecidableAnd _ _ (Option.decidableForallMem cs.head?)
    (Option.decidableForallMem cs.getLast?)

theorem trimChars_eq (cs : List Char) :
    trimChars cs = (cs.dropWhile isBlankChar).rdropWhile isBlankChar := rfl

/-- Trimming takes away blanks only. -/
theorem padded_trimChars (cs : List Char) : Padded (trimChars cs) cs := by
  have hfront : cs = cs.takeWhile isBlankChar ++ cs.dropWhile isBlankChar :=
    List.takeWhile_append_dropWhile.symm
  have hback : cs.dropWhile isBlankChar =
      trimChars cs ++ (cs.dropWhile isBlankChar).rtakeWhile isBlankChar :=
    List.rdropWhile_append_rtakeWhile.symm
  have hpadded : Padded (trimChars cs) (cs.takeWhile isBlankChar ++ trimChars cs ++
      (cs.dropWhile isBlankChar).rtakeWhile isBlankChar) :=
    .blanks List.all_takeWhile (List.all_eq_true.2 fun _ => List.mem_rtakeWhile_imp)
  rwa [List.append_assoc, ← hback, ← hfront] at hpadded

/-- Trimming takes away all blanks at the ends. -/
theorem trimmed_trimChars (cs : List Char) : Trimmed (trimChars cs) := by
  have htrim := trimChars_eq cs
  refine ⟨fun c hc => ?_, fun c hc => ?_⟩
  · -- What is trimmed at the back begins like what is trimmed at the front only.
    obtain ⟨after, hafter⟩ := List.rdropWhile_prefix isBlankChar (cs.dropWhile isBlankChar)
    have hhead : (cs.dropWhile isBlankChar).head? = some c := by
      rw [← hafter, ← htrim, List.head?_append, hc, Option.some_or]
    have hne : cs.dropWhile isBlankChar ≠ [] := by
      intro hnil
      rw [hnil] at hhead
      cases hhead
    have hfirst := List.head_dropWhile_not isBlankChar hne
    rwa [(List.head_eq_iff_head?_eq_some hne).2 hhead] at hfirst
  · have hne : trimChars cs ≠ [] := by
      intro hnil
      rw [hnil] at hc
      cases hc
    have hlast := List.rdropWhile_last_not isBlankChar (cs.dropWhile isBlankChar) hne
    rw [List.getLast?_eq_some_getLast hne] at hc
    cases hc
    simpa [trimChars_eq] using hlast

theorem trimChars_of_trimmed {cs : List Char} (h : Trimmed cs) : trimChars cs = cs := by
  have hfront : cs.dropWhile isBlankChar = cs := by
    cases cs with
    | nil => rfl
    | cons c rest => rw [List.dropWhile_cons_of_neg (by simpa using h.1 c rfl)]
  rw [trimChars_eq, hfront, List.rdropWhile_eq_self_iff]
  intro hne
  simpa using h.2 _ (List.getLast?_eq_some_getLast hne)

theorem trim_eq_empty_iff {text : String} : trim text = "" ↔ isBlank text = true := by
  rw [← String.toList_eq_nil_iff, toList_trim, trimChars_eq, List.rdropWhile_eq_nil_iff, isBlank,
    List.all_eq_true]
  constructor
  · intro hblank
    rw [← List.dropWhile_eq_nil_iff]
    by_contra hne
    -- What is left would start with a character that is no blank.
    have hfirst := List.head_dropWhile_not isBlankChar hne
    rw [hblank _ (List.head_mem hne)] at hfirst
    cases hfirst
  · intro hblank c hc
    exact hblank c ((List.dropWhile_suffix _).subset hc)

end Text

/-! ## Texts and assignments -/

namespace Assignment

/-- What stands in front of the first mark of a text, and what stands after it if there is one. -/
inductive CutAt (text : String) : String → Option String → Prop where
  | bare (h : mark ∉ text.toList) : CutAt text text none
  | marked {front back : String} (htext : text = front ++ "=" ++ back)
      (h : mark ∉ front.toList) : CutAt text front (some back)

theorem cutAt_cut (text : String) : CutAt text (cut mark text).1 (cut mark text).2 := by
  rcases cutChars_cases mark text.toList with ⟨hbare, -⟩ | ⟨front, back, hfront, htext, -⟩
  · rw [cut_eq_self hbare]
    exact .bare hbare
  · have hunmarked : mark ∉ (String.ofList front).toList := by simpa using hfront
    have hmarked : text = String.ofList front ++ String.singleton mark ++ String.ofList back :=
      String.toList_inj.1 (by simp [htext])
    rw [hmarked, cut_append hunmarked]
    exact .marked rfl hunmarked

/-- What can be the name of an assignment. -/
structure IsName (name : String) : Prop where
  given : name ≠ ""
  trimmed : Trimmed name.toList
  unmarked : mark ∉ name.toList

theorem isName_iff {name : String} :
    IsName name ↔ name ≠ "" ∧ Trimmed name.toList ∧ mark ∉ name.toList :=
  ⟨fun h => ⟨h.given, h.trimmed, h.unmarked⟩, fun h => ⟨h.1, h.2.1, h.2.2⟩⟩

instance (name : String) : Decidable (IsName name) := decidable_of_iff _ isName_iff.symm

section Parsing

variable {text front : String} {back? : Option String}

theorem parse_eq (text : String) :
    parse text =
      if isBlank (cut mark text).1 = true then .error (.unnamedAssignment text)
      else .ok ⟨trim (cut mark text).1, (cut mark text).2.getD "true"⟩ := by
  simp only [parse, trim_eq_empty_iff, bareValue]

theorem parse_of_isBlank (hfront : isBlank (cut mark text).1 = true) :
    parse text = .error (.unnamedAssignment text) := by
  rw [parse_eq, if_pos hfront]

theorem parse_of_not_isBlank (hfront : isBlank (cut mark text).1 = false) :
    parse text = .ok ⟨trim (cut mark text).1, (cut mark text).2.getD "true"⟩ := by
  rw [parse_eq, hfront, if_neg Bool.false_ne_true]

/-- A trimmed text in front of the mark is a name, unless it is empty. -/
theorem isName_trim (hfront : isBlank front = false) (hunmarked : mark ∉ front.toList) :
    IsName (trim front) where
  given := fun hname => by simp [trim_eq_empty_iff.1 hname] at hfront
  trimmed := by
    rw [toList_trim]
    exact trimmed_trimChars _
  unmarked := by
    rw [toList_trim]
    exact fun hmem => hunmarked ((padded_trimChars _).mem hmem)

/-- Every name can be given every text. -/
theorem parse_of_isName {name : String} (h : IsName name) (value : String) :
    parse (name ++ "=" ++ value) = .ok ⟨name, value⟩ := by
  have hcut : cut mark (name ++ "=" ++ value) = (name, some value) := cut_append h.unmarked value
  have htrim : trim name = name := by
    rw [trim, trimChars_of_trimmed h.trimmed, String.ofList_toList]
  simp [parse, hcut, htrim, h.given]

end Parsing

/-! ## Maps as assignments -/

/-- The texts that assign the entries of a map, in order. -/
def textsOf (p : Dict String) : List String := p.entries.map fun e => e.1 ++ "=" ++ e.2

theorem parseAll_textsOf {p : Dict String} (h : ∀ name ∈ p.names, IsName name) :
    parseAll (textsOf p) = .ok (p.entries.map fun e => ⟨e.1, e.2⟩) := by
  rw [parseAll_eq_ok_iff, textsOf, List.forall₂_map_left_iff, List.forall₂_map_right_iff,
    List.forall₂_same]
  intro e he
  exact parse_of_isName (h e.1 (List.mem_map_of_mem he)) e.2

/-- Over no file, the assignments of all entries of a map give the map. -/
theorem layer_empty (p : Dict String) :
    Show.layer ∅ (p.entries.map fun e => ⟨e.1, e.2⟩) = .ofTexts p := by
  have hentries : (p.entries.map fun e => (⟨e.1, e.2⟩ : Assignment)).map entry =
      (Properties.ofTexts p).entries := by
    rw [List.map_map]
    rfl
  rw [Show.layer, hentries]
  exact Dict.ofList_entries _

theorem resolveState_textsOf (files : Files) {p : Dict String}
    (h : ∀ name ∈ p.names, IsName name) :
    Show.resolveState files none (textsOf p) = initialise (.ofTexts p) := by
  have hresolve : Show.resolveState files none (textsOf p) =
      (liftM (parseAll (textsOf p)) : Logged _) >>= fun a => initialise (Show.layer ∅ a) := rfl
  rw [hresolve, parseAll_textsOf h, Logged.lift_ok_bind, layer_empty]

/-- A text spells no assignment exactly if there are only blanks in front of its first mark. The
    name of an assignment has no blank at an end and no mark, and its value is what stands after
    the mark, or `true` without one. Every such name can be given every text; so a map with such
    names resolves as the texts that assign its entries do. -/
theorem parse_expresses_names :
    (∀ text, ∃ front back?, CutAt text front back? ∧
      ((∃ fault, parse text = .error fault) ↔ isBlank front = true) ∧
      (∀ fault, parse text = .error fault → fault.kind = .configuration) ∧
      ∀ a, parse text = .ok a →
        IsName a.name ∧ Padded a.name.toList front.toList ∧ a.value = back?.getD "true") ∧
    (∀ name value, IsName name → parse (name ++ "=" ++ value) = .ok ⟨name, value⟩) ∧
    ∀ (files : Files) (p : Dict String), (∀ name ∈ p.names, IsName name) →
      Show.resolveState files none (p.entries.map fun e => e.1 ++ "=" ++ e.2) =
        initialise (.ofTexts p) := by
  refine ⟨fun text => ⟨_, _, cutAt_cut text, ?_, ?_, ?_⟩, fun name value h => parse_of_isName h value,
    fun files p h => resolveState_textsOf files h⟩
  · cases hfront : isBlank (cut mark text).1 with
    | true => exact iff_of_true ⟨_, parse_of_isBlank hfront⟩ rfl
    | false =>
      rw [parse_of_not_isBlank hfront]
      exact iff_of_false (by simp) Bool.false_ne_true
  · intro fault hfault
    rw [fault_of_parse hfault]
    rfl
  · intro a ha
    cases hfront : isBlank (cut mark text).1 with
    | true =>
      rw [parse_of_isBlank hfront] at ha
      cases ha
    | false =>
      rw [parse_of_not_isBlank hfront] at ha
      obtain rfl := Except.ok.inj ha
      refine ⟨isName_trim hfront (not_mem_cut_fst mark text), ?_, rfl⟩
      rw [toList_trim]
      exact padded_trimChars _

/-- The spaces around a name need not be ASCII, and only the first mark counts; a name with a space
    inside is given a text of two lines. -/
theorem parse_expresses_names_blanks :
    let p : Dict String := .ofList [("restDependencyAllowList.a b", "x\n=y"), ("restURL", "")]
    (∃ a, parse "\u2003restMode\t= v=w" = .ok a ∧ IsName a.name ∧ a = ⟨"restMode", " v=w"⟩) ∧
      (∃ fault, parse "\u2003\t= v=w" = .error fault ∧ fault.kind = .configuration) ∧
      (∀ name ∈ p.names, IsName name) ∧
      parse "restDependencyAllowList.a b=x\n=y" = .ok ⟨"restDependencyAllowList.a b", "x\n=y"⟩ ∧
      Show.resolveState (fun _ => .missing) none
        ["restDependencyAllowList.a b=x\n=y", "restURL="] = initialise (.ofTexts p) := by
  intro p
  obtain ⟨htexts, hnames, hmaps⟩ := parse_expresses_names
  have hp : ∀ name ∈ p.names, IsName name := by decide +kernel
  have hspelled : parse "\u2003restMode\t= v=w" = .ok ⟨"restMode", " v=w"⟩ := by decide +kernel
  have hblank : parse "\u2003\t= v=w" = .error (.unnamedAssignment "\u2003\t= v=w") := by
    decide +kernel
  obtain ⟨_, _, -, -, -, hname⟩ := htexts "\u2003restMode\t= v=w"
  obtain ⟨_, _, -, -, hkind, -⟩ := htexts "\u2003\t= v=w"
  exact ⟨⟨_, hspelled, (hname _ hspelled).1, rfl⟩, ⟨_, hblank, hkind _ hblank⟩, hp,
    hnames "restDependencyAllowList.a b" "x\n=y" (by decide +kernel), hmaps (fun _ => .missing) p hp⟩

end Assignment

end AlignmentConfig

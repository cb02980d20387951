-- SUMMARY: What reading a document can answer: regular tables, a text that breaks the grammar, or an integer that is too long.
import AlignmentConfig.Proofs.Integers
import AlignmentConfig.Proofs.Remainders
import AlignmentConfig.Proofs.Tables

/-!
# Answers of the readers

Each reader of a document answers in one of three ways. It reads something, and
what it reads is regular: no table has a key twice, and an integer that cannot
be written again stands in the text. Or the text breaks the grammar. Or it stops
at an integer that is too long to be read, which then stands in the text too.

There is one lemma for each reader. It is about a reader that has come to some
tail of the text, so the lemmas chain as the readers do.
-/

namespace AlignmentConfig.Toml

open Text

/-! ## Long integers -/

/-- A run of characters spells an integer with more decimal digits than are converted, in decimal
    digits or in another base. -/
inductive LongInteger : List Char → Prop where
  | decimal {run digits : List Char} (h : SpellsDigits Char.isDigit run digits)
      (hlong : digitLimit < digits.length) : LongInteger run
  | based {run : List Char} {n : Nat} (h : SpellsBased run n) (hlong : 10 ^ digitLimit ≤ n) :
      LongInteger run

/-- Somewhere in the text a long integer is spelled. -/
def HoldsLongInteger (text : List Char) : Prop := ∃ run, LongInteger run ∧ run <:+: text

/-- If the integer is too long to be written, the text spells a long integer. -/
def Spelled (text : List Char) (n : Int) : Prop :=
  10 ^ digitLimit ≤ n.natAbs → HoldsLongInteger text

theorem Spelled.mono {text text' : List Char} (h : HoldsLongInteger text → HoldsLongInteger text')
    {n : Int} (hn : Spelled text n) : Spelled text' n :=
  fun hlarge => h (hn hlarge)

variable {text cs rest : List Char}

theorem holdsLongInteger_of_append {run : List Char} (hcs : cs <:+ text) (heq : cs = run ++ rest)
    (h : LongInteger run) : HoldsLongInteger text :=
  ⟨run, h, (heq ▸ List.prefix_append run rest).isInfix.trans hcs.isInfix⟩

/-! ## Answers -/

section Answers

variable {α β : Type} {good : α → Prop} {good' : β → Prop}

/-- A computation on the text gives something good, or a fault that the text accounts for. -/
inductive Answers (text : List Char) (good : α → Prop) : Except Fault α → Prop where
  | ok {value : α} (h : good value) : Answers text good (.ok value)
  | malformed : Answers text good (.error .malformed)
  | longInteger {digits : Nat} (h : HoldsLongInteger text) :
      Answers text good (.error (.longInteger digits))

/-- A reader of the text reads something good and leaves a tail of the text, or it ends in a fault
    that the text accounts for. -/
abbrev Reads (text : List Char) (good : α → Prop) (x : Except Fault (α × List Char)) : Prop :=
  Answers text (fun read => good read.1 ∧ read.2 <:+ text) x

theorem Answers.bind {x : Except Fault α} {f : α → Except Fault β} (hx : Answers text good x)
    (hf : ∀ value, good value → Answers text good' (f value)) : Answers text good' (x >>= f) := by
  cases hx with
  | ok h => exact hf _ h
  | malformed => exact .malformed
  | longInteger h => exact .longInteger h

theorem Answers.mono {text' : List Char} {good' : α → Prop} {x : Except Fault α}
    (hx : Answers text good x) (htext : HoldsLongInteger text → HoldsLongInteger text')
    (hgood : ∀ value, good value → good' value) : Answers text' good' x := by
  cases hx with
  | ok h => exact .ok (hgood _ h)
  | malformed => exact .malformed
  | longInteger h => exact .longInteger (htext h)

theorem Reads.bind {x : Except Fault (α × List Char)} {f : α × List Char → Except Fault β}
    (hx : Reads text good x)
    (hf : ∀ value rest, good value → rest <:+ text → Answers text good' (f (value, rest))) :
    Answers text good' (x >>= f) :=
  Answers.bind hx fun read h => hf read.1 read.2 h.1 h.2

theorem answers_insist {x : Option α} (h : ∀ value, x = some value → good value) :
    Answers text good (insist x) := by
  cases x with
  | none => exact .malformed
  | some value => exact .ok (h value rfl)

theorem reads_insist {x : Option (α × List Char)}
    (h : ∀ value rest, x = some (value, rest) → good value ∧ rest <:+ text) :
    Reads text good (insist x) :=
  answers_insist fun read hread => h read.1 read.2 hread

end Answers

/-! ## Tails -/

theorem tail_suffix {c : Char} (h : c :: rest <:+ text) : rest <:+ text :=
  (List.suffix_cons c rest).trans h

theorem skipSpace_suffix_of_suffix (h : cs <:+ text) : skipSpace cs <:+ text :=
  (skipSpace_suffix cs).trans h

theorem answers_skipFiller (h : cs <:+ text) (inComment : Bool) :
    Answers text (· <:+ text) (insist (skipFiller? inComment cs)) :=
  answers_insist fun _ hrest => (skipFiller?_suffix hrest).trans h

/-! ## Keys -/

theorem reads_keyFrom (tables : List String) (bound : Nat) (h : cs <:+ text) :
    Reads text (fun _ => True) (keyFrom tables bound cs) := by
  induction bound generalizing tables cs with
  | zero => exact .malformed
  | succ bound ih =>
    have hpart : Reads text (fun _ => True) (insist (keyPart? cs)) :=
      reads_insist fun _ _ hpart => ⟨trivial, (keyPart?_suffix hpart).trans h⟩
    refine Reads.bind hpart fun part rest _ hrest => ?_
    have hspace := skipSpace_suffix_of_suffix hrest
    dsimp only
    split
    · next tail heq =>
      rw [heq] at hspace
      exact ih _ (skipSpace_suffix_of_suffix (tail_suffix hspace))
    · exact .ok ⟨trivial, hspace⟩

theorem reads_key (h : cs <:+ text) : Reads text (fun _ => True) (key cs) :=
  reads_keyFrom [] _ h

theorem reads_keyOfValue (h : cs <:+ text) : Reads text (fun _ => True) (keyOfValue cs) := by
  refine Reads.bind (reads_key h) fun key rest _ hrest => ?_
  dsimp only
  split
  · exact .ok ⟨trivial, skipSpace_suffix_of_suffix (tail_suffix hrest)⟩
  · exact .malformed

/-! ## Scalars -/

/-- A value of the text: regular, with every long integer in it spelled there. -/
abbrev Value.ReadFrom (text : List Char) (value : Value) : Prop := value.Regular (Spelled text)

theorem reads_decimalNumber? {x : Except Fault (Value × List Char)} (hcs : cs <:+ text)
    (h : decimalNumber? cs = some x) : Reads text (Value.ReadFrom text) x := by
  simp only [decimalNumber?, Option.map_eq_some_iff] at h
  obtain ⟨⟨digits, after⟩, hdigits, rfl⟩ := h
  have hunsigned : (sign cs).2 <:+ text := (sign_suffix cs).trans hcs
  obtain ⟨run, hrun, heq⟩ := exists_run_of_decimalDigits? hdigits
  have hafter : after <:+ text := (heq ▸ List.suffix_append run after).trans hunsigned
  dsimp only
  split
  · have hfraction : (afterFraction? after).getD after <:+ after := getD_suffix afterFraction?_suffix
    have hexponent : (afterExponent? _).getD _ <:+ (afterFraction? after).getD after :=
      getD_suffix afterExponent?_suffix
    exact .ok ⟨.float, hexponent.trans (hfraction.trans hafter)⟩
  · split
    · next hlong =>
      have hdecimal : LongInteger run := .decimal hrun (by simpa [Numeral.isTooLong] using hlong)
      exact .longInteger (holdsLongInteger_of_append hunsigned heq hdecimal)
    · next hshort =>
      have hsmall := Numeral.natAbs_value_lt (n := ⟨(sign cs).1, digits⟩) hrun.all
        (by simpa using hshort)
      exact .ok ⟨.integer fun hlarge => absurd hlarge (Nat.not_le.2 hsmall), hafter⟩

theorem reads_number? {x : Except Fault (Value × List Char)} (hcs : cs <:+ text)
    (h : number? cs = some x) : Reads text (Value.ReadFrom text) x := by
  unfold number? at h
  split at h
  · next n rest hbased =>
    obtain ⟨run, hrun, heq⟩ := exists_run_of_basedInteger? hbased
    obtain rfl := Option.some.inj h
    refine .ok ⟨.integer fun hlarge => ?_, (heq ▸ List.suffix_append run rest).trans hcs⟩
    exact holdsLongInteger_of_append hcs heq (.based hrun hlarge)
  · rw [Option.orElse_eq_orElse, Option.orElse_eq_or, Option.or_eq_some_iff] at h
    rcases h with h | ⟨-, h⟩
    · exact reads_decimalNumber? hcs h
    · obtain ⟨⟨word, rest⟩, hword, rfl⟩ := Option.map_eq_some_iff.1 h
      obtain ⟨⟨spelling, rfl⟩, hrest⟩ := floatWord?_cases hword
      exact .ok ⟨.float, hrest.trans hcs⟩

theorem calendar?_cases {v : Value} (h : calendar? cs = some (v, rest)) :
    v.ReadFrom text ∧ rest <:+ cs := by
  unfold calendar? at h
  split at h
  · next date hdate =>
    split at h
    · next time htime =>
      cases h
      exact ⟨.dateTime, (afterTimeOfDate?_suffix htime).trans (afterDate?_suffix hdate)⟩
    · cases h
      exact ⟨.date, afterDate?_suffix hdate⟩
  · obtain ⟨time, htime, heq⟩ := Option.map_eq_some_iff.1 h
    cases heq
    exact ⟨.time, afterTime?_suffix htime⟩

theorem reads_scalar (hcs : cs <:+ text) : Reads text (Value.ReadFrom text) (scalar cs) := by
  unfold scalar
  split
  · next quoted hquoted =>
    cases quoted with
    | none => exact .malformed
    | some read =>
      have hrest : read.2 <:+ cs := quotation?_suffix hquoted
      exact .ok ⟨.string, hrest.trans hcs⟩
  · split
    · exact .ok ⟨.boolean, (List.suffix_append ['t', 'r', 'u', 'e'] _).trans hcs⟩
    · exact .ok ⟨.boolean, (List.suffix_append ['f', 'a', 'l', 's', 'e'] _).trans hcs⟩
    · split
      · next found hfound =>
        obtain ⟨hvalue, hrest⟩ := calendar?_cases hfound
        exact .ok ⟨hvalue, hrest.trans hcs⟩
      · cases hnumber : number? cs with
        | none => exact .malformed
        | some x => exact reads_number? hcs hnumber

/-! ## Values

The readers of values, items and members call each other. Each lemma takes one step of its reader,
given what the readers with a lower bound answer. -/

/-- What the readers of nested values answer within a bound. -/
structure ReadsWithin (text : List Char) (bound : Nat) : Prop where
  value {cs : List Char} (h : cs <:+ text) :
    Reads text (Value.ReadFrom text) (valueWithin bound cs)
  items {cs : List Char} (h : cs <:+ text) :
    Reads text (∀ item ∈ ·, Value.ReadFrom text item) (itemsWithin bound cs)
  members {cs : List Char} {branch : Branch} (hbranch : branch.Regular (Spelled text))
    (h : cs <:+ text) : Reads text (Branch.Regular (Spelled text)) (membersWithin bound branch cs)

section Values

variable {bound : Nat}

theorem ReadsWithin.valueWithin (hbound : ReadsWithin text bound) (h : cs <:+ text) :
    Reads text (Value.ReadFrom text) (valueWithin (bound + 1) cs) := by
  unfold Toml.valueWithin
  dsimp only
  split
  · refine Answers.bind (answers_skipFiller (tail_suffix h) false) fun rest hrest => ?_
    refine Reads.bind (hbound.items hrest) fun items rest hitems hrest => ?_
    exact .ok ⟨.array hitems, hrest⟩
  · next tail =>
    have hspace := skipSpace_suffix_of_suffix (tail_suffix h)
    split
    · next heq =>
      rw [heq] at hspace
      exact .ok ⟨.table List.nodup_nil (by simp), tail_suffix hspace⟩
    · refine Reads.bind (hbound.members .nil hspace) fun branch rest hbranch hrest => ?_
      exact .ok ⟨hbranch, hrest⟩
  · exact reads_scalar h

theorem ReadsWithin.itemsWithin (hbound : ReadsWithin text bound) (h : cs <:+ text) :
    Reads text (∀ item ∈ ·, Value.ReadFrom text item) (itemsWithin (bound + 1) cs) := by
  unfold Toml.itemsWithin
  dsimp only
  split
  · exact .ok ⟨by simp, tail_suffix h⟩
  · refine Reads.bind (hbound.value h) fun item rest hitem hrest => ?_
    refine Answers.bind (answers_skipFiller hrest false) fun rest hrest => ?_
    split
    · exact .ok ⟨by simpa using hitem, tail_suffix hrest⟩
    · refine Answers.bind (answers_skipFiller (tail_suffix hrest) false) fun rest hrest => ?_
      refine Reads.bind (hbound.items hrest) fun items rest hitems hrest => ?_
      exact .ok ⟨List.forall_mem_cons.2 ⟨hitem, hitems⟩, hrest⟩
    · exact .malformed

theorem ReadsWithin.membersWithin (hbound : ReadsWithin text bound) {branch : Branch}
    (hbranch : branch.Regular (Spelled text)) (h : cs <:+ text) :
    Reads text (Branch.Regular (Spelled text)) (membersWithin (bound + 1) branch cs) := by
  rw [Toml.membersWithin]
  refine Reads.bind (reads_keyOfValue h) fun key rest _ hrest => ?_
  refine Reads.bind (hbound.value hrest) fun value rest hvalue hrest => ?_
  refine Answers.bind (answers_insist fun changed hchanged =>
    Branch.keeps_assign hvalue 0 [] key hbranch hchanged) fun changed hchanged => ?_
  have hspace := skipSpace_suffix_of_suffix hrest
  split
  · next heq =>
    rw [heq] at hspace
    exact .ok ⟨hchanged, tail_suffix hspace⟩
  · next heq =>
    rw [heq] at hspace
    exact hbound.members hchanged (skipSpace_suffix_of_suffix (tail_suffix hspace))
  · exact .malformed

theorem readsWithin (text : List Char) (bound : Nat) : ReadsWithin text bound := by
  induction bound with
  | zero => exact ⟨fun _ => .malformed, fun _ => .malformed, fun _ _ => .malformed⟩
  | succ bound ih => exact ⟨ih.valueWithin, ih.itemsWithin, ih.membersWithin⟩

theorem reads_value (h : cs <:+ text) : Reads text (Value.ReadFrom text) (value cs) :=
  (readsWithin text _).value h

end Values

/-! ## Lines -/

/-- The tree of a draft of the text is regular. -/
abbrev Draft.ReadFrom (text : List Char) (d : Draft) : Prop := d.root.Regular (Spelled text)

section Lines

variable {d : Draft}

theorem answers_openTable (hd : d.ReadFrom text) (key : Key) :
    Answers text (Draft.ReadFrom text) (d.openTable key) :=
  Answers.bind (answers_insist fun _ hroot => Branch.keeps_openTable _ key hd hroot)
    fun _ hroot => .ok hroot

theorem answers_openItem (hd : d.ReadFrom text) (key : Key) :
    Answers text (Draft.ReadFrom text) (d.openItem key) :=
  Answers.bind (answers_insist fun _ hroot => Branch.keeps_openItem key hd hroot)
    fun _ hroot => .ok hroot

theorem answers_assign (hd : d.ReadFrom text) (key : Key) {value : Value}
    (hvalue : value.ReadFrom text) : Answers text (Draft.ReadFrom text) (d.assign key value) :=
  Answers.bind (answers_insist fun _ hroot => Branch.keeps_assign hvalue _ _ key hd hroot)
    fun _ hroot => .ok hroot

theorem reads_statement (hd : d.ReadFrom text) (h : cs <:+ text) :
    Reads text (Draft.ReadFrom text) (statement d cs) := by
  unfold statement
  split
  · refine Reads.bind (reads_key (skipSpace_suffix_of_suffix (tail_suffix (tail_suffix h))))
      fun key rest _ hrest => ?_
    dsimp only
    split
    · refine Answers.bind (answers_openItem hd key) fun d hd => ?_
      exact .ok ⟨hd, tail_suffix (tail_suffix hrest)⟩
    · exact .malformed
  · refine Reads.bind (reads_key (skipSpace_suffix_of_suffix (tail_suffix h)))
      fun key rest _ hrest => ?_
    dsimp only
    split
    · refine Answers.bind (answers_openTable hd key) fun d hd => ?_
      exact .ok ⟨hd, tail_suffix hrest⟩
    · exact .malformed
  · refine Reads.bind (reads_keyOfValue h) fun key rest _ hrest => ?_
    refine Reads.bind (reads_value hrest) fun value rest hvalue hrest => ?_
    refine Answers.bind (answers_assign hd key hvalue) fun d hd => ?_
    exact .ok ⟨hd, hrest⟩

theorem reads_line (hd : d.ReadFrom text) (h : cs <:+ text) :
    Reads text (Draft.ReadFrom text) (line d cs) := by
  have hcomment : ∀ {d : Draft} {rest}, d.ReadFrom text → rest <:+ text →
      Reads text (Draft.ReadFrom text) (do
        return (d, ← insist (skipComment? (skipSpace rest)))) := by
    intro d rest hd hrest
    refine Answers.bind (answers_insist fun after hafter =>
      (skipComment?_suffix hafter).trans (skipSpace_suffix_of_suffix hrest)) fun after hafter => ?_
    exact .ok ⟨hd, hafter⟩
  have hspace := skipSpace_suffix_of_suffix h
  unfold line
  dsimp only
  split
  · exact hcomment hd List.nil_suffix
  · next heq =>
    rw [heq] at hspace
    exact hcomment hd hspace
  · next heq =>
    rw [heq] at hspace
    exact hcomment hd hspace
  · exact Reads.bind (reads_statement hd hspace) fun d rest hd hrest => hcomment hd hrest

theorem answers_linesWithin (bound : Nat) (hd : d.ReadFrom text) (h : cs <:+ text) :
    Answers text (Draft.ReadFrom text) (linesWithin bound d cs) := by
  induction bound generalizing d cs with
  | zero => exact .malformed
  | succ bound ih =>
    refine Reads.bind (reads_line hd h) fun d rest hd hrest => ?_
    dsimp only
    split
    · exact .ok hd
    · exact ih hd (tail_suffix hrest)
    · exact .malformed

end Lines

/-! ## Documents

A document is read with plain line ends. A long integer holds no line end, so it stands in the text
as it was given if it stands in the one that is read. -/

theorem prefix_of_prefix_plainLineEnds {run : List Char} (hrun : '\n' ∉ run)
    (h : run <+: plainLineEnds cs) : run <+: cs := by
  induction run generalizing cs with
  | nil => exact List.nil_prefix
  | cons c run ih =>
    rw [List.mem_cons, not_or] at hrun
    unfold plainLineEnds at h
    split at h
    · simp at h
    · exact absurd (List.cons_prefix_cons.1 h).1.symm hrun.1
    · obtain ⟨rfl, htail⟩ := List.cons_prefix_cons.1 h
      exact List.cons_prefix_cons.2 ⟨rfl, ih hrun.2 htail⟩

theorem infix_of_infix_plainLineEnds {run : List Char} (hrun : '\n' ∉ run)
    (h : run <:+: plainLineEnds cs) : run <:+: cs := by
  fun_induction plainLineEnds cs with
  | case1 => exact h
  | case2 cs ih =>
    rcases List.infix_cons_iff.1 h with hprefix | htail
    · -- The line end that the two characters make is none of the run.
      have hnil : run = [] := by
        cases run with
        | nil => rfl
        | cons c run => exact absurd (List.cons_prefix_cons.1 hprefix).1 (by grind)
      exact hnil ▸ List.nil_infix
    · exact (ih htail).trans (List.suffix_append ['\r', '\n'] cs).isInfix
  | case3 c cs hne ih =>
    rcases List.infix_cons_iff.1 h with hprefix | htail
    · have hplain : plainLineEnds (c :: cs) = c :: plainLineEnds cs := by
        simp [plainLineEnds]
      exact (prefix_of_prefix_plainLineEnds hrun (hplain ▸ hprefix)).isInfix
    · exact (ih htail).trans (List.suffix_cons c cs).isInfix

theorem SpellsDigits.lineEnd_not_mem {isDigit : Char → Bool} {run digits : List Char}
    (hline : isDigit '\n' = false) (h : SpellsDigits isDigit run digits) : '\n' ∉ run := by
  intro hmem
  rcases h.mem _ hmem with hdigit | hmark
  · rw [hline] at hdigit
    cases hdigit
  · cases hmark

theorem LongInteger.lineEnd_not_mem {run : List Char} (h : LongInteger run) : '\n' ∉ run := by
  cases h with
  | decimal h => exact h.lineEnd_not_mem rfl
  | based h =>
    obtain @⟨letter, base, run, digits, hbase, h⟩ := h
    have hrun : '\n' ∉ run := h.lineEnd_not_mem (by simp [isDigitIn, hexValue?])
    have hletter : '\n' ≠ letter := by
      rintro rfl
      simp [bases] at hbase
    simp [hrun, hletter]

theorem holdsLongInteger_of_plainLineEnds (h : HoldsLongInteger (plainLineEnds cs)) :
    HoldsLongInteger cs := by
  obtain ⟨run, hlong, hrun⟩ := h
  exact ⟨run, hlong, infix_of_infix_plainLineEnds hlong.lineEnd_not_mem hrun⟩

/-- A text is read as a regular document, or it breaks the grammar, or it stops the reader at a
    long integer. -/
theorem answers_parse (cs : List Char) :
    Answers cs (fun document => (Value.table document).ReadFrom cs) (parse cs) := by
  let text := plainLineEnds cs
  have hlines : Answers text (Draft.ReadFrom text) (linesWithin (text.length + 1) {} text) :=
    answers_linesWithin _ .nil List.suffix_rfl
  have htext : HoldsLongInteger text → HoldsLongInteger cs := holdsLongInteger_of_plainLineEnds
  have hdraft : Answers cs (Draft.ReadFrom cs) (linesWithin (text.length + 1) {} text) :=
    hlines.mono htext fun _ hd => hd.mono fun _ => .mono htext
  exact hdraft.bind fun d hd => .ok hd

end AlignmentConfig.Toml

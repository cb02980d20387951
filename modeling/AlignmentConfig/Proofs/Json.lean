-- SUMMARY: The written form of a JSON value determines the value.
import AlignmentConfig.Json
import AlignmentConfig.Proofs.Quotes

/-!
# Written JSON

No two values are written alike. The first character of a written value tells
its kind, and where the value ends is clear from the value itself: a string
ends at the first quote that is not escaped, an array or an object at the line
that no comma announces, and an integer at the first character that is no
digit. So a written value can be cancelled at the front of a text, as long as
no digit follows it.
-/

namespace AlignmentConfig.Json

open Text

/-- Induction over values, in which an array comes after its items and an object after the values
    of its members. -/
theorem induction {motive : Json → Prop} (null : motive .null)
    (boolean : ∀ value, motive (.boolean value)) (integer : ∀ value, motive (.integer value))
    (string : ∀ text, motive (.string text))
    (array : ∀ items, (∀ v ∈ items, motive v) → motive (.array items))
    (object : ∀ members, (∀ m ∈ members, motive m.2) → motive (.object members)) (v : Json) :
    motive v :=
  @Json.rec motive (fun items => ∀ v ∈ items, motive v) (fun members => ∀ m ∈ members, motive m.2)
    (fun m => motive m.2) null boolean integer string array object (by simp)
    (fun _ _ hitem hitems => List.forall_mem_cons.2 ⟨hitem, hitems⟩) (by simp)
    (fun _ _ hmember hmembers => List.forall_mem_cons.2 ⟨hmember, hmembers⟩) (fun _ _ h => h) v

/-! ## Strings -/

/-- The character that stands first inside the quotes of a string, and what follows it. Nothing
    stands there if the string ends. -/
def unescape? : List Char → Option (Char × List Char)
  | '\\' :: 'n' :: rest => some ('\n', rest)
  | '\\' :: 'r' :: rest => some ('\r', rest)
  | '\\' :: 't' :: rest => some ('\t', rest)
  | '\\' :: 'b' :: rest => some ('\x08', rest)
  | '\\' :: 'f' :: rest => some ('\x0c', rest)
  | '\\' :: 'u' :: a :: b :: c :: d :: rest =>
    (Toml.hexNumber? [a, b, c, d]).map fun code => (Char.ofNat code, rest)
  | '\\' :: c :: rest => some (c, rest)
  | '"' :: _ => none
  | c :: rest => some (c, rest)
  | [] => none

theorem hexNumber?_control :
    ∀ n < 0x20, Toml.hexNumber? ['0', '0', Nat.digitChar (n / 16), Nat.digitChar (n % 16)] =
      some n := by
  decide

/-- An escaped character is read back. -/
theorem unescape?_escapeChar (c : Char) (rest : List Char) :
    unescape? (escapeChar c ++ rest) = some (c, rest) := by
  have hcode : ∀ {n}, c.toNat = n → Char.ofNat n = c := fun h => h ▸ Char.ofNat_toNat c
  unfold escapeChar
  split
  · next h => simp [h, unescape?]
  split
  · next h => simp [h, unescape?]
  split
  · next h => simp [h, unescape?]
  split
  · next h => simp [h, unescape?]
  split
  · next h => simp [h, unescape?]
  split
  · next h => simpa [unescape?] using hcode h
  split
  · next h => simpa [unescape?] using hcode h
  split
  · next h => simp [unescape?, hexNumber?_control _ h, hcode rfl]
  · -- The character stands for itself: it is neither a backslash nor a quote.
    rw [List.singleton_append, unescape?] <;> simp_all

theorem unescape?_quote (rest : List Char) : unescape? ('"' :: rest) = none := by
  simp [unescape?]

theorem escaped_append_inj {cs ds r r' : List Char}
    (h : cs.flatMap escapeChar ++ '"' :: r = ds.flatMap escapeChar ++ '"' :: r') :
    cs = ds ∧ r = r' := by
  obtain ⟨heq, hrest⟩ :=
    flatMap_append_inj unescape?_escapeChar (unescape?_quote r) (unescape?_quote r') h
  exact ⟨heq, List.tail_eq_of_cons_eq hrest⟩

theorem quoteString_append_inj {a b : String} {r r' : List Char}
    (h : quoteString a ++ r = quoteString b ++ r') : a = b ∧ r = r' := by
  simp only [quoteString, List.cons_append, List.append_assoc, List.nil_append, List.cons.injEq,
    true_and] at h
  obtain ⟨htext, hrest⟩ := escaped_append_inj h
  exact ⟨String.toList_inj.1 htext, hrest⟩

/-! ## Integers -/

/-- What may follow a written value: a text that does not start with a digit. -/
def Follows (rest : List Char) : Prop := ∀ c ∈ rest.head?, c.isDigit = false

theorem digits_append_inj {cs ds r r' : List Char} (hcs : cs.all Char.isDigit = true)
    (hds : ds.all Char.isDigit = true) (hr : Follows r) (hr' : Follows r')
    (h : cs ++ r = ds ++ r') : cs = ds ∧ r = r' := by
  have htake : ∀ {cs r : List Char}, cs.all Char.isDigit = true → Follows r →
      (cs ++ r).takeWhile Char.isDigit = cs := by
    intro cs r hcs hr
    rw [List.takeWhile_append_of_pos (List.all_eq_true.1 hcs)]
    cases r with
    | nil => simp
    | cons c r => simp [hr c rfl]
  obtain rfl : cs = ds := by rw [← htake hcs hr, h, htake hds hr']
  exact ⟨rfl, List.append_cancel_left h⟩

/-- Digits alone are no digits behind a minus. -/
theorem digits_append_ne_minus {cs rest r : List Char} (hne : cs ≠ [])
    (hcs : cs.all Char.isDigit = true) : cs ++ r ≠ '-' :: rest := by
  obtain ⟨c, cs, rfl⟩ := List.exists_cons_of_ne_nil hne
  intro heq
  rw [List.cons_append, List.cons.injEq] at heq
  simp [heq.1] at hcs

theorem numeral_append_inj {m n : Numeral} {r r' : List Char} (hm : m.digits ≠ [])
    (hmall : m.digits.all Char.isDigit = true) (hn : n.digits ≠ [])
    (hnall : n.digits.all Char.isDigit = true) (hr : Follows r) (hr' : Follows r')
    (h : m.chars ++ r = n.chars ++ r') : m = n ∧ r = r' := by
  obtain ⟨negative, cs⟩ := m
  obtain ⟨negative', ds⟩ := n
  cases negative with
  | true =>
    cases negative' with
    | true =>
      obtain ⟨rfl, hrest⟩ := digits_append_inj hmall hnall hr hr' (List.tail_eq_of_cons_eq h)
      exact ⟨rfl, hrest⟩
    | false => exact absurd h.symm (digits_append_ne_minus hn hnall)
  | false =>
    cases negative' with
    | true => exact absurd h (digits_append_ne_minus hm hmall)
    | false =>
      obtain ⟨rfl, hrest⟩ := digits_append_inj hmall hnall hr hr' h
      exact ⟨rfl, hrest⟩

theorem integer_append_inj {i j : Int} {r r' : List Char} (hr : Follows r) (hr' : Follows r')
    (h : (Numeral.ofInt i).chars ++ r = (Numeral.ofInt j).chars ++ r') : i = j ∧ r = r' := by
  obtain ⟨hnumeral, hrest⟩ :=
    numeral_append_inj (Numeral.digits_ofInt_ne_nil i) (Numeral.all_isDigit_ofInt i)
      (Numeral.digits_ofInt_ne_nil j) (Numeral.all_isDigit_ofInt j) hr hr' h
  have hvalue := congrArg Numeral.value hnumeral
  rw [Numeral.value_ofInt, Numeral.value_ofInt] at hvalue
  exact ⟨hvalue, hrest⟩

/-! ## Lines -/

/-- Pieces on lines of their own, with commas after all but the last. -/
def lines (depth : Nat) : List (List Char) → List Char
  | [] => []
  | [piece] => newLine depth ++ piece
  | piece :: pieces => newLine depth ++ piece ++ ',' :: lines depth pieces

/-- What `f` writes can be cancelled at the front of a text that goes on without a digit. -/
def Cancels {α : Type} (f : α → List Char) (a : α) : Prop :=
  ∀ {b : α} {r r' : List Char}, Follows r → Follows r' → f a ++ r = f b ++ r' → a = b ∧ r = r'

/-- What stands after a line: nothing after the last one, and else a comma and the other lines. -/
def moreLines (depth : Nat) (pieces : List (List Char)) : List Char :=
  if pieces = [] then [] else ',' :: lines depth pieces

theorem lines_cons (depth : Nat) (piece : List Char) (pieces : List (List Char)) :
    lines depth (piece :: pieces) = newLine depth ++ (piece ++ moreLines depth pieces) := by
  cases pieces <;> simp [lines, moreLines]

theorem follows_moreLines (depth close : Nat) (pieces : List (List Char)) (rest : List Char) :
    Follows (moreLines depth pieces ++ (newLine close ++ rest)) := by
  cases pieces <;> simp [moreLines, newLine, Follows]

theorem lines_append_inj {α : Type} {f : α → List Char} {depth close : Nat} {as bs : List α}
    {r r' : List Char} (hf : ∀ a ∈ as, Cancels f a) (has : as ≠ []) (hbs : bs ≠ [])
    (h : lines depth (as.map f) ++ (newLine close ++ r) =
      lines depth (bs.map f) ++ (newLine close ++ r')) :
    as = bs ∧ r = r' := by
  induction as generalizing bs with
  | nil => exact absurd rfl has
  | cons a as ih =>
    obtain ⟨b, bs, rfl⟩ := List.exists_cons_of_ne_nil hbs
    simp only [List.map_cons, lines_cons, List.append_assoc, List.append_cancel_left_eq] at h
    obtain ⟨rfl, hrest⟩ := hf a (List.mem_cons_self ..) (follows_moreLines _ _ _ _)
      (follows_moreLines _ _ _ _) h
    cases as with
    | nil =>
      cases bs with
      | nil => exact ⟨rfl, by simpa [moreLines] using hrest⟩
      | cons b bs => simp [moreLines, newLine] at hrest
    | cons a' as =>
      cases bs with
      | nil => simp [moreLines, newLine] at hrest
      | cons b bs =>
        have hnext : lines depth ((a' :: as).map f) ++ (newLine close ++ r) =
            lines depth ((b :: bs).map f) ++ (newLine close ++ r') := by
          simpa [moreLines] using hrest
        have hlines := ih (fun x hx => hf x (List.mem_cons_of_mem _ hx)) (by simp) (by simp) hnext
        exact ⟨by rw [hlines.1], hlines.2⟩

/-- An array or an object: its lines one level deeper between two brackets, which close at once if
    there are no lines. -/
def enclosed (opening closing : Char) (depth : Nat) (pieces : List (List Char)) : List Char :=
  if pieces = [] then [opening, closing]
  else opening :: (lines (depth + 1) pieces ++ (newLine depth ++ [closing]))

theorem enclosed_append_inj {α : Type} {f : α → List Char} {opening closing : Char} {depth : Nat}
    {as bs : List α} {r r' : List Char} (hclosing : closing ≠ '\n') (hf : ∀ a ∈ as, Cancels f a)
    (h : enclosed opening closing depth (as.map f) ++ r =
      enclosed opening closing depth (bs.map f) ++ r') :
    as = bs ∧ r = r' := by
  cases as with
  | nil =>
    cases bs with
    | nil => exact ⟨rfl, List.append_cancel_left h⟩
    | cons b bs => simp [enclosed, lines_cons, newLine, hclosing] at h
  | cons a as =>
    cases bs with
    | nil => simp [enclosed, lines_cons, newLine, hclosing.symm] at h
    | cons b bs =>
      have hlines : lines (depth + 1) ((a :: as).map f) ++ (newLine depth ++ (closing :: r)) =
          lines (depth + 1) ((b :: bs).map f) ++ (newLine depth ++ (closing :: r')) := by
        simpa [enclosed] using h
      obtain ⟨heq, hrest⟩ := lines_append_inj hf (by simp) (by simp) hlines
      exact ⟨heq, List.tail_eq_of_cons_eq hrest⟩

/-! ## Values -/

theorem writeItems_eq_lines (depth : Nat) (items : List Json) :
    writeItems depth items = lines depth (items.map (write depth)) := by
  induction items with
  | nil => rfl
  | cons item items ih => cases items <;> simp_all [writeItems, lines]

theorem write_array (depth : Nat) (items : List Json) :
    write depth (.array items) = enclosed '[' ']' depth (items.map (write (depth + 1))) := by
  cases items <;> simp [write, enclosed, writeItems_eq_lines]

/-- A member as it stands on its line. -/
def memberLine (depth : Nat) (m : String × Json) : List Char :=
  quoteString m.1 ++ ':' :: ' ' :: write depth m.2

theorem writeMembers_eq_lines (depth : Nat) (members : List (String × Json)) :
    writeMembers depth members = lines depth (members.map (memberLine depth)) := by
  induction members with
  | nil => rfl
  | cons m members ih => cases members <;> simp_all [writeMembers, lines, memberLine]

theorem write_object (depth : Nat) (members : List (String × Json)) :
    write depth (.object members) =
      enclosed '\x7b' '\x7d' depth (members.map (memberLine (depth + 1))) := by
  cases members <;> simp [write, enclosed, writeMembers_eq_lines]

/-- The kinds of values. -/
inductive Kind where
  | null
  | boolean
  | integer
  | string
  | array
  | object
  deriving DecidableEq

/-- The kind of a value. -/
def kind : Json → Kind
  | .null => .null
  | .boolean _ => .boolean
  | .integer _ => .integer
  | .string _ => .string
  | .array _ => .array
  | .object _ => .object

/-- The kind of the values whose written form starts with a character. -/
def kindOf (c : Char) : Kind :=
  if c = 'n' then .null
  else if c = 't' ∨ c = 'f' then .boolean
  else if c = '"' then .string
  else if c = '[' then .array
  else if c = '\x7b' then .object
  else .integer

theorem kindOf_digit {c : Char} (h : c.isDigit = true) : kindOf c = .integer := by
  have hne : ∀ d : Char, d.isDigit = false → c ≠ d := by
    rintro d hd rfl
    simp [hd] at h
  simp [kindOf, hne 'n' rfl, hne 't' rfl, hne 'f' rfl, hne '"' rfl, hne '[' rfl, hne '\x7b' rfl]

/-- The first character of a written value tells the kind of the value. -/
theorem exists_head_write (depth : Nat) (v : Json) :
    ∃ c rest, write depth v = c :: rest ∧ kindOf c = v.kind := by
  cases v with
  | null => exact ⟨_, _, by rw [write], rfl⟩
  | boolean value => cases value <;> exact ⟨_, _, by rw [write], rfl⟩
  | integer i =>
    rw [write]
    unfold Numeral.chars
    split
    · exact ⟨_, _, rfl, rfl⟩
    · obtain ⟨c, cs, hcs⟩ := List.exists_cons_of_ne_nil (Numeral.digits_ofInt_ne_nil i)
      have hall := Numeral.all_isDigit_ofInt i
      rw [hcs, List.all_cons, Bool.and_eq_true] at hall
      exact ⟨c, cs, hcs, kindOf_digit hall.1⟩
  | string text => exact ⟨_, _, by rw [write]; rfl, rfl⟩
  | array items =>
    rw [write_array]
    unfold enclosed
    split <;> exact ⟨_, _, rfl, rfl⟩
  | object members =>
    rw [write_object]
    unfold enclosed
    split <;> exact ⟨_, _, rfl, rfl⟩

theorem kind_eq_of_write {depth : Nat} {v w : Json} {r r' : List Char}
    (h : write depth v ++ r = write depth w ++ r') : v.kind = w.kind := by
  obtain ⟨c, rest, hv, hc⟩ := exists_head_write depth v
  obtain ⟨d, rest', hw, hd⟩ := exists_head_write depth w
  rw [hv, hw, List.cons_append, List.cons_append, List.cons.injEq] at h
  rw [← hc, ← hd, h.1]

theorem cancels_memberLine {depth : Nat} {m : String × Json} (h : Cancels (write depth) m.2) :
    Cancels (memberLine depth) m := by
  intro m' r r' hr hr' heq
  simp only [memberLine, List.append_assoc, List.cons_append] at heq
  obtain ⟨hname, hrest⟩ := quoteString_append_inj heq
  simp only [List.cons.injEq, true_and] at hrest
  obtain ⟨hvalue, hrest⟩ := h hr hr' hrest
  exact ⟨Prod.ext hname hvalue, hrest⟩

/-- A written value can be cancelled, at any depth. -/
theorem cancels_write (v : Json) : ∀ depth, Cancels (write depth) v := by
  induction v using induction with
  | null =>
    intro depth w r r' hr hr' h
    have hkind := kind_eq_of_write h
    cases w <;> cases hkind
    exact ⟨rfl, List.append_cancel_left h⟩
  | boolean value =>
    intro depth w r r' hr hr' h
    have hkind := kind_eq_of_write h
    cases w <;> cases hkind
    next value' =>
      cases value <;> cases value' <;> simp_all [write]
  | integer i =>
    intro depth w r r' hr hr' h
    have hkind := kind_eq_of_write h
    cases w <;> cases hkind
    next j =>
      rw [write, write] at h
      obtain ⟨rfl, hrest⟩ := integer_append_inj hr hr' h
      exact ⟨rfl, hrest⟩
  | string text =>
    intro depth w r r' hr hr' h
    have hkind := kind_eq_of_write h
    cases w <;> cases hkind
    next text' =>
      rw [write, write] at h
      obtain ⟨rfl, hrest⟩ := quoteString_append_inj h
      exact ⟨rfl, hrest⟩
  | array items ih =>
    intro depth w r r' hr hr' h
    have hkind := kind_eq_of_write h
    cases w <;> cases hkind
    next items' =>
      rw [write_array, write_array] at h
      obtain ⟨rfl, hrest⟩ := enclosed_append_inj (by decide) (fun v hv => ih v hv _) h
      exact ⟨rfl, hrest⟩
  | object members ih =>
    intro depth w r r' hr hr' h
    have hkind := kind_eq_of_write h
    cases w <;> cases hkind
    next members' =>
      rw [write_object, write_object] at h
      obtain ⟨rfl, hrest⟩ :=
        enclosed_append_inj (by decide) (fun m hm => cancels_memberLine (ih m hm _)) h
      exact ⟨rfl, hrest⟩

/-- No two values have the same text. -/
theorem text_inj {v w : Json} : v.text = w.text ↔ v = w := by
  constructor
  · intro h
    have hwritten : write 0 v ++ ['\n'] = write 0 w ++ ['\n'] := by
      simpa [text, ← String.toList_inj] using h
    exact (cancels_write v 0 (by simp [Follows]) (by simp [Follows]) hwritten).1
  · rintro rfl
    rfl

end AlignmentConfig.Json

-- SUMMARY: Numbers in a document: decimal, hexadecimal, octal and binary integers, and the spelling of floats.
import AlignmentConfig.Text.Decimal
import AlignmentConfig.Toml.Quotation
import AlignmentConfig.Toml.Value

/-!
# Numbers

Digits may be grouped by single underscores between them. A decimal integer has
an optional sign and no leading zeros; a fraction or an exponent makes it a
float. Integers in another base start with a zero and a letter and have no
sign.

Each reader returns what it read from the front and what follows it.
-/

namespace AlignmentConfig.Toml

open Text

/-- The digits at the front, single underscores between digits left out. -/
def moreDigits (isDigit : Char → Bool) : List Char → List Char × List Char
  | [] => ([], [])
  | ['_'] => ([], ['_'])
  | '_' :: d :: cs =>
    if isDigit d then
      let (ds, rest) := moreDigits isDigit cs
      (d :: ds, rest)
    else ([], '_' :: d :: cs)
  | d :: cs =>
    if isDigit d then
      let (ds, rest) := moreDigits isDigit cs
      (d :: ds, rest)
    else ([], d :: cs)

/-- At least one digit, with single underscores between digits. -/
def digits? (isDigit : Char → Bool) : List Char → Option (List Char × List Char)
  | [] => none
  | d :: cs =>
    if isDigit d then
      let (ds, rest) := moreDigits isDigit cs
      some (d :: ds, rest)
    else none

/-- The digits of a decimal integer: a zero alone, or digits that do not start with one. -/
def decimalDigits? : List Char → Option (List Char × List Char)
  | '0' :: cs => some (['0'], cs)
  | cs => digits? Char.isDigit cs

/-- What follows the fraction at the front, if there is one. -/
def afterFraction? : List Char → Option (List Char)
  | '.' :: cs => (digits? Char.isDigit cs).map Prod.snd
  | _ => none

/-- What follows the exponent at the front, if there is one. -/
def afterExponent? : List Char → Option (List Char)
  | e :: cs =>
    if e = 'e' ∨ e = 'E' then
      let digits := match cs with
        | '+' :: cs | '-' :: cs => cs
        | cs => cs
      (digits? Char.isDigit digits).map Prod.snd
    else none
  | [] => none

/-- An integer in a base that the letter after the leading zero names. -/
def basedInteger? : List Char → Option (Nat × List Char)
  | '0' :: 'x' :: cs => read 16 (fun c => (hexValue? c).isSome) cs
  | '0' :: 'o' :: cs => read 8 (fun c => '0' ≤ c && c ≤ '7') cs
  | '0' :: 'b' :: cs => read 2 (fun c => c = '0' || c = '1') cs
  | _ => none
where
  /-- The number that the digits at the front spell in a base. -/
  read (base : Nat) (isDigit : Char → Bool) (cs : List Char) : Option (Nat × List Char) :=
    (digits? isDigit cs).map fun (ds, rest) =>
      (ds.foldl (fun n d => base * n + (hexValue? d).getD 0) 0, rest)

/-- The spelling of what was read, given what follows it. -/
def spelling (cs rest : List Char) : String := String.ofList (cs.take (cs.length - rest.length))

/-- The sign at the front, if there is one, and what follows it. -/
def sign : List Char → Bool × List Char
  | '-' :: cs => (true, cs)
  | '+' :: cs => (false, cs)
  | cs => (false, cs)

/-- The decimal integer or float at the front, if there is one. An integer with
    too many digits is a fault. -/
def decimalNumber? (cs : List Char) : Option (Except Fault (Value × List Char)) :=
  let (negative, unsigned) := sign cs
  (decimalDigits? unsigned).map fun (digits, rest) =>
    let fraction := afterFraction? rest
    let afterMantissa := fraction.getD rest
    let exponent := afterExponent? afterMantissa
    if fraction.isSome ∨ exponent.isSome then
      let rest := exponent.getD afterMantissa
      .ok (.float (spelling cs rest), rest)
    else
      let numeral : Numeral := ⟨negative, digits⟩
      if numeral.isTooLong then .error (.longInteger digits.length)
      else .ok (.integer numeral.value, rest)

/-- The words for floats that no digits spell. -/
def floatWord? (cs : List Char) : Option (Value × List Char) :=
  match (sign cs).2 with
  | 'i' :: 'n' :: 'f' :: rest | 'n' :: 'a' :: 'n' :: rest =>
    some (.float (spelling cs rest), rest)
  | _ => none

/-- The number at the front, if there is one. -/
def number? (cs : List Char) : Option (Except Fault (Value × List Char)) :=
  match basedInteger? cs with
  | some (n, rest) => some (.ok (.integer n, rest))
  | none => decimalNumber? cs <|> (floatWord? cs).map .ok

end AlignmentConfig.Toml

-- SUMMARY: Decoding bytes as UTF-8, one byte at a time, with the exact place and cause of the first fault.
/-!
# UTF-8

The decoder reads one byte at a time. Between characters it expects a lead
byte; after one it expects a fixed number of continuation bytes, of which the
first has bounds of its own, so that overlong forms, surrogates and codes past
the last plane never arise. A fault names the longest valid beginning of a
sequence: its position, its bytes, and why it cannot be completed.
-/

namespace AlignmentConfig.Text.Utf8

/-- Why the bytes of a sequence cannot be completed to a character. -/
inductive Reason where
  | badStart
  | badContinuation
  | endOfData
  deriving DecidableEq

/-- The wording of a reason. -/
def Reason.message : Reason → String
  | .badStart => "invalid start byte"
  | .badContinuation => "invalid continuation byte"
  | .endOfData => "unexpected end of data"

/-- The first sequence of bytes that is no character: where it starts, its bytes, and the reason. -/
structure Fault where
  position : Nat
  bytes : List UInt8
  reason : Reason
  deriving DecidableEq

/-- A byte in two hexadecimal digits. -/
def hexByte (b : UInt8) : String :=
  String.ofList [Nat.digitChar (b.toNat / 16), Nat.digitChar (b.toNat % 16)]

/-- The wording of a fault: one byte is named by its value, several by their positions. -/
def Fault.message (f : Fault) : String :=
  let place := match f.bytes with
    | [b] => s!"byte 0x{hexByte b} in position {f.position}"
    | bs => s!"bytes in position {f.position}-{f.position + (bs.length - 1)}"
  s!"'utf-8' codec can't decode {place}: {f.reason.message}"

/-- A character of which only the first bytes have been read. -/
structure Pending where
  bytes : List UInt8
  code : Nat
  /-- How many continuation bytes are still to come after the next one. -/
  more : Nat
  low : UInt8
  high : UInt8
  deriving DecidableEq

/-- What a lead byte announces: a whole character, the beginning of one, or nothing. -/
inductive Lead where
  | whole (code : Nat)
  | opens (pending : Pending)
  | invalid

/-- The beginning of a character with the given payload in its lead byte. -/
def Lead.ofByte (b : UInt8) : Lead :=
  let n := b.toNat
  if n < 0x80 then .whole n
  else if n < 0xC2 then .invalid
  else if n < 0xE0 then .opens ⟨[b], n - 0xC0, 0, 0x80, 0xBF⟩
  else if n < 0xF0 then
    let low := if n = 0xE0 then 0xA0 else 0x80
    let high := if n = 0xED then 0x9F else 0xBF
    .opens ⟨[b], n - 0xE0, 1, low, high⟩
  else if n < 0xF5 then
    let low := if n = 0xF0 then 0x90 else 0x80
    let high := if n = 0xF4 then 0x8F else 0xBF
    .opens ⟨[b], n - 0xF0, 2, low, high⟩
  else .invalid

/-- Decode the bytes that follow. `position` is where the current sequence starts. -/
def decodeFrom (position : Nat) : Option Pending → List UInt8 → Except Fault (List Char)
  | none, [] => .ok []
  | some p, [] => .error ⟨position, p.bytes, .endOfData⟩
  | none, b :: rest =>
    match Lead.ofByte b with
    | .whole code => (decodeFrom (position + 1) none rest).map (Char.ofNat code :: ·)
    | .opens p => decodeFrom position (some p) rest
    | .invalid => .error ⟨position, [b], .badStart⟩
  | some p, b :: rest =>
    if p.low ≤ b ∧ b ≤ p.high then
      let bytes := p.bytes ++ [b]
      let code := p.code * 64 + (b.toNat - 0x80)
      match p.more with
      | 0 => (decodeFrom (position + bytes.length) none rest).map (Char.ofNat code :: ·)
      | more + 1 => decodeFrom position (some ⟨bytes, code, more, 0x80, 0xBF⟩) rest
    else .error ⟨position, p.bytes, .badContinuation⟩

/-- The text that the bytes encode, or the first fault. -/
def decode (bytes : List UInt8) : Except Fault (List Char) := decodeFrom 0 none bytes

end AlignmentConfig.Text.Utf8

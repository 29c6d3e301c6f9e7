/-!
# Decoding UTF-8

The decoder reads one octet at a time. Between characters it waits for a first octet, which fixes
how many continuation octets follow and, because overlong forms, surrogates and values beyond the
last code point are refused, the range of the second one. A failure is placed at the first octet of
the sequence that could not be completed.
-/

namespace AttributeLint.Text

/-- Why octets are not UTF-8. -/
inductive Utf8Flaw where
  | start
  | continuation
  | truncated
  deriving DecidableEq, Repr

/-- The wording of a flaw. -/
def Utf8Flaw.message : Utf8Flaw → String
  | .start => "invalid start byte"
  | .continuation => "invalid continuation byte"
  | .truncated => "unexpected end of data"

/-- A flaw and the offset of the sequence it is in. -/
structure Utf8Error where
  flaw : Utf8Flaw
  position : Nat
  deriving DecidableEq, Repr

/-- A character whose continuation octets have not all been read. -/
structure Pending where
  /-- The bits read so far. -/
  value : Nat
  /-- Least and greatest value of the next octet. -/
  low : Nat
  high : Nat
  /-- Number of octets after the next one. -/
  more : Nat
  /-- Offset of the first octet. -/
  start : Nat
  deriving DecidableEq, Repr

/-- What a first octet at an offset announces: a whole character, or the beginning of one. -/
def firstOctet (offset b : Nat) : Option (Char ⊕ Pending) :=
  if b < 0x80 then some (.inl (Char.ofNat b))
  else if b < 0xC2 then none
  else if b < 0xE0 then some (.inr ⟨b - 0xC0, 0x80, 0xBF, 0, offset⟩)
  else if b < 0xF0 then
    some (.inr ⟨b - 0xE0, if b = 0xE0 then 0xA0 else 0x80, if b = 0xED then 0x9F else 0xBF, 1,
      offset⟩)
  else if b < 0xF5 then
    some (.inr ⟨b - 0xF0, if b = 0xF0 then 0x90 else 0x80, if b = 0xF4 then 0x8F else 0xBF, 2,
      offset⟩)
  else none

/-- Decodes octets from an offset on, in the middle of a character or between two. -/
def decodeFrom (offset : Nat) : Option Pending → List UInt8 → Except Utf8Error (List Char)
  | none, [] => .ok []
  | some p, [] => .error ⟨.truncated, p.start⟩
  | none, b :: rest =>
      match firstOctet offset b.toNat with
      | none => .error ⟨.start, offset⟩
      | some (.inl c) =>
          match decodeFrom (offset + 1) none rest with
          | .ok cs => .ok (c :: cs)
          | .error e => .error e
      | some (.inr p) => decodeFrom (offset + 1) (some p) rest
  | some p, b :: rest =>
      if p.low ≤ b.toNat ∧ b.toNat ≤ p.high then
        let value := p.value * 0x40 + (b.toNat - 0x80)
        match p.more with
        | 0 =>
            match decodeFrom (offset + 1) none rest with
            | .ok cs => .ok (Char.ofNat value :: cs)
            | .error e => .error e
        | more + 1 => decodeFrom (offset + 1) (some ⟨value, 0x80, 0xBF, more, p.start⟩) rest
      else .error ⟨.continuation, p.start⟩

/-- Decodes UTF-8. -/
def decodeUtf8 (octets : List UInt8) : Except Utf8Error (List Char) :=
  decodeFrom 0 none octets

end AttributeLint.Text

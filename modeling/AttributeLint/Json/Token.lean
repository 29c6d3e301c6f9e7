import AttributeLint.Json.Value
import AttributeLint.Limits
import AttributeLint.Text.Hex

/-!
# Tokens of JSON text

The text is cut into lexemes: punctuation, complete scalars, strings that are damaged, and strays.
A lexeme keeps the text from where it starts, so that an error can be given a position without
carrying one along. Nothing after a damaged string or a stray is ever looked at, so the
lexemes end there. `tokens` is total because every lexeme consumes at least its first character
(`lexeme_length`).

Texts are sequences of characters, and half of a surrogate pair is none: where the text escapes one
that has no other half, the string gets the replacement character U+FFFD in its place. Statements
about strings with such escapes speak of the string with the replacement.
-/

namespace AttributeLint.Json

/-- Why a text is not JSON. -/
inductive Flaw where
  | value
  | key
  | colon
  | comma
  | extraData
  | unterminatedString
  | controlCharacter
  | badEscape
  | badCodeEscape
  | byteOrderMark
  /-- A limit of the reader is passed. -/
  | excess (e : Excess)
  deriving DecidableEq, Repr

/-- The wording of a flaw. -/
def Flaw.message : Flaw → String
  | .value => "Expecting value"
  | .key => "Expecting property name enclosed in double quotes"
  | .colon => "Expecting ':' delimiter"
  | .comma => "Expecting ',' delimiter"
  | .extraData => "Extra data"
  | .unterminatedString => "Unterminated string starting at"
  | .controlCharacter => "Invalid control character at"
  | .badEscape => "Invalid \\escape"
  | .badCodeEscape => "Invalid \\uXXXX escape"
  | .byteOrderMark => "Unexpected UTF-8 BOM (decode using utf-8-sig)"
  | .excess e => e.message

/-! ## Strings -/

/-- What follows an opening quote. -/
inductive StringScan where
  /-- The string is complete: its code units, and the text after the closing quote. -/
  | closed (units : List Nat) (rest : List Char)
  /-- The text ends first. -/
  | unclosed
  /-- Something inside is not allowed: `rest` is the text from there on. -/
  | flawed (flaw : Flaw) (rest : List Char)
  deriving DecidableEq, Repr

/-- Puts a code unit in front of a complete string. -/
def StringScan.push (unit : Nat) : StringScan → StringScan
  | .closed units rest => .closed (unit :: units) rest
  | s => s

/-- The character that a one-letter escape stands for. -/
def escaped? (c : Char) : Option Char :=
  match c with
  | '\x22' => some '\x22'
  | '\\' => some '\\'
  | '/' => some '/'
  | 'b' => some '\x08'
  | 'f' => some '\x0c'
  | 'n' => some '\n'
  | 'r' => some '\r'
  | 't' => some '\t'
  | _ => none

/-- Scans a string from behind its opening quote. A code escape takes four digits and must have
text after them. -/
def scan : List Char → StringScan
  | [] => .unclosed
  | '\x22' :: rest => .closed [] rest
  | '\\' :: [] => .unclosed
  | '\\' :: 'u' :: a :: b :: c :: d :: e :: rest =>
      match Text.hexValue4? a b c d with
      | some n => (scan (e :: rest)).push n
      | none => .flawed .badCodeEscape ('u' :: a :: b :: c :: d :: e :: rest)
  | '\\' :: 'u' :: rest => .flawed .badCodeEscape ('u' :: rest)
  | '\\' :: c :: rest =>
      match escaped? c with
      | some e => (scan rest).push e.toNat
      | none => .flawed .badEscape ('\\' :: c :: rest)
  | c :: rest =>
      if c.toNat < 0x20 then .flawed .controlCharacter (c :: rest)
      else (scan rest).push c.toNat

/-- Is the code unit the first half of a surrogate pair? -/
def isHighSurrogate (n : Nat) : Bool :=
  decide (0xD800 ≤ n ∧ n < 0xDC00)

/-- Is the code unit the second half of a surrogate pair? -/
def isLowSurrogate (n : Nat) : Bool :=
  decide (0xDC00 ≤ n ∧ n < 0xE000)

/-- The character of a code unit. Half of a pair on its own, which no text can hold, becomes the
replacement character. -/
def unitChar (n : Nat) : Char :=
  if isHighSurrogate n || isLowSurrogate n then Char.ofNat 0xFFFD else Char.ofNat n

/-- The character of a surrogate pair. -/
def pairChar (high low : Nat) : Char :=
  Char.ofNat (0x10000 + (high - 0xD800) * 0x400 + (low - 0xDC00))

/-- Joins surrogate pairs into characters. -/
def joinUnits : List Nat → List Char
  | [] => []
  | [n] => [unitChar n]
  | high :: low :: rest =>
      if isHighSurrogate high && isLowSurrogate low then pairChar high low :: joinUnits rest
      else unitChar high :: joinUnits (low :: rest)

/-! ## Numbers -/

/-- The value of a run of decimal digits. -/
def digitsValue (ds : List Char) : Nat :=
  ds.foldl (fun n d => n * 10 + (d.toNat - 48)) 0

/-- The digits of an integer part: a lone zero, or a run that does not start with one. -/
def wholePart? : List Char → Option (List Char × List Char)
  | [] => none
  | c :: rest =>
      if c = '0' then some ([c], rest)
      else if c.isDigit then some (c :: rest.takeWhile Char.isDigit, rest.dropWhile Char.isDigit)
      else none

/-- The digits after a decimal point; a point with no digit after it is not read. -/
def fraction (cs : List Char) : List Char × List Char :=
  match cs with
  | '.' :: rest =>
      let ds := rest.takeWhile Char.isDigit
      if ds.isEmpty then ([], cs) else (ds, rest.dropWhile Char.isDigit)
  | _ => ([], cs)

/-- A minus sign, if there is one, and the text after it. -/
def minusSign : List Char → Bool × List Char
  | '-' :: rest => (true, rest)
  | cs => (false, cs)

/-- A sign of an exponent, if there is one, and the text after it. -/
def exponentSign : List Char → Bool × List Char
  | '-' :: rest => (true, rest)
  | '+' :: rest => (false, rest)
  | cs => (false, cs)

/-- A number from its sign and its size. -/
def signedInt (negative : Bool) (n : Nat) : Int :=
  if negative then -(n : Int) else n

/-- The exponent behind its mark: a sign, if any, and at least one digit. -/
def exponentValue? (cs : List Char) : Option (Int × List Char) :=
  let body := (exponentSign cs).2
  let ds := body.takeWhile Char.isDigit
  if ds.isEmpty then none
  else some (signedInt (exponentSign cs).1 (digitsValue ds), body.dropWhile Char.isDigit)

/-- The exponent with its mark; a mark with no digit after it is not read. -/
def exponent (cs : List Char) : Option Int × List Char :=
  match cs with
  | [] => (none, [])
  | mark :: rest =>
      if mark = 'e' ∨ mark = 'E' then
        match exponentValue? rest with
        | some (n, more) => (some n, more)
        | none => (none, cs)
      else (none, cs)

/-- The double nearest to `digits · 10^e`. Exponents far outside the range of doubles give zero or
infinity without being computed. -/
def realOf (negative : Bool) (digits : List Char) (e : Int) : Float :=
  let m := digitsValue digits
  let top : Int := (Nat.toDigits 10 m).length + e
  let x : Float :=
    if m = 0 ∨ top < -400 then Float.ofScientific 0 false 0
    else if 400 < top then Float.ofScientific 1 false 400
    else Float.ofScientific m (decide (e < 0)) e.natAbs
  if negative then -x else x

/-- Reads a number whose sign has been read. It is an integer unless a fraction or an exponent
follows. -/
def magnitude? (negative : Bool) (cs : List Char) : Option (Json × List Char) :=
  match wholePart? cs with
  | none => none
  | some (whole, rest) =>
      let (places, afterPlaces) := fraction rest
      let (power, afterPower) := exponent afterPlaces
      if places.isEmpty && power.isNone then
        some (.int (signedInt negative (digitsValue whole)), afterPower)
      else
        some (.real (realOf negative (whole ++ places) (power.getD 0 - places.length)), afterPower)

/-- Reads a number at the start of a text. -/
def number? (cs : List Char) : Option (Json × List Char) :=
  magnitude? (minusSign cs).1 (minusSign cs).2

/-! ## Lexemes -/

/-- A token of JSON text. -/
inductive Token where
  | openArray
  | closeArray
  | openObject
  | closeObject
  | colon
  | comma
  /-- A constant, a number or a string. -/
  | scalar (v : Json)
  /-- A string that is not complete: `left` characters remain where the flaw is. -/
  | damaged (flaw : Flaw) (left : Nat)
  /-- A character that starts no token. -/
  | stray

/-- A token and the text from its first character on. -/
structure Lexeme where
  token : Token
  text : List Char

/-- The number of characters from the first one of a lexeme to the end of the text. -/
def Lexeme.left (l : Lexeme) : Nat :=
  l.text.length

/-- The number of digits of the integer that a lexeme starts with. -/
def Lexeme.digitCount (l : Lexeme) : Nat :=
  match wholePart? (minusSign l.text).2 with
  | some (whole, _) => whole.length
  | none => 0

/-- Blank space between tokens. -/
def isBlank (c : Char) : Bool :=
  c = ' ' ∨ c = '\t' ∨ c = '\n' ∨ c = '\r'

/-- The words that stand for constants. -/
def constants : List (List Char × Json) :=
  [("null".toList, .null), ("true".toList, .bool true), ("false".toList, .bool false),
   ("NaN".toList, .real (Float.ofScientific 0 false 0 / Float.ofScientific 0 false 0)),
   ("Infinity".toList, .real (Float.ofScientific 1 false 400)),
   ("-Infinity".toList, .real (-Float.ofScientific 1 false 400))]

/-- Reads a constant at the start of a text. -/
def constant? (cs : List Char) : List (List Char × Json) → Option (Json × List Char)
  | [] => none
  | (word, v) :: more =>
      if word.isPrefixOf cs then some (v, cs.drop word.length) else constant? cs more

/-- Reads a constant or a number at the start of a text. -/
def scalar? (cs : List Char) : Option (Json × List Char) :=
  match constant? cs constants with
  | some r => some r
  | none => number? cs

/-- The token at the start of a text that is not blank there, and the text after it. -/
def lexeme (c : Char) (rest : List Char) : Token × List Char :=
  if c = '[' then (.openArray, rest)
  else if c = ']' then (.closeArray, rest)
  else if c = '\x7b' then (.openObject, rest)
  else if c = '\x7d' then (.closeObject, rest)
  else if c = ':' then (.colon, rest)
  else if c = ',' then (.comma, rest)
  else if c = '\x22' then
    match scan rest with
    | .closed units more => (.scalar (.str (String.ofList (joinUnits units))), more)
    | .unclosed => (.damaged .unterminatedString (rest.length + 1), [])
    | .flawed flaw more => (.damaged flaw more.length, [])
  else
    match scalar? (c :: rest) with
    | some (v, more) => (.scalar v, more)
    | none => (.stray, [])

/-! ## Every lexeme consumes text -/

/-- A pushed scan is complete only if the scan was, and then the text after it is the same. -/
theorem StringScan.push_eq_closed {s : StringScan} {u : Nat} {units : List Nat} {rest : List Char}
    (h : s.push u = .closed units rest) : ∃ more, s = .closed more rest := by
  cases s with
  | closed more after =>
    simp only [StringScan.push, StringScan.closed.injEq] at h
    exact ⟨more, by rw [h.2]⟩
  | unclosed => simp [StringScan.push] at h
  | flawed => simp [StringScan.push] at h

/-- A text that is closed leaves less than there was. -/
theorem scan_closed_length {cs : List Char} {units : List Nat} {rest : List Char}
    (h : scan cs = .closed units rest) : rest.length < cs.length := by
  fun_induction scan cs generalizing units with
  | case2 more =>
    simp only [StringScan.closed.injEq] at h
    simp [h.2]
  | case4 a b c d e more n _ ih =>
    obtain ⟨us, hs⟩ := StringScan.push_eq_closed h
    have := ih hs
    simp only [List.length_cons] at this ⊢
    omega
  | case7 c more _ _ e _ ih =>
    obtain ⟨us, hs⟩ := StringScan.push_eq_closed h
    have := ih hs
    simp only [List.length_cons]
    omega
  | case10 c more _ _ _ _ _ _ ih =>
    obtain ⟨us, hs⟩ := StringScan.push_eq_closed h
    have := ih hs
    simp only [List.length_cons]
    omega
  | _ => simp at h

/-- Dropping characters leaves no more than there was. -/
theorem dropWhile_length_le (p : Char → Bool) (cs : List Char) :
    (cs.dropWhile p).length ≤ cs.length :=
  (List.dropWhile_suffix p).length_le

/-- The whole part of a number takes at least one character. -/
theorem wholePart?_length {cs whole rest : List Char} (h : wholePart? cs = some (whole, rest)) :
    rest.length < cs.length := by
  fun_cases wholePart? cs with
  | case1 => simp [wholePart?] at h
  | case2 more =>
    simp only [wholePart?, if_true, Option.some.injEq, Prod.mk.injEq] at h
    simp [h.2]
  | case3 c more h0 hd =>
    simp only [wholePart?, h0, hd, if_false, if_true, Option.some.injEq, Prod.mk.injEq] at h
    have := dropWhile_length_le Char.isDigit more
    rw [← h.2, List.length_cons]
    omega
  | case4 c more h0 hd => simp [wholePart?, h0, hd] at h

/-- The fraction takes what it takes from the front. -/
theorem fraction_length (cs : List Char) : (fraction cs).2.length ≤ cs.length := by
  fun_cases fraction cs with
  | case1 rest => exact Nat.le_refl _
  | case2 rest =>
    have := dropWhile_length_le Char.isDigit rest
    simp only [List.length_cons]
    omega
  | case3 => exact Nat.le_refl _

/-- So does the sign of a number. -/
theorem minusSign_length (cs : List Char) : (minusSign cs).2.length ≤ cs.length := by
  fun_cases minusSign cs with
  | case1 => simp
  | case2 => exact Nat.le_refl _

/-- So does the sign of an exponent. -/
theorem exponentSign_length (cs : List Char) : (exponentSign cs).2.length ≤ cs.length := by
  fun_cases exponentSign cs with
  | case1 => simp
  | case2 => simp
  | case3 => exact Nat.le_refl _

/-- So do the digits of an exponent. -/
theorem exponentValue?_length {cs rest : List Char} {n : Int}
    (h : exponentValue? cs = some (n, rest)) : rest.length ≤ cs.length := by
  unfold exponentValue? at h
  dsimp only at h
  split at h
  · simp at h
  · simp only [Option.some.injEq, Prod.mk.injEq] at h
    have h1 := exponentSign_length cs
    have h2 := dropWhile_length_le Char.isDigit (exponentSign cs).2
    rw [← h.2]
    omega

/-- So does the exponent as a whole. -/
theorem exponent_length (cs : List Char) : (exponent cs).2.length ≤ cs.length := by
  fun_cases exponent cs with
  | case1 => exact Nat.le_refl _
  | case2 mark rest _ n more hv =>
    have := exponentValue?_length hv
    simp only [List.length_cons]
    omega
  | case3 => exact Nat.le_refl _
  | case4 => exact Nat.le_refl _

/-- A number without its sign takes at least one character. -/
theorem magnitude?_length {cs rest : List Char} {negative : Bool} {v : Json}
    (h : magnitude? negative cs = some (v, rest)) : rest.length < cs.length := by
  unfold magnitude? at h
  split at h
  · simp at h
  · rename_i whole more hw
    have h1 := wholePart?_length hw
    have h2 := fraction_length more
    have h3 := exponent_length (fraction more).2
    dsimp only at h
    split at h <;>
      · simp only [Option.some.injEq, Prod.mk.injEq] at h
        rw [← h.2]
        omega

/-- A number takes at least one character. -/
theorem number?_length {cs rest : List Char} {v : Json} (h : number? cs = some (v, rest)) :
    rest.length < cs.length :=
  Nat.lt_of_lt_of_le (magnitude?_length h) (minusSign_length cs)

/-- A constant takes at least one character, as no word is empty. -/
theorem constant?_length {cs rest : List Char} {v : Json} {words : List (List Char × Json)}
    (hw : ∀ w ∈ words, w.1 ≠ []) (h : constant? cs words = some (v, rest)) :
    rest.length < cs.length := by
  induction words with
  | nil => simp [constant?] at h
  | cons w more ih =>
    obtain ⟨word, value⟩ := w
    unfold constant? at h
    split at h
    · rename_i hp
      simp only [Option.some.injEq, Prod.mk.injEq] at h
      have hne : word ≠ [] := hw _ List.mem_cons_self
      have hlen := (List.isPrefixOf_iff_prefix.mp hp).length_le
      have := List.length_pos_iff.mpr hne
      rw [← h.2, List.length_drop]
      omega
    · exact ih (fun w' h' => hw w' (List.mem_cons_of_mem _ h')) h

/-- A scalar takes at least one character, so the tokens of a text come to an end. -/
theorem scalar?_length {cs rest : List Char} {v : Json} (h : scalar? cs = some (v, rest)) :
    rest.length < cs.length := by
  unfold scalar? at h
  split at h
  · rename_i r hr
    rw [h] at hr
    exact constant?_length (by simp [constants]) hr
  · exact number?_length h

/-- What is left after a lexeme is not longer than what stood behind its first character. -/
theorem lexeme_length (c : Char) (rest : List Char) : (lexeme c rest).2.length ≤ rest.length := by
  unfold lexeme
  repeat' split
  all_goals first
    | exact Nat.le_refl _
    | exact Nat.zero_le _
    | exact Nat.le_of_lt (scan_closed_length ‹_›)
    | exact Nat.le_of_lt_succ (scalar?_length ‹_›)

/-- The lexemes of a text, up to the first damaged string or stray. -/
def tokens : List Char → List Lexeme
  | [] => []
  | c :: rest =>
      if isBlank c then tokens rest
      else ⟨(lexeme c rest).1, c :: rest⟩ :: tokens (lexeme c rest).2
termination_by cs => cs.length
decreasing_by
  · simp
  · have := lexeme_length c rest
    simp only [List.length_cons]
    omega

end AttributeLint.Json

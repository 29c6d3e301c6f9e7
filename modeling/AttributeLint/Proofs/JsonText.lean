import AttributeLint.Json.Printer
import AttributeLint.Json.Reader

/-!
# Reading what was printed

The compact layout loses nothing. A value that keeps within the limits of a reader, with distinct
keys in each object and without reals, is `Legible`, and the reader takes its print for the value
itself.

* `scan_flatMap_charText`, `joinUnits_flatMap_unitsOf`: a string is scanned up to its closing quote
  into UTF-16 units, which join into its characters, also beyond the basic plane.
* `number?_chars_int`: an integer is read back if what follows it cannot belong to a number.
* `assemble_items`, `assemble_fields`: an array and an object are read back if their members are.
* `Legible.plain`: a legible value is written in visible ASCII characters and blanks.
* **Round trip** (`Legible.readWithin_compact`): a legible value is read back from its line, so
  values with one line are the same (`Legible.eq_of_compact`).
-/

namespace AttributeLint

/-! ## Hexadecimal digits -/

namespace Text

/-- A blank or a visible ASCII character. -/
def Plain (c : Char) : Prop :=
  0x20 ≤ c.toNat ∧ c.toNat < 0x7f

instance (c : Char) : Decidable (Plain c) :=
  inferInstanceAs (Decidable (_ ∧ _))

/-- A check of each character of a written word. -/
theorem plain_of_all {cs : List Char} (h : cs.all (fun c => decide (Plain c)) = true) :
    ∀ c ∈ cs, Plain c := by
  simpa using h

/-- A hexadecimal digit is read as its value. -/
theorem hexValue?_hexDigit {n : Nat} (h : n < 16) : hexValue? (hexDigit n) = some n := by
  have hdigits : ∀ k : Fin 16, hexValue? (hexDigit k) = some k.val := by decide
  exact hdigits ⟨n, h⟩

/-- Hexadecimal digits are visible ASCII characters. -/
theorem plain_of_mem_hexDigits {width n : Nat} {c : Char} (h : c ∈ hexDigits width n) :
    Plain c := by
  induction width generalizing n with
  | zero => simp [hexDigits] at h
  | succ width ih =>
    rw [hexDigits, List.mem_append, List.mem_singleton] at h
    rcases h with h | rfl
    · exact ih h
    · have hdigits : ∀ k : Fin 16, Plain (hexDigit k) := by decide
      exact hdigits ⟨n % 16, Nat.mod_lt n (by decide)⟩

/-- Four digits are enough for a UTF-16 unit. -/
theorem hexDigits_four {n : Nat} (h : n < 0x10000) :
    ∃ a b c d, hexDigits 4 n = [a, b, c, d] ∧ hexValue4? a b c d = some n := by
  have hlow (k : Nat) : hexValue? (hexDigit (k % 16)) = some (k % 16) :=
    hexValue?_hexDigit (Nat.mod_lt k (by decide))
  refine ⟨_, _, _, _, rfl, ?_⟩
  simp only [hexValue4?, hlow, Option.bind_eq_bind, Option.bind_some, Option.pure_def,
    Option.some.injEq]
  omega

end Text

namespace Json

/-! ## Strings -/

/-- The UTF-16 units of a character. -/
def unitsOf (c : Char) : List Nat :=
  if c.toNat < 0x10000 then [c.toNat]
  else [0xD800 + (c.toNat - 0x10000) / 0x400, 0xDC00 + (c.toNat - 0x10000) % 0x400]

/-- A character of the basic plane is one unit. -/
theorem unitsOf_of_lt {c : Char} (h : c.toNat < 0x10000) : unitsOf c = [c.toNat] :=
  if_pos h

/-- The text behind an escape must not be empty, or the scan takes the escape for cut short. -/
theorem scan_unitEscape {n : Nat} (hn : n < 0x10000) {rest : List Char} (hrest : rest ≠ []) :
    scan (unitEscape n ++ rest) = (scan rest).push n := by
  obtain ⟨a, b, c, d, hdigits, hvalue⟩ := Text.hexDigits_four hn
  obtain ⟨e, more, rfl⟩ := List.exists_cons_of_ne_nil hrest
  show scan ('\\' :: 'u' :: (Text.hexDigits 4 n ++ e :: more)) = _
  rw [hdigits]
  show scan ('\\' :: 'u' :: a :: b :: c :: d :: e :: more) = _
  rw [scan, hvalue]

/-- A character is a unit of its own or beyond the basic plane, and never half of a pair. -/
theorem toNat_valid (c : Char) :
    c.toNat < 0xD800 ∨ 0xDFFF < c.toNat ∧ c.toNat < 0x110000 :=
  c.valid

/-- A short escape stands for one character. -/
theorem scan_escape {c e : Char} (he : escaped? c = some e) (rest : List Char) :
    scan ('\\' :: c :: rest) = (scan rest).push e.toNat := by
  have hc : c ≠ 'u' := by
    rintro rfl
    cases he
  rw [scan, he]
  all_goals simp_all

/-- The text of a character reads as its units, whatever comes behind it. -/
theorem scan_charText (c : Char) {rest : List Char} (hrest : rest ≠ []) :
    scan (charText c ++ rest) = (unitsOf c).foldr StringScan.push (scan rest) := by
  fun_cases charText c with
  | case8 _ _ _ _ _ _ _ hplain =>
    rw [unitsOf_of_lt (by omega)]
    show scan (c :: rest) = (scan rest).push c.toNat
    rw [scan, if_neg (by omega)]
    all_goals simp_all
  | case9 _ _ _ _ _ _ _ _ hunit =>
    rw [unitsOf_of_lt hunit]
    exact scan_unitEscape hunit hrest
  | case10 _ _ _ _ _ _ _ _ hunit n =>
    -- both halves of the pair are units, and the second follows the first
    have hvalid := toNat_valid c
    rw [List.append_assoc, scan_unitEscape (by omega) (by simp [unitEscape]),
      scan_unitEscape (by omega) hrest, unitsOf, if_neg hunit]
    rfl
  -- the escapes of one letter
  | _ =>
    subst_vars
    refine scan_escape ?_ rest
    rfl

/-- Units pushed in front of a closed text are in front of its units. -/
theorem foldr_push_closed (units more : List Nat) (rest : List Char) :
    units.foldr StringScan.push (.closed more rest) = .closed (units ++ more) rest := by
  induction units with
  | nil => rfl
  | cons u us ih => rw [List.foldr_cons, ih, StringScan.push, List.cons_append]

/-- A written string is scanned up to its closing quote. -/
theorem scan_flatMap_charText (cs rest : List Char) :
    scan (cs.flatMap charText ++ '\x22' :: rest) = .closed (cs.flatMap unitsOf) rest := by
  induction cs with
  | nil => rw [List.flatMap_nil, List.nil_append, scan, List.flatMap_nil]
  | cons c cs ih =>
    rw [List.flatMap_cons, List.append_assoc, scan_charText c (by simp), ih, foldr_push_closed,
      List.flatMap_cons]

/-- A unit that is no surrogate is a character of its own. -/
theorem joinUnits_cons {n : Nat} (h : n < 0xD800 ∨ 0xDFFF < n) (units : List Nat) :
    joinUnits (n :: units) = Char.ofNat n :: joinUnits units := by
  have hhigh : isHighSurrogate n = false := by
    unfold isHighSurrogate
    exact decide_eq_false (by omega)
  have hlow : isLowSurrogate n = false := by
    unfold isLowSurrogate
    exact decide_eq_false (by omega)
  cases units with
  | nil => simp [joinUnits, unitChar, hhigh, hlow]
  | cons m more => simp [joinUnits, unitChar, hhigh, hlow]

/-- A pair of surrogates is one character of a higher plane. -/
theorem joinUnits_pair {n : Nat} (h : n < 0x100000) (units : List Nat) :
    joinUnits ((0xD800 + n / 0x400) :: (0xDC00 + n % 0x400) :: units)
      = Char.ofNat (0x10000 + n) :: joinUnits units := by
  have hhigh : isHighSurrogate (0xD800 + n / 0x400) = true := by
    unfold isHighSurrogate
    exact decide_eq_true (by omega)
  have hlow : isLowSurrogate (0xDC00 + n % 0x400) = true := by
    unfold isLowSurrogate
    exact decide_eq_true (by omega)
  have hvalue : 0x10000 + (0xD800 + n / 0x400 - 0xD800) * 0x400 + (0xDC00 + n % 0x400 - 0xDC00)
      = 0x10000 + n := by omega
  rw [joinUnits, hhigh, hlow, pairChar, hvalue]
  rfl

/-- The units of a character are joined to it again. -/
theorem joinUnits_unitsOf (c : Char) (units : List Nat) :
    joinUnits (unitsOf c ++ units) = c :: joinUnits units := by
  have hvalid := toNat_valid c
  by_cases hunit : c.toNat < 0x10000
  · rw [unitsOf_of_lt hunit]
    show joinUnits (c.toNat :: units) = _
    rw [joinUnits_cons (by omega), Char.ofNat_toNat]
  · rw [unitsOf, if_neg hunit]
    show joinUnits ((0xD800 + (c.toNat - 0x10000) / 0x400)
      :: (0xDC00 + (c.toNat - 0x10000) % 0x400) :: units) = _
    have hvalue : 0x10000 + (c.toNat - 0x10000) = c.toNat := by omega
    rw [joinUnits_pair (by omega), hvalue, Char.ofNat_toNat]

/-- Joining undoes the split into units. -/
theorem joinUnits_flatMap_unitsOf (cs : List Char) : joinUnits (cs.flatMap unitsOf) = cs := by
  induction cs with
  | nil => rfl
  | cons c cs ih => rw [List.flatMap_cons, joinUnits_unitsOf, ih]

/-! ## Numbers -/

/-- The decimal digits of the size of an integer. -/
def intDigits (n : Int) : List Char :=
  Nat.toDigits 10 n.natAbs

/-- An integer is written as a sign, if it is negative, and the digits of its size. -/
theorem chars_int (n : Int) :
    chars (.int n) = if n < 0 then '-' :: intDigits n else intDigits n := by
  cases n with
  | ofNat m =>
    have htext : toString (Int.ofNat m) = String.ofList (Nat.toDigits 10 m) := rfl
    rw [chars, htext, String.toList_ofList]
    rfl
  | negSucc m =>
    have htext : toString (Int.negSucc m) = "-" ++ String.ofList (Nat.toDigits 10 (m + 1)) := rfl
    rw [chars, htext, if_pos (Int.negSucc_lt_zero m)]
    simp only [String.toList_append, String.toList_ofList]
    rfl

/-- What is written behind the sign is made of digits. -/
theorem isDigit_of_mem_intDigits {n : Int} {c : Char} (h : c ∈ intDigits n) : c.isDigit = true :=
  Nat.isDigit_of_mem_toDigits (by decide) (Nat.le_refl _) h

/-- The digits of an integer are worth its size. -/
theorem digitsValue_intDigits (n : Int) : digitsValue (intDigits n) = n.natAbs := by
  have hvalue := @Nat.ofDigitChars_eq_foldl 10 (intDigits n) 0
  have hstep : (fun (k : Nat) (d : Char) => k * 10 + (d.toNat - 48))
      = fun k d => 10 * k + (d.toNat - '0'.toNat) := by
    funext k d
    show k * 10 + (d.toNat - 48) = 10 * k + (d.toNat - 48)
    omega
  rw [digitsValue, hstep, ← hvalue, intDigits, Nat.ofDigitChars_ten_toDigits]

/-- An integer has at least one digit. -/
theorem intDigits_eq_cons (n : Int) : ∃ d ds, intDigits n = d :: ds ∧ d.isDigit = true := by
  obtain ⟨d, ds, hds⟩ : ∃ d ds, intDigits n = d :: ds :=
    List.exists_cons_of_ne_nil Nat.toDigits_ne_nil
  have hmem : d ∈ intDigits n := by rw [hds]; exact List.mem_cons_self
  exact ⟨d, ds, hds, isDigit_of_mem_intDigits hmem⟩

/-- Only zero is written with a leading zero. -/
theorem head?_toDigits {n : Nat} (h : 0 < n) : (Nat.toDigits 10 n).head? ≠ some '0' := by
  induction n using Nat.strongRecOn with
  | ind n ih =>
    rw [Nat.toDigits_eq_if (by decide)]
    split
    · rename_i hlt
      have hdigits : ∀ k : Fin 10, 0 < k.val → Nat.digitChar k ≠ '0' := by decide
      simpa using hdigits ⟨n, hlt⟩ h
    · rw [List.head?_append, Option.or_of_isSome (by simp [Nat.toDigits_ne_nil])]
      exact ih (n / 10) (by omega) (by omega)

/-- The text goes on with nothing that a number could take for its own. -/
def EndsNumber (rest : List Char) : Prop :=
  ∀ c ∈ rest.head?, c.isDigit = false ∧ c ≠ '.' ∧ c ≠ 'e' ∧ c ≠ 'E'

/-- The end of the text ends a number. -/
theorem endsNumber_nil : EndsNumber [] := by
  intro c hc
  cases hc

/-- So does a character that cannot go on with it. -/
theorem endsNumber_cons {c : Char} (h : c.isDigit = false ∧ c ≠ '.' ∧ c ≠ 'e' ∧ c ≠ 'E')
    (rest : List Char) : EndsNumber (c :: rest) := by
  intro d hd
  cases hd
  exact h

/-- The digits of an integer are read as far as they go. A zero in front could not be followed by
more, but only zero itself has one. -/
theorem wholePart?_intDigits (n : Int) {rest : List Char} (hrest : EndsNumber rest) :
    wholePart? (intDigits n ++ rest) = some (intDigits n, rest) := by
  obtain ⟨d, ds, hds, hd⟩ := intDigits_eq_cons n
  have hmore : ∀ c ∈ ds, c.isDigit = true := by
    intro c hc
    apply isDigit_of_mem_intDigits
    rw [hds]
    exact List.mem_cons_of_mem d hc
  rw [hds, List.cons_append, wholePart?]
  by_cases hzero : n.natAbs = 0
  · have hds' : intDigits n = ['0'] := by rw [intDigits, hzero, Nat.toDigits_zero]
    obtain ⟨rfl, rfl⟩ : d = '0' ∧ ds = [] := by simpa [hds'] using hds.symm
    rfl
  · have hhead : d ≠ '0' := by
      have := head?_toDigits (Nat.pos_of_ne_zero hzero)
      rw [← intDigits, hds] at this
      simpa using this
    have hstop : rest.takeWhile Char.isDigit = [] ∧ rest.dropWhile Char.isDigit = rest := by
      cases rest with
      | nil => exact ⟨rfl, rfl⟩
      | cons c more => simp [(hrest c rfl).1]
    rw [if_neg hhead, if_pos hd, List.takeWhile_append_of_pos hmore,
      List.dropWhile_append_of_pos hmore, hstop.1, hstop.2, List.append_nil]

/-- There is no fraction where a number ends. -/
theorem fraction_of_endsNumber {rest : List Char} (h : EndsNumber rest) :
    fraction rest = ([], rest) := by
  fun_cases fraction rest with
  | case1 => rfl
  | case2 more => exact absurd rfl (h '.' rfl).2.1
  | case3 => rfl

/-- There is no exponent where a number ends. -/
theorem exponent_of_endsNumber {rest : List Char} (h : EndsNumber rest) :
    exponent rest = (none, rest) := by
  cases rest with
  | nil => rfl
  | cons c more =>
    have hc := h c rfl
    rw [exponent, if_neg (by simp [hc])]

/-- Digits that nothing goes on with are those of an integer. -/
theorem magnitude?_intDigits (negative : Bool) (n : Int) {rest : List Char}
    (hrest : EndsNumber rest) :
    magnitude? negative (intDigits n ++ rest)
      = some (.int (signedInt negative n.natAbs), rest) := by
  rw [magnitude?, wholePart?_intDigits n hrest]
  dsimp only
  rw [fraction_of_endsNumber hrest]
  dsimp only
  rw [exponent_of_endsNumber hrest, digitsValue_intDigits]
  rfl

/-- The sign is split off a written integer. -/
theorem minusSign_chars_int (n : Int) (rest : List Char) :
    minusSign (chars (.int n) ++ rest) = (decide (n < 0), intDigits n ++ rest) := by
  rw [chars_int]
  split
  · rename_i hneg
    rw [decide_eq_true hneg]
    rfl
  · rename_i hpos
    obtain ⟨d, ds, hds, hd⟩ := intDigits_eq_cons n
    rw [decide_eq_false hpos, hds, List.cons_append, minusSign]
    rintro more ⟨⟩
    exact absurd hd (by decide)

/-- A written integer is read as a number. -/
theorem number?_chars_int (n : Int) {rest : List Char} (hrest : EndsNumber rest) :
    number? (chars (.int n) ++ rest) = some (.int n, rest) := by
  have hsigned : signedInt (decide (n < 0)) n.natAbs = n := by
    unfold signedInt
    split <;> rename_i h <;> simp at h <;> omega
  rw [number?, minusSign_chars_int, magnitude?_intDigits _ _ hrest, hsigned]

/-! ## Lexemes -/

/-- No constant is read where none of the words begins. -/
theorem constant?_eq_none {cs : List Char} :
    (words : List (List Char × Json)) → (∀ w ∈ words, w.1.isPrefixOf cs = false) →
      constant? cs words = none
  | [], _ => rfl
  | (word, v) :: more, h => by
    rw [List.forall_mem_cons] at h
    rw [constant?, if_neg (by simp [h.1]), constant?_eq_none more h.2]

/-- Numbers start like no constant. -/
theorem constant?_chars_int (n : Int) (rest : List Char) :
    constant? (chars (.int n) ++ rest) constants = none := by
  obtain ⟨d, ds, hds, hd⟩ := intDigits_eq_cons n
  have hne (c : Char) (hc : c.isDigit = false) : (c == d) = false := by
    rw [beq_eq_false_iff_ne]
    rintro rfl
    rw [hd] at hc
    cases hc
  apply constant?_eq_none
  rw [chars_int, hds]
  split <;> simp [constants, List.isPrefixOf, hne]

/-- A written integer is read as a scalar, since no constant begins with a digit or a minus sign and
a digit. -/
theorem scalar?_chars_int (n : Int) {rest : List Char} (hrest : EndsNumber rest) :
    scalar? (chars (.int n) ++ rest) = some (.int n, rest) := by
  rw [scalar?, constant?_chars_int, number?_chars_int n hrest]

/-- A character that starts a token of more than itself, and no string. -/
theorem lexeme_of_scalar? {c : Char} {cs more : List Char} {v : Json}
    (hc : c ∉ ['[', ']', '\x7b', '\x7d', ':', ',', '\x22'])
    (h : scalar? (c :: cs) = some (v, more)) : lexeme c cs = (.scalar v, more) := by
  simp only [List.mem_cons, not_or] at hc
  simp only [lexeme, hc, h, if_false]

/-- A text that is closed is one lexeme. -/
theorem lexeme_of_scan {cs more : List Char} {units : List Nat}
    (h : scan cs = .closed units more) :
    lexeme '\x22' cs = (.scalar (.str (String.ofList (joinUnits units))), more) := by
  simp [lexeme, h]

/-- Blanks between lexemes are passed over. -/
theorem tokens_of_blank {c : Char} (hc : isBlank c = true) (cs : List Char) :
    tokens (c :: cs) = tokens cs := by
  rw [tokens, if_pos hc]

/-- What is no blank begins a lexeme, which keeps the text from there on. -/
theorem tokens_of_lexeme {c : Char} {cs more : List Char} {t : Token} (hc : isBlank c = false)
    (h : lexeme c cs = (t, more)) : tokens (c :: cs) = ⟨t, c :: cs⟩ :: tokens more := by
  rw [tokens, if_neg (by simp [hc]), h]

/-- The characters that are tokens by themselves. -/
def punctuation : List (Char × Token) :=
  [('[', .openArray), (']', .closeArray), ('\x7b', .openObject), ('\x7d', .closeObject),
   (':', .colon), (',', .comma)]

/-- A punctuation mark is a lexeme by itself. -/
theorem tokens_punctuation {c : Char} {t : Token} (h : (c, t) ∈ punctuation) (cs : List Char) :
    tokens (c :: cs) = ⟨t, c :: cs⟩ :: tokens cs := by
  simp only [punctuation, List.mem_cons, Prod.mk.injEq, List.not_mem_nil, or_false] at h
  rcases h with ⟨rfl, rfl⟩ | ⟨rfl, rfl⟩ | ⟨rfl, rfl⟩ | ⟨rfl, rfl⟩ | ⟨rfl, rfl⟩ | ⟨rfl, rfl⟩ <;>
    exact tokens_of_lexeme (by decide) rfl

/-- The comma is one. -/
theorem tokens_comma (cs : List Char) : tokens (',' :: cs) = ⟨.comma, ',' :: cs⟩ :: tokens cs :=
  tokens_punctuation (by simp [punctuation]) cs

/-- The text of a string is one lexeme. -/
theorem tokens_stringText (s : String) (rest : List Char) :
    tokens (stringText s ++ rest) = ⟨.scalar (.str s), stringText s ++ rest⟩ :: tokens rest := by
  have htext : stringText s ++ rest = '\x22' :: (s.toList.flatMap charText ++ '\x22' :: rest) := by
    simp [stringText]
  rw [htext]
  apply tokens_of_lexeme (by decide)
  rw [lexeme_of_scan (scan_flatMap_charText s.toList rest), joinUnits_flatMap_unitsOf,
    String.ofList_toList]

/-- The text of an integer is one lexeme if nothing goes on with it. -/
theorem tokens_int (n : Int) {rest : List Char} (hrest : EndsNumber rest) :
    tokens (chars (.int n) ++ rest)
      = ⟨.scalar (.int n), chars (.int n) ++ rest⟩ :: tokens rest := by
  have hscalar := scalar?_chars_int n hrest
  obtain ⟨c, cs, hcs, hc⟩ : ∃ c cs, chars (.int n) = c :: cs ∧ (c = '-' ∨ c.isDigit = true) := by
    obtain ⟨d, ds, hds, hd⟩ := intDigits_eq_cons n
    rw [chars_int, hds]
    split
    · exact ⟨_, _, rfl, .inl rfl⟩
    · exact ⟨_, _, rfl, .inr hd⟩
  have hother : ∀ x ∈ [' ', '\t', '\n', '\r'] ++ ['[', ']', '\x7b', '\x7d', ':', ',', '\x22'],
      ¬ (x = '-' ∨ x.isDigit = true) := by simp [Char.isDigit]
  rw [hcs, List.cons_append] at hscalar ⊢
  apply tokens_of_lexeme
  · unfold isBlank
    apply decide_eq_false
    intro hblank
    exact hother c (List.mem_append_left _ (by simpa using hblank)) hc
  · exact lexeme_of_scalar? (fun h => hother c (List.mem_append_right _ h) hc) hscalar

/-- So is that of the null value. -/
theorem tokens_null (rest : List Char) :
    tokens (chars .null ++ rest) = ⟨.scalar .null, chars .null ++ rest⟩ :: tokens rest :=
  tokens_of_lexeme (by decide) rfl

/-- So is that of a truth value. -/
theorem tokens_bool (b : Bool) (rest : List Char) :
    tokens (chars (.bool b) ++ rest)
      = ⟨.scalar (.bool b), chars (.bool b) ++ rest⟩ :: tokens rest := by
  cases b with
  | false => exact tokens_of_lexeme (by decide) rfl
  | true => exact tokens_of_lexeme (by decide) rfl

/-! ## Values -/

/-- A value inside so many containers that the reader takes back from its print: integers and
containers keep within the limits, keys are distinct, and there are no reals. -/
inductive Legible (limits : Limits) : Nat → Json → Prop where
  | null {around : Nat} : Legible limits around .null
  | bool {around : Nat} (b : Bool) : Legible limits around (.bool b)
  | int {around : Nat} {n : Int} (hdigits : limits.ofDigits? (intDigits n).length = none) :
      Legible limits around (.int n)
  | str {around : Nat} (s : String) : Legible limits around (.str s)
  | arr {around : Nat} {items : List Json} (hdepth : limits.allowsDepth around = true)
      (hitems : ∀ v ∈ items, Legible limits (around + 1) v) : Legible limits around (.arr items)
  | obj {around : Nat} {fields : List (String × Json)} (hdepth : limits.allowsDepth around = true)
      (hkeys : (fields.map Prod.fst).Nodup)
      (hfields : ∀ p ∈ fields, Legible limits (around + 1) p.2) :
      Legible limits around (.obj fields)

/-- Wherever a value may stand inside so many containers, the reader takes the print of `v` for
`v` and goes on with what follows. -/
def ReadBack (limits : Limits) (around : Nat) (v : Json) : Prop :=
  ∀ (mode : Mode) (stack : List Frame) (rest : List Char),
    mode = .value ∨ mode = .firstItem → stack.length = around → EndsNumber rest →
      assemble limits mode stack (tokens (chars v ++ rest))
        = assemble limits (.after v) stack (tokens rest)

variable {limits : Limits}

/-- The walk over lexemes goes on from where a step leaves it. -/
theorem assemble_of_step {mode mode' : Mode} {stack stack' : List Frame} {l : Lexeme}
    (h : step limits mode stack l = .ok (mode', stack')) (ls : List Lexeme) :
    assemble limits mode stack (l :: ls) = assemble limits mode' stack' ls := by
  rw [assemble, h]

/-- A value of one lexeme. -/
theorem assemble_scalar {mode : Mode} (hmode : mode = .value ∨ mode = .firstItem)
    {stack : List Frame} {v : Json} {text : List Char}
    (hexcess : excess? limits stack ⟨.scalar v, text⟩ = none) (ls : List Lexeme) :
    assemble limits mode stack (⟨.scalar v, text⟩ :: ls) = assemble limits (.after v) stack ls := by
  apply assemble_of_step
  rcases hmode with rfl | rfl <;> simp only [step, startValue, hexcess]

/-- An integer is measured by the number of its digits. -/
theorem excess?_int (stack : List Frame) (n : Int) {rest : List Char} (hrest : EndsNumber rest) :
    excess? limits stack ⟨.scalar (.int n), chars (.int n) ++ rest⟩
      = limits.ofDigits? (intDigits n).length := by
  show limits.ofDigits? (Lexeme.digitCount ⟨_, chars (.int n) ++ rest⟩) = _
  rw [Lexeme.digitCount, minusSign_chars_int, wholePart?_intDigits n hrest]

/-- Parts are put together with the separator between neighbours. -/
theorem separated_eq_intercalate (sep : List Char) (parts : List (List Char)) :
    separated sep parts = sep.intercalate parts := by
  fun_induction separated sep parts with
  | case1 => rfl
  | case2 t => rw [List.intercalate_singleton]
  | case3 t rest hrest ih => rw [List.intercalate_cons_of_ne_nil (fun h => hrest h), ih]

/-- Items are written one by one. -/
@[simp] theorem itemChars_eq (items : List Json) : itemChars items = items.map chars := by
  induction items with
  | nil => rfl
  | cons v rest ih => rw [itemChars, ih, List.map_cons]

/-- Fields are written one by one, each behind its key. -/
@[simp] theorem fieldChars_eq (fields : List (String × Json)) :
    fieldChars fields = fields.map fun p => stringText p.1 ++ [':', ' '] ++ chars p.2 := by
  induction fields with
  | nil => rfl
  | cons p rest ih => rw [fieldChars, ih, List.map_cons]

/-- The items of an array behind those that are done, up to its end. -/
theorem assemble_items {mode : Mode} (hmode : mode = .value ∨ mode = .firstItem)
    (stack : List Frame) (v : Json) (more : List Json)
    (h : ∀ w ∈ v :: more, ReadBack limits (stack.length + 1) w) (done : List Json)
    (rest : List Char) :
    assemble limits mode (.items done :: stack)
        (tokens (separated [',', ' '] (itemChars (v :: more)) ++ ']' :: rest))
      = assemble limits (.after (.arr (done.reverse ++ v :: more))) stack (tokens rest) := by
  -- on the items to come; an item that is read moves to those that are done
  induction more generalizing mode v done with
  | nil =>
    show assemble limits mode (.items done :: stack) (tokens (chars v ++ ']' :: rest)) = _
    rw [h v List.mem_cons_self mode _ _ hmode rfl (endsNumber_cons (by decide) rest),
      tokens_punctuation (t := .closeArray) (by simp [punctuation]), assemble_of_step rfl,
      List.reverse_cons]
  | cons w more ih =>
    rw [List.forall_mem_cons] at h
    have htext : separated [',', ' '] (itemChars (v :: w :: more)) ++ ']' :: rest
        = chars v ++ ',' :: ' ' ::
            (separated [',', ' '] (itemChars (w :: more)) ++ ']' :: rest) := by
      simp [separated]
    rw [htext, h.1 mode _ _ hmode rfl (endsNumber_cons (by decide) _), tokens_comma,
      assemble_of_step rfl, tokens_of_blank (by decide), ih (.inl rfl) w h.2, List.reverse_cons,
      List.append_assoc, List.singleton_append]

/-- A field of an object, up to the end of its value. -/
theorem assemble_field (stack : List Frame) {p : String × Json}
    (h : ReadBack limits (stack.length + 1) p.2) {mode : Mode} {done : List (String × Json)}
    (hmode : mode = .nextKey done ∨ mode = .firstKey ∧ done = []) {rest : List Char}
    (hrest : EndsNumber rest) :
    assemble limits mode stack (tokens (stringText p.1 ++ [':', ' '] ++ chars p.2 ++ rest))
      = assemble limits (.after p.2) (.fields done p.1 :: stack) (tokens rest) := by
  have hkey (text : List Char) :
      step limits mode stack ⟨.scalar (.str p.1), text⟩ = .ok (.colon done p.1, stack) := by
    rcases hmode with rfl | ⟨rfl, rfl⟩ <;> rfl
  have htext : stringText p.1 ++ [':', ' '] ++ chars p.2 ++ rest
      = stringText p.1 ++ ':' :: ' ' :: (chars p.2 ++ rest) := by simp
  rw [htext, tokens_stringText, assemble_of_step (hkey _),
    tokens_punctuation (t := .colon) (by simp [punctuation]), assemble_of_step rfl,
    tokens_of_blank (by decide), h .value _ _ (.inl rfl) rfl hrest]

/-- Of distinct keys, the next one comes behind those that are done. -/
theorem put_of_nodup {done more : List (String × Json)} {p : String × Json}
    (h : ((done ++ p :: more).map Prod.fst).Nodup) : Assoc.put p.1 p.2 done = done ++ [p] := by
  apply Assoc.put_of_not_mem
  intro hmem
  rw [List.map_append, List.map_cons, List.nodup_append] at h
  exact h.2.2 p.1 hmem p.1 List.mem_cons_self rfl

/-- The fields of an object behind those that are done, up to its end. -/
theorem assemble_fields (stack : List Frame) (p : String × Json) (more : List (String × Json))
    (h : ∀ q ∈ p :: more, ReadBack limits (stack.length + 1) q.2) {mode : Mode}
    {done : List (String × Json)} (hmode : mode = .nextKey done ∨ mode = .firstKey ∧ done = [])
    (hkeys : ((done ++ p :: more).map Prod.fst).Nodup) (rest : List Char) :
    assemble limits mode stack
        (tokens (separated [',', ' '] (fieldChars (p :: more)) ++ '\x7d' :: rest))
      = assemble limits (.after (.obj (done ++ p :: more))) stack (tokens rest) := by
  induction more generalizing mode p done with
  | nil =>
    show assemble limits mode stack
      (tokens (stringText p.1 ++ [':', ' '] ++ chars p.2 ++ '\x7d' :: rest)) = _
    rw [assemble_field stack (h p List.mem_cons_self) hmode (endsNumber_cons (by decide) rest),
      tokens_punctuation (t := .closeObject) (by simp [punctuation]), assemble_of_step rfl,
      put_of_nodup hkeys]
  | cons q more ih =>
    rw [List.forall_mem_cons] at h
    have htext : separated [',', ' '] (fieldChars (p :: q :: more)) ++ '\x7d' :: rest
        = stringText p.1 ++ [':', ' '] ++ chars p.2
          ++ ',' :: ' ' :: (separated [',', ' '] (fieldChars (q :: more)) ++ '\x7d' :: rest) := by
      simp [separated]
    have hmove : done ++ p :: q :: more = (done ++ [p]) ++ q :: more := by simp
    rw [htext, assemble_field stack h.1 hmode (endsNumber_cons (by decide) _), tokens_comma,
      assemble_of_step rfl, tokens_of_blank (by decide), put_of_nodup hkeys, hmove]
    rw [hmove] at hkeys
    exact ih q h.2 (.inl rfl) hkeys

/-- The reader takes back what it can. -/
theorem Legible.readBack {around : Nat} {v : Json} (h : Legible limits around v) :
    ReadBack limits around v := by
  intro mode stack rest hmode hstack hrest
  induction h generalizing mode stack rest with
  | null =>
    rw [tokens_null]
    exact assemble_scalar hmode rfl _
  | bool b =>
    rw [tokens_bool]
    exact assemble_scalar hmode rfl _
  | int hdigits =>
    rw [tokens_int _ hrest]
    exact assemble_scalar hmode ((excess?_int stack _ hrest).trans hdigits) _
  | str s =>
    show assemble limits mode stack (tokens (stringText s ++ rest)) = _
    rw [tokens_stringText]
    exact assemble_scalar hmode rfl _
  | @arr around items hdepth _ ih =>
    -- the members stand one container deeper, so the hypotheses on them fit the longer stack
    have hopen (text : List Char) :
        step limits mode stack ⟨.openArray, text⟩ = .ok (.firstItem, .items [] :: stack) := by
      rcases hmode with rfl | rfl <;> simp [step, startValue, excess?, hstack, hdepth]
    have htext : chars (.arr items) ++ rest
        = '[' :: (separated [',', ' '] (itemChars items) ++ ']' :: rest) := by simp [chars]
    rw [htext, tokens_punctuation (t := .openArray) (by simp [punctuation]),
      assemble_of_step (hopen _)]
    cases items with
    | nil =>
      show assemble limits .firstItem (.items [] :: stack) (tokens (']' :: rest)) = _
      rw [tokens_punctuation (t := .closeArray) (by simp [punctuation]), assemble_of_step rfl]
      rfl
    | cons v more =>
      refine assemble_items (.inr rfl) stack v more ?_ [] rest
      rw [hstack]
      exact ih
  | @obj around fields hdepth hkeys _ ih =>
    have hopen (text : List Char) :
        step limits mode stack ⟨.openObject, text⟩ = .ok (.firstKey, stack) := by
      rcases hmode with rfl | rfl <;> simp [step, startValue, excess?, hstack, hdepth]
    have htext : chars (.obj fields) ++ rest
        = '\x7b' :: (separated [',', ' '] (fieldChars fields) ++ '\x7d' :: rest) := by simp [chars]
    rw [htext, tokens_punctuation (t := .openObject) (by simp [punctuation]),
      assemble_of_step (hopen _)]
    cases fields with
    | nil =>
      show assemble limits .firstKey stack (tokens ('\x7d' :: rest)) = _
      rw [tokens_punctuation (t := .closeObject) (by simp [punctuation]), assemble_of_step rfl]
    | cons p more =>
      refine assemble_fields stack p more ?_ (.inr ⟨rfl, rfl⟩) hkeys rest
      rw [hstack]
      exact ih

/-! ## Texts -/

/-- The escape of a unit is visible ASCII. -/
theorem plain_unitEscape (n : Nat) : ∀ c ∈ unitEscape n, Text.Plain c := by
  rw [unitEscape, List.forall_mem_cons, List.forall_mem_cons]
  exact ⟨by decide, by decide, fun c => Text.plain_of_mem_hexDigits⟩

/-- So is the text of any character. -/
theorem plain_charText (c : Char) : ∀ x ∈ charText c, Text.Plain x := by
  fun_cases charText c with
  | case8 _ _ _ _ _ _ _ hplain =>
    rw [List.forall_mem_singleton]
    exact hplain
  | case9 => exact plain_unitEscape _
  | case10 =>
    rw [List.forall_mem_append]
    exact ⟨plain_unitEscape _, plain_unitEscape _⟩
  | _ => exact Text.plain_of_all rfl

/-- So is the text of a string, with its quotes. -/
theorem plain_stringText (s : String) : ∀ c ∈ stringText s, Text.Plain c := by
  intro c hc
  rw [stringText, List.cons_append, List.mem_cons, List.mem_append, List.mem_singleton,
    List.mem_flatMap] at hc
  rcases hc with rfl | ⟨x, -, hx⟩ | rfl
  · decide
  · exact plain_charText x c hx
  · decide

/-- Digits are visible ASCII characters. -/
theorem plain_of_isDigit {c : Char} (h : c.isDigit = true) : Text.Plain c := by
  simp only [Char.isDigit, Bool.and_eq_true, decide_eq_true_eq] at h
  exact ⟨Nat.le_trans (by decide) h.1, Nat.lt_of_le_of_lt h.2 (by decide)⟩

/-- What holds of the characters of parts and separator holds of all that is put together. -/
theorem forall_mem_separated {P : Char → Prop} {sep : List Char} (hsep : ∀ c ∈ sep, P c)
    {parts : List (List Char)} (h : ∀ t ∈ parts, ∀ c ∈ t, P c) :
    ∀ c ∈ separated sep parts, P c := by
  fun_induction separated sep parts with
  | case1 => simp
  | case2 t => exact h t (List.mem_singleton_self t)
  | case3 t rest _ ih =>
    rw [List.forall_mem_cons] at h
    rw [List.forall_mem_append, List.forall_mem_append]
    exact ⟨⟨h.1, hsep⟩, ih h.2⟩

/-- A container whose parts are visible ASCII is so as a whole. -/
theorem plain_bracketed {opening closing : Char} (hopening : Text.Plain opening)
    (hclosing : Text.Plain closing) {parts : List (List Char)}
    (h : ∀ t ∈ parts, ∀ c ∈ t, Text.Plain c) :
    ∀ c ∈ opening :: separated [',', ' '] parts ++ [closing], Text.Plain c := by
  rw [List.forall_mem_append, List.forall_mem_cons, List.forall_mem_singleton]
  exact ⟨⟨hopening, forall_mem_separated (Text.plain_of_all rfl) h⟩, hclosing⟩

/-- A legible value is written in visible ASCII characters and blanks. -/
theorem Legible.plain {around : Nat} {v : Json} (h : Legible limits around v) :
    ∀ c ∈ chars v, Text.Plain c := by
  induction h with
  | null => exact Text.plain_of_all rfl
  | bool b => cases b <;> exact Text.plain_of_all rfl
  | @int _ n _ =>
    have hdigits : ∀ c ∈ intDigits n, Text.Plain c :=
      fun c hc => plain_of_isDigit (isDigit_of_mem_intDigits hc)
    rw [chars_int]
    split
    · rw [List.forall_mem_cons]
      exact ⟨by decide, hdigits⟩
    · exact hdigits
  | str s => exact plain_stringText s
  | @arr _ items _ _ ih =>
    rw [chars, itemChars_eq]
    apply plain_bracketed (by decide) (by decide)
    rw [List.forall_mem_map]
    exact ih
  | @obj _ fields _ _ _ ih =>
    rw [chars, fieldChars_eq]
    apply plain_bracketed (by decide) (by decide)
    rw [List.forall_mem_map]
    intro p hp
    rw [List.forall_mem_append, List.forall_mem_append]
    exact ⟨⟨plain_stringText p.1, Text.plain_of_all rfl⟩, ih p hp⟩

/-- What is written on one line is read back. -/
theorem Legible.readWithin_compact {v : Json} (h : Legible limits 0 v) :
    readWithin limits v.compact = .ok v := by
  have hmark : (chars v).head? ≠ some (Char.ofNat 0xFEFF) := by
    intro hhead
    have := h.plain _ (List.mem_of_mem_head? hhead)
    exact absurd this (by decide)
  have hread := h.readBack .value [] [] (.inl rfl) rfl endsNumber_nil
  rw [List.append_nil] at hread
  rw [readWithin, compact, String.toList_ofList, if_neg hmark, hread]
  simp only [tokens, assemble, finish]

/-- Values with one print are the same. -/
theorem Legible.eq_of_compact {v w : Json} (hv : Legible limits 0 v) (hw : Legible limits 0 w)
    (h : v.compact = w.compact) : v = w := by
  have hread := hv.readWithin_compact
  rw [h, hw.readWithin_compact, Except.ok.injEq] at hread
  exact hread.symm

end Json

end AttributeLint

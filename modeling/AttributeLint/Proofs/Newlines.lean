import AttributeLint.Proofs.JsonText
import AttributeLint.Proofs.Session
import Mathlib.Data.List.Forall2

/-!
# Line ends in documents

A dump file is read with all its line ends turned into line feeds, wherever they stand. That is
harmless, because a carriage return that is not blank space between lexemes is an error in any case.

* `Text.of_unifyNewlines_eq_cons`: a character that is not a line feed stands in the unified text
  only where it stood before.
* `scan_unifyNewlines`, `scalar?_unifyNewlines`: so the scanners of strings, numbers and constants
  read the same, and leave the unified rest of the text.
* `tokens_unifyNewlines`: the lexemes are `Alike`: the same tokens, though damage may stand
  elsewhere.
* `readWithin_unifyNewlines`: hence the reader finds the same value, or an error with the same flaw.
* **Line ends** (`ofText_unifyNewlines`): a text and its unified text have the same dump, if any,
  and so have a file and its decoded contents.
-/

namespace AttributeLint

/-! ## Unified text -/

namespace Text

/-- What is no carriage return is kept. -/
theorem unifyNewlines_cons {c : Char} (h : c ≠ '\r') (rest : List Char) :
    unifyNewlines (c :: rest) = c :: unifyNewlines rest := by
  rw [unifyNewlines]
  · rintro more rfl
    exact absurd rfl h
  · exact h

/-- A carriage return becomes a line feed, and takes a line feed behind it along. Every other
character stays. -/
theorem unifyNewlines_cons_cases (c : Char) (rest : List Char) :
    (c ≠ '\r' ∧ unifyNewlines (c :: rest) = c :: unifyNewlines rest) ∨
    (c = '\r' ∧ ∃ more, unifyNewlines (c :: rest) = '\n' :: more ∧
      (unifyNewlines rest = more ∨ unifyNewlines rest = '\n' :: more)) := by
  by_cases hc : c = '\r'
  · subst hc
    refine .inr ⟨rfl, ?_⟩
    by_cases hfeed : ∃ more, rest = '\n' :: more
    · obtain ⟨more, rfl⟩ := hfeed
      exact ⟨unifyNewlines more, rfl, .inr rfl⟩
    · refine ⟨unifyNewlines rest, unifyNewlines.eq_3 rest ?_, .inl rfl⟩
      exact fun more heq => hfeed ⟨more, heq⟩
  · exact .inl ⟨hc, unifyNewlines_cons hc rest⟩

/-- A character other than a line feed comes from the text itself. -/
theorem of_unifyNewlines_eq_cons {cs more : List Char} {c : Char}
    (h : unifyNewlines cs = c :: more) (hc : c ≠ '\n') :
    ∃ rest, cs = c :: rest ∧ unifyNewlines rest = more := by
  rcases cs with _ | ⟨d, rest⟩
  · cases h
  · obtain ⟨_, heq⟩ | ⟨_, after, heq, _⟩ := unifyNewlines_cons_cases d rest
    · cases heq.symm.trans h
      exact ⟨rest, rfl, rfl⟩
    · cases heq.symm.trans h
      exact absurd rfl hc

/-- A text that does not start with a character does not either when unified. -/
theorem unifyNewlines_ne_cons {cs : List Char} {c : Char} (hc : c ≠ '\n')
    (h : ∀ rest, cs = c :: rest → False) (more : List Char) : unifyNewlines cs ≠ c :: more := by
  intro heq
  obtain ⟨rest, hrest, _⟩ := of_unifyNewlines_eq_cons heq hc
  exact h rest hrest

/-- Nothing becomes empty. -/
theorem unifyNewlines_eq_nil_iff {cs : List Char} : unifyNewlines cs = [] ↔ cs = [] := by
  fun_cases unifyNewlines cs <;> simp

/-- The first character is kept if it has nothing to do with line breaks. -/
theorem head?_unifyNewlines_eq_iff {c : Char} (hc : c ≠ '\r' ∧ c ≠ '\n') {cs : List Char} :
    (unifyNewlines cs).head? = some c ↔ cs.head? = some c := by
  rcases cs with _ | ⟨d, rest⟩
  · rw [unifyNewlines]
  · obtain ⟨_, heq⟩ | ⟨rfl, more, heq, _⟩ := unifyNewlines_cons_cases d rest
    · rw [heq, List.head?_cons, List.head?_cons]
    · simp [heq, hc.1.symm, hc.2.symm]

/-- No line ends among some characters. -/
def OneLine (cs : List Char) : Prop :=
  ∀ c ∈ cs, c ≠ '\r' ∧ c ≠ '\n'

instance (cs : List Char) : Decidable (OneLine cs) :=
  List.decidableBAll (fun c => c ≠ '\r' ∧ c ≠ '\n') cs

/-- Characters without line breaks are kept, and what is behind them is treated by itself. -/
theorem OneLine.unifyNewlines_append {cs : List Char} (h : OneLine cs) (rest : List Char) :
    unifyNewlines (cs ++ rest) = cs ++ unifyNewlines rest := by
  induction cs with
  | nil => rfl
  | cons c cs ih =>
    obtain ⟨hc, hcs⟩ := List.forall_mem_cons.mp h
    rw [List.cons_append, unifyNewlines_cons hc.1, ih hcs, List.cons_append]

/-- A text starts with a word if its unified text does. -/
theorem OneLine.of_unifyNewlines_eq_append {word cs more : List Char} (h : OneLine word)
    (heq : unifyNewlines cs = word ++ more) :
    ∃ rest, cs = word ++ rest ∧ unifyNewlines rest = more := by
  induction word generalizing cs with
  | nil => exact ⟨cs, rfl, heq⟩
  | cons c word ih =>
    obtain ⟨hc, hword⟩ := List.forall_mem_cons.mp h
    obtain ⟨after, rfl, hafter⟩ := of_unifyNewlines_eq_cons heq hc.2
    obtain ⟨rest, rfl, hrest⟩ := ih hword hafter
    exact ⟨rest, rfl, hrest⟩

/-- Digits in front are kept. -/
theorem takeWhile_isDigit_unifyNewlines (cs : List Char) :
    (unifyNewlines cs).takeWhile Char.isDigit = cs.takeWhile Char.isDigit := by
  fun_induction unifyNewlines cs with
  | case1 => rfl
  | case2 => rfl
  | case3 => rfl
  | case4 c rest _ _ ih => rw [List.takeWhile_cons, List.takeWhile_cons, ih]

/-- What is behind them is treated by itself. -/
theorem dropWhile_isDigit_unifyNewlines (cs : List Char) :
    (unifyNewlines cs).dropWhile Char.isDigit = unifyNewlines (cs.dropWhile Char.isDigit) := by
  fun_induction unifyNewlines cs with
  | case1 => rfl
  | case2 => rfl
  | case3 rest h =>
    rw [List.dropWhile_cons_of_neg (by decide), List.dropWhile_cons_of_neg (by decide),
      unifyNewlines.eq_3 rest h]
  | case4 c rest _ hc ih =>
    rw [List.dropWhile_cons, List.dropWhile_cons, ih]
    split
    · rfl
    · rw [unifyNewlines_cons hc]

/-- Four hexadecimal digits have no line break among them. -/
theorem oneLine_of_hexValue4? {a b c d : Char} {n : Nat} (h : hexValue4? a b c d = some n) :
    OneLine [a, b, c, d] := by
  simp only [hexValue4?, Option.bind_eq_bind, Option.bind_eq_some_iff] at h
  obtain ⟨_, ha, _, hb, _, hc, _, hd, _⟩ := h
  have hdigit {x : Char} {v : Nat} (hx : hexValue? x = some v) : x ≠ '\r' ∧ x ≠ '\n' := by
    constructor <;> rintro rfl <;> cases hx
  simp only [OneLine, List.forall_mem_cons]
  exact ⟨hdigit ha, hdigit hb, hdigit hc, hdigit hd, by simp⟩

end Text

namespace Json

open Text (unifyNewlines unifyNewlines_cons unifyNewlines_cons_cases)

/-! ## Strings -/

/-- A scan with another text left behind it. -/
def StringScan.mapRest (f : List Char → List Char) : StringScan → StringScan
  | .closed units rest => .closed units (f rest)
  | .unclosed => .unclosed
  | .flawed flaw rest => .flawed flaw (f rest)

/-- A unit that is pushed has nothing to do with the rest. -/
theorem StringScan.mapRest_push (f : List Char → List Char) (unit : Nat) (s : StringScan) :
    (s.push unit).mapRest f = (s.mapRest f).push unit := by
  cases s <;> rfl

/-- A code escape is flawed without four digits and text after them. -/
theorem scan_badCodeEscape {cs : List Char}
    (h : ∀ a b c d e rest, cs = a :: b :: c :: d :: e :: rest → Text.hexValue4? a b c d = none) :
    scan ('\\' :: 'u' :: cs) = .flawed .badCodeEscape ('u' :: cs) := by
  by_cases hlong : ∃ a b c d e rest, cs = a :: b :: c :: d :: e :: rest
  · obtain ⟨a, b, c, d, e, rest, rfl⟩ := hlong
    rw [scan, h a b c d e rest rfl]
  · rw [scan]
    exact fun a b c d e rest heq => hlong ⟨a, b, c, d, e, rest, heq⟩

/-- A backslash in front of a character that has no escape is a flaw. -/
theorem scan_badEscape {c : Char} (hu : c ≠ 'u') (h : escaped? c = none) (rest : List Char) :
    scan ('\\' :: c :: rest) = .flawed .badEscape ('\\' :: c :: rest) := by
  rw [scan, h]
  · exact fun _ _ _ _ _ _ heq => absurd heq hu
  · exact hu

/-- All other characters stand for themselves, except control characters, which are a flaw. -/
theorem scan_ordinary {c : Char} (hquote : c ≠ '\x22') (hslash : c ≠ '\\') (rest : List Char) :
    scan (c :: rest) = if c.toNat < 0x20 then .flawed .controlCharacter (c :: rest)
      else (scan rest).push c.toNat := by
  rw [scan]
  · exact hquote
  · exact fun heq => absurd heq hslash
  · exact fun _ _ _ _ _ _ heq => absurd heq hslash
  · exact fun _ heq => absurd heq hslash
  · exact fun _ _ heq => absurd heq hslash

/-- A backslash is the last character or starts an escape. -/
theorem ne_backslash {c : Char} {rest : List Char} (hlast : c = '\\' → rest = [] → False)
    (hescape : ∀ d more, c = '\\' → rest = d :: more → False) : c ≠ '\\' := by
  intro heq
  rcases rest with _ | ⟨d, more⟩
  · exact hlast heq rfl
  · exact hescape d more heq rfl

/-- The digits of a code escape are not line ends, so unifying completes none. -/
theorem scan_badCodeEscape_unifyNewlines {cs : List Char}
    (h : ∀ a b c d e rest, cs = a :: b :: c :: d :: e :: rest → Text.hexValue4? a b c d = none) :
    scan (unifyNewlines ('\\' :: 'u' :: cs))
      = .flawed .badCodeEscape (unifyNewlines ('u' :: cs)) := by
  rw [unifyNewlines_cons (by decide), unifyNewlines_cons (by decide)]
  apply scan_badCodeEscape
  intro a b c d e more heq
  by_contra hvalue
  obtain ⟨n, hn⟩ := Option.ne_none_iff_exists'.mp hvalue
  have hword : unifyNewlines cs = [a, b, c, d] ++ e :: more := heq
  obtain ⟨rest, rfl, hrest⟩ :=
    (Text.oneLine_of_hexValue4? hn).of_unifyNewlines_eq_append hword
  rcases rest with _ | ⟨x, rest⟩
  · cases hrest
  · rw [h a b c d x rest rfl] at hn
    cases hn

/-- A scan ends at the same place, for the same reason: a line end inside a string is flawed in
either form. -/
theorem scan_unifyNewlines (cs : List Char) :
    scan (unifyNewlines cs) = (scan cs).mapRest unifyNewlines := by
  fun_induction scan cs with
  | case1 => rfl
  | case2 rest => rw [unifyNewlines_cons (by decide), scan, StringScan.mapRest]
  | case3 => rfl
  | case4 a b c d e rest n hn ih =>
    -- the text behind the digits may start with a line end, so its first character may change
    have hline := Text.oneLine_of_hexValue4? hn
    have hmore : unifyNewlines (e :: rest) ≠ [] := by simp [Text.unifyNewlines_eq_nil_iff]
    obtain ⟨e', rest', heq⟩ := List.exists_cons_of_ne_nil hmore
    have hdigits : unifyNewlines (a :: b :: c :: d :: e :: rest)
        = a :: b :: c :: d :: e' :: rest' :=
      (hline.unifyNewlines_append (e :: rest)).trans (congrArg ([a, b, c, d] ++ ·) heq)
    rw [unifyNewlines_cons (by decide), unifyNewlines_cons (by decide), hdigits, scan, hn, ← heq,
      ih, StringScan.mapRest_push]
  | case5 a b c d e rest hn =>
    refine scan_badCodeEscape_unifyNewlines ?_
    rintro _ _ _ _ _ _ ⟨⟩
    exact hn
  | case6 rest h =>
    refine scan_badCodeEscape_unifyNewlines ?_
    exact fun a b c d e more heq => (h a b c d e more heq).elim
  | case7 c rest _ _ e he ih =>
    have hc : c ≠ '\r' := by
      rintro rfl
      cases he
    rw [unifyNewlines_cons (by decide), unifyNewlines_cons hc, scan_escape he, ih,
      StringScan.mapRest_push]
  | case8 c rest _ hu he =>
    rw [StringScan.mapRest, unifyNewlines_cons (by decide)]
    obtain ⟨_, heq⟩ | ⟨_, more, heq, _⟩ := unifyNewlines_cons_cases c rest
    · rw [heq, scan_badEscape hu he]
    · rw [heq, scan_badEscape (by decide) rfl]
  | case9 c rest hquote hlast _ _ hescape hcontrol =>
    have hslash := ne_backslash hlast hescape
    rw [StringScan.mapRest]
    obtain ⟨_, heq⟩ | ⟨_, more, heq, _⟩ := unifyNewlines_cons_cases c rest
    · rw [heq, scan_ordinary hquote hslash, if_pos hcontrol]
    · rw [heq, scan_ordinary (by decide) (by decide), if_pos (by decide)]
  | case10 c rest hquote hlast _ _ hescape hcontrol ih =>
    have hslash := ne_backslash hlast hescape
    have hc : c ≠ '\r' := by
      rintro rfl
      exact hcontrol (by decide)
    rw [unifyNewlines_cons hc, scan_ordinary hquote hslash, if_neg hcontrol, ih,
      StringScan.mapRest_push]

/-! ## Numbers and constants -/

/-- The sign of a number is split off as before. -/
theorem minusSign_unifyNewlines (cs : List Char) :
    minusSign (unifyNewlines cs) = (minusSign cs).map id unifyNewlines := by
  fun_cases minusSign cs with
  | case1 rest => rw [unifyNewlines_cons (by decide), minusSign, Prod.map, id]
  | case2 _ h =>
    rw [minusSign, Prod.map, id]
    exact Text.unifyNewlines_ne_cons (by decide) h

/-- So is the sign of an exponent. -/
theorem exponentSign_unifyNewlines (cs : List Char) :
    exponentSign (unifyNewlines cs) = (exponentSign cs).map id unifyNewlines := by
  fun_cases exponentSign cs with
  | case1 rest => rw [unifyNewlines_cons (by decide), exponentSign, Prod.map, id]
  | case2 rest => rw [unifyNewlines_cons (by decide), exponentSign, Prod.map, id]
  | case3 _ hminus hplus =>
    rw [exponentSign, Prod.map, id]
    · exact Text.unifyNewlines_ne_cons (by decide) hminus
    · exact Text.unifyNewlines_ne_cons (by decide) hplus

/-- So is the whole part of a number. -/
theorem wholePart?_unifyNewlines (cs : List Char) :
    wholePart? (unifyNewlines cs) = (wholePart? cs).map (Prod.map id unifyNewlines) := by
  rcases cs with _ | ⟨c, rest⟩
  · rfl
  · obtain ⟨_, heq⟩ | ⟨rfl, more, heq, _⟩ := unifyNewlines_cons_cases c rest
    · rw [heq, wholePart?, wholePart?, Text.takeWhile_isDigit_unifyNewlines,
        Text.dropWhile_isDigit_unifyNewlines]
      split_ifs <;> rfl
    · rw [heq]
      rfl

/-- So is the fraction. -/
theorem fraction_unifyNewlines (cs : List Char) :
    fraction (unifyNewlines cs) = (fraction cs).map id unifyNewlines := by
  by_cases hpoint : ∃ rest, cs = '.' :: rest
  · obtain ⟨rest, rfl⟩ := hpoint
    rw [unifyNewlines_cons (by decide), fraction, fraction, Text.takeWhile_isDigit_unifyNewlines,
      Text.dropWhile_isDigit_unifyNewlines]
    split_ifs
    · rw [Prod.map, id, unifyNewlines_cons (by decide)]
    · rfl
  · have hnone : ∀ rest, cs = '.' :: rest → False := fun rest heq => hpoint ⟨rest, heq⟩
    rw [fraction.eq_2 cs hnone, fraction.eq_2 _ (Text.unifyNewlines_ne_cons (by decide) hnone)]
    rfl

/-- So are the digits of an exponent. -/
theorem exponentValue?_unifyNewlines (cs : List Char) :
    exponentValue? (unifyNewlines cs) = (exponentValue? cs).map (Prod.map id unifyNewlines) := by
  rw [exponentValue?, exponentValue?, exponentSign_unifyNewlines]
  simp only [Prod.map_fst, Prod.map_snd, id_eq, Text.takeWhile_isDigit_unifyNewlines,
    Text.dropWhile_isDigit_unifyNewlines]
  split_ifs <;> rfl

/-- So is the exponent. -/
theorem exponent_unifyNewlines (cs : List Char) :
    exponent (unifyNewlines cs) = (exponent cs).map id unifyNewlines := by
  rcases cs with _ | ⟨mark, rest⟩
  · rfl
  · obtain ⟨_, heq⟩ | ⟨rfl, more, heq, _⟩ := unifyNewlines_cons_cases mark rest
    · rw [heq, exponent, exponent, exponentValue?_unifyNewlines]
      split_ifs
      · rcases exponentValue? rest with _ | ⟨n, more⟩
        · exact congrArg (Prod.mk none) heq.symm
        · rfl
      · exact congrArg (Prod.mk none) heq.symm
    · rw [heq]
      exact congrArg (Prod.mk none) heq.symm

/-- A number without its sign is read as before. -/
theorem magnitude?_unifyNewlines (negative : Bool) (cs : List Char) :
    magnitude? negative (unifyNewlines cs)
      = (magnitude? negative cs).map (Prod.map id unifyNewlines) := by
  rw [magnitude?, magnitude?, wholePart?_unifyNewlines]
  rcases wholePart? cs with _ | ⟨whole, rest⟩
  · rfl
  · simp only [Option.map_some, Prod.map_apply, id_eq, fraction_unifyNewlines, Prod.map_fst,
      Prod.map_snd, exponent_unifyNewlines]
    split_ifs <;> rfl

/-- So is a number. -/
theorem number?_unifyNewlines (cs : List Char) :
    number? (unifyNewlines cs) = (number? cs).map (Prod.map id unifyNewlines) := by
  rw [number?, number?, minusSign_unifyNewlines]
  exact magnitude?_unifyNewlines _ _

/-- So is a constant, as its word has no line break. -/
theorem constant?_unifyNewlines (cs : List Char) {words : List (List Char × Json)}
    (h : ∀ w ∈ words, Text.OneLine w.1) :
    constant? (unifyNewlines cs) words
      = (constant? cs words).map (Prod.map id unifyNewlines) := by
  induction words with
  | nil => rfl
  | cons w words ih =>
    obtain ⟨word, v⟩ := w
    obtain ⟨hword, hwords⟩ := List.forall_mem_cons.mp h
    by_cases hstart : ∃ rest, cs = word ++ rest
    · obtain ⟨rest, rfl⟩ := hstart
      rw [hword.unifyNewlines_append, constant?, constant?, if_pos (by simp), if_pos (by simp),
        List.drop_left, List.drop_left]
      rfl
    · rw [constant?, constant?, if_neg, if_neg, ih hwords]
      · rw [List.isPrefixOf_iff_prefix]
        rintro ⟨rest, heq⟩
        exact hstart ⟨rest, heq.symm⟩
      · rw [List.isPrefixOf_iff_prefix]
        rintro ⟨more, heq⟩
        obtain ⟨rest, hrest, _⟩ := hword.of_unifyNewlines_eq_append heq.symm
        exact hstart ⟨rest, hrest⟩

/-- So is a scalar. -/
theorem scalar?_unifyNewlines (cs : List Char) :
    scalar? (unifyNewlines cs) = (scalar? cs).map (Prod.map id unifyNewlines) := by
  rw [scalar?, scalar?, constant?_unifyNewlines cs (by decide), number?_unifyNewlines]
  rcases constant? cs constants with _ | r <;> rfl

/-! ## Lexemes -/

/-- A token without the place of its damage. -/
def Token.unplaced : Token → Token
  | .damaged flaw _ => .damaged flaw 0
  | t => t

/-- Only damaged tokens say where the damage is. -/
theorem Token.damaged_or_unplaced_eq (t : Token) :
    (∃ flaw left, t = .damaged flaw left) ∨ t.unplaced = t := by
  cases t with
  | damaged flaw left => exact .inl ⟨flaw, left, rfl⟩
  | _ => exact .inr rfl

/-- Lexemes that differ at most in their places. -/
structure Lexeme.Alike (l l' : Lexeme) : Prop where
  unplaced : l.token.unplaced = l'.token.unplaced
  digitCount : l.digitCount = l'.digitCount

/-- The lexeme in front is the same up to its place, and leaves what it left, unified. -/
theorem lexeme_unifyNewlines {c : Char} (hc : c ≠ '\r') (rest : List Char) :
    (lexeme c (unifyNewlines rest)).1.unplaced = (lexeme c rest).1.unplaced ∧
    (lexeme c (unifyNewlines rest)).2 = unifyNewlines (lexeme c rest).2 := by
  rw [lexeme, lexeme, scan_unifyNewlines, ← unifyNewlines_cons hc, scalar?_unifyNewlines]
  iterate 6
    split
    · exact ⟨rfl, rfl⟩
  split
  · cases scan rest <;> exact ⟨rfl, rfl⟩
  · cases scalar? (c :: rest) <;> exact ⟨rfl, rfl⟩

/-- The digits in front of a lexeme are as many as before. -/
theorem digitCount_unifyNewlines (t t' : Token) (cs : List Char) :
    (⟨t, unifyNewlines cs⟩ : Lexeme).digitCount = (⟨t', cs⟩ : Lexeme).digitCount := by
  rw [Lexeme.digitCount, Lexeme.digitCount, minusSign_unifyNewlines, Prod.map_snd,
    wholePart?_unifyNewlines]
  cases wholePart? (minusSign cs).2 <;> rfl

/-- A line end between lexemes is blank space in either form. -/
theorem tokens_unifyNewlines (cs : List Char) :
    List.Forall₂ Lexeme.Alike (tokens (unifyNewlines cs)) (tokens cs) := by
  fun_induction tokens cs with
  | case1 =>
    rw [unifyNewlines, tokens]
    exact .nil
  | case2 c rest hblank ih =>
    obtain ⟨_, heq⟩ | ⟨_, more, heq, hmore⟩ := unifyNewlines_cons_cases c rest
    · rwa [heq, tokens_of_blank hblank]
    · rw [heq, tokens_of_blank (by decide)]
      -- a line feed behind the carriage return went with it, and is blank as well
      rcases hmore with hmore | hmore
      · rwa [← hmore]
      · rwa [hmore, tokens_of_blank (by decide)] at ih
  | case3 c rest hblank ih =>
    have hc : c ≠ '\r' := by
      rintro rfl
      exact hblank (by decide)
    obtain ⟨htoken, hrest⟩ := lexeme_unifyNewlines hc rest
    rw [unifyNewlines_cons hc, tokens, if_neg hblank, hrest]
    refine .cons ⟨htoken, ?_⟩ ih
    rw [← unifyNewlines_cons hc, digitCount_unifyNewlines]

/-! ## The reader -/

namespace Lexeme.Alike

variable {l l' : Lexeme}

/-- The tokens are equal, or are damaged by one flaw. -/
theorem token_cases (h : Alike l l') :
    l.token = l'.token ∨
    ∃ flaw left left', l.token = .damaged flaw left ∧ l'.token = .damaged flaw left' := by
  have hunplaced := h.unplaced
  obtain ⟨flaw, left, hl⟩ | hl := l.token.damaged_or_unplaced_eq <;>
    obtain ⟨flaw', left', hl'⟩ | hl' := l'.token.damaged_or_unplaced_eq <;>
    rw [hl, hl'] at hunplaced
  · cases hunplaced
    exact .inr ⟨flaw, left, left', hl, hl'⟩
  · exact .inr ⟨flaw, left, 0, hl, hunplaced.symm⟩
  · exact .inr ⟨flaw', 0, left', hunplaced, hl'⟩
  · exact .inl hunplaced

/-- A string that fails has the same flaw. -/
theorem failString_flaw (h : Alike l l') (flaw : Flaw) :
    (failString flaw l).flaw = (failString flaw l').flaw := by
  rw [failString, failString]
  obtain heq | ⟨inner, left, left', hl, hl'⟩ := h.token_cases
  · rw [heq]
    cases l'.token <;> rfl
  · rw [hl, hl']

/-- Lexemes that are alike pass the same limits. -/
theorem excess?_eq (h : Alike l l') (limits : Limits) (stack : List Frame) :
    excess? limits stack l = excess? limits stack l' := by
  rw [excess?, excess?, h.digitCount]
  obtain heq | ⟨inner, left, left', hl, hl'⟩ := h.token_cases
  · rw [heq]
  · rw [hl, hl']

/-- They begin the same value, or fail with the same flaw. -/
theorem startValue_eq (h : Alike l l') (limits : Limits) (stack : List Frame) :
    (startValue limits stack l).mapError Failure.flaw
      = (startValue limits stack l').mapError Failure.flaw := by
  have hflaw := h.failString_flaw .value
  rw [startValue, startValue, h.excess?_eq]
  obtain heq | ⟨inner, left, left', hl, hl'⟩ := h.token_cases
  · rw [heq]
    rcases excess? limits stack l' with _ | e
    · cases l'.token <;> first | rfl | exact congrArg Except.error hflaw
    · rfl
  · rw [hl, hl']
    rcases excess? limits stack l' with _ | e
    · exact congrArg Except.error hflaw
    · rfl

/-- They begin the same key, or fail with the same flaw. -/
theorem startKey_eq (h : Alike l l') (done : List (String × Json)) (stack : List Frame) :
    (startKey done stack l).mapError Failure.flaw
      = (startKey done stack l').mapError Failure.flaw := by
  have hflaw := h.failString_flaw .key
  rw [startKey, startKey]
  obtain heq | ⟨inner, left, left', hl, hl'⟩ := h.token_cases
  · rw [heq]
    split
    · rfl
    · exact congrArg Except.error hflaw
  · rw [hl, hl']
    exact congrArg Except.error hflaw

/-- They go on alike behind a value. -/
theorem afterValue_eq (h : Alike l l') (v : Json) (stack : List Frame) :
    (afterValue v stack l).mapError Failure.flaw
      = (afterValue v stack l').mapError Failure.flaw := by
  unfold afterValue
  obtain heq | ⟨inner, left, left', hl, hl'⟩ := h.token_cases
  · rw [heq]
    split <;> rfl
  · rw [hl, hl']
    rcases stack with _ | ⟨_ | _, rest⟩ <;> rfl

/-- One lexeme does the same, or fails for the same reason. -/
theorem step_eq (h : Alike l l') (limits : Limits) (mode : Mode) (stack : List Frame) :
    (step limits mode stack l).mapError Failure.flaw
      = (step limits mode stack l').mapError Failure.flaw := by
  have hvalue := h.startValue_eq limits stack
  have hkey (done : List (String × Json)) := h.startKey_eq done stack
  have hafter (v : Json) := h.afterValue_eq v stack
  unfold step
  obtain heq | ⟨inner, left, left', hl, hl'⟩ := h.token_cases
  · rw [heq]
    split
    all_goals first
      | rfl
      | exact hvalue
      | exact hkey _
      | exact hafter _
  · rw [hl, hl']
    cases mode
    all_goals first
      | rfl
      | exact hvalue
      | exact hkey _
      | exact hafter _

end Lexeme.Alike

/-- Results that agree but for their errors. -/
theorem mapError_eq_cases {ε ε' α : Type} {f : ε → ε'} {x y : Except ε α}
    (h : x.mapError f = y.mapError f) :
    (∃ e e', x = .error e ∧ y = .error e' ∧ f e = f e') ∨ (∃ a, x = .ok a ∧ y = .ok a) := by
  rcases x with e | a <;> rcases y with e' | a'
  · exact .inl ⟨e, e', rfl, rfl, Except.error.inj h⟩
  · cases h
  · cases h
  · exact .inr ⟨a, rfl, congrArg Except.ok (Except.ok.inj h).symm⟩

/-- The walk over lexemes that are alike comes to the same value, or to the same flaw. -/
theorem assemble_of_alike {ls ls' : List Lexeme} (h : List.Forall₂ Lexeme.Alike ls ls')
    (limits : Limits) (mode : Mode) (stack : List Frame) :
    (assemble limits mode stack ls).mapError Failure.flaw
      = (assemble limits mode stack ls').mapError Failure.flaw := by
  induction h generalizing mode stack with
  | nil => rfl
  | cons hl _ ih =>
    rw [assemble, assemble]
    obtain ⟨e, e', hs, hs', hflaw⟩ | ⟨⟨mode', stack'⟩, hs, hs'⟩ :=
      mapError_eq_cases (hl.step_eq limits mode stack)
    · rw [hs, hs']
      exact congrArg Except.error hflaw
    · rw [hs, hs']
      exact ih mode' stack'

/-- The value is the same, or the reason why there is none. -/
theorem readWithin_unifyNewlines (limits : Limits) (text : String) :
    (readWithin limits (String.ofList (unifyNewlines text.toList))).mapError ReadError.flaw
      = (readWithin limits text).mapError ReadError.flaw := by
  have hmark : (unifyNewlines text.toList).head? = some (Char.ofNat 0xFEFF)
      ↔ text.toList.head? = some (Char.ofNat 0xFEFF) :=
    Text.head?_unifyNewlines_eq_iff (by decide)
  unfold readWithin
  simp only [String.toList_ofList, hmark]
  split_ifs
  · rfl
  · obtain ⟨e, e', hs, hs', hflaw⟩ | ⟨v, hs, hs'⟩ :=
      mapError_eq_cases (assemble_of_alike (tokens_unifyNewlines text.toList) limits .value [])
    · rw [hs, hs']
      exact congrArg Except.error hflaw
    · rw [hs, hs']

end Json

/-! ## Dumps -/

namespace Dump

open Text (unifyNewlines)

/-- A text and its unified text give the same, or are no document for the same reason. -/
theorem ofText_unifyNewlines_cases (limits : Limits) (text : String) :
    ofText limits (String.ofList (unifyNewlines text.toList)) = ofText limits text ∨
    ∃ e e', ofText limits (String.ofList (unifyNewlines text.toList))
        = .error (unread (String.ofList (unifyNewlines text.toList)) e) ∧
      ofText limits text = .error (unread text e') ∧ e.flaw = e'.flaw := by
  rw [ofText, ofText]
  obtain ⟨e, e', he, he', hflaw⟩ | ⟨v, hv, hv'⟩ :=
    Json.mapError_eq_cases (Json.readWithin_unifyNewlines limits text)
  · rw [he, he']
    exact .inr ⟨e, e', rfl, rfl, hflaw⟩
  · rw [hv, hv']
    exact .inl rfl

/-- A dump is read from a text exactly if it is read from the unified one. -/
theorem ofText_unifyNewlines_eq_ok_iff (limits : Limits) (text : String) (d : Dump) :
    ofText limits (String.ofList (unifyNewlines text.toList)) = .ok d ↔
      ofText limits text = .ok d := by
  obtain heq | ⟨e, e', he, he', _⟩ := ofText_unifyNewlines_cases limits text
  · rw [heq]
  · rw [he, he']
    exact ⟨nofun, nofun⟩

/-- **Line ends.** A text and its unified text have the same dump, if they have one. So have a file
and its decoded contents. -/
theorem ofText_unifyNewlines (limits : Limits) :
    (∀ (text : String) (d : Dump),
      ofText limits (String.ofList (unifyNewlines text.toList)) = .ok d ↔
        ofText limits text = .ok d) ∧
    (∀ (path : String) (octets : List UInt8) (cs : List Char), Path.hasNull path = false →
      Text.decodeUtf8 octets = .ok cs → ∀ d : Dump,
        load limits path (.ok octets) = .ok d ↔ ofText limits (String.ofList cs) = .ok d) := by
  refine ⟨ofText_unifyNewlines_eq_ok_iff limits, fun path octets cs hpath hcs d => ?_⟩
  have htext : textOf path (.ok octets) = .ok (String.ofList (unifyNewlines cs)) := by
    simp only [textOf, hpath, hcs, Bool.false_eq_true, if_false]
  have h := ofText_unifyNewlines_eq_ok_iff limits (String.ofList cs) d
  rw [String.toList_ofList] at h
  rw [load, htext]
  exact h

/-- A file object with carriage returns around it and an escaped one in its source. -/
def returnsText : String :=
  "\x7b\r\n\"elements\":\r[],\n\"source\":\"a\\r\\nb\"\r\x7d"

def returnsOctets : List UInt8 :=
  returnsText.toList.map (UInt8.ofNat ∘ Char.toNat)

/-- Line breaks inside of a string are written with escapes and are kept. -/
theorem ofText_returns : ofText {} returnsText = .ok ⟨[⟨"", [], some "a\r\nb"⟩]⟩ := by
  rw [ofText, Json.readWithin_eq_tokensUpTo]
  rfl

/-- So are they if the dump is loaded, although the breaks between its lines are unified. -/
theorem load_returns :
    Path.hasNull "d" = false ∧ Text.decodeUtf8 returnsOctets = .ok returnsText.toList ∧
    load {} "d" (.ok returnsOctets) = .ok ⟨[⟨"", [], some "a\r\nb"⟩]⟩ := by
  have hpath : Path.hasNull "d" = false := by decide
  have hcs : Text.decodeUtf8 returnsOctets = .ok returnsText.toList := by rfl
  refine ⟨hpath, hcs, ((ofText_unifyNewlines {}).2 "d" _ _ hpath hcs _).mpr ?_⟩
  rw [String.ofList_toList]
  exact ofText_returns

end Dump

end AttributeLint

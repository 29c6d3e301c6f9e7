import AttributeLint.Proofs.Lowercasing
import AttributeLint.Proofs.Respelling
import Mathlib.Computability.Language
import Mathlib.Order.CompletePartialOrder

/-!
# The language of data names

Data names are given by a regular expression, `data(-[^:]*)*`, which may be followed by one line
break. The test for them does no matching: it compares with two texts, looks at the beginning and
looks for a colon. That both come to the same is shown here.

* `Name.segment_mul_segment_le`: a segment can hold hyphens, so two segments in a row are one. This
  is where a text can be taken apart in many ways.
* `Name.mem_dataPattern`: a star over segments is therefore at most one segment
  (`kstar_eq_one_add`), and the expression describes `data` and the texts that start with `data-`
  and have no colon.
* `Text.lowercase_eq_iff_of_ascii`: apart from `k`, an ASCII letter is the lowercase form of ASCII
  letters only. So the reserved beginning is recognised in every letter case by a test that looks at
  ASCII letters.
* **Data names** (`Name.isData_iff_mem_dataLanguage`): the test, the language, and the closed form
  of the language.
-/

namespace AttributeLint

open Computability

/-! ## Regular expressions -/

/-- If two in a row are one, any number in a row is none or one. -/
theorem kstar_eq_one_add {K : Type*} [KleeneAlgebra K] {a : K} (h : a * a ≤ a) : a∗ = 1 + a := by
  apply le_antisymm
  · apply kstar_le_of_mul_le_left
    · exact le_self_add
    · rw [add_mul, one_mul]
      exact add_le le_add_self (h.trans le_add_self)
  · exact add_le one_le_kstar le_kstar

namespace Text

/-- The language of one text. -/
def literal (text : String) : Language Char :=
  {text.toList}

/-- The language of the characters with a property. -/
def oneOf (p : Char → Prop) : Language Char :=
  {w | ∃ c, p c ∧ w = [c]}

variable {p : Char → Prop} {text : String} {l : Language Char} {w : List Char}

/-- A literal language has the one text. -/
theorem mem_literal : w ∈ literal text ↔ w = text.toList :=
  Iff.rfl

/-- It has the texts of one character that is allowed. -/
theorem mem_oneOf : w ∈ oneOf p ↔ ∃ c, p c ∧ w = [c] :=
  Iff.rfl

/-- A text that begins with a literal goes on in the other language. -/
theorem mem_literal_mul : w ∈ literal text * l ↔ ∃ rest ∈ l, w = text.toList ++ rest := by
  rw [Language.mem_mul]
  constructor
  · rintro ⟨start, hstart, rest, hrest, rfl⟩
    exact ⟨rest, hrest, by rw [mem_literal.mp hstart]⟩
  · rintro ⟨rest, hrest, rfl⟩
    exact ⟨text.toList, mem_literal.mpr rfl, rest, hrest, rfl⟩

/-- Any number of allowed characters, and no others. -/
theorem mem_kstar_oneOf : w ∈ (oneOf p)∗ ↔ ∀ c ∈ w, p c := by
  constructor
  · rw [Language.mem_kstar]
    rintro ⟨pieces, rfl, hpieces⟩ c hc
    obtain ⟨piece, hpiece, hc⟩ := List.mem_flatten.mp hc
    obtain ⟨d, hd, rfl⟩ := mem_oneOf.mp (hpieces piece hpiece)
    rw [List.mem_singleton.mp hc]
    exact hd
  · intro h
    induction w with
    | nil => exact Language.nil_mem_kstar _
    | cons c rest ih =>
      obtain ⟨hc, hrest⟩ := List.forall_mem_cons.mp h
      have hstep : oneOf p * (oneOf p)∗ ≤ (oneOf p)∗ := mul_kstar_le_kstar
      exact hstep (Language.append_mem_mul (mem_oneOf.mpr ⟨c, hc, rfl⟩) (ih hrest))

end Text

open Text

namespace Name

/-! ## The pattern of data names -/

/-- A hyphen and then no colon: `-[^:]*`. -/
def segment : Language Char :=
  literal "-" * (oneOf (· ≠ ':'))∗

/-- The pattern of data names: `data(-[^:]*)*`. -/
def dataPattern : Language Char :=
  literal "data" * segment∗

/-- The pattern on whole texts, where one line break may follow at the end. -/
def dataLanguage : Language Char :=
  dataPattern * (1 + literal "\n")

variable {w : List Char}

/-- A segment is a hyphen and anything without a colon. -/
theorem mem_segment : w ∈ segment ↔ ∃ rest, ':' ∉ rest ∧ w = '-' :: rest := by
  unfold segment
  rw [mem_literal_mul]
  refine exists_congr fun rest => and_congr_left fun _ => ?_
  rw [mem_kstar_oneOf]
  exact ⟨fun h hcolon => h ':' hcolon rfl, fun h c hc heq => h (heq ▸ hc)⟩

/-- The hyphen of the second segment is a character of the first like any other. -/
theorem segment_mul_segment_le : segment * segment ≤ segment := by
  intro w hw
  obtain ⟨first, hfirst, second, hsecond, rfl⟩ := Language.mem_mul.mp hw
  obtain ⟨rest, hrest, rfl⟩ := mem_segment.mp hfirst
  obtain ⟨rest', hrest', rfl⟩ := mem_segment.mp hsecond
  refine mem_segment.mpr ⟨rest ++ '-' :: rest', ?_, rfl⟩
  rw [List.mem_append, List.mem_cons]
  rintro (h | h | h)
  · exact hrest h
  · exact absurd h (by decide)
  · exact hrest' h

/-- The pattern has `data` itself, and what begins with `data-` and has no colon. -/
theorem mem_dataPattern :
    w ∈ dataPattern ↔ w = "data".toList ∨ ("data-".toList <+: w ∧ ':' ∉ w) := by
  unfold dataPattern
  -- what stands behind `data` is nothing or one segment, however it was taken apart
  rw [kstar_eq_one_add segment_mul_segment_le, mem_literal_mul]
  constructor
  · rintro ⟨rest, hnone | hone, rfl⟩
    · left
      rw [(Language.mem_one rest).mp hnone, List.append_nil]
    · right
      obtain ⟨more, hmore, rfl⟩ := mem_segment.mp hone
      exact ⟨⟨more, rfl⟩, by simpa using hmore⟩
  · rintro (rfl | ⟨⟨more, rfl⟩, hcolon⟩)
    · exact ⟨[], .inl Language.nil_mem_one, rfl⟩
    · have hmore : ':' ∉ more := fun h => hcolon (List.mem_append_right _ h)
      exact ⟨'-' :: more, .inr (mem_segment.mpr ⟨more, hmore, rfl⟩), rfl⟩

/-- The language has what the pattern has, with one line break behind it or without. -/
theorem mem_dataLanguage_iff_exists :
    w ∈ dataLanguage ↔ w ∈ dataPattern ∨ ∃ v ∈ dataPattern, w = v ++ "\n".toList := by
  unfold dataLanguage
  rw [mul_add, mul_one, Language.mem_add, Language.mem_mul]
  refine or_congr_right (exists_congr fun v => and_congr_right fun _ => ?_)
  constructor
  · rintro ⟨b, hb, rfl⟩
    rw [mem_literal.mp hb]
  · rintro rfl
    exact ⟨_, mem_literal.mpr rfl, rfl⟩

/-- The language in closed form. A line break behind `data-` is allowed by the pattern already, so
only the one behind `data` is new. -/
theorem mem_dataLanguage :
    w ∈ dataLanguage ↔
      w = "data".toList ∨ w = "data\n".toList ∨ ("data-".toList <+: w ∧ ':' ∉ w) := by
  simp only [mem_dataLanguage_iff_exists, mem_dataPattern]
  constructor
  · rintro ((hdata | hdash) | ⟨v, rfl | ⟨hstart, hcolon⟩, rfl⟩)
    · exact .inl hdata
    · exact .inr (.inr hdash)
    · exact .inr (.inl rfl)
    · refine .inr (.inr ⟨hstart.trans (List.prefix_append v _), ?_⟩)
      rw [List.mem_append, not_or]
      exact ⟨hcolon, by decide⟩
  · rintro (hdata | hline | hdash)
    · exact .inl (.inl hdata)
    · exact .inr ⟨"data".toList, .inl rfl, hline⟩
    · exact .inl (.inr hdash)

/-- The check of the shape decides the language. -/
theorem hasDataShape_iff_mem_dataLanguage : hasDataShape w = true ↔ w ∈ dataLanguage := by
  unfold hasDataShape
  rw [mem_dataLanguage, Bool.or_eq_true, Bool.or_eq_true, decide_eq_true_eq, decide_eq_true_eq,
    or_assoc, Bool.and_eq_true, List.isPrefixOf_iff_prefix, Bool.not_eq_true', Bool.eq_false_iff,
    ne_eq, List.contains_iff_mem]

end Name

/-! ## Letter case -/

namespace Text

/-- Among the lowercase forms of other characters, the only one in the ASCII range is the `k` that
the Kelvin sign has. -/
theorem above_ascii_of_mem : ∀ r ∈ lowercaseRows,
    r.last < 128 ∨ 128 ≤ r.target ∨ (r.first = r.last ∧ r.target = 'k'.toNat) := by
  decide +kernel

/-- A character that becomes ASCII is ASCII, apart from the one that becomes a `k`. -/
theorem toNat_lt_of_lowercaseChar {c : Char} (hascii : Ascii (lowercaseChar c))
    (hk : 'k' ∉ lowercaseChar c) : c.toNat < 128 := by
  unfold lowercaseChar at hascii hk
  split_ifs at hascii hk with hdotted
  · -- the combining dot is no ASCII character
    exact absurd hascii (by decide)
  · have hlt := hascii _ (List.mem_singleton.mpr rfl)
    rcases lowercaseCode_cases lowercaseRows c.toNat with hsame | ⟨r, hr, hmaps, himage⟩
    · rwa [hsame, Char.ofNat_toNat] at hlt
    · have hcode := toNat_ofNat_image hr hmaps
      rw [himage] at hlt hk
      have hbounds := hmaps.image_le
      rcases above_ascii_of_mem r hr with hlast | htarget | ⟨hone, htarget⟩
      · exact hmaps.le_last.trans_lt hlast
      · omega
      · have hkelvin : r.image c.toNat = 'k'.toNat := by
          unfold LowercaseRow.lastTarget at hbounds
          omega
        rw [hkelvin, Char.ofNat_toNat] at hk
        exact absurd (List.mem_singleton.mpr rfl) hk

/-- So is a text that becomes ASCII without a `k`. -/
theorem ascii_of_lowercaseAfter {cs : List Char} (before : List Char)
    (hascii : Ascii (lowercaseAfter before cs)) (hk : 'k' ∉ lowercaseAfter before cs) :
    Ascii cs := by
  induction cs generalizing before with
  | nil => exact hascii
  | cons c rest ih =>
    unfold lowercaseAfter at hascii hk
    obtain ⟨hhead, htail⟩ := List.forall_mem_append.mp hascii
    rw [List.mem_append, not_or] at hk
    refine List.forall_mem_cons.mpr ⟨?_, ih (c :: before) htail hk.2⟩
    by_cases hsigma : c = capitalSigma
    · -- neither form of the lowercase sigma is an ASCII character
      rw [if_pos hsigma] at hhead
      split_ifs at hhead <;> exact absurd (hhead _ (List.mem_singleton.mpr rfl)) (by decide)
    · rw [if_neg hsigma] at hhead hk
      exact toNat_lt_of_lowercaseChar hhead hk.1

/-- For an ASCII word without `k`, the letters of ASCII are all that letter case is about. -/
theorem lowercase_eq_iff_of_ascii {word cs : List Char} (hascii : Ascii word) (hk : 'k' ∉ word) :
    lowercase cs = word ↔ cs.map Char.toLower = word := by
  constructor
  · rintro rfl
    exact (lowercase_of_ascii (ascii_of_lowercaseAfter [] hascii hk)).symm
  · rintro rfl
    apply lowercase_of_ascii
    intro c hc
    exact toNat_lt_of_toLower (hascii _ (List.mem_map_of_mem hc))

end Text

namespace Name

/-- A name is reserved exactly if it begins with `data-xml`, in any case. -/
theorem startsReserved_iff {w : List Char} :
    startsReserved w = true ↔ ∃ start, start <+: w ∧ lowercase start = "data-xml".toList := by
  have hcase : ∀ start, lowercase start = "data-xml".toList ↔
      start.map Char.toLower = "data-xml".toList :=
    fun start => lowercase_eq_iff_of_ascii (by decide) (by decide)
  unfold startsReserved
  rw [decide_eq_true_eq]
  constructor
  · intro h
    exact ⟨w.take 8, List.take_prefix 8 w, (hcase _).mpr h⟩
  · rintro ⟨start, hstart, hlower⟩
    have hreserved := (hcase start).mp hlower
    have hlength : start.length = 8 := by
      rw [← List.length_map, hreserved]
      rfl
    rw [← hlength, ← List.prefix_iff_eq_take.mp hstart]
    exact hreserved

/-! ## The statement -/

/-- **Data names.** A name is a data name exactly if it is in the language of `data(-[^:]*)*`, one
final line break aside, and does not begin with `data-xml` in some letter case. The language
consists of `data`, of `data` and one line break, and of the texts that start with `data-` and have
no colon. -/
theorem isData_iff_mem_dataLanguage :
    (∀ name : String, isData name = true ↔ name.toList ∈ dataLanguage ∧
      ¬ ∃ start, start <+: name.toList ∧ lowercase start = "data-xml".toList) ∧
    ∀ name : String, name.toList ∈ dataLanguage ↔
      name = "data" ∨ name = "data\n" ∨ ("data-".toList <+: name.toList ∧ ':' ∉ name.toList) := by
  refine ⟨?_, ?_⟩
  · intro name
    rw [← startsReserved_iff, ← hasDataShape_iff_mem_dataLanguage, Bool.not_eq_true, and_comm]
    unfold isData
    rw [Bool.and_eq_true, Bool.not_eq_true']
  · intro name
    rw [mem_dataLanguage, String.toList_inj, String.toList_inj]

/-- One line break, not two, is allowed behind `data`, and any number behind a hyphen. Letter case
matters for the pattern and does not for the reserved beginning. -/
example : isData "data\n" = true ∧ isData "data\n\n" = false ∧ isData "data--\n\n" = true ∧
    isData "Data-x" = false ∧ isData "data-XmLns" = false := by
  decide

end Name

end AttributeLint

import AttributeLint.Text.Lowercase
import Mathlib.Tactic.SplitIfs

/-!
# What lowercase does to a text

The lowercase mapping has a table of runs and two exceptions, one of which looks at the neighbours
of a character. Two things are said of it here.

Lowercase text stays as it is:

* `lowercaseCode_image`: no row maps what a row of the table has mapped already. This is checked on
  the bounds of the runs (`LowercaseRow.settles`).
* `settled_of_mem_lowercaseAfter`: so every character of a lowercase text is `Settled`, its own
  lowercase form wherever it stands.

The neighbours of a character matter for a capital sigma only:

* `lowercaseAfter_eq_lowercaseBy`: the rest of the mapping goes character by character, once it is
  known for each capital sigma whether it ends a word (`sigmaEndings`).
* `lowercaseBy_inj`: and that can be told from the lowercase text.
* `sigmaEndings_filter`: taking out characters that are case-ignorable does not change it.
-/

namespace AttributeLint.Text

/-! ## Rows of the table -/

namespace LowercaseRow

/-- The code point is in the run of the row. -/
structure Maps (r : LowercaseRow) (n : Nat) : Prop where
  first_le : r.first ≤ n
  le_last : n ≤ r.last
  onStep : (n - r.first) % r.step = 0

/-- The lowercase form of a code point of the run. -/
def image (r : LowercaseRow) (n : Nat) : Nat :=
  r.target + (n - r.first)

/-- The lowercase form of the last code point of the run. -/
def lastTarget (r : LowercaseRow) : Nat :=
  r.target + (r.last - r.first)

/-- Do the lowercase forms of a run stand between the code points of another one? -/
def alternates (r s : LowercaseRow) : Bool :=
  (r.step = 2 || r.first = r.last) && s.step = 2 && (r.target + s.first) % 2 = 1

/-- Do the rows leave the lowercase forms of a run alone? The rows ascend: those that end too early
are passed over, and the first that starts too late ends the search. A row in between must alternate
with the lowercase forms. -/
def settles (r : LowercaseRow) : List LowercaseRow → Bool
  | [] => true
  | s :: rest =>
      if s.last < r.target then settles r rest
      else if r.lastTarget < s.first ∧ r.lastTarget ≤ s.last then true
      else alternates r s && settles r rest

variable {r s : LowercaseRow} {n : Nat}

/-- Images lie within the targets of a row. -/
theorem Maps.image_le (h : r.Maps n) : r.target ≤ r.image n ∧ r.image n ≤ r.lastTarget := by
  have hfirst := h.first_le
  have hlast := h.le_last
  unfold image lastTarget
  omega

/-- No lowercase form of a run is a code point of a row that it alternates with. -/
theorem Maps.not_maps_image (h : r.Maps n) (halt : r.alternates s = true) :
    ¬ (s.first ≤ r.image n ∧ (r.image n - s.first) % s.step = 0) := by
  simp only [alternates, Bool.and_eq_true, Bool.or_eq_true, decide_eq_true_eq] at halt
  obtain ⟨⟨hrun, hstep⟩, hodd⟩ := halt
  have hfirst := h.first_le
  have hlast := h.le_last
  -- the members of the run are an even number of places apart
  have heven : (n - r.first) % 2 = 0 := by
    rcases hrun with htwo | hone
    · rw [← htwo]
      exact h.onStep
    · omega
  unfold image
  rw [hstep]
  omega

end LowercaseRow

open LowercaseRow

variable {rows : List LowercaseRow}

/-- A code is kept, or mapped by one of the rows. -/
theorem lowercaseCode_cases (rows : List LowercaseRow) (n : Nat) :
    lowercaseCode rows n = n ∨ ∃ r ∈ rows, r.Maps n ∧ lowercaseCode rows n = r.image n := by
  induction rows with
  | nil => exact .inl rfl
  | cons r rest ih =>
    unfold lowercaseCode
    split_ifs with hlast hrun
    · exact .inr ⟨r, List.mem_cons_self, ⟨hrun.1, hlast, hrun.2⟩, rfl⟩
    · exact .inl rfl
    · rcases ih with hsame | ⟨s, hs, hmaps, heq⟩
      · exact .inl hsame
      · exact .inr ⟨s, List.mem_cons_of_mem r hs, hmaps, heq⟩

/-- What one row has mapped is not mapped again. -/
theorem lowercaseCode_image {r : LowercaseRow} (h : r.settles rows = true) {n : Nat}
    (hn : r.Maps n) : lowercaseCode rows (r.image n) = r.image n := by
  obtain ⟨hlow, hhigh⟩ := hn.image_le
  induction rows with
  | nil => rfl
  | cons s rest ih =>
    unfold settles at h
    unfold lowercaseCode
    split_ifs at h with hearly hlate
    · -- the row ends before the lowercase forms start
      rw [if_neg (by omega)]
      exact ih h
    · -- the row starts after the lowercase forms end
      rw [if_pos (by omega), if_neg (by omega)]
    · rw [Bool.and_eq_true] at h
      rw [if_neg (hn.not_maps_image h.1), ih h.2, ite_self]

/-- All rows of the table settle. -/
theorem settles_of_mem : ∀ r ∈ lowercaseRows, r.settles lowercaseRows = true := by
  decide +kernel

/-- The lowercase forms in the table are characters; none is a dotted capital I, and none stands
before the lowercase letters of ASCII. -/
theorem placed_of_mem : ∀ r ∈ lowercaseRows, 97 ≤ r.target ∧
    (r.lastTarget < 0x130 ∨ (0x130 < r.target ∧ r.lastTarget < 0xd800) ∨
      (0xdfff < r.target ∧ r.lastTarget < 0x110000)) := by
  decide +kernel

/-! ## Settled characters -/

/-- A character that lowercase leaves as it is, wherever it stands. -/
def Settled (c : Char) : Prop :=
  c ≠ capitalSigma ∧ lowercaseChar c = [c]

instance (c : Char) : Decidable (Settled c) :=
  inferInstanceAs (Decidable (_ ∧ _))

/-- A valid code is that of its character. -/
theorem toNat_ofNat_of_valid {n : Nat} (h : n.isValidChar) : (Char.ofNat n).toNat = n := by
  unfold Char.ofNat
  rw [dif_pos h]
  rfl

/-- A character whose code is kept is settled, apart from the one that becomes two. -/
theorem settled_of_code {c : Char} (hdotted : c ≠ dottedCapitalI)
    (h : lowercaseCode lowercaseRows c.toNat = c.toNat) : Settled c := by
  refine ⟨?_, ?_⟩
  · rintro rfl
    exact absurd h (by decide)
  · unfold lowercaseChar
    rw [if_neg hdotted, h, Char.ofNat_toNat]

/-- The image of a code is the code of a character. -/
theorem toNat_ofNat_image {r : LowercaseRow} (hr : r ∈ lowercaseRows) {n : Nat} (hn : r.Maps n) :
    (Char.ofNat (r.image n)).toNat = r.image n := by
  obtain ⟨-, hplace⟩ := placed_of_mem r hr
  obtain ⟨hlow, hhigh⟩ := hn.image_le
  apply toNat_ofNat_of_valid
  unfold Nat.isValidChar
  omega

/-- The lowercase forms of a character, context aside: of the table's mappings, only the code point
and its bounds are needed. -/
theorem mem_lowercaseChar_cases {b c : Char} (h : b ∈ lowercaseChar c) :
    b = 'i' ∨ b = Char.ofNat 0x307 ∨ (b = c ∧ Settled c) ∨
      ∃ r ∈ lowercaseRows, r.Maps c.toNat ∧ b.toNat = r.image c.toNat := by
  unfold lowercaseChar at h
  split_ifs at h with hdotted
  · rcases List.mem_cons.mp h with rfl | h
    · exact .inl rfl
    · exact .inr (.inl (List.mem_singleton.mp h))
  · have hb : b = Char.ofNat (lowercaseCode lowercaseRows c.toNat) := List.mem_singleton.mp h
    rcases lowercaseCode_cases lowercaseRows c.toNat with hsame | ⟨r, hr, hmaps, himage⟩
    · have hbc : b = c := by rw [hb, hsame, Char.ofNat_toNat]
      exact .inr (.inr (.inl ⟨hbc, settled_of_code hdotted hsame⟩))
    · refine .inr (.inr (.inr ⟨r, hr, hmaps, ?_⟩))
      rw [hb, himage, toNat_ofNat_image hr hmaps]

/-- What a character becomes is settled. -/
theorem settled_of_mem_lowercaseChar {b c : Char} (h : b ∈ lowercaseChar c) : Settled b := by
  rcases mem_lowercaseChar_cases h with rfl | rfl | ⟨rfl, hc⟩ | ⟨r, hr, hmaps, himage⟩
  · decide
  · decide
  · exact hc
  · obtain ⟨-, hplace⟩ := placed_of_mem r hr
    obtain ⟨hlow, hhigh⟩ := hmaps.image_le
    apply settled_of_code
    · rintro rfl
      have hdotted : dottedCapitalI.toNat = 0x130 := rfl
      omega
    · rw [himage]
      exact lowercaseCode_image (settles_of_mem r hr) hmaps

/-- Every character of a lowercase text is settled. -/
theorem settled_of_mem_lowercaseAfter {cs : List Char} {b : Char} (before : List Char)
    (h : b ∈ lowercaseAfter before cs) : Settled b := by
  induction cs generalizing before with
  | nil => cases h
  | cons c rest ih =>
    unfold lowercaseAfter at h
    rcases List.mem_append.mp h with h | h
    · split_ifs at h
      · rw [List.mem_singleton.mp h]
        decide
      · rw [List.mem_singleton.mp h]
        decide
      · exact settled_of_mem_lowercaseChar h
    · exact ih (c :: before) h

/-- Settled text is its own lowercase. -/
theorem lowercaseAfter_of_settled {cs : List Char} (before : List Char) (h : ∀ c ∈ cs, Settled c) :
    lowercaseAfter before cs = cs := by
  induction cs generalizing before with
  | nil => rfl
  | cons c rest ih =>
    obtain ⟨⟨hsigma, hchar⟩, hrest⟩ := List.forall_mem_cons.mp h
    rw [lowercaseAfter, if_neg hsigma, hchar, ih (c :: before) hrest]
    rfl

/-! ## Where the neighbours matter -/

/-- For each capital sigma of a text whose left neighbours are `before`: does it end a word? -/
def sigmaEndingsAfter (before : List Char) : List Char → List Bool
  | [] => []
  | c :: rest =>
      if c = capitalSigma then endsWord before rest :: sigmaEndingsAfter (c :: before) rest
      else sigmaEndingsAfter (c :: before) rest

/-- For each capital sigma of a text, from left to right: does it end a word? -/
def sigmaEndings (cs : List Char) : List Bool :=
  sigmaEndingsAfter [] cs

/-- The lowercase form of a sigma that does or does not end a word. -/
def sigmaForm (ends : Bool) : Char :=
  if ends then 'ς' else 'σ'

/-- Lowercase character by character, where it is given which capital sigmas end a word. -/
def lowercaseBy (endings : List Bool) : List Char → List Char
  | [] => []
  | c :: rest =>
      if c = capitalSigma then sigmaForm (endings.headD false) :: lowercaseBy endings.tail rest
      else lowercaseChar c ++ lowercaseBy endings rest

/-- The two forms of sigma are distinct. -/
theorem sigmaForm_injective : ∀ e e' : Bool, sigmaForm e = sigmaForm e' → e = e' := by
  decide

/-- Only the capital sigmas look at what is around them. -/
theorem lowercaseAfter_eq_lowercaseBy (before cs : List Char) :
    lowercaseAfter before cs = lowercaseBy (sigmaEndingsAfter before cs) cs := by
  induction cs generalizing before with
  | nil => rfl
  | cons c rest ih =>
    rw [lowercaseAfter, lowercaseBy, sigmaEndingsAfter, ih (c :: before)]
    by_cases hsigma : c = capitalSigma
    · simp only [if_pos hsigma, List.headD_cons, List.tail_cons]
      rcases endsWord before rest with _ | _ <;> rfl
    · simp only [if_neg hsigma]

/-- There is one ending for each capital sigma. -/
theorem length_sigmaEndingsAfter (before cs : List Char) :
    (sigmaEndingsAfter before cs).length = cs.count capitalSigma := by
  induction cs generalizing before with
  | nil => rfl
  | cons c rest ih =>
    rw [sigmaEndingsAfter, List.count_cons]
    split_ifs with hsigma hbeq hbeq
    · rw [List.length_cons, ih]
    · exact absurd (beq_iff_eq.mpr hsigma) hbeq
    · exact absurd (beq_iff_eq.mp hbeq) hsigma
    · rw [ih, Nat.add_zero]

/-- The two forms of the lowercase sigma tell which capital sigmas ended a word. -/
theorem lowercaseBy_inj {cs : List Char} {endings endings' : List Bool}
    (hlength : endings.length = cs.count capitalSigma)
    (hlength' : endings'.length = cs.count capitalSigma)
    (h : lowercaseBy endings cs = lowercaseBy endings' cs) : endings = endings' := by
  induction cs generalizing endings endings' with
  | nil =>
    rw [List.eq_nil_of_length_eq_zero hlength, List.eq_nil_of_length_eq_zero hlength']
  | cons c rest ih =>
    rw [lowercaseBy, lowercaseBy] at h
    by_cases hsigma : c = capitalSigma
    · subst hsigma
      rw [List.count_cons_self] at hlength hlength'
      obtain ⟨e, more, rfl⟩ := List.exists_cons_of_length_eq_add_one hlength
      obtain ⟨e', more', rfl⟩ := List.exists_cons_of_length_eq_add_one hlength'
      rw [if_pos rfl, if_pos rfl, List.cons.injEq] at h
      have hsame : e = e' := sigmaForm_injective e e' h.1
      rw [hsame, ih (Nat.succ.inj hlength) (Nat.succ.inj hlength') h.2]
    · rw [if_neg hsigma, if_neg hsigma] at h
      rw [List.count_cons_of_ne hsigma] at hlength hlength'
      exact ih hlength hlength' (List.append_cancel_left h)

/-- The neighbour that decides is the nearest character that is not case-ignorable. -/
theorem nextIsCased_eq (cs : List Char) :
    nextIsCased cs = (cs.find? fun c => !isCaseIgnorable c).any isCased := by
  unfold nextIsCased
  induction cs with
  | nil => rfl
  | cons c rest ih =>
    rw [List.dropWhile_cons, List.find?_cons]
    rcases isCaseIgnorable c with _ | _
    · rfl
    · exact ih

section kept

variable {keep : Char → Bool} (hkeep : ∀ c, keep c = false → isCaseIgnorable c = true)

include hkeep

/-- Leaving out case-ignorable characters does not change whether a letter follows. -/
theorem nextIsCased_filter (cs : List Char) : nextIsCased (cs.filter keep) = nextIsCased cs := by
  have hsame : (fun c => keep c && !isCaseIgnorable c) = fun c => !isCaseIgnorable c := by
    funext c
    rcases hk : keep c with _ | _
    · rw [hkeep c hk]
      rfl
    · rfl
  rw [nextIsCased_eq, nextIsCased_eq, List.find?_filter]
  simp only [Bool.decide_and, Bool.decide_eq_true, hsame]

/-- So it changes none of the endings. -/
theorem sigmaEndingsAfter_filter (before cs : List Char) :
    sigmaEndingsAfter (before.filter keep) (cs.filter keep) = sigmaEndingsAfter before cs := by
  have hsigma : keep capitalSigma = true := by
    rw [← Bool.not_eq_false]
    intro hdropped
    exact absurd (hkeep _ hdropped) (by decide)
  induction cs generalizing before with
  | nil => rfl
  | cons c rest ih =>
    rw [sigmaEndingsAfter, List.filter_cons]
    have hrest := ih (c :: before)
    rw [List.filter_cons] at hrest
    rcases hk : keep c with _ | _
    · -- a character that is taken out is no sigma
      have hc : c ≠ capitalSigma := by
        rintro rfl
        rw [hsigma] at hk
        cases hk
      rw [hk] at hrest
      rw [if_neg hc]
      exact hrest
    · rw [hk] at hrest
      rw [if_pos rfl, sigmaEndingsAfter, endsWord, endsWord, nextIsCased_filter hkeep,
        nextIsCased_filter hkeep]
      rw [if_pos rfl] at hrest
      rw [hrest]

/-- Case-ignorable characters can be taken out: the same capital sigmas end a word. -/
theorem sigmaEndings_filter (cs : List Char) :
    sigmaEndings (cs.filter keep) = sigmaEndings cs :=
  sigmaEndingsAfter_filter hkeep [] cs

end kept

end AttributeLint.Text

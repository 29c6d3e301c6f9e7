import AttributeLint.Proofs.FileSuppression

/-!
# Suppressions depend on what was added

Suppressions are added one after the other, everywhere or in the files that a pattern covers. They
are kept in groups, and the groups of two histories differ in their order. What they hide is the
same for every order of the additions and however often each is repeated.

* `Text.Glob.matches_of_plain`: a pattern without special characters matches itself only.
* `Suppressions.Grouped`: the groups hold what was added, each of it once and nothing else. One
  addition keeps it so (`Grouped.add`), and so does a whole history (`grouped_ofAdditions`).
* **History** (`hides_iff_added`): a diagnostic is hidden exactly if one of the additions silences
  it. So order and repetition do not matter, more additions hide no less, and what two lists of
  additions hide together can be filtered out by one after the other.
-/

namespace AttributeLint

/-! ## Patterns without special characters -/

namespace Text.Glob

/-- A pattern in which every character stands for itself. -/
def Plain (pattern : String) : Prop :=
  '*' ∉ pattern.toList ∧ '?' ∉ pattern.toList ∧ '[' ∉ pattern.toList

/-- A pattern without special characters is its own literal. -/
theorem literal_of_plain {pattern : String} (h : Plain pattern) : literal pattern = pattern := by
  obtain ⟨hstar, hmark, hbracket⟩ := h
  have hself : ∀ c ∈ pattern.toList, literalChar c = [c] := by
    intro c hc
    apply if_neg
    rintro (rfl | rfl | rfl)
    · exact hstar hc
    · exact hmark hc
    · exact hbracket hc
  unfold literal
  rw [List.flatMap_def, List.map_congr_left hself, ← List.flatMap_def, List.flatMap_singleton',
    String.ofList_toList]

/-- It matches itself only. -/
theorem matches_of_plain {pattern : String} (h : Plain pattern) {name : String} :
    Matches (parts pattern.toList) name.toList ↔ name = pattern := by
  rw [← matchesName_iff, ← matches_literal_iff, literal_of_plain h]

end Text.Glob

/-! ## Additions -/

/-- Something that is added to suppressions. -/
inductive Addition where
  /-- An identifier, for all files. -/
  | everywhere (id : String)
  /-- An identifier, for the files that a pattern covers. -/
  | inFiles (id pattern : String)
  deriving DecidableEq, Repr

/-- An addition silences an identifier in a file: it is for that identifier or for all, and if it
has a pattern, the file ends with the pattern or matches it. -/
def Addition.Silences (id file : String) : Addition → Prop
  | .everywhere added => added = id ∨ added = everyId
  | .inFiles added pattern => (added = id ∨ added = everyId) ∧
      (pattern.toList <:+ file.toList ∨
        Text.Glob.Matches (Text.Glob.parts pattern.toList) file.toList)

namespace Suppressions

/-- The suppressions with one more addition. -/
def add (s : Suppressions) : Addition → Suppressions
  | .everywhere id => s.addEverywhere id
  | .inFiles id pattern => s.addInFiles id pattern

/-- The suppressions after some additions, from the first to the last. -/
def ofAdditions (additions : List Addition) : Suppressions :=
  additions.foldl add {}

/-- The groups hold what was added: an identifier is in the group of a pattern exactly if it was
added under the pattern. Nothing is held twice, and no group is empty. -/
structure Grouped (s : Suppressions) (additions : List Addition) : Prop where
  everywhere : ∀ id, id ∈ s.everywhere ↔ .everywhere id ∈ additions
  under : ∀ pattern id, id ∈ s.under pattern ↔ .inFiles id pattern ∈ additions
  everywhere_nodup : s.everywhere.Nodup
  under_nodup : ∀ pattern, (s.under pattern).Nodup
  nonempty : ∀ g ∈ s.inFiles, g.2 ≠ []

/-- Nothing is suppressed in the beginning. -/
theorem grouped_none : Grouped {} [] where
  everywhere id := by simp
  under pattern id := by simp [Suppressions.under]
  everywhere_nodup := List.nodup_nil
  under_nodup _ := List.nodup_nil
  nonempty g hg := by cases hg

/-- An addition under a pattern changes the group of this pattern only. -/
theorem under_addInFiles (s : Suppressions) (id pattern other : String) :
    (s.addInFiles id pattern).under other
      = if other = pattern then nameOnce (s.under pattern) id else s.under other := by
  show ((Assoc.put pattern _ s.inFiles).lookup other).getD [] = _
  rw [Assoc.lookup_put]
  by_cases h : other = pattern
  · simp [h]
  · simp only [beq_iff_eq, h, if_false]
    rfl

/-- A list to which a name was added is not empty. -/
theorem nameOnce_ne_nil (names : List String) (name : String) : nameOnce names name ≠ [] :=
  List.ne_nil_of_mem (mem_nameOnce.mpr (.inr rfl))

/-- **The step.** One more addition, everywhere or under a pattern, new or known. -/
theorem Grouped.add {s : Suppressions} {additions : List Addition} (h : Grouped s additions)
    (a : Addition) : Grouped (s.add a) (additions ++ [a]) := by
  cases a with
  | everywhere added =>
    refine ⟨fun id => ?_, fun pattern id => ?_, nodup_nameOnce h.everywhere_nodup added,
      h.under_nodup, h.nonempty⟩
    · show id ∈ nameOnce s.everywhere added ↔ _
      rw [mem_nameOnce, h.everywhere, List.mem_append, List.mem_singleton,
        Addition.everywhere.injEq]
    · show id ∈ s.under pattern ↔ _
      simp [h.under]
  | inFiles added pattern =>
    refine ⟨fun id => ?_, fun other id => ?_, h.everywhere_nodup, fun other => ?_, fun g hg => ?_⟩
    · show id ∈ s.everywhere ↔ _
      simp [h.everywhere]
    · show id ∈ (s.addInFiles added pattern).under other ↔ _
      rw [under_addInFiles, List.mem_append, List.mem_singleton, Addition.inFiles.injEq, ← h.under]
      by_cases hother : other = pattern
      · rw [if_pos hother, mem_nameOnce, hother]
        simp
      · rw [if_neg hother]
        simp [hother]
    · show ((s.addInFiles added pattern).under other).Nodup
      rw [under_addInFiles]
      split_ifs
      · exact nodup_nameOnce (h.under_nodup pattern) added
      · exact h.under_nodup other
    · rcases Assoc.mem_put hg with rfl | hg
      · exact nameOnce_ne_nil _ _
      · exact h.nonempty g hg

/-- **The run.** -/
theorem Grouped.foldl_add (more : List Addition) {s : Suppressions} {additions : List Addition}
    (h : Grouped s additions) : Grouped (more.foldl Suppressions.add s) (additions ++ more) := by
  induction more generalizing s additions with
  | nil =>
    rw [List.append_nil]
    exact h
  | cons a rest ih =>
    rw [List.append_cons]
    exact ih (h.add a)

/-- What is suppressed is grouped after any additions. -/
theorem grouped_ofAdditions (additions : List Addition) :
    Grouped (ofAdditions additions) additions :=
  grouped_none.foldl_add additions

/-- What groups silence is what one of their additions silences. -/
theorem Grouped.silences_iff {s : Suppressions} {additions : List Addition}
    (h : Grouped s additions) (id file : String) :
    s.Silences id file ↔ ∃ a ∈ additions, a.Silences id file := by
  simp only [Silences, h.everywhere, h.under, covers_iff_suffix_or_matches]
  constructor
  · rintro (hid | hevery | ⟨pattern, hid | hevery, hfile⟩)
    · exact ⟨_, hid, .inl rfl⟩
    · exact ⟨_, hevery, .inr rfl⟩
    · exact ⟨_, hid, .inl rfl, hfile⟩
    · exact ⟨_, hevery, .inr rfl, hfile⟩
  · rintro ⟨added | ⟨added, pattern⟩, ha, hsilences⟩
    · rcases hsilences with rfl | rfl
      · exact .inl ha
      · exact .inr (.inl ha)
    · obtain ⟨rfl | rfl, hfile⟩ := hsilences
      · exact .inr (.inr ⟨pattern, .inl ha, hfile⟩)
      · exact .inr (.inr ⟨pattern, .inr ha, hfile⟩)

/-- A finding is suppressed exactly if one of the additions silences it. -/
theorem suppresses_ofAdditions (additions : List Addition) (id file : String) :
    (ofAdditions additions).suppresses id file = true ↔ ∃ a ∈ additions, a.Silences id file := by
  rw [suppresses_iff, (grouped_ofAdditions additions).silences_iff]

end Suppressions

open Suppressions

/-- **History.** After any additions to no suppressions, the groups hold what was added, and a
diagnostic is hidden exactly if one of the additions silences its identifier in its file. Two lists
with the same additions hide the same, whatever their order and repetitions. A list with more
additions hides no less. To filter by two lists of additions together is to filter by the first and
then by the second. A pattern without `*`, `?` and `[` silences in the files that end with it, and
in no others. -/
theorem hides_iff_added :
    (∀ additions : List Addition, Grouped (ofAdditions additions) additions) ∧
    (∀ (additions : List Addition) (x : Diagnostic), (ofAdditions additions).hides x = true ↔
      ∃ a ∈ additions, a.Silences x.finding.id x.location.file) ∧
    (∀ first second : List Addition, (∀ a, a ∈ first ↔ a ∈ second) →
      ∀ x : Diagnostic, (ofAdditions first).hides x = (ofAdditions second).hides x) ∧
    (∀ first second : List Addition, first ⊆ second →
      ∀ x : Diagnostic, (ofAdditions first).hides x = true → (ofAdditions second).hides x = true) ∧
    (∀ (first second : List Addition) (ds : List Diagnostic),
      (ofAdditions (first ++ second)).filter ds =
        (ofAdditions second).filter ((ofAdditions first).filter ds)) ∧
    ∀ pattern : String, Text.Glob.Plain pattern → ∀ added id file : String,
      (Addition.inFiles added pattern).Silences id file ↔
        (added = id ∨ added = everyId) ∧ pattern.toList <:+ file.toList := by
  have hides_iff : ∀ (additions : List Addition) (x : Diagnostic),
      (ofAdditions additions).hides x = true ↔
        ∃ a ∈ additions, a.Silences x.finding.id x.location.file :=
    fun additions x => suppresses_ofAdditions additions x.finding.id x.location.file
  refine ⟨grouped_ofAdditions, hides_iff, ?_, ?_, ?_, ?_⟩
  · intro first second hsame x
    rw [Bool.eq_iff_iff, hides_iff, hides_iff]
    simp only [hsame]
  · intro first second hsub x hx
    obtain ⟨a, ha, hsilences⟩ := (hides_iff first x).mp hx
    exact (hides_iff second x).mpr ⟨a, hsub ha, hsilences⟩
  · intro first second ds
    unfold Suppressions.filter
    rw [List.filter_filter]
    refine List.filter_congr fun x _ => ?_
    -- to pass both filters is to be hidden by neither list
    rw [← Bool.not_or, Bool.not_inj_iff, Bool.eq_iff_iff, Bool.or_eq_true, hides_iff, hides_iff,
      hides_iff]
    simp only [List.mem_append, or_and_right, exists_or]
    exact or_comm
  · intro pattern hplain added id file
    apply and_congr_right
    intro _
    rw [Text.Glob.matches_of_plain hplain]
    -- a file that is the pattern ends with it, so the match adds nothing
    apply or_iff_left_of_imp
    rintro rfl
    exact List.suffix_refl _

/-- An unknown attribute in a file whose name ends with a pattern. -/
def inFolder : Diagnostic :=
  { finding := .unknown, data := [("name", "id")], location := { file := "src/a.jsx" } }

/-- It is hidden by a suppression of everything under the pattern, and as well if something else is
added before, between and behind. -/
theorem hides_iff_added_repeated :
    (ofAdditions [.inFiles everyId "a.jsx", .everywhere "invalidPropOnTag"]).hides inFolder = true ∧
      (ofAdditions [.everywhere "invalidPropOnTag", .inFiles everyId "a.jsx",
        .everywhere "invalidPropOnTag", .inFiles everyId "a.jsx"]).hides inFolder = true ∧
      ¬ (Addition.inFiles everyId "a.jsx").Silences "unknownProp" "src/a.js" := by
  obtain ⟨-, hiff, hsame, -, -, hplain⟩ := hides_iff_added
  have hpattern : Text.Glob.Plain "a.jsx" := by
    unfold Text.Glob.Plain
    decide
  have honce : (ofAdditions [.inFiles everyId "a.jsx", .everywhere "invalidPropOnTag"]).hides
      inFolder = true := by
    apply (hiff _ _).mpr
    refine ⟨_, List.mem_cons_self, (hplain "a.jsx" hpattern _ _ _).mpr ⟨.inr rfl, ?_⟩⟩
    exact ⟨"src/".toList, rfl⟩
  refine ⟨honce, ?_, ?_⟩
  · rw [← honce]
    apply hsame
    intro a
    simp only [List.mem_cons, List.not_mem_nil, or_false]
    tauto
  · rw [hplain "a.jsx" hpattern]
    decide

end AttributeLint

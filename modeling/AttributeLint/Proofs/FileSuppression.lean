import AttributeLint.Proofs.Merging
import AttributeLint.Proofs.Pipeline

/-!
# Which file a suppression looks at

A run is told the file that its elements come from, and every attribute carries a file of its own in
its location. Suppressions by file look at the latter. Where the two are the same nothing can be
told apart; where they are not, some suppression shows it.

* `Suppressions.inGroup_iff`: what the loop over the groups of suppressions finds.
* `Suppressions.suppresses_iff`: what it means that a finding is suppressed in a file.
* `Text.Glob.matches_literal_iff`: every name has a pattern that matches no other name, and so any
  two files are told apart by a pattern (`Suppressions.exists_covers_ne`).
* `Runner.reportedUnder_eq_filter`: a run reports what is found and not suppressed in the file of
  its own location.
* **Files of a run** (`reportedUnder_file_iff`): the file of the run decides, for all suppressions,
  exactly if everything that is found lies in it. For the file objects of a document it does.
-/

namespace AttributeLint

/-! ## Patterns for one name -/

namespace Text.Glob

/-- A character as a pattern for itself: in brackets, if it has a meaning outside of them. -/
def literalChar (c : Char) : List Char :=
  if c = '*' ∨ c = '?' ∨ c = '[' then ['[', c, ']'] else [c]

/-- The pattern that matches one name and no other. -/
def literal (name : String) : String :=
  String.ofList (name.toList.flatMap literalChar)

/-- A set of one character, if that is none of those that mean something inside a set. -/
theorem parts_bracketed {c : Char} (hbang : c ≠ '!') (hclose : c ≠ ']') (rest : List Char) :
    parts ('[' :: c :: ']' :: rest) = .one (onlyChar c) :: parts rest := by
  have hbody : setBody? (c :: ']' :: rest) = some ([c], rest) := by
    simp [setBody?, hbang, hclose]
  have hset : charSet [c] = onlyChar c := by
    have hcut : cutRanges 1 [c] = [[c]] := by
      rw [cutRanges]
      rfl
    simp [charSet, hbang, hcut, keepFinalHyphen, dropEmptyRanges, rangesBetween, onlyChar]
  rw [parts]
  simp only [Char.reduceEq, if_false, if_true]
  split
  · rename_i body after hsome
    rw [hbody] at hsome
    cases hsome
    rw [hset]
  · rename_i hnone
    rw [hbody] at hnone
    cases hnone

/-- A literal pattern has one part for each character. -/
theorem parts_literal (cs : List Char) :
    parts (cs.flatMap literalChar) = cs.map fun c => .one (onlyChar c) := by
  induction cs with
  | nil => rw [List.flatMap_nil, parts, List.map_nil]
  | cons c rest ih =>
    rw [List.flatMap_cons, List.map_cons, ← ih]
    unfold literalChar
    split_ifs with hspecial
    · apply parts_bracketed
      · rintro rfl
        simp at hspecial
      · rintro rfl
        simp at hspecial
    · obtain ⟨hstar, hmark, hbracket⟩ : c ≠ '*' ∧ c ≠ '?' ∧ c ≠ '[' := by
        simpa [not_or] using hspecial
      rw [List.singleton_append, parts]
      simp only [hstar, hmark, hbracket, if_false]

/-- Such a part has the one character. -/
theorem contains_onlyChar {c x : Char} : (onlyChar c).contains x = true ↔ x = c := by
  simp [onlyChar, CharSet.contains]

/-- A literal pattern matches its name only. -/
theorem matches_literal_iff {name other : String} :
    matchesName (literal name) other = true ↔ other = name := by
  have hchars : ∀ cs ds : List Char,
      Matches (cs.map fun c => .one (onlyChar c)) ds ↔ ds = cs := by
    intro cs
    induction cs with
    | nil => exact fun ds => matches_nil_iff
    | cons c rest ih =>
      intro ds
      constructor
      · intro h
        cases h with
        | one hc h => rw [contains_onlyChar.mp hc, (ih _).mp h]
      · rintro rfl
        exact .one (contains_onlyChar.mpr rfl) ((ih _).mpr rfl)
  rw [matchesName_iff, literal, String.toList_ofList, parts_literal, hchars, String.toList_inj]

/-- It is no shorter than its name. -/
theorem length_le_literal (cs : List Char) : cs.length ≤ (cs.flatMap literalChar).length := by
  induction cs with
  | nil => exact Nat.le_refl _
  | cons c rest ih =>
    have hone : 1 ≤ (literalChar c).length := by
      unfold literalChar
      split_ifs <;> simp
    rw [List.flatMap_cons, List.length_append, List.length_cons]
    omega

/-- A pattern as long as its name is the name. -/
theorem eq_of_length_literal {cs : List Char}
    (h : (cs.flatMap literalChar).length = cs.length) : cs.flatMap literalChar = cs := by
  induction cs with
  | nil => rfl
  | cons c rest ih =>
    have hrest := length_le_literal rest
    rw [List.flatMap_cons, List.length_append, List.length_cons] at h
    by_cases hspecial : c = '*' ∨ c = '?' ∨ c = '['
    · have hthree : (literalChar c).length = 3 := by simp [literalChar, hspecial]
      omega
    · have hself : literalChar c = [c] := if_neg hspecial
      rw [hself, List.length_singleton] at h
      rw [List.flatMap_cons, hself, List.singleton_append, ih (by omega)]

end Text.Glob

/-! ## What is suppressed -/

namespace Suppressions

/-- A pattern covers a file that it equals, that ends with it, or that it matches. -/
def Covers (pattern file : String) : Prop :=
  pattern = file ∨ pattern.toList <:+ file.toList ∨
    Text.Glob.Matches (Text.Glob.parts pattern.toList) file.toList

/-- An identifier is silenced in a file: it, or the one that stands for all, is suppressed
everywhere or under a pattern that covers the file. -/
def Silences (s : Suppressions) (id file : String) : Prop :=
  id ∈ s.everywhere ∨ everyId ∈ s.everywhere ∨
    ∃ pattern, (id ∈ s.under pattern ∨ everyId ∈ s.under pattern) ∧ Covers pattern file

/-- The check decides whether a pattern covers a file. -/
theorem fileCovers_iff {pattern file : String} :
    fileCovers pattern file = true ↔ Covers pattern file := by
  rw [fileCovers, Bool.or_eq_true, Bool.or_eq_true, beq_iff_eq, List.isSuffixOf_iff_suffix,
    Text.Glob.matchesName_iff, or_assoc]
  rfl

/-- A file that a pattern equals ends with it, so the first of the three rules adds nothing. -/
theorem covers_iff_suffix_or_matches {pattern file : String} :
    Covers pattern file ↔ pattern.toList <:+ file.toList ∨
      Text.Glob.Matches (Text.Glob.parts pattern.toList) file.toList := by
  constructor
  · rintro (rfl | h)
    · exact .inl (List.suffix_refl _)
    · exact h
  · exact .inr

/-- Identifiers stand for a finding exactly if its own or the general one is among them. -/
theorem idsCover_iff {ids : List String} {id : String} :
    idsCover ids id = true ↔ id ∈ ids ∨ everyId ∈ ids := by
  simp [idsCover]

/-- **The loop over the groups.** It finds a group that names the identifier, or all, and whose
pattern covers the file, wherever that group stands. -/
theorem inGroup_iff {id file : String} (groups : List (String × List String)) :
    inGroup id file groups = true ↔
      ∃ g ∈ groups, (id ∈ g.2 ∨ everyId ∈ g.2) ∧ Covers g.1 file := by
  induction groups with
  | nil => simp [inGroup]
  | cons g rest ih =>
    rw [List.exists_mem_cons_iff, ← ih, ← idsCover_iff, ← fileCovers_iff, inGroup]
    -- the group is passed over, decides, or has no say in the file
    rcases idsCover g.2 id with _ | _
    · simp
    · rcases fileCovers g.1 file with _ | _ <;> simp

/-- What is suppressed under a pattern is in its group, since a pattern has one group only. -/
theorem mem_under_iff {s : Suppressions} {id pattern : String} :
    id ∈ s.under pattern ↔ ∃ ids, (pattern, ids) ∈ s.inFiles ∧ id ∈ ids := by
  unfold under
  constructor
  · intro h
    rcases hlookup : s.inFiles.lookup pattern with _ | ids
    · rw [hlookup] at h
      cases h
    · rw [hlookup] at h
      exact ⟨ids, Assoc.mem_of_lookup hlookup, h⟩
  · rintro ⟨ids, hgroup, hid⟩
    rw [Assoc.lookup_of_mem s.patterns_nodup hgroup]
    exact hid

/-- What is suppressed is what the groups and the general identifiers silence. -/
theorem suppresses_iff (s : Suppressions) (id file : String) :
    s.suppresses id file = true ↔ s.Silences id file := by
  have hfiles : inGroup id file s.inFiles = true ↔
      ∃ pattern, (id ∈ s.under pattern ∨ everyId ∈ s.under pattern) ∧ Covers pattern file := by
    simp only [inGroup_iff, mem_under_iff]
    constructor
    · rintro ⟨⟨pattern, ids⟩, hgroup, hid, hcovers⟩
      exact ⟨pattern, hid.imp (fun h => ⟨ids, hgroup, h⟩) fun h => ⟨ids, hgroup, h⟩, hcovers⟩
    · rintro ⟨pattern, ⟨ids, hgroup, hid⟩ | ⟨ids, hgroup, hid⟩, hcovers⟩
      · exact ⟨_, hgroup, .inl hid, hcovers⟩
      · exact ⟨_, hgroup, .inr hid, hcovers⟩
  unfold suppresses Silences
  rw [← hfiles, ← or_assoc, ← idsCover_iff]
  rcases idsCover s.everywhere id with _ | _ <;> simp

instance (s : Suppressions) (id file : String) : Decidable (s.Silences id file) :=
  decidable_of_iff _ (s.suppresses_iff id file)

/-- Filtering drops what is silenced in its own file. -/
theorem filter_eq (s : Suppressions) (ds : List Diagnostic) :
    s.filter ds = ds.filter fun x => ¬ s.Silences x.finding.id x.location.file := by
  unfold Suppressions.filter hides
  refine List.filter_congr fun x _ => ?_
  rw [Bool.eq_iff_iff, Bool.not_eq_true', ← Bool.not_eq_true, suppresses_iff, decide_eq_true_eq]

/-- Of two files, the longer one has a pattern that does not cover the other. -/
theorem covers_literal {file other : String} (hlength : other.length ≤ file.length)
    (h : Covers (Text.Glob.literal file) other) : other = file := by
  have hsuffix : (Text.Glob.literal file).toList <:+ other.toList → other = file := by
    intro hs
    rw [Text.Glob.literal, String.toList_ofList] at hs
    have hle := Text.Glob.length_le_literal file.toList
    have hge := hs.length_le
    rw [← String.length_toList, ← String.length_toList] at hlength
    have hsame : file.toList.flatMap Text.Glob.literalChar = file.toList :=
      Text.Glob.eq_of_length_literal (by omega)
    rw [hsame] at hs
    exact String.toList_inj.mp (hs.eq_of_length (by omega)).symm
  rcases h with h | h | h
  · exact hsuffix (h ▸ List.suffix_refl _)
  · exact hsuffix h
  · exact Text.Glob.matches_literal_iff.mp (Text.Glob.matchesName_iff.mpr h)

/-- Any two files are told apart by a pattern. -/
theorem exists_covers_ne {file other : String} (h : file ≠ other) :
    ∃ pattern, ¬ (Covers pattern file ↔ Covers pattern other) := by
  have hown : ∀ f, Covers (Text.Glob.literal f) f := fun f =>
    .inr (.inr (Text.Glob.matchesName_iff.mp (Text.Glob.matches_literal_iff.mpr rfl)))
  rcases Nat.le_total other.length file.length with hle | hle
  · exact ⟨_, fun hsame => h (covers_literal hle (hsame.mp (hown file))).symm⟩
  · exact ⟨_, fun hsame => h (covers_literal hle (hsame.mpr (hown other)))⟩

/-- A suppression of one identifier under one pattern. -/
theorem silences_single {id pattern file : String} :
    Silences (addInFiles {} id pattern) id file ↔ Covers pattern file := by
  have heverywhere : (addInFiles {} id pattern).everywhere = [] := rfl
  have hgroups : (addInFiles {} id pattern).inFiles = [(pattern, [id])] := rfl
  simp [Silences, mem_under_iff, heverywhere, hgroups]

end Suppressions

/-! ## What is found -/

/-- Attributes are judged in order, each once. -/
theorem map_fst_judgeAll {o : Options} {v : Vocabulary} {c : Context} {as : List Attribute}
    {judged : List (Attribute × Verdict)} (h : judgeAll o v c as = .ok judged) :
    judged.map Prod.fst = as := by
  induction as generalizing judged with
  | nil =>
    cases h
    rfl
  | cons a rest ih =>
    unfold judgeAll at h
    rcases hone : judge o v c (.named a) with f | r
    · rw [hone] at h
      cases h
    · rcases hrest : judgeAll o v c rest with f | more
      · rw [hone, hrest] at h
        cases h
      · rw [hone, hrest] at h
        cases h
        rw [List.map_cons, ih hrest]

/-- The evidence of a survey is about attributes of the elements, also if it ended early. -/
theorem exists_of_mem_evidence {o : Options} {v : Vocabulary} {elements : List Element}
    {x : Evidence} (hx : x ∈ (surveyAttributes o v elements).evidence) :
    ∃ e ∈ elements, x.subject ∈ e.attributes := by
  induction elements with
  | nil => cases hx
  | cons e rest ih =>
    have hlater : x ∈ (surveyAttributes o v rest).evidence →
        ∃ e' ∈ e :: rest, x.subject ∈ e'.attributes := by
      intro h
      obtain ⟨e', he', hsubject⟩ := ih h
      exact ⟨e', List.mem_cons_of_mem _ he', hsubject⟩
    unfold surveyAttributes at hx
    split_ifs at hx with hcomponent
    · exact hlater hx
    · rcases hjudged : e.verdicts o v with f | judged
      · rw [hjudged] at hx
        cases hx
      · rw [hjudged] at hx
        rcases List.mem_append.mp hx with hx | hx
        · obtain ⟨j, hj, rfl⟩ := List.mem_map.mp hx
          unfold Element.verdicts at hjudged
          rw [if_neg hcomponent] at hjudged
          refine ⟨e, List.mem_cons_self, ?_⟩
          rw [← map_fst_judgeAll hjudged]
          exact List.mem_map_of_mem hj
        · exact hlater hx

namespace Runner

variable (o : Options) (v : Vocabulary) (clock : Clock)

/-- What the standard checkers report of elements that are said to come from a file. -/
def reportedUnder (s : Suppressions) (elements : List Element) (file : String) :
    Except Fault (List Diagnostic) :=
  (({ suppressions := s, options := o, vocabulary := v, clock := clock } : Runner).run
    ⟨elements, file, none⟩).map Results.diagnostics

/-- What is reported is what a survey finds, filtered. -/
theorem reportedUnder_eq_survey (s : Suppressions) (elements : List Element) (file : String) :
    reportedUnder o v clock s elements file =
      match (surveyAttributes o v elements).fault with
      | some f => .error f
      | none => .ok (s.filter
          ((surveyAttributes o v elements).evidence.filterMap Checker.standard.diagnosis)) := by
  unfold reportedUnder
  rw [run_standard rfl]
  unfold ofSurvey
  rcases (surveyAttributes o v elements).fault with _ | f <;> rfl

/-- A run reports what a run without suppressions does and is not suppressed in its own file. -/
theorem reportedUnder_eq_filter (elements : List Element) (file : String) (s : Suppressions) :
    reportedUnder o v clock s elements file =
      (reportedUnder o v clock {} elements file).map
        (List.filter fun x => ¬ s.Silences x.finding.id x.location.file) := by
  rw [reportedUnder_eq_survey, reportedUnder_eq_survey]
  rcases (surveyAttributes o v elements).fault with _ | f
  · simp only [Suppressions.filter_none, ← Suppressions.filter_eq, Except.map]
  · rfl

/-- What is found is located where an attribute of the elements is. -/
theorem exists_location_of_reported {elements : List Element} {file : String}
    {all : List Diagnostic} (h : reportedUnder o v clock {} elements file = .ok all)
    {x : Diagnostic} (hx : x ∈ all) :
    ∃ e ∈ elements, ∃ a ∈ e.attributes, x.location = a.location := by
  rw [reportedUnder_eq_survey] at h
  rcases hfault : (surveyAttributes o v elements).fault with _ | f
  · rw [hfault] at h
    cases h
    rw [Suppressions.filter_none] at hx
    obtain ⟨evidence, hmem, hword⟩ := List.mem_filterMap.mp hx
    obtain ⟨e, he, hsubject⟩ := exists_of_mem_evidence hmem
    exact ⟨e, he, evidence.subject, hsubject, (Diagnostic.subject_ofVerdict hword).1⟩
  · rw [hfault] at h
    cases h

end Runner

open Runner

/-- **Files of a run.** Take any options, vocabulary and elements. Whatever is suppressed, a run
reports, in order, what the run without suppressions reports and is not silenced in the file that
the diagnostic itself names. It is the file of the run that decides, for all suppressions, exactly
if every diagnostic of the run without suppressions names that file. The file objects of a document
are such. Over a built vocabulary there is always a report. -/
theorem reportedUnder_file_iff (o : Options) (v : Vocabulary) (clock : Clock) :
    (∀ (elements : List Element) (file : String) (s : Suppressions),
      reportedUnder o v clock s elements file =
        (reportedUnder o v clock {} elements file).map
          (List.filter fun x => ¬ s.Silences x.finding.id x.location.file)) ∧
    (∀ (elements : List Element) (file : String),
      (∀ s : Suppressions, reportedUnder o v clock s elements file =
        (reportedUnder o v clock {} elements file).map
          (List.filter fun x => ¬ s.Silences x.finding.id file)) ↔
      ∀ all, reportedUnder o v clock {} elements file = .ok all →
        ∀ x ∈ all, x.location.file = file) ∧
    (∀ (limits : Limits) (document : Json) (dump : Dump), Dump.ofJson limits document = .ok dump →
      ∀ f ∈ dump.files, ∀ s : Suppressions, reportedUnder o v clock s f.elements f.file =
        (reportedUnder o v clock {} f.elements f.file).map
          (List.filter fun x => ¬ s.Silences x.finding.id f.file)) ∧
    ∀ d : Declarations, d.build = .ok v → ∀ (elements : List Element) (file : String)
      (s : Suppressions), ∃ reported, reportedUnder o v clock s elements file = .ok reported := by
  have hiff : ∀ (elements : List Element) (file : String),
      (∀ s : Suppressions, reportedUnder o v clock s elements file =
        (reportedUnder o v clock {} elements file).map
          (List.filter fun x => ¬ s.Silences x.finding.id file)) ↔
      ∀ all, reportedUnder o v clock {} elements file = .ok all →
        ∀ x ∈ all, x.location.file = file := by
    intro elements file
    constructor
    · intro hfile all hall x hx
      by_contra hne
      -- a suppression of just this finding, under a pattern that tells the two files apart
      obtain ⟨pattern, hpattern⟩ := Suppressions.exists_covers_ne hne
      have hsame := hfile (Suppressions.addInFiles {} x.finding.id pattern)
      rw [reportedUnder_eq_filter, hall] at hsame
      have hlists := congrArg (x ∈ ·) (Except.ok.inj hsame)
      simp only [List.mem_filter, hx, true_and, decide_eq_true_eq,
        Suppressions.silences_single, eq_iff_iff, not_iff_not] at hlists
      exact hpattern hlists
    · intro hfile s
      rw [reportedUnder_eq_filter]
      rcases hall : reportedUnder o v clock {} elements file with f | all
      · rfl
      · refine congrArg Except.ok (List.filter_congr fun x hx => ?_)
        rw [hfile all hall x hx]
  refine ⟨reportedUnder_eq_filter o v clock, hiff, ?_, ?_⟩
  · intro limits document dump hdump f hf
    rw [hiff]
    intro all hall x hx
    obtain ⟨e, he, a, ha, hlocation⟩ := exists_location_of_reported o v clock hall hx
    obtain ⟨record, -, hrecord⟩ := (Dump.ofJson_eq_ok_iff.mp hdump).exists_record hf he ha
    cases hrecord with
    | named _ _ _ _ hplace => rw [hlocation, hplace.file]
  · intro d hd elements file s
    unfold reportedUnder
    rw [run_of_build (d := d) rfl hd]
    exact ⟨_, rfl⟩

/-- An unknown attribute whose location names no file, in a run over a file: a suppression in that
file has no effect on it. In a run over no file it has the effect that it should have. -/
theorem reportedUnder_file_iff_nameless :
    ∃ v x, Declarations.few.build = .ok v ∧
      reportedUnder {} v {} (Suppressions.addInFiles {} "unknownProp" "a.jsx") [identified] "a.jsx"
        = .ok [x] ∧
      (Suppressions.addInFiles {} "unknownProp" "a.jsx").Silences x.finding.id "a.jsx" ∧
      (∀ s : Suppressions, reportedUnder {} v {} s [identified] "" =
        (reportedUnder {} v {} {} [identified] "").map
          (List.filter fun x => ¬ s.Silences x.finding.id "")) ∧
      ¬ ∀ s : Suppressions, reportedUnder {} v {} s [identified] "a.jsx" =
        (reportedUnder {} v {} {} [identified] "a.jsx").map
          (List.filter fun x => ¬ s.Silences x.finding.id "a.jsx") := by
  obtain ⟨v, hv⟩ : ∃ v, Declarations.few.build = .ok v := ⟨_, rfl⟩
  obtain ⟨hown, hiff, -, -⟩ := reportedUnder_file_iff {} v {}
  let x : Diagnostic := { finding := .unknown, data := [("name", "id")] }
  have hall : ∀ file, reportedUnder {} v {} {} [identified] file = .ok [x] := by
    intro file
    unfold reportedUnder
    rw [run_of_build (d := .few) rfl hv]
    simp only [Except.map, Suppressions.filter_none]
    rfl
  refine ⟨v, x, hv, ?_, by decide, (hiff _ _).mpr ?_, fun h => ?_⟩
  · have hliteral : Text.Glob.literal "a.jsx" = "a.jsx" := by decide
    have huncovered : ¬ Suppressions.Covers "a.jsx" "" := by
      intro h
      rw [← hliteral] at h
      exact absurd (Suppressions.covers_literal (by decide) h) (by decide)
    have hloud : ¬ (Suppressions.addInFiles {} x.finding.id "a.jsx").Silences x.finding.id
        x.location.file := fun h => huncovered (Suppressions.silences_single.mp h)
    rw [hown, hall]
    exact congrArg Except.ok (List.filter_cons_of_pos (decide_eq_true hloud))
  · intro all h y hy
    rw [hall] at h
    cases h
    rw [List.mem_singleton.mp hy]
  · have hfile := (hiff _ _).mp h [x] (hall "a.jsx") x (List.mem_singleton.mpr rfl)
    exact absurd hfile (by decide)

end AttributeLint

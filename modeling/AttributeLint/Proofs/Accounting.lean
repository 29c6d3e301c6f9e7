import AttributeLint.Proofs.Merging
import AttributeLint.Proofs.Session

/-!
# What becomes of every attribute

A run over a dump counts the elements that it passes over and the attributes that it judges, file by
file; what it reports is filtered apart from that. In the end the books balance: an attribute that
was judged was accepted, or its diagnostic was reported, or it was suppressed.

* `Runner.runDump_agrees_run`: a run over a dump is a run over the elements of all its files.
* `length_evidence`: evidence is accepted or worded, and what is worded is reported or suppressed.
* `forall₂_filter_filterMap`: what is reported, in order, each beside its own evidence.
* **Accounting** (`runDump_accounts`): the counts of a dump, the balance, and what the reported
  diagnostics say.
-/

namespace AttributeLint

open Declarations

/-! ## Elements of a dump -/

/-- The element has a tag, and an intrinsic one. -/
def Element.isIntrinsic (e : Element) : Bool :=
  e.tag.any isIntrinsicTag

/-- An element is a component exactly if its tag is not an intrinsic one. -/
theorem Element.component_eq (e : Element) : e.context.component = !e.isIntrinsic := by
  rw [e.context_eq]
  rfl

namespace Dump

/-- The elements of all files, in order. -/
def elements (d : Dump) : List Element :=
  d.files.flatMap FileDump.elements

/-- The attributes to be judged, each in its context, in the order of files, elements and
attributes: those of intrinsic elements that have a name. -/
def subjects (d : Dump) : List (Context × Attribute) :=
  (d.elements.filter Element.isIntrinsic).flatMap fun e => e.attributes.map fun a => (e.context, a)

end Dump

/-- A run over a dump with a file is a run over the elements of all files, times aside. -/
theorem Runner.runDump_agrees_run {r : Runner} (hreg : r.registry = .standard) {dump : Dump}
    (hne : dump.files ≠ []) :
    Results.Agree (r.runDump dump none) (r.run ⟨dump.elements, "", none⟩) := by
  obtain ⟨files⟩ := dump
  show Results.Agree (r.runFiles none {} files)
    (r.run ⟨files.flatMap FileDump.elements, "", none⟩)
  induction files with
  | nil => exact absurd rfl hne
  | cons f rest ih =>
    have hone : Results.Agree (r.runFiles none {} [f]) (r.run ⟨f.elements, "", none⟩) := by
      have hrun : r.run (requestFor none f) = r.run ⟨f.elements, "", none⟩ := by
        rw [run_standard hreg]
        exact run_standard hreg f.elements f.file
      refine Results.Agree.trans ?_ (mergeRuns_empty_run hreg f.elements "")
      rw [runFiles_cons, hrun]
      rcases r.run ⟨f.elements, "", none⟩ with g | x <;> rfl
    have hsplit := runFiles_append none [f] rest r {}
    rw [List.singleton_append] at hsplit
    rw [List.flatMap_cons]
    rcases rest with _ | ⟨f', rest⟩
    · have hlast := hsplit.trans (hone.mergeRuns (.refl (.ok {})))
      rwa [Results.mergeRuns_empty, ← List.append_nil f.elements] at hlast
    · exact (hsplit.trans (hone.mergeRuns (ih (by simp)))).trans (run_append hreg _ _ "").symm

/-! ## Evidence and diagnostics -/

section evidence

variable {d : Declarations} {v : Vocabulary} (o : Options)

/-- What is judged in elements, read from the declarations. -/
def Declarations.evidence (d : Declarations) (o : Options) (elements : List Element) :
    List Evidence :=
  elements.flatMap fun e => evidenceOf e.context (d.judgements o e)

/-- The evidence is about the attributes to be judged, in order. -/
theorem map_subject_evidence (dump : Dump) :
    (d.evidence o dump.elements).map (fun j => (j.context, j.subject)) = dump.subjects := by
  unfold Declarations.evidence Dump.subjects
  induction dump.elements with
  | nil => rfl
  | cons e rest ih =>
    rw [List.flatMap_cons, List.map_append, ih, List.filter_cons]
    unfold judgements
    rw [e.component_eq]
    rcases e.isIntrinsic with _ | _
    · rfl
    · simp [evidenceOf, Function.comp_def]

/-- Each piece of evidence has the verdict on its attribute. -/
theorem judge_of_mem_evidence (h : d.build = .ok v) {elements : List Element} {j : Evidence}
    (hj : j ∈ d.evidence o elements) :
    judge o v j.context (.named j.subject) = .ok j.verdict := by
  obtain ⟨e, -, hj⟩ := List.mem_flatMap.mp hj
  obtain ⟨judged, hjudged, rfl⟩ := List.mem_map.mp hj
  have hintrinsic : e.context.component = false := by
    rw [Bool.eq_false_iff]
    intro hcomponent
    simp [judgements, hcomponent] at hjudged
  rw [judge_of_build h o hintrinsic]
  exact congrArg Except.ok (mem_judgements hjudged).2.symm

/-- Nothing is reported exactly if the verdict is good. -/
theorem isNone_diagnosis (j : Evidence) :
    (Checker.standard.diagnosis j).isNone = j.verdict.isOk := by
  show (Diagnostic.ofVerdict .warning ruleName j.context j.subject j.verdict).isNone = _
  rcases j.verdict with _ | _ | name | ⟨name, tags⟩ <;> rfl

/-- **Balance.** Evidence is accepted, or worded and then reported or suppressed. -/
theorem length_evidence (s : Suppressions) (judged : List Evidence) :
    judged.length = judged.countP (fun j => j.verdict.isOk)
      + (s.filter (judged.filterMap Checker.standard.diagnosis)).length
      + (judged.filterMap Checker.standard.diagnosis).countP s.hides := by
  have hworded : ∀ judged : List Evidence, judged.length
      = judged.countP (fun j => j.verdict.isOk)
        + (judged.filterMap Checker.standard.diagnosis).length := by
    intro judged
    induction judged with
    | nil => rfl
    | cons j rest ih =>
      have hj := isNone_diagnosis j
      rw [List.length_cons, List.countP_cons, List.filterMap_cons, ← hj, ih]
      rcases Checker.standard.diagnosis j with _ | x
      · simp only [Option.isNone_none, if_true]
        omega
      · simp only [Option.isNone_some, Bool.false_eq_true, if_false, List.length_cons]
        omega
  have hreported := (judged.filterMap Checker.standard.diagnosis).length_eq_countP_add_countP
    s.hides
  have hfilter : (s.filter (judged.filterMap Checker.standard.diagnosis)).length
      = (judged.filterMap Checker.standard.diagnosis).countP fun x => !s.hides x :=
    List.countP_eq_length_filter.symm
  have hnot : (judged.filterMap Checker.standard.diagnosis).countP (fun x => ¬ s.hides x = true)
      = (judged.filterMap Checker.standard.diagnosis).countP fun x => !s.hides x := by
    simp
  rw [hworded judged, hfilter, hreported, hnot]
  omega

end evidence

/-- What is worded and kept, each beside what it was worded from. -/
theorem forall₂_filter_filterMap {α β : Type} (word : α → Option β) (keep : β → Bool)
    (xs : List α) :
    List.Forall₂ (fun x y => word x = some y) (xs.filter fun x => (word x).any keep)
      ((xs.filterMap word).filter keep) := by
  induction xs with
  | nil => exact .nil
  | cons x rest ih =>
    rw [List.filter_cons, List.filterMap_cons]
    rcases hx : word x with _ | y
    · exact ih
    · rw [List.filter_cons, Option.any_some]
      rcases keep y with _ | _
      · exact ih
      · exact .cons hx ih

/-- The diagnostic is about the subject of the evidence: it has its name and its location, and a fix
exactly if the verdict is a rename. -/
structure Diagnostic.Tells (j : Evidence) (x : Diagnostic) : Prop where
  name : x.name = .ok j.subject.name
  location : x.location = j.subject.location
  fixable : x.fix.isSome ↔ ∃ name, j.verdict = .rename name

/-- A diagnostic tells what the evidence is about. -/
theorem Diagnostic.tells_of_diagnosis {j : Evidence} {x : Diagnostic}
    (h : Checker.standard.diagnosis j = some x) : x.Tells j := by
  have hworded : Diagnostic.ofVerdict .warning ruleName j.context j.subject j.verdict = some x := h
  obtain ⟨hlocation, hname⟩ := Diagnostic.subject_ofVerdict hworded
  refine ⟨hname, hlocation, ?_⟩
  rcases hverdict : j.verdict with _ | _ | name | ⟨name, tags⟩ <;> rw [hverdict] at hworded <;>
    cases hworded <;> simp

/-! ## A run over a dump -/

/-- All that a run over a dump reports and counts, from what is judged. -/
theorem Runner.exists_runDump_evidence {d : Declarations} {r : Runner}
    (hreg : r.registry = .standard) (h : d.build = .ok r.vocabulary) {dump : Dump}
    (hne : dump.files ≠ []) :
    ∃ results, r.runDump dump none = .ok results ∧
      results.diagnostics = r.suppressions.filter
        ((d.evidence r.options dump.elements).filterMap Checker.standard.diagnosis) ∧
      results.counts = standardCounts (dump.elements.countP fun e => !e.isIntrinsic)
        dump.subjects.length := by
  have hagree := runDump_agrees_run hreg hne
  rw [run_of_build hreg h] at hagree
  rcases hrun : r.runDump dump none with f | results
  · rw [hrun] at hagree
    cases hagree
  · rw [hrun] at hagree
    obtain ⟨hdiagnostics, -, hcounts, -⟩ :=
      Results.untimed_eq_iff.mp (Results.agree_ok_iff.mp hagree)
    refine ⟨results, rfl, ?_, ?_⟩
    · rw [hdiagnostics, Declarations.evidence, filterMap_diagnosis_evidence]
    · rw [hcounts, ← map_subject_evidence (d := d) r.options dump, List.length_map]
      simp only [Element.component_eq]
      rfl

/-- **Accounting.** Let a dump have at least one file, and take any options and suppressions. The
run over it counts the elements whose tag is missing or not intrinsic, and it counts the named
attributes of all others. Each of these has a verdict, and they are as many as the verdicts that
accept, the reported diagnostics and the suppressed ones together. The reported diagnostics are
about some of these attributes, in order and no two about the same; each has the name and the
location of its attribute, and a fix exactly if the verdict on it is a rename. -/
theorem runDump_accounts {dump : Dump} (hne : dump.files ≠ []) (o : Options) (s : Suppressions)
    (clock : Clock) :
    ∃ (results all : Results) (judged told : List Evidence),
      ({ suppressions := s, options := o, clock := clock } : Runner).runDump dump none
        = .ok results ∧
      ({ options := o, clock := clock } : Runner).runDump dump none = .ok all ∧
      results.diagnostics = s.filter all.diagnostics ∧
      results.counts.lookup "no-unknown-property_components_skipped"
        = some (dump.elements.countP fun e => !e.isIntrinsic) ∧
      results.counts.lookup "no-unknown-property_attributes_checked"
        = some dump.subjects.length ∧
      judged.map (fun j => (j.context, j.subject)) = dump.subjects ∧
      (∀ j ∈ judged, judge o .standard j.context (.named j.subject) = .ok j.verdict) ∧
      dump.subjects.length = judged.countP (fun j => j.verdict.isOk) + results.total
        + all.diagnostics.countP s.hides ∧
      told.Sublist judged ∧ List.Forall₂ Diagnostic.Tells told results.diagnostics := by
  obtain ⟨results, hrun, hreported, hcounts⟩ := Runner.exists_runDump_evidence
    (r := .ofCommand o s clock) rfl (Runner.build_ofCommand o s clock) hne
  obtain ⟨all, hall, hfound, -⟩ := Runner.exists_runDump_evidence
    (r := .ofCommand o {} clock) rfl (Runner.build_ofCommand o {} clock) hne
  rw [Runner.ofCommand_suppressions, Runner.ofCommand_options] at hreported hfound
  rw [Suppressions.filter_none] at hfound
  let judged := Vocabulary.standardDeclarations.evidence o dump.elements
  refine ⟨results, all, judged, judged.filter fun j =>
      (Checker.standard.diagnosis j).any fun x => !s.hides x, hrun, hall, ?_, ?_, ?_,
    map_subject_evidence o dump,
    fun j hj => judge_of_mem_evidence o Vocabulary.build_standard hj, ?_,
    List.filter_sublist, ?_⟩
  · rw [hreported, hfound]
  · rw [hcounts]
    rfl
  · rw [hcounts]
    rfl
  · rw [← map_subject_evidence (d := Vocabulary.standardDeclarations) o dump, List.length_map,
      Results.total, hreported, hfound]
    exact length_evidence s judged
  · rw [hreported]
    have hpairs := forall₂_filter_filterMap Checker.standard.diagnosis (fun x => !s.hides x) judged
    exact hpairs.imp fun _ _ => Diagnostic.tells_of_diagnosis

/-- Two files: a component, a spread and three attributes. -/
def mixedDump : Dump where
  files :=
    [⟨"a.jsx", [{ tag := some "App", occurrences := [.ofName "class"] }, markedPair], none⟩,
     ⟨"b.jsx", [{ tag := none }], none⟩]

/-- Two elements are passed over, and the attributes of the third are accepted, reported or
suppressed. -/
theorem runDump_accounts_mixed :
    mixedDump.files ≠ [] ∧
    ∃ (results all : Results) (judged told : List Evidence),
      ({ suppressions := { everywhere := ["unknownProp"] } } : Runner).runDump mixedDump none
        = .ok results ∧
      ({} : Runner).runDump mixedDump none = .ok all ∧
      results.counts.lookup "no-unknown-property_components_skipped" = some 2 ∧
      results.counts.lookup "no-unknown-property_attributes_checked" = some 3 ∧
      judged.map (fun j => j.subject.name) = ["poster", "is", "class"] ∧
      (∀ j ∈ judged, judge {} .standard j.context (.named j.subject) = .ok j.verdict) ∧
      3 = judged.countP (fun j => j.verdict.isOk) + results.total
        + all.diagnostics.countP (Suppressions.hides { everywhere := ["unknownProp"] }) ∧
      told.Sublist judged ∧ List.Forall₂ Diagnostic.Tells told results.diagnostics := by
  have hne : mixedDump.files ≠ [] := by simp [mixedDump]
  obtain ⟨results, all, judged, told, hrun, hall, -, hskipped, hchecked, hsubjects, hverdicts,
    hbalance, htold⟩ := runDump_accounts hne {} { everywhere := ["unknownProp"] } {}
  have hnames : judged.map (fun j => j.subject.name) = ["poster", "is", "class"] := by
    have hmapped := congrArg (List.map fun p => p.2.name) hsubjects
    rw [List.map_map] at hmapped
    exact hmapped
  exact ⟨hne, results, all, judged, told, hrun, hall, hskipped, hchecked, hnames, hverdicts,
    hbalance, htold⟩

end AttributeLint

import AttributeLint.Proofs.Judgement
import AttributeLint.Runner

/-!
# What a run reports

A run goes through the phases of a checker: a survey that gathers evidence, diagnostics made of it,
and a report of those that are not suppressed. `elementwise` is the engine without phases: it judges
one element after the other and words the verdicts.

* `surveyAttributes_of_build`: over a built vocabulary the survey finds the judgements of all
  elements in order, counts the components and is never at fault.
* `Runner.run_of_build`: all that a run with the standard checker returns.
* **Runner and engine** (`run_ofVocabulary_eq_elementwise_iff`): a runner made for a built
  vocabulary reports what the engine says over the vocabulary that the runner uses. That is the
  given one exactly when it has an entry: an empty vocabulary gives way to the standard one, and
  then the two differ on some element.
-/

namespace AttributeLint

open Declarations

/-! ## The engine without phases -/

/-- The diagnostics of an element by itself: its verdicts in words, if there is something to say. -/
def Element.diagnostics (o : Options) (v : Vocabulary) (e : Element) :
    Except Fault (List Diagnostic) :=
  (e.verdicts o v).map fun judged =>
    judged.filterMap fun j => Diagnostic.ofVerdict .warning ruleName e.context j.1 j.2

/-- The diagnostics of elements, one after the other. -/
def elementwise (o : Options) (v : Vocabulary) (elements : List Element) :
    Except Fault (List Diagnostic) :=
  (elements.mapM (Element.diagnostics o v)).map List.flatten

namespace Declarations

/-- The judgements of an element's attributes, read from the declarations; none on a component. -/
def judgements (d : Declarations) (o : Options) (e : Element) : List (Attribute × Verdict) :=
  if e.context.component then [] else e.attributes.map fun a => (a, d.verdict o e.context a.name)

/-- The diagnostics of an element, read from the declarations. -/
def findings (d : Declarations) (o : Options) (e : Element) : List Diagnostic :=
  (d.judgements o e).filterMap fun j => Diagnostic.ofVerdict .warning ruleName e.context j.1 j.2

end Declarations

/-! ## The survey -/

section survey

variable {d : Declarations} {v : Vocabulary}

/-- Attributes are judged by the declarations, each by itself. -/
theorem judgeAll_of_build (h : d.build = .ok v) (o : Options) {c : Context}
    (hc : c.component = false) :
    (as : List Attribute) →
      judgeAll o v c as = .ok (as.map fun a => (a, d.verdict o c a.name))
  | [] => rfl
  | a :: rest => by
      unfold judgeAll
      simp only [judge_of_build h o hc a, judgeAll_of_build h o hc rest, bind, Except.bind, pure,
        Except.pure, List.map_cons]

/-- The judgements of an element are those of the declarations, without a fault. -/
theorem verdicts_of_build (h : d.build = .ok v) (o : Options) (e : Element) :
    e.verdicts o v = .ok (d.judgements o e) := by
  unfold Element.verdicts judgements
  rcases hc : e.context.component with _ | _
  · exact judgeAll_of_build h o hc e.attributes
  · rfl

/-- Elements are checked by the declarations, each by itself. -/
theorem elementwise_of_build (h : d.build = .ok v) (o : Options) (elements : List Element) :
    elementwise o v elements = .ok (elements.flatMap (d.findings o)) := by
  have hone : Element.diagnostics o v = fun e => pure (d.findings o e) := by
    funext e
    unfold Element.diagnostics
    rw [verdicts_of_build h o e]
    rfl
  unfold elementwise
  rw [hone, List.mapM_pure]
  rfl

/-- **The survey.** It holds the judgements of every element in order and the number of
components. -/
theorem surveyAttributes_of_build (h : d.build = .ok v) (o : Options) :
    (elements : List Element) → surveyAttributes o v elements =
      ⟨elements.flatMap fun e => evidenceOf e.context (d.judgements o e),
        elements.countP fun e => e.context.component, none⟩
  | [] => rfl
  | e :: rest => by
      unfold surveyAttributes
      rw [surveyAttributes_of_build h o rest, verdicts_of_build h o e, List.flatMap_cons,
        List.countP_cons]
      rcases hc : e.context.component with _ | _
      · simp
      · have hnone : d.judgements o e = [] := by simp [judgements, hc]
        simp [hnone, evidenceOf]

/-- Evidence in words is what the declarations find. -/
theorem filterMap_diagnosis_evidence (o : Options) (elements : List Element) :
    (elements.flatMap fun e => evidenceOf e.context (d.judgements o e)).filterMap
        Checker.standard.diagnosis
      = elements.flatMap (d.findings o) := by
  rw [List.filterMap_flatMap]
  refine congrArg (fun f => elements.flatMap f) (funext fun e => ?_)
  unfold evidenceOf findings
  rw [List.filterMap_map]
  rfl

end survey

/-! ## A run -/

/-- Without suppressions nothing is dropped. -/
theorem Suppressions.filter_none (ds : List Diagnostic) : Suppressions.filter {} ds = ds := by
  simp [Suppressions.filter, Suppressions.hides, Suppressions.suppresses, Suppressions.idsCover,
    Suppressions.inGroup]

namespace Runner

variable {d : Declarations}

/-- The counts that a run with the standard checker sets. -/
def standardCounts (skipped checked : Nat) : Counts :=
  [(ruleName ++ "_components_skipped", skipped), (ruleName ++ "_attributes_checked", checked)]

/-- All phases of the standard checker, over a built vocabulary: no fault, and a report of what the
declarations find in the elements and is not suppressed. -/
theorem pass_of_build (scope : Scope) (h : d.build = .ok scope.vocabulary) (counts : Counts) :
    Checker.standard.pass scope counts = .ok
      { checker := ruleName
        diagnostics := scope.suppressions.filter (scope.elements.flatMap (d.findings scope.options))
        counts := Checker.setCounts counts
          (standardCounts (scope.elements.countP fun e => e.context.component)
            (scope.elements.flatMap fun e =>
              evidenceOf e.context (d.judgements scope.options e)).length) } := by
  have hsurvey : Checker.standard.survey scope counts =
      ⟨scope.elements.flatMap fun e => evidenceOf e.context (d.judgements scope.options e),
        scope.elements.countP fun e => e.context.component, none⟩ :=
    surveyAttributes_of_build h scope.options scope.elements
  unfold Checker.pass Checker.collect
  rw [hsurvey]
  simp only [Checker.diagnose, Checker.report, filterMap_diagnosis_evidence, List.nil_append]
  rfl

/-- A run in which no checker faults has the results of its passes. -/
theorem run_of_passesOf {r : Runner} {q : Request} {done : List Checker.Pass}
    (h : r.passesOf q = (done, none)) : r.run q = .ok (Results.ofPasses done) := by
  unfold run
  rw [h]

/-- Results are those of passes without a fault. -/
theorem exists_passes_of_run {r : Runner} {q : Request} {results : Results}
    (h : r.run q = .ok results) :
    ∃ done, r.passesOf q = (done, none) ∧ results = .ofPasses done := by
  unfold run at h
  rcases hpasses : r.passesOf q with ⟨done, _ | f⟩
  · rw [hpasses] at h
    cases h
    exact ⟨done, rfl, rfl⟩
  · rw [hpasses] at h
    cases h

/-- **A run with the standard checker**, over a built vocabulary: it succeeds, and reports what the
declarations find in the elements and is not suppressed. -/
theorem run_of_build {r : Runner} (hreg : r.registry = .standard) (h : d.build = .ok r.vocabulary)
    (elements : List Element) (file : String) :
    r.run ⟨elements, file, none⟩ = .ok
      { diagnostics := r.suppressions.filter (elements.flatMap (d.findings r.options))
        byChecker := [(ruleName, r.suppressions.filter (elements.flatMap (d.findings r.options)))]
        counts := standardCounts (elements.countP fun e => e.context.component)
          (elements.flatMap fun e => evidenceOf e.context (d.judgements r.options e)).length
        elapsed := [(ruleName, r.clock.lap)]
        checkers := [ruleName] } := by
  have hselect : r.select none = [Checker.standard] := by
    unfold select
    rw [hreg]
    rfl
  have hcounts : ∀ skipped checked, Checker.setCounts [] (standardCounts skipped checked)
      = standardCounts skipped checked := by
    intro skipped checked
    simp [Checker.setCounts, standardCounts, Assoc.put, ruleName]
  have hpass := pass_of_build (r.scope ⟨elements, file, none⟩) h []
  rw [hcounts] at hpass
  unfold run passesOf
  rw [hselect]
  unfold passes
  rw [hpass]
  rfl

/-- A run over a vocabulary alone reports all that is found. -/
theorem diagnostics_run_ofVocabulary {o : Options} {v : Vocabulary} (clock : Clock)
    (h : d.build = .ok (vocabularyOr v)) (elements : List Element) (file : String) :
    ((ofVocabulary o v clock).run ⟨elements, file, none⟩).map Results.diagnostics
      = .ok (elements.flatMap (d.findings o)) := by
  rw [run_of_build (d := d) rfl h elements file]
  simp only [Except.map, ofVocabulary, Suppressions.filter_none]

end Runner

/-! ## Runner and engine -/

section empty

variable {d : Declarations} {v : Vocabulary}

/-- A vocabulary has an entry exactly if a name is declared. -/
theorem entries_eq_nil_iff (h : d.build = .ok v) : v.entries = [] ↔ d.names = [] := by
  constructor
  · intro hv
    rw [List.eq_nil_iff_forall_not_mem]
    intro c hc
    obtain ⟨category, hentry⟩ := lookup_entries_of_build h hc
    rw [hv] at hentry
    cases hentry
  · intro hd
    obtain ⟨-, register, hreg, rfl⟩ := build_eq_ok_iff.mp h
    have H : Holds register d.names := by
      simpa [named_map_name] using holds_nil.declareAll d.named hreg
    rw [hd] at H
    have hnil : register = [] := by
      rw [List.eq_nil_iff_forall_not_mem]
      intro r hr
      simpa using (H.sound r hr).1
    simp [hnil]

/-- An empty vocabulary gives way to the standard one, and both are built. -/
theorem exists_build_vocabularyOr (h : d.build = .ok v) :
    ∃ d' : Declarations, d'.build = .ok (Runner.vocabularyOr v) := by
  unfold Runner.vocabularyOr
  split_ifs
  · exact ⟨_, Vocabulary.build_standard⟩
  · exact ⟨d, h⟩

/-- An element that a vocabulary without entries and the standard one judge differently. -/
def identified : Element where
  tag := some "div"
  occurrences := [.named { name := "id", name_ne := by decide }]

/-- If nothing is declared, every attribute is a finding. -/
theorem findings_identified_of_names_nil (hacc : Acceptable d) (h : d.names = []) :
    d.findings {} identified ≠ [] := by
  have hmeant : d.meant? (Name.key "id") = none := by
    rcases hm : d.meant? (Name.key "id") with _ | c
    · rfl
    · have := hacc.mem_of_meant hm
      rw [h] at this
      cases this
  have hverdict : d.verdict {} identified.context "id" = .unknown := by
    unfold verdict
    have hexempt : ¬ d.Exempt {} identified.context "id" := by
      rintro (h | h | ⟨h, -⟩ | ⟨h, -⟩)
      all_goals exact absurd h (by decide)
    rw [if_neg hexempt, if_neg (by decide), hmeant]
  have hjudged : d.judgements {} identified
      = [({ name := "id", name_ne := by decide }, d.verdict {} identified.context "id")] := rfl
  unfold findings
  rw [hjudged, hverdict]
  simp [Diagnostic.ofVerdict]

/-- In the standard vocabulary this one is none. -/
theorem findings_identified_standard :
    Vocabulary.standardDeclarations.findings {} identified = [] := by
  have hmem : "id" ∈ Vocabulary.standardDeclarations.names :=
    Vocabulary.mem_standard_of_mem_html (by simp [Vocabulary.htmlAttributes])
  have hverdict :
      Vocabulary.standardDeclarations.verdict {} identified.context "id" = .ok := by
    obtain ⟨h | ⟨tags, h⟩ | h, hunknown⟩ := verdict_of_mem_names (o := {}) (c := identified.context)
      Vocabulary.standard_coherent hmem
    · exact h
    · -- the name is restricted to no tags
      obtain ⟨htags, hne, -⟩ := verdict_misplaced h
      exact absurd htags hne
    · exact absurd (hunknown.mp h).1 (by decide)
  have hjudged : Vocabulary.standardDeclarations.judgements {} identified
      = [({ name := "id", name_ne := by decide },
          Vocabulary.standardDeclarations.verdict {} identified.context "id")] := rfl
  unfold findings
  rw [hjudged, hverdict]
  rfl

end empty

/-- **Runner and engine.** A runner made for a built vocabulary never fails, nor does the engine,
and the runner reports what the engine says over the vocabulary in use. It reports what the engine
says over the *given* vocabulary, for all options and elements, exactly if that one has an entry. -/
theorem run_ofVocabulary_eq_elementwise_iff {d : Declarations} {v : Vocabulary}
    (hv : d.build = .ok v) :
    (∀ (o : Options) (clock : Clock) (elements : List Element) (file : String),
      ∃ reported said,
        ((Runner.ofVocabulary o v clock).run ⟨elements, file, none⟩).map Results.diagnostics
            = .ok reported ∧
          elementwise o (Runner.vocabularyOr v) elements = .ok reported ∧
          elementwise o v elements = .ok said) ∧
    ((∀ (o : Options) (clock : Clock) (elements : List Element) (file : String),
        ((Runner.ofVocabulary o v clock).run ⟨elements, file, none⟩).map Results.diagnostics
          = elementwise o v elements) ↔ v.size ≠ 0) := by
  obtain ⟨d', hd'⟩ := exists_build_vocabularyOr hv
  refine ⟨fun o clock elements file =>
    ⟨_, _, Runner.diagnostics_run_ofVocabulary clock hd' elements file,
      elementwise_of_build hd' o elements, elementwise_of_build hv o elements⟩, ?_, ?_⟩
  · -- an empty vocabulary is told from the standard one by one element
    intro hagree hsize
    have hentries : v.entries = [] := List.length_eq_zero_iff.mp hsize
    have hstandard : Runner.vocabularyOr v = .standard := by
      simp [Runner.vocabularyOr, hentries]
    have hrun := hagree {} {} [identified] ""
    rw [Runner.diagnostics_run_ofVocabulary {} (hstandard ▸ Vocabulary.build_standard) _ "",
      elementwise_of_build hv] at hrun
    have heq := Except.ok.inj hrun
    rw [List.flatMap_singleton, List.flatMap_singleton, findings_identified_standard] at heq
    exact findings_identified_of_names_nil (acceptable_of_build hv)
      ((entries_eq_nil_iff hv).mp hentries) heq.symm
  · intro hsize o clock elements file
    have hused : Runner.vocabularyOr v = v := by
      have hentries : v.entries.isEmpty = false := by
        rw [List.isEmpty_eq_false_iff]
        exact fun h => hsize (List.length_eq_zero_iff.mpr h)
      simp [Runner.vocabularyOr, hentries]
    rw [Runner.diagnostics_run_ofVocabulary clock (hused.symm ▸ hv) elements file,
      elementwise_of_build hv o elements]

/-- With a few declarations runner and engine agree; without any they do not. -/
theorem run_ofVocabulary_eq_elementwise_iff_few :
    (∃ v, few.build = .ok v ∧ ∀ (o : Options) (clock : Clock) (elements : List Element)
        (file : String),
      ((Runner.ofVocabulary o v clock).run ⟨elements, file, none⟩).map Results.diagnostics
        = elementwise o v elements) ∧
    ∃ v, (Declarations.mk [] [] [] [] []).build = .ok v ∧
      ¬ ∀ (o : Options) (clock : Clock) (elements : List Element) (file : String),
        ((Runner.ofVocabulary o v clock).run ⟨elements, file, none⟩).map Results.diagnostics
          = elementwise o v elements := by
  refine ⟨⟨_, rfl, (run_ofVocabulary_eq_elementwise_iff (d := few) rfl).2.mpr ?_⟩, ⟨_, rfl, ?_⟩⟩
  · decide
  · intro hagree
    exact (run_ofVocabulary_eq_elementwise_iff (d := ⟨[], [], [], [], []⟩) rfl).2.mp hagree rfl

end AttributeLint

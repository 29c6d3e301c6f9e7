import AttributeLint.Proofs.OptionValues
import AttributeLint.Proofs.Pipeline

/-!
# Ignoring names

An ignored name is accepted before any other rule is tried, deep inside the judgement of one
attribute. Seen from outside, ignoring is a filter: the diagnostics about the name are missing, and
nothing else has changed, even where the name is the marker of its element or the spelling that a
marker exempts.

* `Declarations.verdict_ofNames_append`: further ignored names are accepted, and the verdict on any
  other name stays.
* `Declarations.findings_ofNames_append`: what is found in one element loses the diagnostics about
  the further names.
* `Runner.passes_ofNames_append`: pass by pass, the reports are filtered and the counts agree.
* **Ignoring is filtering** (`run_ofNames_append`): the same for whole runs.
-/

namespace AttributeLint

open Declarations

/-! ## One element -/

/-- Is the diagnostic about an attribute with one of the names? -/
def Diagnostic.isAbout (names : List String) (x : Diagnostic) : Bool :=
  match x.name with
  | .ok name => names.contains name
  | .error _ => false

/-- What is said of a verdict is about the attribute, so accepting an attribute in a set of names is
dropping the diagnostics about that set. -/
theorem Diagnostic.ofVerdict_accepted (severity : Severity) (rule : String) (c : Context)
    (a : Attribute) (r : Verdict) (names : List String) :
    Diagnostic.ofVerdict severity rule c a (if a.name ∈ names then .ok else r)
      = (Diagnostic.ofVerdict severity rule c a r).filter fun x => !x.isAbout names := by
  rcases hx : Diagnostic.ofVerdict severity rule c a r with _ | x
  · split_ifs
    · rfl
    · exact hx
  · have habout : x.isAbout names = decide (a.name ∈ names) := by
      unfold Diagnostic.isAbout
      rw [(Diagnostic.subject_ofVerdict hx).2]
      simp
    by_cases hname : a.name ∈ names
    · simp [Option.filter_some, Diagnostic.ofVerdict, habout, hname]
    · simp [Option.filter_some, hx, habout, hname]

namespace Declarations

variable (d : Declarations) (ignored more : List String)

/-- **One name.** A further ignored name is accepted; for all others nothing changes. -/
theorem verdict_ofNames_append (c : Context) (name : String) :
    d.verdict (.ofNames (ignored ++ more)) c name
      = if name ∈ more then .ok else d.verdict (.ofNames ignored) c name := by
  have hexempt : d.Exempt (.ofNames (ignored ++ more)) c name ↔
      name ∈ more ∨ d.Exempt (.ofNames ignored) c name := by
    unfold Exempt
    rw [Options.ignores_ofNames, Options.ignores_ofNames, List.mem_append]
    tauto
  unfold verdict
  by_cases hmore : name ∈ more
  · rw [if_pos (hexempt.mpr (.inl hmore)), if_pos hmore]
  · simp only [hexempt, hmore, false_or, if_false]

/-- Ignoring more names accepts the attributes of these names, and no other judgement changes. -/
theorem judgements_ofNames_append (e : Element) :
    d.judgements (.ofNames (ignored ++ more)) e
      = (d.judgements (.ofNames ignored) e).map fun j =>
          (j.1, if j.1.name ∈ more then .ok else j.2) := by
  -- the context, and with it the marker, is found without the options
  rw [judgements_eq_map, judgements_eq_map, List.map_map]
  apply List.map_congr_left
  intro a _
  rw [verdict_ofNames_append]
  rfl

/-- Then just the findings about these names are gone. -/
theorem findings_ofNames_append (e : Element) :
    d.findings (.ofNames (ignored ++ more)) e
      = (d.findings (.ofNames ignored) e).filter fun x => !x.isAbout more := by
  unfold findings
  rw [judgements_ofNames_append, List.filterMap_map, List.filter_filterMap]
  apply List.filterMap_congr
  intro j _
  exact Diagnostic.ofVerdict_accepted _ _ _ j.1 j.2 more

/-- So it is for a list of elements. -/
theorem flatMap_findings_ofNames_append (elements : List Element) :
    elements.flatMap (d.findings (.ofNames (ignored ++ more)))
      = (elements.flatMap (d.findings (.ofNames ignored))).filter fun x => !x.isAbout more := by
  rw [List.filter_flatMap]
  exact congrArg (fun f => elements.flatMap f)
    (funext fun e => findings_ofNames_append d ignored more e)

end Declarations

/-! ## Passes and runs -/

/-- Suppressions and other filters can change places. -/
theorem Suppressions.filter_filter (s : Suppressions) (keep : Diagnostic → Bool)
    (ds : List Diagnostic) : s.filter (ds.filter keep) = (s.filter ds).filter keep := by
  unfold Suppressions.filter
  exact List.filter_comm _ _ ds

/-- One pass reports what the other one does, without the diagnostics about some names, and leaves
the same counts. -/
structure Checker.Pass.Without (names : List String) (p p' : Checker.Pass) : Prop where
  diagnostics : p'.diagnostics = p.diagnostics.filter fun x => !x.isAbout names
  counts : p'.counts = p.counts

/-- Results of passes without certain names have the diagnostics without them, and the same
counts. -/
theorem Results.foldl_addPass_without {names : List String} {done done' : List Checker.Pass}
    (h : List.Forall₂ (Checker.Pass.Without names) done done') (r r' : Results)
    (hdiagnostics : r'.diagnostics = r.diagnostics.filter fun x => !x.isAbout names)
    (hcounts : r'.counts = r.counts) :
    (done'.foldl addPass r').diagnostics
        = (done.foldl addPass r).diagnostics.filter (fun x => !x.isAbout names) ∧
      (done'.foldl addPass r').counts = (done.foldl addPass r).counts := by
  induction h generalizing r r' with
  | nil => exact ⟨hdiagnostics, hcounts⟩
  | cons hpass _ ih =>
    apply ih
    · show r'.diagnostics ++ _ = (r.diagnostics ++ _).filter _
      rw [hdiagnostics, hpass.diagnostics, List.filter_append]
    · exact hpass.counts

namespace Runner

variable {d : Declarations}

/-- A pass of the standard checker that ignores more names is one without them. -/
theorem pass_ofNames_append (scope : Scope) (h : d.build = .ok scope.vocabulary)
    (ignored more : List String) (counts : Counts) :
    ∃ p p', Checker.standard.pass { scope with options := .ofNames ignored } counts = .ok p ∧
      Checker.standard.pass { scope with options := .ofNames (ignored ++ more) } counts = .ok p' ∧
      p.Without more p' := by
  refine ⟨_, _, pass_of_build { scope with options := .ofNames ignored } h counts,
    pass_of_build { scope with options := .ofNames (ignored ++ more) } h counts, ?_, ?_⟩
  · show scope.suppressions.filter _ = (scope.suppressions.filter _).filter _
    rw [flatMap_findings_ofNames_append, Suppressions.filter_filter]
  · -- an accepted attribute is still one that was looked at
    have hlength : ∀ e : Element,
        (evidenceOf e.context (d.judgements (.ofNames (ignored ++ more)) e)).length
          = (evidenceOf e.context (d.judgements (.ofNames ignored) e)).length := by
      intro e
      simp [evidenceOf, judgements_eq_map]
    simp only [List.length_flatMap, hlength]

/-- So are all passes of a run. -/
theorem passes_ofNames_append (scope : Scope) (h : d.build = .ok scope.vocabulary)
    (ignored more : List String) (cs : List Checker) (hcs : ∀ c ∈ cs, c = .standard)
    (clock clock' : Clock) (counts : Counts) :
    ∃ done done', passes { scope with options := .ofNames ignored } clock counts cs = (done, none) ∧
      passes { scope with options := .ofNames (ignored ++ more) } clock' counts cs
        = (done', none) ∧
      List.Forall₂ (Checker.Pass.Without more) done done' := by
  induction cs generalizing clock clock' counts with
  | nil => exact ⟨[], [], rfl, rfl, .nil⟩
  | cons c rest ih =>
    obtain ⟨rfl, hrest⟩ := List.forall_mem_cons.mp hcs
    obtain ⟨p, p', hp, hp', hpass⟩ := pass_ofNames_append scope h ignored more counts
    obtain ⟨done, done', hdone, hdone', hall⟩ :=
      ih hrest (clock.advance 2) (clock'.advance 2) p.counts
    refine ⟨_, _, ?_, ?_, .cons (a := { p with elapsed := clock.lap })
      (b := { p' with elapsed := clock'.lap }) ⟨hpass.diagnostics, hpass.counts⟩ hall⟩
    · simp only [passes, hp, hdone]
    · simp only [passes, hp', hpass.counts, hdone']

end Runner

/-- **Ignoring is filtering.** Take a built vocabulary, any suppressions, two sets of names, and any
request to the standard checkers. The run that ignores both sets reports, in order, what the run
that ignores the first set does, without the diagnostics about a name of the second. Both runs count
the same components and attributes. -/
theorem run_ofNames_append {d : Declarations} {v : Vocabulary} (hv : d.build = .ok v)
    (s : Suppressions) (ignored more : List String) (q : Request) (clock clock' : Clock) :
    ∃ before after,
      ({ suppressions := s, options := .ofNames ignored, vocabulary := Runner.vocabularyOr v,
         clock := clock } : Runner).run q = .ok before ∧
      ({ suppressions := s, options := .ofNames (ignored ++ more),
         vocabulary := Runner.vocabularyOr v, clock := clock' } : Runner).run q = .ok after ∧
      after.diagnostics = before.diagnostics.filter (fun x => !x.isAbout more) ∧
      after.counts = before.counts := by
  obtain ⟨used, hused⟩ := exists_build_vocabularyOr hv
  let scope : Scope := ⟨q.elements, q.file, {}, Runner.vocabularyOr v, s⟩
  obtain ⟨done, done', hdone, hdone', hall⟩ := Runner.passes_ofNames_append scope hused ignored more
    (({} : Runner).select q.checkers) (fun c hc => Runner.eq_standard_of_mem_select rfl hc)
    clock clock' []
  exact ⟨Results.ofPasses done, Results.ofPasses done', Runner.run_of_passesOf hdone,
    Runner.run_of_passesOf hdone', Results.foldl_addPass_without hall {} {} rfl rfl⟩

/-- The marker itself is ignored: the diagnostic about it is gone, and it still exempts `class`. -/
theorem run_ofNames_append_marker :
    ∃ v before after, few.build = .ok v ∧
      ({ options := .ofNames [], vocabulary := Runner.vocabularyOr v } : Runner).run
        ⟨[markedPair], "a.jsx", none⟩ = .ok before ∧
      ({ options := .ofNames ([] ++ [markerName]), vocabulary := Runner.vocabularyOr v } :
        Runner).run ⟨[markedPair], "a.jsx", none⟩ = .ok after ∧
      after.diagnostics = before.diagnostics.filter (fun x => !x.isAbout [markerName]) ∧
      after.counts = before.counts ∧
      before.diagnostics.map Diagnostic.finding = [.misplaced, .unknown] ∧
      after.diagnostics.map Diagnostic.finding = [.misplaced] := by
  obtain ⟨before, after, hbefore, hafter, hfilter, hcounts⟩ :=
    run_ofNames_append (d := few) rfl {} [] [markerName] ⟨[markedPair], "a.jsx", none⟩ {} {}
  have hall : before.diagnostics = few.findings (.ofNames []) markedPair := by
    rw [Runner.run_of_build (d := few) rfl rfl] at hbefore
    rw [← Except.ok.inj hbefore]
    simp [Suppressions.filter_none]
  refine ⟨_, before, after, rfl, hbefore, hafter, hfilter, hcounts, ?_, ?_⟩
  · rw [hall]
    decide
  · rw [hfilter, hall]
    decide

end AttributeLint

import AttributeLint.Proofs.DumpFormat
import AttributeLint.Proofs.Locality
import AttributeLint.Proofs.Rendering
import AttributeLint.Report.Ansi

/-!
# From a document to a report

A document that is accepted goes through judgement, wording and rendering. Each stage has guards
against what it cannot deal with, and the stages before it keep all but two of them from acting: a
place that is too long to be written, and a column that blanks cannot be counted out to.

* `Runner.exists_runFiles`: a run over files, with the standard checker selected any number of
  times, succeeds, and reports what the declarations find in each file and is not suppressed.
* `Runner.exists_finding_of_runDump`: so what is reported was found in an element.
* `exists_record_of_mem_findings`: what is reported is about an attribute record of the document,
  and can be written if the document can be shown (`writable_of_mem_findings`).
* **Pipeline** (`runDump_renders`): an accepted document is checked without a fault. What is
  reported can be rendered as a line exactly if its place can be written, which it can be if the
  document was read within the limits, and on a terminal exactly if its column fits as well.
-/

namespace AttributeLint

open Declarations

/-! ## Runs over files -/

/-- Passes add their diagnostics in order. -/
theorem Results.diagnostics_foldl_addPass : (done : List Checker.Pass) → (r : Results) →
    (done.foldl Results.addPass r).diagnostics
      = r.diagnostics ++ done.flatMap Checker.Pass.diagnostics
  | [], r => by simp
  | p :: rest, r => by
      rw [List.foldl_cons, diagnostics_foldl_addPass rest, List.flatMap_cons, ← List.append_assoc]
      rfl

/-- The results of passes have the diagnostics of all. -/
theorem Results.diagnostics_ofPasses (done : List Checker.Pass) :
    (Results.ofPasses done).diagnostics = done.flatMap Checker.Pass.diagnostics :=
  (diagnostics_foldl_addPass done {}).trans (List.nil_append _)

namespace Runner

variable {d : Declarations}

/-- The standard registry has no other checker to select. -/
theorem eq_standard_of_mem_select {r : Runner} (hreg : r.registry = .standard)
    {checkers : Option (List String)} {c : Checker} (hc : c ∈ r.select checkers) :
    c = .standard := by
  rcases checkers with _ | names
  · unfold select at hc
    rw [hreg] at hc
    exact List.mem_singleton.mp hc
  · obtain ⟨name, -, hname⟩ := List.mem_filterMap.mp hc
    rw [hreg] at hname
    have hmem : (name, c) ∈ [(ruleName, Checker.standard)] := Assoc.mem_of_lookup hname
    exact congrArg Prod.snd (List.mem_singleton.mp hmem)

/-- Passes of the standard checker, one after the other: none fails, and all report the same. -/
theorem exists_passes (scope : Scope) (h : d.build = .ok scope.vocabulary) :
    (cs : List Checker) → (∀ c ∈ cs, c = .standard) → ∀ (clock : Clock) (counts : Counts),
      ∃ done, passes scope clock counts cs = (done, none) ∧
        done.flatMap Checker.Pass.diagnostics = cs.flatMap fun _ =>
          scope.suppressions.filter (scope.elements.flatMap (d.findings scope.options))
  | [], _, _, _ => ⟨[], rfl, rfl⟩
  | c :: rest, hcs, clock, counts => by
      obtain ⟨hc, hrest⟩ := List.forall_mem_cons.mp hcs
      subst hc
      have hpass := pass_of_build scope h counts
      obtain ⟨more, hmore, hdiagnostics⟩ := exists_passes scope h rest hrest (clock.advance 2) _
      unfold passes
      rw [hpass]
      dsimp only
      rw [hmore]
      refine ⟨_, rfl, ?_⟩
      rw [List.flatMap_cons, List.flatMap_cons, hdiagnostics]

/-- A run with standard checkers succeeds, and each selected one reports what is found and not
suppressed. -/
theorem exists_run {r : Runner} (hreg : r.registry = .standard) (h : d.build = .ok r.vocabulary)
    (q : Request) : ∃ results, r.run q = .ok results ∧
      results.diagnostics = (r.select q.checkers).flatMap fun _ =>
        r.suppressions.filter (q.elements.flatMap (d.findings r.options)) := by
  obtain ⟨done, hdone, hdiagnostics⟩ := exists_passes (r.scope q) h (r.select q.checkers)
    (fun c hc => eq_standard_of_mem_select hreg hc) r.clock []
  unfold run passesOf
  rw [hdone]
  exact ⟨_, rfl, (Results.diagnostics_ofPasses done).trans hdiagnostics⟩

/-- The run over files: the clock moves on from file to file, and nothing else of the runner. -/
theorem exists_runFiles (checkers : Option (List String)) :
    (files : List FileDump) → ∀ {r : Runner} (combined : Results), r.registry = .standard →
      d.build = .ok r.vocabulary → ∃ results, r.runFiles checkers combined files = .ok results ∧
        results.diagnostics = combined.diagnostics ++ files.flatMap fun f =>
          (r.select checkers).flatMap fun _ =>
            r.suppressions.filter (f.elements.flatMap (d.findings r.options))
  | [], _, combined, _, _ => ⟨combined, rfl, by simp⟩
  | f :: rest, r, combined, hreg, h => by
      obtain ⟨results, hrun, hdiagnostics⟩ := exists_run hreg h (requestFor checkers f)
      obtain ⟨last, hlast, hall⟩ := exists_runFiles checkers rest (combined.merge results)
        (r := r.afterReadings (r.readings (requestFor checkers f))) hreg h
      refine ⟨last, ?_, ?_⟩
      · unfold runFiles
        simp only [hrun]
        exact hlast
      · rw [hall, List.flatMap_cons, ← List.append_assoc]
        exact congrArg₂ _ (congrArg _ hdiagnostics) rfl

/-- What a run reports was found in an element of the dump. -/
theorem exists_finding_of_runDump {r : Runner} (hreg : r.registry = .standard)
    (hv : d.build = .ok r.vocabulary) {dump : Dump}
    {checkers : Option (List String)} {results : Results}
    (hrun : r.runDump dump checkers = .ok results) {x : Diagnostic} (hx : x ∈ results.diagnostics) :
    ∃ f ∈ dump.files, ∃ e ∈ f.elements, x ∈ d.findings r.options e := by
  obtain ⟨reported, hreported, hdiagnostics⟩ := exists_runFiles checkers dump.files {} hreg hv
  obtain rfl : reported = results := Except.ok.inj (hreported.symm.trans hrun)
  rw [hdiagnostics] at hx
  obtain ⟨f, hf, hx⟩ := List.mem_flatMap.mp hx
  obtain ⟨-, -, hx⟩ := List.mem_flatMap.mp hx
  obtain ⟨e, he, hx⟩ := List.mem_flatMap.mp (List.mem_filter.mp hx).1
  exact ⟨f, hf, e, he, hx⟩

/-- Without options and suppressions, a run over one element reports all that is found in it. -/
theorem exists_runDump_single {v : Vocabulary} (hv : d.build = .ok v) (file : String) (e : Element)
    (source : Option String) :
    ∃ results, ({ vocabulary := v } : Runner).runDump ⟨[⟨file, [e], source⟩]⟩ none = .ok results ∧
      results.diagnostics = d.findings {} e := by
  obtain ⟨results, hrun, hdiagnostics⟩ :=
    exists_runFiles none [⟨file, [e], source⟩] (r := { vocabulary := v }) {} rfl hv
  have hselect : Registry.standard.checkers = [.standard] := rfl
  refine ⟨results, hrun, ?_⟩
  rw [hdiagnostics]
  simp [Suppressions.filter_none, select, hselect]

end Runner

/-! ## What is reported -/

/-- A diagnostic of a verdict is about the attribute that was judged. -/
theorem Diagnostic.subject_ofVerdict {severity : Severity} {rule : String} {c : Context}
    {a : Attribute} {r : Verdict} {x : Diagnostic}
    (h : Diagnostic.ofVerdict severity rule c a r = some x) :
    x.location = a.location ∧ x.name = .ok a.name := by
  rcases r with _ | _ | n | ⟨n, tags⟩ <;> cases h <;> exact ⟨rfl, rfl⟩

section reported

variable {d : Declarations} {o : Options}

/-- A finding is the diagnostic of a verdict on an attribute. -/
theorem exists_verdict_of_mem_findings {e : Element} {x : Diagnostic} (hx : x ∈ d.findings o e) :
    ∃ a ∈ e.attributes, ∃ r, Diagnostic.ofVerdict .warning ruleName e.context a r = some x := by
  obtain ⟨j, hj, hword⟩ := List.mem_filterMap.mp hx
  exact ⟨j.1, (mem_judgements hj).1, j.2, hword⟩

/-- What is found in a dump is about an attribute record of its document, and carries all values
that its message needs. -/
theorem exists_record_of_mem_findings {document : Json} {dump : Dump}
    (h : Dump.RecordsDump document dump) {f : FileDump} (hf : f ∈ dump.files) {e : Element}
    (he : e ∈ f.elements) {x : Diagnostic} (hx : x ∈ d.findings o e) :
    x.Complete ∧ ∃ record ∈ Dump.attributeRecords document,
      Dump.RecordsLocation f.file record x.location ∧
      ∃ name, x.name = .ok name ∧ record.field? "name" = some (.str name) := by
  obtain ⟨a, ha, r, hr⟩ := exists_verdict_of_mem_findings hx
  obtain ⟨hlocation, hname⟩ := Diagnostic.subject_ofVerdict hr
  obtain ⟨record, hrecord, hrecords⟩ := h.exists_record hf he ha
  cases hrecords with
  | named _ hrecorded _ _ hplace =>
    exact ⟨Diagnostic.complete_ofVerdict hr, record, hrecord, hlocation ▸ hplace, a.name, hname,
      hrecorded⟩

/-- What is found in a dump can be written if the document of the dump can be shown. -/
theorem writable_of_mem_findings {limits : Limits} {document : Json} {dump : Dump}
    (h : Dump.RecordsDump document dump) (hshown : Json.Shown limits document) {f : FileDump}
    (hf : f ∈ dump.files) {e : Element} (he : e ∈ f.elements) {x : Diagnostic}
    (hx : x ∈ d.findings o e) : x.Writable limits := by
  obtain ⟨a, ha, r, hr⟩ := exists_verdict_of_mem_findings hx
  obtain ⟨record, hrecord, hrecords⟩ := h.exists_record hf he ha
  have hrecorded := Dump.shown_of_mem_attributeRecords hshown hrecord
  cases hrecords with
  | named _ _ _ hspan hplace =>
    refine Diagnostic.writable_iff.mpr
      ⟨(Diagnostic.subject_ofVerdict hr).1 ▸ hplace.writable hrecorded, fun f hf s hs => ?_⟩
    have hsame : a.span = some s := by
      rcases r with _ | _ | n | ⟨n, tags⟩ <;> cases hr <;> cases hf
      exact hs
    rw [hsame] at hspan
    rcases hspan with hrange | ⟨-, hnone⟩
    · have hpair := hrecorded.field hrange
      exact ⟨Json.Shown.int_iff.mp (hpair.item (by simp)),
        Json.Shown.int_iff.mp (hpair.item (by simp))⟩
    · cases hnone

end reported

/-! ## The pipeline -/

/-- **Pipeline.** Take a document that is accepted, a built vocabulary, any options, any
suppressions, and any selection from the standard checkers. The run over the document succeeds.
Every diagnostic that it reports has a JSON form and a hint, and can be added to any SARIF document.
It has a line and a plain rendering exactly if its place can be written within the limits of the
machine. It can be shown on a terminal, painted in any way and with any sources, exactly if its
column fits as well. Its name and its place are those of an attribute record of the document, so
only a document with such a place or column has such diagnostics. If the document was read within
the limits, every place can be written. -/
theorem runDump_renders {limits : Limits} {document : Json} {dump : Dump}
    (hdump : Dump.ofJson limits document = .ok dump)
    {d : Declarations} {v : Vocabulary} (hv : d.build = .ok v) (o : Options) (s : Suppressions)
    (clock : Clock) (checkers : Option (List String)) :
    ∃ results,
      ({ suppressions := s, options := o, vocabulary := Runner.vocabularyOr v,
         clock := clock } : Runner).runDump dump checkers = .ok results ∧
      (∀ x ∈ results.diagnostics,
        (∃ j, x.json = .ok j) ∧ (∃ hint, x.hint = .ok hint) ∧
        (∀ sarif : Report.Sarif, ∃ more, sarif.add x = .ok more) ∧
        ((∃ line, x.line limits = .ok line) ↔ x.location.excess? limits = none) ∧
        ((∃ text, Report.plain limits x = .ok text) ↔ x.location.excess? limits = none) ∧
        (∀ (paint : Report.Paint) (sources : Report.Sources),
          (∃ text, Report.terminal limits paint sources x = .ok text) ↔
            x.location.excess? limits = none ∧ Report.Fits limits sources x.location) ∧
        ∃ record ∈ Dump.attributeRecords document,
          Dump.RecordsLocation x.location.file record x.location ∧
          ∃ name, x.name = .ok name ∧ record.field? "name" = some (.str name)) ∧
      ∀ text, Json.readWithin limits text = .ok document →
        ∀ x ∈ results.diagnostics, x.location.excess? limits = none := by
  obtain ⟨used, hused⟩ := exists_build_vocabularyOr hv
  obtain ⟨results, hrun, -⟩ := Runner.exists_runFiles checkers dump.files
    (r := { suppressions := s, options := o, vocabulary := Runner.vocabularyOr v, clock := clock })
    {} rfl hused
  have hrecorded : ∀ x ∈ results.diagnostics, x.Complete ∧
      ∃ record ∈ Dump.attributeRecords document,
        Dump.RecordsLocation x.location.file record x.location ∧
        ∃ name, x.name = .ok name ∧ record.field? "name" = some (.str name) := by
    intro x hx
    obtain ⟨f, hf, e, he, hfound⟩ := Runner.exists_finding_of_runDump rfl hused hrun hx
    obtain ⟨hcomplete, record, hrecord, hplace, hname⟩ :=
      exists_record_of_mem_findings (Dump.ofJson_eq_ok_iff.mp hdump) hf he hfound
    exact ⟨hcomplete, record, hrecord, hplace.file.symm ▸ hplace, hname⟩
  refine ⟨results, hrun, fun x hx => ?_, fun text htext x hx => ?_⟩
  · obtain ⟨hcomplete, hrecord⟩ := hrecorded x hx
    exact ⟨hcomplete.exists_json, hcomplete.exists_hint, hcomplete.exists_add,
      hcomplete.exists_line_iff, hcomplete.exists_plain_iff, hcomplete.exists_terminal_iff limits,
      hrecord⟩
  · obtain ⟨-, record, hrecord, hplace, -⟩ := hrecorded x hx
    exact hplace.writable
      (Dump.shown_of_mem_attributeRecords (Json.readWithin_shown htext) hrecord)

/-- A document with an unknown attribute `b` at a place. -/
def documentAt (line column : Int) : Json :=
  .obj [("file", .str "a"), ("source", .str "<a b>"),
    ("elements", .arr [.obj [("tag", .str "a"), ("attributes", .arr [.obj
      [("name", .str "b"), ("line", .int line), ("column", .int column)]])]])]

/-- The element of the document. -/
def elementAt (line column : Int) : Element where
  tag := some "a"
  occurrences := [.ofName "b" ⟨"a", line, column⟩]
  location := ⟨"a", 0, 0⟩

/-- The diagnostic on `b`. -/
def unknownAt (line column : Int) : Diagnostic where
  finding := .unknown
  data := [("name", "b")]
  location := ⟨"a", line, column⟩

/-- The attribute is unknown, and is found where it stands. -/
theorem findings_elementAt (line column : Int) :
    few.findings {} (elementAt line column) = [unknownAt line column] := by
  have hcontext : (elementAt line column).context = ⟨some "a", false, false⟩ := rfl
  have hunknown : few.verdict {} ⟨some "a", false, false⟩ "b" = .unknown := by decide
  rw [findings, judgements, hcontext]
  change List.filterMap _ [(_, few.verdict {} ⟨some "a", false, false⟩ "b")] = _
  rw [hunknown]
  rfl

/-- The document is accepted, and a run over it reports the attribute. -/
theorem diagnostics_documentAt (limits : Limits) (line column : Int) : ∃ dump v,
    Dump.ofJson limits (documentAt line column) = .ok dump ∧ few.build = .ok v ∧ ∀ {results},
      ({ vocabulary := Runner.vocabularyOr v } : Runner).runDump dump none = .ok results →
        results.diagnostics = [unknownAt line column] := by
  obtain ⟨v, hv, hused⟩ : ∃ v, few.build = .ok v ∧ few.build = .ok (Runner.vocabularyOr v) :=
    ⟨_, rfl, rfl⟩
  obtain ⟨reported, hrun, hfound⟩ :=
    Runner.exists_runDump_single hused "a" (elementAt line column) (some "<a b>")
  refine ⟨_, v, rfl, hv, fun {results} hresults => ?_⟩
  obtain rfl : reported = results := Except.ok.inj (hrun.symm.trans hresults)
  rw [hfound, findings_elementAt]

/-- A machine that takes integers of 4300 digits. -/
def machine : Limits where
  digits := 4300

/-- The document is accepted, and the run over it reports the diagnostic on `b`. -/
def ReportedAt (line column : Int) : Prop :=
  ∃ dump v results, Dump.ofJson machine (documentAt line column) = .ok dump ∧ few.build = .ok v ∧
    ({ vocabulary := Runner.vocabularyOr v } : Runner).runDump dump none = .ok results ∧
    unknownAt line column ∈ results.diagnostics

/-- A column that is left of the line can be shown, like all such columns, down to the last one that
can be counted; the next one cannot, though the diagnostic has a line. One with a line number of
more digits than the machine takes is reported as well, and has none. -/
theorem runDump_renders_leftmost :
    (ReportedAt 1 (1 - Report.indexBound) ∧
      ∃ text, Report.terminal machine (Report.Ansi.paint true) [("a", "<a b>")]
        (unknownAt 1 (1 - Report.indexBound)) = .ok text) ∧
    (ReportedAt 1 (-Report.indexBound) ∧
      (∃ line, (unknownAt 1 (-Report.indexBound)).line machine = .ok line) ∧
      ¬ ∃ text, Report.terminal machine (Report.Ansi.paint true) [("a", "<a b>")]
        (unknownAt 1 (-Report.indexBound)) = .ok text) ∧
    ReportedAt (10 ^ 4300) 1 ∧ ¬ ∃ line, (unknownAt (10 ^ 4300) 1).line machine = .ok line := by
  have hrenders : ∀ line column, ReportedAt line column ∧
      ((∃ text, (unknownAt line column).line machine = .ok text) ↔
        Location.excess? machine ⟨"a", line, column⟩ = none) ∧
      ∀ paint sources,
        (∃ text, Report.terminal machine paint sources (unknownAt line column) = .ok text) ↔
          Location.excess? machine ⟨"a", line, column⟩ = none ∧
            Report.Fits machine sources ⟨"a", line, column⟩ := by
    intro line column
    obtain ⟨dump, v, hdump, hv, hreported⟩ := diagnostics_documentAt machine line column
    obtain ⟨results, hrun, hall, -⟩ := runDump_renders hdump hv {} {} {} none
    have hmem : unknownAt line column ∈ results.diagnostics := by simp [hreported hrun]
    obtain ⟨-, -, -, hline, -, hterminal, -⟩ := hall _ hmem
    exact ⟨⟨dump, v, results, hdump, hv, hrun, hmem⟩, hline, hterminal⟩
  obtain ⟨hfirst, -, hfirstShown⟩ := hrenders 1 (1 - Report.indexBound)
  obtain ⟨hnext, hnextLine, hnextShown⟩ := hrenders 1 (-Report.indexBound)
  obtain ⟨hlong, hlongLine, -⟩ := hrenders (10 ^ 4300) 1
  refine ⟨⟨hfirst, (hfirstShown _ _).mpr ⟨by decide, .inr (.inr (by decide))⟩⟩,
    ⟨hnext, hnextLine.mpr (by decide), fun hshown => ?_⟩, hlong, fun hline => ?_⟩
  · rcases ((hnextShown _ _).mp hshown).2 with hno | hno | hno <;> exact absurd hno (by decide)
  · have hfits := (Location.excess?_eq_none_iff.mp (hlongLine.mp hline)).1
    have hexcess : machine.ofInt? (10 ^ 4300) = some (.writtenDigits 4300) :=
      Limits.ofInt?_tenPow rfl (by decide)
    exact absurd (hexcess.symm.trans hfits) (by simp)

end AttributeLint

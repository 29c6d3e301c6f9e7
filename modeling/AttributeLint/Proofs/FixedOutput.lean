import AttributeLint.Proofs.JsonText
import AttributeLint.Proofs.Session

/-!
# Fixes from the command line

With fixes asked for, the command writes one line for each file object of its dumps.

* `newline_not_mem_fixedObject`: the object of a file is written without a line break.
* `writeLines_fixedLine_eq_none_iff`: no file object is at fault exactly if each has its line.
* **Fixed output** (`run_applyFixes`): the command ends with 0 exactly if nothing is at fault and
  every file object can be fixed, and then its output is their lines in order. It writes nothing if
  options or dumps are at fault, or the first file object cannot be fixed.
* `run_applyFixes_partial`: it is not all or nothing. The list of checkers takes the place of the
  fixes, and lines are written before a later file object turns out to be at fault.
-/

namespace AttributeLint

namespace CommandLine

/-! ## The line of a file -/

/-- What is written of a file whose fixes are carried out. -/
def fixedObject (file : String) (fixes : List Fix) (fixed : String) : Json :=
  .obj [("file", .str file), ("fixes", .int fixes.length), ("output", .str fixed)]

/-- The object of a fixed file has no line break. -/
theorem newline_not_mem_fixedObject (file : String) (fixes : List Fix) (fixed : String) :
    '\n' ∉ (fixedObject file fixes fixed).compact.toList := by
  have hlegible : (fixedObject file fixes fixed).Legible {} 0 := by
    refine .obj rfl (by simp) ?_
    simp only [List.forall_mem_cons, List.not_mem_nil, false_implies, implies_true, and_true]
    exact ⟨.str file, .int rfl, .str fixed⟩
  intro hbreak
  rw [Json.compact, String.toList_ofList] at hbreak
  exact absurd (hlegible.plain _ hbreak) (by decide)

/-- The line is that of the file object: on one line, an object with the source of the file after
the fixes that a run over the file alone proposes. -/
def FixedLine (limits : Limits) (r : Runner) (f : FileDump) (line : String) : Prop :=
  ∃ source results fixed, f.source = some source ∧ r.run (Runner.requestFor none f) = .ok results ∧
    applyFixes limits source results.fixes = .ok fixed ∧
    '\n' ∉ (fixedObject f.file results.fixes fixed).compact.toList ∧
    line = (fixedObject f.file results.fixes fixed).compact ++ "\n"

/-! ## The output -/

/-- The results for the file have the diagnostics of a run over the file alone. -/
def Settles (r : Runner) (f : FileDump) (c : FileDump × Results) : Prop :=
  c.1 = f ∧ ∃ own, r.run (Runner.requestFor none f) = .ok own ∧
    c.2.diagnostics = own.diagnostics

/-- The line depends on the diagnostics of the results only. -/
theorem Settles.exists_fixedLine_iff {limits : Limits} {r : Runner} {f : FileDump}
    {c : FileDump × Results} (h : Settles r f c) (line : String) :
    (∃ l, fixedLine limits c = .ok l ∧ line = l ++ "\n") ↔ FixedLine limits r f line := by
  obtain ⟨rfl, own, hown, hsame⟩ := h
  have hfixes : c.2.fixes = own.fixes := congrArg (List.filterMap Diagnostic.fix) hsame
  unfold fixedLine
  rw [hfixes]
  constructor
  · rintro ⟨l, h, rfl⟩
    rcases hsource : c.1.source with _ | source
    · rw [hsource] at h
      cases h
    · rw [hsource] at h
      rcases hfixed : applyFixes limits source own.fixes with fault | fixed
      · simp [hfixed] at h
      · simp only [hfixed, Except.ok.injEq] at h
        subst h
        exact ⟨source, own, fixed, hsource, hown, hfixed, newline_not_mem_fixedObject _ _ _, rfl⟩
  · rintro ⟨source, own', fixed, hsource, hown', hfixed, -, rfl⟩
    obtain rfl : own' = own := Except.ok.inj (hown'.symm.trans hown)
    refine ⟨(fixedObject c.1.file own'.fixes fixed).compact, ?_, rfl⟩
    simp only [hsource, hfixed]
    rfl

/-- No file is at fault exactly if each has its line; the text is these lines, in order. -/
theorem writeLines_fixedLine_eq_none_iff {limits : Limits} {r : Runner} {files : List FileDump}
    {checked : List (FileDump × Results)} (h : List.Forall₂ (Settles r) files checked)
    (text : String) :
    writeLines (fixedLine limits) checked = (text, none) ↔
      ∃ lines, List.Forall₂ (FixedLine limits r) files lines ∧ text = String.join lines := by
  rw [writeLines_eq_none_iff]
  constructor
  · rintro ⟨lines, hlines, rfl⟩
    refine ⟨_, ?_, rfl⟩
    rw [List.forall₂_map_right_iff]
    induction h generalizing lines with
    | nil =>
      cases hlines
      exact .nil
    | cons hone _ ih =>
      obtain ⟨line, more, hline, hmore, rfl⟩ := List.forall₂_cons_left_iff.mp hlines
      exact .cons ((hone.exists_fixedLine_iff _).mp ⟨line, hline, rfl⟩) (ih more hmore)
  · rintro ⟨lines, hlines, rfl⟩
    induction h generalizing lines with
    | nil =>
      cases hlines
      exact ⟨[], .nil, rfl⟩
    | cons hone _ ih =>
      obtain ⟨line, more, hline, hmore, rfl⟩ := List.forall₂_cons_left_iff.mp hlines
      obtain ⟨l, hl, rfl⟩ := (hone.exists_fixedLine_iff line).mpr hline
      obtain ⟨ls, hls, hjoin⟩ := ih more hmore
      refine ⟨l :: ls, .cons hl hls, ?_⟩
      rw [List.map_cons, String.join_cons, String.join_cons, hjoin]

/-- If the first file has no line, there is no text. -/
theorem writeLines_of_first {limits : Limits} {r : Runner} {f : FileDump} {c : FileDump × Results}
    (hone : Settles r f c) (hnone : ¬ ∃ line, FixedLine limits r f line)
    (rest : List (FileDump × Results)) : (writeLines (fixedLine limits) (c :: rest)).1 = "" := by
  rw [writeLines]
  rcases hline : fixedLine limits c with fault | line
  · rfl
  · exact absurd ⟨_, (hone.exists_fixedLine_iff _).mp ⟨line, hline, rfl⟩⟩ hnone

/-! ## The command -/

/-- The options, the suppressions and all dumps are in order: `r` is the runner of the command, and
`files` are the file objects of the dumps. -/
def Ready (s : Settings) (w : Surroundings) (openFile : String → Dump.Opened) (r : Runner)
    (files : List FileDump) : Prop :=
  ∃ o hidden dumps, Options.ofIgnore w.limits (.arr (s.ignore.map .str)) = .ok o ∧
    suppressions s = .ok hidden ∧ s.dumps.mapM (loadAt w.limits openFile) = .ok dumps ∧
    r = .ofCommand o hidden w.clock ∧ files = dumps.flatMap Dump.files

/-- Checking settles every file. -/
theorem exists_settled (o : Options) (hidden : Suppressions) (clock : Clock)
    (files : List FileDump) : ∃ records checked,
      runAll (.ofCommand o hidden clock) files = (records, .ok checked) ∧
      List.Forall₂ (Settles (.ofCommand o hidden clock)) files checked := by
  have hbuild := Runner.build_ofCommand o hidden clock
  obtain ⟨records, checked, hrun, hchecked⟩ :=
    runAll_reported (r := .ofCommand o hidden clock) rfl hbuild files
  refine ⟨records, checked, hrun, ?_⟩
  have hsame : List.Forall₂ (fun f c => (f, reported o hidden f) = (c.1, c.2.diagnostics)) files
      checked := by
    have heq : List.Forall₂ Eq (files.map fun f => (f, reported o hidden f))
        (checked.map fun c => (c.1, c.2.diagnostics)) := by
      rw [hchecked]
      exact List.forall₂_refl _
    simpa only [List.forall₂_map_left_iff, List.forall₂_map_right_iff] using heq
  refine hsame.imp fun f c hc => ?_
  obtain ⟨rfl, hdiagnostics⟩ := Prod.mk.inj hc
  obtain ⟨own, hown, hreported⟩ := Runner.exists_run_reported
    (r := .ofCommand o hidden clock) rfl hbuild c.1
  exact ⟨rfl, own, hown, hdiagnostics.symm.trans hreported.symm⟩

section applyFixes

variable {s : Settings} (hlist : s.listCheckers = false) (hne : s.dumps ≠ [])
  (w : Surroundings) (openFile : String → Dump.Opened)

include hlist hne

/-- If all is in order, the lines of the files are written, up to the first that is at fault. -/
theorem visible_execute_of_ready (hfix : s.applyFixes = true) {r : Runner} {files : List FileDump}
    (hready : Ready s w openFile r files) :
    ∃ checked, List.Forall₂ (Settles r) files checked ∧
      (execute s w openFile).visible =
        (((writeLines (fixedLine w.limits) checked).2.map faultEnding).getD (.exit 0),
          (writeLines (fixedLine w.limits) checked).1) := by
  obtain ⟨o, hidden, dumps, hoptions, hhidden, hload, rfl, rfl⟩ := hready
  obtain ⟨records, checked, hrun, hsettled⟩ :=
    exists_settled o hidden w.clock (dumps.flatMap Dump.files)
  refine ⟨checked, hsettled, ?_⟩
  obtain ⟨log, hloaded⟩ : ∃ log, loadAll w.limits openFile s.dumps = (log, .ok dumps) :=
    ⟨_, Prod.ext rfl ((loadAll_eq_mapM w.limits openFile s.dumps).trans hload)⟩
  unfold execute
  rw [if_neg (by simp [hlist]), if_neg (by simpa using hne)]
  simp only [hoptions, hhidden]
  change (check s w openFile (.ofCommand o hidden w.clock)).visible = _
  unfold check
  simp only [hloaded, hrun, conclude, hfix, if_true]
  rcases writeLines (fixedLine w.limits) checked with ⟨text, _ | f⟩
  · rfl
  · exact visible_failure s (log ++ records) text f

/-- A run that fixes ends with zero, and writes a text, exactly if each file has its line and the
text is made of them. -/
theorem execute_exit_zero_iff (hfix : s.applyFixes = true) {r : Runner} {files : List FileDump}
    (hready : Ready s w openFile r files) (text : String) :
    (execute s w openFile).ending = .exit 0 ∧ (execute s w openFile).out = text ↔
      ∃ lines, List.Forall₂ (FixedLine w.limits r) files lines ∧ text = String.join lines := by
  obtain ⟨checked, hsettled, hvisible⟩ :=
    visible_execute_of_ready hlist hne w openFile hfix hready
  obtain ⟨hending, hout⟩ := Prod.mk.inj hvisible
  rw [hending, hout, ← writeLines_fixedLine_eq_none_iff hsettled]
  rcases writeLines (fixedLine w.limits) checked with ⟨written, _ | f⟩
  · simp
  · rcases faultEnding_cases f with ⟨hf, -⟩ | ⟨hf, -⟩ <;> simp [hf]

/-- If something is not in order, the command does not end with 0, and nothing is written. -/
theorem execute_of_not_ready (hready : ∀ r files, ¬ Ready s w openFile r files) :
    (execute s w openFile).ending ≠ .exit 0 ∧ (execute s w openFile).out = "" := by
  have hfault : ∀ {outcome : Outcome} {f : Fault}, outcome.visible = (faultEnding f, "") →
      outcome.ending ≠ .exit 0 ∧ outcome.out = "" := by
    intro outcome f h
    have hending : outcome.ending = faultEnding f := congrArg Prod.fst h
    refine ⟨?_, congrArg Prod.snd h⟩
    rw [hending]
    rcases faultEnding_cases f with ⟨hf, -⟩ | ⟨hf, -⟩ <;> simp [hf]
  unfold execute
  rw [if_neg (by simp [hlist]), if_neg (by simpa using hne)]
  rcases hoptions : Options.ofIgnore w.limits (.arr (s.ignore.map .str)) with f | o
  · exact hfault (visible_failure s [] "" f)
  rcases hhidden : suppressions s with refusal | hidden
  · simp [refuse]
  rcases hloaded : loadAll w.limits openFile s.dumps with ⟨log, f | dumps⟩
  · simp only [check, hloaded]
    exact hfault (visible_failure s log "" f)
  · have hload : s.dumps.mapM (loadAt w.limits openFile) = .ok dumps := by
      rw [← loadAll_eq_mapM, hloaded]
    exact absurd ⟨o, hidden, dumps, hoptions, hhidden, hload, rfl, rfl⟩ (hready _ _)

end applyFixes

/-- **Fixed output.** Let arguments ask for fixes in at least one dump, and not for the list of
checkers. The command ends with 0 exactly if options, suppressions and dumps are in order and every
file object can be fixed, and then its output is the line of each file object, in order. If it ends
with 2, nothing is written, unless the file object at fault comes after one that could be fixed. -/
theorem run_applyFixes {args : List String} {s : Settings} (hparse : parse args = .ok s)
    (hfix : s.applyFixes = true) (hlist : s.listCheckers = false) (hne : s.dumps ≠ [])
    (w : Surroundings) (openFile : String → Dump.Opened) :
    (∀ text, (run args w openFile).ending = .exit 0 ∧ (run args w openFile).out = text ↔
      ∃ r files lines, Ready s w openFile r files ∧
        List.Forall₂ (FixedLine w.limits r) files lines ∧ text = String.join lines) ∧
    ((run args w openFile).ending = .exit 2 → (run args w openFile).out = "" ∨
      ∃ r first rest, Ready s w openFile r (first :: rest) ∧
        (∃ line, FixedLine w.limits r first line) ∧
        ∃ later ∈ rest, ¬ ∃ line, FixedLine w.limits r later line) := by
  have hrun : run args w openFile = execute s w openFile := by
    unfold run
    rw [hparse]
  rw [hrun]
  by_cases hready : ∃ r files, Ready s w openFile r files
  · obtain ⟨r, files, hready⟩ := hready
    have hzero := execute_exit_zero_iff hlist hne w openFile hfix hready
    refine ⟨fun text => ⟨fun h => ?_, ?_⟩, fun hending => ?_⟩
    · obtain ⟨lines, hlines, rfl⟩ := (hzero text).mp h
      exact ⟨r, files, lines, hready, hlines, rfl⟩
    · rintro ⟨r', files', lines, hready', hlines, rfl⟩
      exact (execute_exit_zero_iff hlist hne w openFile hfix hready' _).mpr ⟨lines, hlines, rfl⟩
    · -- some file has no line, since the command does not end with 0
      have hsome : ¬ ∀ f ∈ files, ∃ line, FixedLine w.limits r f line := by
        intro hall
        obtain ⟨lines, hlines⟩ := (exists_forall₂_iff files).mpr hall
        have hexit := ((hzero (String.join lines)).mpr ⟨lines, hlines, rfl⟩).1
        cases hending.symm.trans hexit
      obtain ⟨checked, hsettled, hvisible⟩ :=
        visible_execute_of_ready hlist hne w openFile hfix hready
      have hout : (execute s w openFile).out = (writeLines (fixedLine w.limits) checked).1 :=
        congrArg Prod.snd hvisible
      rw [hout]
      cases hsettled with
      | nil => exact .inl rfl
      | @cons first c rest checked hone hrest =>
        by_cases hfirst : ∃ line, FixedLine w.limits r first line
        · refine .inr ⟨r, first, rest, hready, hfirst, ?_⟩
          simpa [hfirst] using hsome
        · exact .inl (writeLines_of_first hone hfirst checked)
  · have hnot : ∀ r files, ¬ Ready s w openFile r files := fun r files h => hready ⟨r, files, h⟩
    obtain ⟨hending, hout⟩ := execute_of_not_ready hlist hne w openFile hnot
    refine ⟨fun text => ⟨fun h => absurd h.1 hending, ?_⟩, fun _ => .inl hout⟩
    rintro ⟨r, files, lines, h, -⟩
    exact absurd h (hnot r files)

/-- A disk that has a text under every path. -/
def diskOf (text : String) (_ : String) : Dump.Opened :=
  .ok (text.toList.map fun c => c.toNat.toUInt8)

/-- A disk with one dump that can be read is ready for a run that fixes. -/
theorem ready_diskOf {text : String} {files : List FileDump} (list : Bool)
    (htext : Dump.textOf "d" (diskOf text "d") = .ok text)
    (hread : Dump.ofText {} text = .ok ⟨files⟩) :
    Ready { dumps := ["d"], applyFixes := true, listCheckers := list } {} (diskOf text)
      (.ofCommand {} {} {}) files := by
  have hload : loadAt {} (diskOf text) "d" = .ok ⟨files⟩ := by
    change Dump.load {} "d" (diskOf text "d") = _
    rw [Dump.load, htext]
    exact hread
  refine ⟨{}, {}, [⟨files⟩], rfl, rfl, ?_, rfl, ?_⟩
  · rw [List.mapM_cons, hload]
    rfl
  · simp

/-- The span of a source that is one name of five characters. -/
def wholeSpan : Span :=
  ⟨0, 5, Nat.zero_le 5⟩

/-- The name of the attribute is not empty. -/
theorem class_ne_empty : "class" ≠ "" := by
  decide

/-- An attribute to be renamed. -/
def misspelled : Attribute where
  name := "class"
  name_ne := class_ne_empty
  span := some wholeSpan

/-- A file object with the attribute, and its source. -/
def renamable : FileDump :=
  ⟨"", [{ tag := some "p", occurrences := [.named misspelled] }], some "class"⟩

/-- Its document. -/
def renamableText : String :=
  "\x7b\"elements\":[\x7b\"tag\":\"p\",\"attributes\":"
    ++ "[\x7b\"name\":\"class\",\"range\":[0,5]\x7d]\x7d],\"source\":\"class\"\x7d"

/-- The text is read as the file object. -/
theorem ofText_renamable : Dump.ofText {} renamableText = .ok ⟨[renamable]⟩ := by
  rw [Dump.ofText, Json.readWithin_eq_tokensUpTo]
  rfl

/-- The attribute is to be renamed, unless it is ignored. -/
theorem verdict_class {o : Options} (h : o.ignores "class" = false) :
    Vocabulary.standardDeclarations.verdict o ⟨some "p", false, false⟩ "class"
      = .rename "className" := by
  have hexempt : ¬ Vocabulary.standardDeclarations.Exempt o ⟨some "p", false, false⟩ "class" := by
    rw [Declarations.Exempt, h]
    decide
  exact Declarations.verdict_eq_rename_iff.mpr ⟨hexempt, by decide,
    Vocabulary.standard_meant_rename (r := ("class", "className"))
      (by simp [Vocabulary.standardRenames]), by decide, by decide⟩

/-- What is reported of the attribute. -/
def renameClass : Diagnostic where
  finding := .misspelled
  data := [("name", "class"), ("standardName", "className")]
  severity := .warning
  fix := some ⟨"className", some wholeSpan⟩
  rule := ruleName

/-- So that is what is reported of the file object. -/
theorem reported_renamable {o : Options} (h : o.ignores "class" = false) :
    reported o {} renamable = [renameClass] := by
  have hjudged : Vocabulary.standardDeclarations.judgements o
      { tag := some "p", occurrences := [.named misspelled] }
        = [(misspelled,
            Vocabulary.standardDeclarations.verdict o ⟨some "p", false, false⟩ "class")] := rfl
  rw [verdict_class h] at hjudged
  unfold reported
  rw [Suppressions.filter_none]
  simp only [renamable, List.flatMap_cons, List.flatMap_nil, Declarations.findings, hjudged]
  rfl

/-- Its source is the new name then. -/
theorem applyFixes_renamable :
    applyFixes {} "class" [⟨"className", some wholeSpan⟩] = .ok "className" := by
  have hedits : Edit.ofFixes "class".length [⟨"className", some wholeSpan⟩]
      = .ok [⟨wholeSpan, "className"⟩] := rfl
  unfold applyFixes carryOut
  rw [hedits]
  dsimp only
  rw [Edit.arrange, List.mergeSort_singleton]
  rfl

/-- A dump with one file object, whose attribute is renamed. -/
theorem run_applyFixes_renamable :
    (run ["--apply-fixes", "d"] {} (diskOf renamableText)).ending = .exit 0 ∧
    (run ["--apply-fixes", "d"] {} (diskOf renamableText)).out =
      "\x7b\"file\": \"\", \"fixes\": 1, \"output\": \"className\"\x7d\n" := by
  have hparse : parse ["--apply-fixes", "d"] = .ok { dumps := ["d"], applyFixes := true } := by
    decide
  have hready := ready_diskOf false (show Dump.textOf "d" _ = _ from rfl) ofText_renamable
  obtain ⟨results, hresults, hreported⟩ := Runner.exists_run_reported
    (r := .ofCommand {} {} {}) rfl (Runner.build_ofCommand {} {} {}) renamable
  have hfixes : results.fixes = [⟨"className", some wholeSpan⟩] :=
    congrArg (List.filterMap Diagnostic.fix) (hreported.trans (reported_renamable rfl))
  have hline : FixedLine {} (.ofCommand {} {} {}) renamable
      ((fixedObject "" results.fixes "className").compact ++ "\n") :=
    ⟨"class", results, "className", rfl, hresults, by rw [hfixes, applyFixes_renamable],
      newline_not_mem_fixedObject _ _ _, rfl⟩
  obtain ⟨hzero, -⟩ := run_applyFixes hparse rfl rfl (by simp) {} (diskOf renamableText)
  refine (hzero _).mpr ⟨_, _, _, hready, .cons hline .nil, ?_⟩
  rw [hfixes]
  decide

/-- Two file objects, the second without its source. -/
def unsourcedText : String :=
  "[\x7b\"elements\":[],\"source\":\"x\"\x7d,\x7b\"elements\":[]\x7d]"

/-- The text is read as two file objects, the second without a source. -/
theorem ofText_unsourced :
    Dump.ofText {} unsourcedText = .ok ⟨[⟨"", [], some "x"⟩, ⟨"", [], none⟩]⟩ := by
  rw [Dump.ofText, Json.readWithin_eq_tokensUpTo]
  rfl

/-- There is something to list. -/
theorem checkersText_standard_ne : checkersText .standard ≠ "" := by
  have hnames : Registry.standard.names = [ruleName] := List.mergeSort_singleton _
  have hchecker : Registry.standard.named? ruleName = some .standard := rfl
  have htext : checkersText .standard = checkerText .standard := by
    rw [checkersText, hnames, List.filterMap_cons, hchecker]
    simp only [List.filterMap_nil, List.map_cons, List.map_nil, String.join_cons, String.join_nil,
      String.append_empty]
  rw [htext]
  intro h
  have hend : "\n\n" = "" := (String.append_eq_empty_iff.mp h).2
  exact absurd hend (by decide)

/-- **Not all or nothing.** A line is written before a later file object turns out to have no
source. And the list of checkers takes the place of the lines: it is written and the command ends
with 0, although the dump has no file object. -/
theorem run_applyFixes_partial :
    (parse ["--apply-fixes", "d"] = .ok { dumps := ["d"], applyFixes := true } ∧
      (run ["--apply-fixes", "d"] {} (diskOf unsourcedText)).ending = .exit 2 ∧
      (run ["--apply-fixes", "d"] {} (diskOf unsourcedText)).out ≠ "") ∧
    parse ["--apply-fixes", "--list-checkers", "d"]
        = .ok { dumps := ["d"], applyFixes := true, listCheckers := true } ∧
      Ready { dumps := ["d"], applyFixes := true, listCheckers := true } {} (diskOf "[]")
        (.ofCommand {} {} {}) [] ∧
      (run ["--apply-fixes", "--list-checkers", "d"] {} (diskOf "[]")).ending = .exit 0 ∧
      (run ["--apply-fixes", "--list-checkers", "d"] {} (diskOf "[]")).out ≠ "" := by
  have hparse : parse ["--apply-fixes", "d"] = .ok { dumps := ["d"], applyFixes := true } := by
    decide
  have hparse' : parse ["--apply-fixes", "--list-checkers", "d"]
      = .ok { dumps := ["d"], applyFixes := true, listCheckers := true } := by decide
  refine ⟨⟨hparse, ?_⟩, hparse', ready_diskOf true rfl Dump.ofText_nil, ?_⟩
  · have hready := ready_diskOf false (show Dump.textOf "d" _ = _ from rfl) ofText_unsourced
    obtain ⟨checked, hsettled, hvisible⟩ := visible_execute_of_ready rfl (by simp) {}
      (diskOf unsourcedText) rfl hready
    obtain ⟨⟨f₁, results₁⟩, checked, hfirst, hrest, rfl⟩ := List.forall₂_cons_left_iff.mp hsettled
    obtain ⟨⟨f₂, results₂⟩, checked, hsecond, -, rfl⟩ := List.forall₂_cons_left_iff.mp hrest
    -- the first file object has its line, and the second one has none
    obtain ⟨own, hown, hreported⟩ := Runner.exists_run_reported (r := .ofCommand {} {} {}) rfl
      (Runner.build_ofCommand {} {} {}) ⟨"", [], some "x"⟩
    have hfixes : own.fixes = [] := congrArg (List.filterMap Diagnostic.fix) hreported
    have hfixed : applyFixes {} "x" own.fixes = .ok "x" := by
      simp [hfixes, applyFixes, carryOut, Edit.ofFixes, Edit.arrange, Edit.clash?, Edit.splice]
    have hfixedLine : FixedLine {} (.ofCommand {} {} {}) ⟨"", [], some "x"⟩ _ :=
      ⟨"x", own, "x", rfl, hown, hfixed, newline_not_mem_fixedObject _ _ _, rfl⟩
    obtain ⟨line, hline, -⟩ := (hfirst.exists_fixedLine_iff _).mpr hfixedLine
    have hfault : fixedLine {} (f₂, results₂) = .error (.noSource "") := by
      rw [show f₂ = ⟨"", [], none⟩ from hsecond.1]
      rfl
    simp only [writeLines, hline, hfault] at hvisible
    unfold run
    rw [hparse]
    obtain ⟨hending, hout⟩ := Prod.mk.inj hvisible
    refine ⟨hending, ?_⟩
    rw [hout]
    intro hempty
    have hbreak : "\n" = "" :=
      (String.append_eq_empty_iff.mp (String.append_eq_empty_iff.mp hempty).1).2
    exact absurd hbreak (by decide)
  · unfold run
    rw [hparse']
    exact ⟨rfl, checkersText_standard_ne⟩

end CommandLine

end AttributeLint

import AttributeLint.Proofs.FixedOutput
import Mathlib.Data.List.Induction

/-!
# Excerpts from sources

A report on a terminal quotes the line that a diagnostic is about. It finds the source by the name
of the file, while diagnostics come from file objects, of which several may have one name or none.

* `lookup_sourcesOf`: under a name, the sources of file objects hold the last one.
* `location_of_mem_reported`: what is reported of a file object of an accepted document has the name
  of that file object.
* `lastSource_right_iff`: when the last source has the lines of each file object of its name.
* **Excerpts** (`excerpts_right_iff`): for a diagnostic, the line of the last source of its name is
  quoted. The sources are right exactly if file objects of one name have the same lines.
-/

namespace AttributeLint

/-! ## Lines of a source -/

/-- The lines of a source; without a source there are none. -/
def linesOf (source : Option String) : List String :=
  source.elim [] Text.lines

/-- The line of a source with a number, counted from one. -/
def lineOf (source : Option String) (n : Int) : Option String :=
  if n < 1 then none else (linesOf source)[(n - 1).toNat]?

/-- All lines of two sources are the same exactly if the sources have the same lines. -/
theorem lineOf_eq_iff {s t : Option String} :
    (∀ n, lineOf s n = lineOf t n) ↔ linesOf s = linesOf t := by
  constructor
  · intro h
    refine List.ext_getElem? fun i => ?_
    have hline := h (i + 1)
    unfold lineOf at hline
    rw [if_neg (by omega), if_neg (by omega), Int.add_sub_cancel, Int.toNat_natCast] at hline
    exact hline
  · intro h n
    unfold lineOf
    rw [h]

/-- The line of a file is that of the source under its name. -/
theorem Report.sourceLine_eq_lineOf (sources : Sources) (file : String) (n : Int) :
    sourceLine sources file n = lineOf (sources.lookup file) n := by
  unfold sourceLine lineOf linesOf
  rcases sources.lookup file with _ | text
  · simp
  · rfl

namespace CommandLine

/-! ## The source under a name -/

/-- The last source among those of the file objects with a name. -/
def lastSource (files : List FileDump) (name : String) : Option String :=
  ((files.filter fun f => f.file == name).filterMap FileDump.source).getLast?

/-- One more file object adds its source, if it has one, under its name. -/
theorem sourcesOf_append_singleton (files : List FileDump) (f : FileDump) :
    sourcesOf (files ++ [f])
      = f.source.elim (sourcesOf files) fun s => Assoc.put f.file s (sourcesOf files) := by
  unfold sourcesOf Assoc.ofList
  rw [List.filterMap_append, List.foldl_append]
  rcases hsource : f.source with _ | s <;> simp [hsource]

/-- The source under a name is the last one of file objects with that name. -/
theorem lookup_sourcesOf (files : List FileDump) (name : String) :
    (sourcesOf files).lookup name = lastSource files name := by
  induction files using List.reverseRecOn with
  | nil => rfl
  | append_singleton files f ih =>
    unfold lastSource at ih ⊢
    rw [sourcesOf_append_singleton, List.filter_append, List.filterMap_append]
    rcases hsource : f.source with _ | s
    · have hnone : ([f].filter fun f => f.file == name).filterMap FileDump.source = [] := by
        cases hname : f.file == name <;> simp [hname, hsource]
      rw [hnone, List.append_nil]
      exact ih
    · show (Assoc.put f.file s (sourcesOf files)).lookup name = _
      rw [Assoc.lookup_put]
      by_cases hname : f.file = name
      · simp [hname, hsource]
      · rw [if_neg (by simpa using Ne.symm hname), ih]
        simp [hname]

/-- If there is none, no file object with the name has one. -/
theorem source_eq_none_of_lastSource {files : List FileDump} {f : FileDump} (hf : f ∈ files)
    (h : lastSource files f.file = none) : f.source = none := by
  unfold lastSource at h
  rw [List.getLast?_eq_none_iff, List.filterMap_eq_nil_iff] at h
  exact h f (List.mem_filter.mpr ⟨hf, by simp⟩)

/-- If there is one, it is that of a file object with the name. -/
theorem exists_of_lastSource {files : List FileDump} {name s : String}
    (h : lastSource files name = some s) :
    ∃ f ∈ files, f.file = name ∧ f.source = some s := by
  obtain ⟨f, hf, hs⟩ := List.mem_filterMap.mp (List.mem_of_getLast? h)
  obtain ⟨hf, hname⟩ := List.mem_filter.mp hf
  exact ⟨f, hf, by simpa using hname, hs⟩

/-- File objects of one name have the same lines. -/
def Unambiguous (files : List FileDump) : Prop :=
  ∀ f ∈ files, ∀ g ∈ files, f.file = g.file → linesOf f.source = linesOf g.source

instance (files : List FileDump) : Decidable (Unambiguous files) :=
  inferInstanceAs (Decidable (∀ f ∈ files, ∀ g ∈ files, _))

/-- The last sources have the right lines for all file objects exactly if those of one name have the
same lines. -/
theorem lastSource_right_iff {files : List FileDump} :
    (∀ f ∈ files, linesOf (lastSource files f.file) = linesOf f.source) ↔ Unambiguous files := by
  constructor
  · intro h f hf g hg hname
    rw [← h f hf, ← h g hg, hname]
  · intro h f hf
    rcases hlast : lastSource files f.file with _ | s
    · rw [source_eq_none_of_lastSource hf hlast]
    · obtain ⟨g, hg, hname, hs⟩ := exists_of_lastSource hlast
      rw [← hs]
      exact h g hg f hf hname

/-! ## What is reported -/

/-- What is reported of a file object stands in the file that it names. -/
theorem location_of_mem_reported {limits : Limits} {document : Json} {dump : Dump}
    (hdump : Dump.ofJson limits document = .ok dump) {f : FileDump} (hf : f ∈ dump.files)
    {o : Options} {s : Suppressions} {x : Diagnostic} (hx : x ∈ reported o s f) :
    x.location.file = f.file := by
  have hrecords := Dump.ofJson_eq_ok_iff.mp hdump
  obtain ⟨e, he, hfound⟩ := List.mem_flatMap.mp (List.mem_filter.mp hx).1
  obtain ⟨-, record, -, hplace, -⟩ := exists_record_of_mem_findings hrecords hf he hfound
  exact hplace.file

/-- **Excerpts.** Take the file objects of accepted documents, any options and any suppressions. The
run over each file object succeeds, and for each of its diagnostics the report quotes the line of
the last source under the name of the file object. If file objects of one name have the same lines,
that is the line of the file object itself, or none if it has no such line. Only then are the
sources right for all lines of all file objects. -/
theorem excerpts_right_iff {dumps : List Dump} {files : List FileDump}
    (hdumps : ∀ dump ∈ dumps, ∃ limits document, Dump.ofJson limits document = .ok dump)
    (hfiles : files = dumps.flatMap Dump.files) (o : Options) (hidden : Suppressions)
    (clock : Clock) :
    (∀ f ∈ files, ∃ own,
      (Runner.ofCommand o hidden clock).run (Runner.requestFor none f) = .ok own ∧
      ∀ d ∈ own.diagnostics,
        Report.sourceLine (sourcesOf files) d.location.file d.location.line
          = lineOf (lastSource files f.file) d.location.line ∧
        (Unambiguous files →
          Report.sourceLine (sourcesOf files) d.location.file d.location.line
            = lineOf f.source d.location.line)) ∧
    ((∀ f ∈ files, ∀ n, Report.sourceLine (sourcesOf files) f.file n = lineOf f.source n) ↔
      Unambiguous files) := by
  have hline : ∀ name n, Report.sourceLine (sourcesOf files) name n
      = lineOf (lastSource files name) n := by
    intro name n
    rw [Report.sourceLine_eq_lineOf, lookup_sourcesOf]
  constructor
  · intro f hf
    obtain ⟨own, hrun, hreported⟩ := Runner.exists_run_reported (r := .ofCommand o hidden clock) rfl
      (Runner.build_ofCommand o hidden clock) f
    rw [hfiles] at hf
    obtain ⟨dump, hdump, hfile⟩ := List.mem_flatMap.mp hf
    obtain ⟨limits, document, hdocument⟩ := hdumps dump hdump
    refine ⟨own, hrun, fun d hd => ?_⟩
    rw [hreported] at hd
    rw [location_of_mem_reported hdocument hfile hd, hline]
    refine ⟨rfl, fun hsame => ?_⟩
    rw [← hfiles] at hf
    exact lineOf_eq_iff.mpr (lastSource_right_iff.mpr hsame f hf) _
  · rw [← lastSource_right_iff]
    refine forall₂_congr fun f _ => ?_
    simp only [hline]
    exact lineOf_eq_iff

/-- A file object with an attribute to be renamed on its first line. -/
def quotedObject (name source : String) : Json :=
  .obj [("file", .str name), ("source", .str source), ("elements", .arr [.obj
    [("tag", .str "p"), ("attributes", .arr [.obj
      [("name", .str "class"), ("line", .int 1), ("column", .int 4)]])]])]

/-- The attribute. -/
def classAt (name : String) : Attribute where
  name := "class"
  name_ne := class_ne_empty
  location := ⟨name, 1, 4⟩

/-- The file object as it is read. -/
def quoted (name source : String) : FileDump :=
  ⟨name, [{ tag := some "p", occurrences := [.named (classAt name)], location := ⟨name, 0, 0⟩ }],
    some source⟩

/-- Two file objects, the first without a name. -/
def pairFiles (other : String) : List FileDump :=
  [quoted "" "<p class='first'>", quoted other "<p class='second'>"]

/-- Their document. -/
def pairDocument (other : String) : Json :=
  .arr [quotedObject "" "<p class='first'>", quotedObject other "<p class='second'>"]

/-- One thing is reported of the file object, in its first line. -/
theorem reported_quoted (name source : String) :
    ∃ d, reported {} {} (quoted name source) = [d] ∧ d.location.line = 1 := by
  have hjudged : Vocabulary.standardDeclarations.judgements {}
      { tag := some "p", occurrences := [.named (classAt name)], location := ⟨name, 0, 0⟩ }
        = [(classAt name,
            Vocabulary.standardDeclarations.verdict {} ⟨some "p", false, false⟩ "class")] := rfl
  rw [verdict_class rfl] at hjudged
  unfold reported
  rw [Suppressions.filter_none]
  simp only [quoted, List.flatMap_cons, List.flatMap_nil, Declarations.findings, hjudged]
  exact ⟨_, rfl, rfl⟩

/-- If the second file object has a name, the line of the first is quoted for the diagnostic of the
first. If it has none either, the line of the second is. -/
theorem excerpts_right_iff_nameless :
    (Dump.ofJson machine (pairDocument "b") = .ok ⟨pairFiles "b"⟩ ∧ Unambiguous (pairFiles "b") ∧
      ∃ own d, (Runner.ofCommand {} {} {}).run
          (Runner.requestFor none (quoted "" "<p class='first'>")) = .ok own ∧
        d ∈ own.diagnostics ∧
        Report.sourceLine (sourcesOf (pairFiles "b")) d.location.file d.location.line
          = some "<p class='first'>") ∧
    Dump.ofJson machine (pairDocument "") = .ok ⟨pairFiles ""⟩ ∧ ¬ Unambiguous (pairFiles "") ∧
      ∃ own d, (Runner.ofCommand {} {} {}).run
          (Runner.requestFor none (quoted "" "<p class='first'>")) = .ok own ∧
        d ∈ own.diagnostics ∧
        Report.sourceLine (sourcesOf (pairFiles "")) d.location.file d.location.line
          = some "<p class='second'>" := by
  have hread : ∀ other, Dump.ofJson machine (pairDocument other) = .ok ⟨pairFiles other⟩ :=
    fun _ => rfl
  have hdumps : ∀ other, ∀ dump ∈ [(⟨pairFiles other⟩ : Dump)],
      ∃ limits document, Dump.ofJson limits document = .ok dump := by
    intro other dump hdump
    rw [List.mem_singleton.mp hdump]
    exact ⟨_, _, hread other⟩
  obtain ⟨d, hd, hline⟩ := reported_quoted "" "<p class='first'>"
  obtain ⟨results, hresults, hreported⟩ := Runner.exists_run_reported (r := .ofCommand {} {} {}) rfl
    (Runner.build_ofCommand {} {} {}) (quoted "" "<p class='first'>")
  have hmem : d ∈ results.diagnostics := by
    rw [hreported]
    exact hd ▸ List.mem_singleton_self d
  have hown : Unambiguous (pairFiles "b") := by decide
  refine ⟨⟨hread "b", hown, ?_⟩, hread "", by decide, ?_⟩
  · obtain ⟨hall, -⟩ := excerpts_right_iff (hdumps "b") rfl {} {} {}
    obtain ⟨own, hrun, hquoted⟩ := hall (quoted "" "<p class='first'>") List.mem_cons_self
    obtain rfl : own = results := Except.ok.inj (hrun.symm.trans hresults)
    refine ⟨own, d, hrun, hmem, ((hquoted d hmem).2 hown).trans ?_⟩
    rw [hline]
    decide
  · obtain ⟨hall, -⟩ := excerpts_right_iff (hdumps "") rfl {} {} {}
    obtain ⟨own, hrun, hquoted⟩ := hall (quoted "" "<p class='first'>") List.mem_cons_self
    obtain rfl : own = results := Except.ok.inj (hrun.symm.trans hresults)
    refine ⟨own, d, hrun, hmem, (hquoted d hmem).1.trans ?_⟩
    rw [hline]
    decide

end CommandLine

end AttributeLint

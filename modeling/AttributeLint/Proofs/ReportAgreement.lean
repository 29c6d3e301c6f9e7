import AttributeLint.Proofs.JsonLines
import AttributeLint.Proofs.Pipeline
import AttributeLint.Report.Reporter

/-!
# Reports that agree with results

A report keeps two accounts of the diagnostics that it shows: a tally, and the results and rules of
a SARIF document. Results keep a third one. The tally counts a diagnostic before it is shown, and
the document gets it after that, so the accounts are in step as long as each diagnostic can be
shown.

* `Tally.Counts`, `Sarif.Gathers`: what the two accounts are after a list of diagnostics, and that
  one more diagnostic keeps it so.
* `Sarif.tells_of_result`: what can be read back from a result.
* `Sarif.Gathers.writtenExcess?_eq_none_iff`: when the document can be written.
* `Reporter.emit_of_shows`, `emit_of_not_shows`, `emitAll_accounts`: one step of a report, and a
  whole report.
* **Agreement** (`emitAll_agrees_iff`): tally, document and results agree exactly if every
  diagnostic can be shown in the style of the report. Otherwise the tally is one ahead. The document
  is written exactly if its integers can be.
-/

namespace AttributeLint

/-! ## First appearances -/

section firstAppearances

variable {α β : Type} [BEq α] [LawfulBEq α] [BEq β] [LawfulBEq β]

/-- First appearances are distinct. -/
theorem nodup_eraseDups (items : List α) : items.eraseDups.Nodup := by
  match items with
  | [] => exact List.nodup_nil
  | a :: rest =>
    rw [List.eraseDups_cons, List.nodup_cons, List.mem_eraseDups]
    exact ⟨by simp, nodup_eraseDups _⟩
termination_by items.length
decreasing_by exact Nat.lt_succ_of_le (List.length_filter_le _ _)

/-- An injective map keeps first appearances. -/
theorem eraseDups_map {f : α → β} (hf : Function.Injective f) (items : List α) :
    (items.map f).eraseDups = items.eraseDups.map f := by
  match items with
  | [] => rfl
  | a :: rest =>
    have hsame : (fun b => !b == f a) ∘ f = fun b => !b == a := by
      funext b
      simp [hf.eq_iff]
    rw [List.map_cons, List.eraseDups_cons, List.eraseDups_cons, List.map_cons, List.filter_map,
      hsame, eraseDups_map hf]
termination_by items.length
decreasing_by exact Nat.lt_succ_of_le (List.length_filter_le _ _)

end firstAppearances

/-- Kinds of findings have distinct identifiers. -/
theorem Finding.id_injective : Function.Injective id := by
  intro f g h
  have := congrArg ofId? h
  rwa [ofId?_id, ofId?_id, Option.some.injEq] at this

namespace Report

/-! ## The tally -/

/-- The tally is that of the diagnostics. -/
structure Tally.Counts (t : Tally) (ds : List Diagnostic) : Prop where
  error : t.error = ds.countP fun d => d.severity = .error
  warning : t.warning = ds.countP fun d => d.severity = .warning
  information : t.information = ds.countP fun d => d.severity = .information
  fixable : t.fixable = ds.countP Diagnostic.fixable

namespace Tally.Counts

/-- A new tally counts nothing. -/
theorem nil : ({} : Tally).Counts [] :=
  ⟨rfl, rfl, rfl, rfl⟩

variable {t : Tally} {ds : List Diagnostic}

/-- One more diagnostic is counted in its severity, and among the fixable ones if it has a fix. -/
theorem record (h : t.Counts ds) (d : Diagnostic) : (t.record d).Counts (ds ++ [d]) := by
  constructor <;>
    simp only [Tally.record, List.countP_append, List.countP_singleton, decide_eq_true_eq,
      ← h.error, ← h.warning, ← h.information, ← h.fixable] <;>
    split <;> rfl

/-- Every diagnostic has one of the three severities. -/
theorem total (h : t.Counts ds) : t.total = ds.length := by
  unfold Tally.total
  rw [h.error, h.warning, h.information]
  clear h
  induction ds with
  | nil => rfl
  | cons d rest ih =>
    rw [List.countP_cons, List.countP_cons, List.countP_cons, List.length_cons]
    rcases d.severity with _ | _ | _ <;> simp <;> omega

end Tally.Counts

/-! ## The document -/

namespace Sarif

/-- What has been gathered is that of the diagnostics: a result for each, in order, and a rule for
each kind of finding, in order of first appearance. -/
structure Gathers (s : Sarif) (ds : List Diagnostic) : Prop where
  results : List.Forall₂ (fun d v => result d = .ok v) ds s.results
  rules : s.rules = (ds.map Diagnostic.finding).eraseDups

/-- A new document has gathered nothing. -/
theorem Gathers.nil : ({} : Sarif).Gathers [] :=
  ⟨.nil, rfl⟩

/-- One more diagnostic adds its result, and its rule if that is new. -/
theorem Gathers.add {s more : Sarif} {ds : List Diagnostic} {d : Diagnostic} (h : s.Gathers ds)
    (hadd : s.add d = .ok more) : more.Gathers (ds ++ [d]) := by
  unfold Sarif.add at hadd
  split at hadd
  · cases hadd
  next v hv =>
    cases hadd
    constructor
    · exact List.rel_append h.results (.cons hv .nil)
    · have hknown : s.rules.contains d.finding
          = (ds.map Diagnostic.finding).contains d.finding := by
        rw [Bool.eq_iff_iff, List.contains_iff_mem, List.contains_iff_mem, h.rules,
          List.mem_eraseDups]
      rw [List.map_append, List.map_singleton, List.eraseDups_append, ← h.rules, hknown,
        List.removeAll, List.filter_singleton, List.elem_eq_contains]
      rcases (ds.map Diagnostic.finding).contains d.finding
      · exact congrArg (s.rules ++ ·) rfl
      · exact (List.append_nil _).symm

/-! ### Reading a document -/

/-- The text under a key. -/
def text? (v : Json) (key : String) : Option String :=
  match v.field? key with
  | some (.str s) => some s
  | _ => none

/-- The integer under a key. -/
def int? (v : Json) (key : String) : Option Int :=
  match v.field? key with
  | some (.int n) => some n
  | _ => none

/-- The results of all runs of a document. -/
def resultsIn (document : Json) : List Json :=
  (Dump.members document "runs").flatMap fun run => Dump.members run "results"

/-- The rules that the tools of a document declare. -/
def rulesIn (document : Json) : List Json :=
  (Dump.members document "runs").flatMap fun run =>
    ((run.field? "tool").bind (·.field? "driver")).toList.flatMap (Dump.members · "rules")

/-- The replacements of a result. -/
def replacementsIn (result : Json) : List Json :=
  (Dump.members result "fixes").flatMap fun fix =>
    (Dump.members fix "artifactChanges").flatMap (Dump.members · "replacements")

/-- The fix that puts the inserted text in the place of the characters from the offset on. -/
def fixIn? (replacement : Json) : Option Fix := do
  let region ← replacement.field? "deletedRegion"
  let offset ← int? region "charOffset"
  let length ← int? region "charLength"
  let content ← replacement.field? "insertedContent"
  let text ← text? content "text"
  let span ← Span.ofInts? offset (offset + length)
  return ⟨text, some span⟩

/-- A result is that of the diagnostic and names its rule. It has fixes exactly if the fix of the
diagnostic has a span, and its replacement reads as that fix. -/
structure Tells (d : Diagnostic) (v : Json) : Prop where
  result : result d = .ok v
  ruleId : text? v "ruleId" = some d.finding.id
  fixes : (v.field? "fixes").isSome ↔ ∃ f ∈ d.fix, f.span.isSome
  replacements : (replacementsIn v).map fixIn? =
    (d.fix.toList.filter fun f => f.span.isSome).map some

/-- A span is told from its start and its length. -/
theorem ofInts?_length (s : Span) : Span.ofInts? s.start (s.start + s.length) = some s := by
  obtain ⟨start, stop, hle⟩ := s
  have hin : 0 ≤ (start : Int) ∧ (start : Int) ≤ start + Span.length ⟨start, stop, hle⟩ := by omega
  have hstop : ((start : Int) + Span.length ⟨start, stop, hle⟩).toNat = stop := by
    show ((start : Int) + (stop - start : Nat)).toNat = stop
    omega
  unfold Span.ofInts?
  rw [dif_pos hin]
  simp [hstop]

/-- A replacement reads as the fix that it was made from. -/
theorem fixIn?_replacement (s : Span) (text : String) :
    fixIn? (replacement s text) = some ⟨text, some s⟩ := by
  show (Span.ofInts? s.start (s.start + s.length)).bind _ = _
  rw [ofInts?_length]
  rfl

/-- What a result is made of: some message, some hint, and what else the diagnostic has. -/
theorem exists_of_result {d : Diagnostic} {v : Json} (h : result d = .ok v) :
    ∃ message hint, v = .obj (
      [("ruleId", .str d.finding.id), ("level", .str (level d.severity)),
       ("message", textObject message),
       ("locations", .arr [.obj [("physicalLocation", .obj
         [("artifactLocation", artifact d.location), ("region", region d.location)])]])]
      ++ fixes d hint) := by
  unfold result at h
  rcases hmessage : d.message with e | message
  · rw [hmessage] at h
    cases h
  · rcases hhint : d.hint with e | hint
    · rw [hmessage, hhint] at h
      cases h
    · rw [hmessage, hhint] at h
      cases h
      exact ⟨message, hint, rfl⟩

/-- The rule and the fixes stand in the result as they are written. -/
theorem fields_of_result {d : Diagnostic} {v : Json} (h : result d = .ok v) :
    text? v "ruleId" = some d.finding.id ∧
      ∃ hint, v.field? "fixes" = (fixes d hint).lookup "fixes" := by
  obtain ⟨message, hint, rfl⟩ := exists_of_result h
  exact ⟨rfl, hint, rfl⟩

/-- The result of a diagnostic tells its rule and its fix. -/
theorem tells_of_result {d : Diagnostic} {v : Json} (h : result d = .ok v) : Tells d v := by
  obtain ⟨hrule, hint, hfixes⟩ := fields_of_result h
  unfold fixes at hfixes
  rcases hfix : d.fix with _ | ⟨text, _ | s⟩
  all_goals
    rw [hfix] at hfixes
    refine ⟨h, hrule, by simp [hfixes, hfix], ?_⟩
    unfold replacementsIn
    rw [Dump.members, hfixes, hfix]
  · rfl
  · rfl
  · show [fixIn? (replacement s text)] = _
    rw [fixIn?_replacement]
    rfl

/-- All that has been gathered tells of the diagnostics, in order. -/
theorem Gathers.tells {s : Sarif} {ds : List Diagnostic} (h : s.Gathers ds) :
    List.Forall₂ Tells ds s.results :=
  h.results.imp fun _ _ => tells_of_result

/-- The results in the document are those that were gathered. -/
theorem resultsIn_document (s : Sarif) (tool version : String) :
    resultsIn (s.document tool version) = s.results := by
  show s.results ++ [] = _
  rw [List.append_nil]

/-- So are the rules. -/
theorem rulesIn_document (s : Sarif) (tool version : String) :
    rulesIn (s.document tool version) = s.rules.map rule := by
  show (s.rules.map rule ++ []) ++ [] = _
  rw [List.append_nil, List.append_nil]

/-! ### Integers of a document -/

/-- The integers of a result: the line, the column if it is known, and start and length of the span
of a fix. -/
theorem integers_of_result {d : Diagnostic} {v : Json} (h : result d = .ok v) :
    v.integers = d.location.line :: (if d.location.column = 0 then [] else [d.location.column])
      ++ (d.fix.bind Fix.span).toList.flatMap fun s => [(s.start : Int), (s.length : Int)] := by
  obtain ⟨message, hint, rfl⟩ := exists_of_result h
  rcases hfix : d.fix with _ | ⟨text, _ | s⟩ <;> split_ifs with hcolumn <;>
    simp [Json.integers, textObject, artifact, region, fixes, replacement, hfix, hcolumn]

/-- The integers of the document are those of its results. -/
theorem integers_document (s : Sarif) (tool version : String) :
    (s.document tool version).integers = s.results.flatMap Json.integers := by
  have hrule : ∀ f, (rule f).integers = [] := by
    intro f
    simp [rule, textObject, Json.integers]
  simp [document, Json.integers, List.flatMap_map, hrule]

/-- The offset and the length of the span of the fix can be written, if there is one. -/
def Measured (limits : Limits) (d : Diagnostic) : Prop :=
  ∀ f ∈ d.fix, ∀ s ∈ f.span, limits.ofInt? s.start = none ∧ limits.ofInt? s.length = none

variable {limits : Limits}

/-- A result can be written exactly if the place and the span of the fix can be. -/
theorem forall_integers_of_result {d : Diagnostic} {v : Json} (h : result d = .ok v) :
    (∀ n ∈ v.integers, limits.ofInt? n = none) ↔
      d.location.excess? limits = none ∧ Measured limits d := by
  rw [integers_of_result h, Location.excess?_eq_none_iff, Measured]
  rcases d.fix with _ | ⟨text, _ | s⟩ <;> split_ifs with hcolumn <;> simp [hcolumn, and_assoc]

/-- The document can be written exactly if each diagnostic in it can be. -/
theorem Gathers.writtenExcess?_eq_none_iff {s : Sarif} {ds : List Diagnostic} (h : s.Gathers ds)
    (tool version : String) :
    (s.document tool version).writtenExcess? limits = none ↔
      ∀ d ∈ ds, d.location.excess? limits = none ∧ Measured limits d := by
  rw [Json.writtenExcess?_eq_none_iff, integers_document]
  obtain ⟨hresults, -⟩ := h
  generalize s.results = vs at hresults ⊢
  induction hresults with
  | nil => simp
  | cons hv _ ih =>
    rw [List.flatMap_cons, List.forall_mem_append, List.forall_mem_cons,
      forall_integers_of_result hv, ih]

end Sarif

/-! ## One step of a report, and a whole one -/

/-- Diagnostics at the location can be shown in the style: the place can be written, and on a
terminal the column fits. -/
def Style.Shows (limits : Limits) : Style → Location → Prop
  | .plain, l => l.excess? limits = none
  | .terminal _ sources, l => l.excess? limits = none ∧ Fits limits sources l

/-- What can be shown in any style is at a place that can be written. -/
theorem Style.Shows.writable {limits : Limits} {style : Style} {l : Location}
    (h : style.Shows limits l) : l.excess? limits = none := by
  rcases style with _ | ⟨paint, sources⟩
  · exact h
  · exact h.1

/-- What the report has counted, and what it has gathered for a document at the path. -/
structure Reporter.Accounts (r : Reporter) (path : String) (counted gathered : List Diagnostic) :
    Prop where
  tally : r.tally.Counts counted
  sarif : ∃ s, r.sarif = some (path, s) ∧ s.Gathers gathered

namespace Reporter

/-- The document as it is so far, if there is to be one. -/
def document? (r : Reporter) : Option Json :=
  r.sarif.map fun s => s.2.document r.tool r.version

variable {limits : Limits} {r : Reporter} {path : String} {before : List Diagnostic}
  {d : Diagnostic}

/-- The document is made of what has been gathered. -/
theorem document?_eq {s : Sarif} (h : r.sarif = some (path, s)) :
    r.document? = some (s.document r.tool r.version) := by
  rw [document?, h, Option.map_some]

/-- The document is written as a whole, or the limit is reported; the former exactly if its integers
can be written. -/
theorem output_eq_ok_iff {s : Sarif} (h : r.sarif = some (path, s)) :
    (r.output limits = .ok (some ⟨path, (s.document r.tool r.version).pretty⟩) ∨
      r.output limits = .error (.beyondLimit (.writtenDigits limits.digits))) ∧
    (r.output limits = .ok (some ⟨path, (s.document r.tool r.version).pretty⟩) ↔
      ∀ n ∈ (s.document r.tool r.version).integers, limits.ofInt? n = none) := by
  rw [← Json.writtenExcess?_eq_none_iff]
  unfold output
  rw [h]
  rcases hexcess : (s.document r.tool r.version).writtenExcess? limits with _ | x
  · simp only [Sarif.text, hexcess, written_none, true_or, and_self]
  · simp [Sarif.text, hexcess, Json.writtenExcess?_eq_some hexcess]

/-- A complete diagnostic has a text in the style of the report exactly if the style shows its
place. -/
theorem exists_render_iff (hcomplete : d.Complete) :
    (∃ text, r.render limits d = .ok text) ↔ r.style.Shows limits d.location := by
  unfold render
  rcases r.style with _ | ⟨paint, sources⟩
  · exact hcomplete.exists_plain_iff
  · exact hcomplete.exists_terminal_iff limits paint sources

/-- A diagnostic that can be shown is counted and gathered. -/
theorem emit_of_shows (h : r.Accounts path before before) (hcomplete : d.Complete)
    (hshows : r.style.Shows limits d.location) :
    ∃ next text, r.emit limits d = (next, .ok text) ∧ next.style = r.style ∧
      next.Accounts path (before ++ [d]) (before ++ [d]) := by
  obtain ⟨s, hsarif, hgathers⟩ := h.sarif
  obtain ⟨more, hmore⟩ := hcomplete.exists_add s
  obtain ⟨text, htext⟩ := (exists_render_iff hcomplete).mpr hshows
  have hrender : render limits { r with tally := r.tally.record d } d = .ok text := htext
  have hgather : gather { r with tally := r.tally.record d } d
      = .ok { r with tally := r.tally.record d, sarif := some (path, more) } := by
    simp only [gather, hsarif, hmore]
  refine ⟨{ r with tally := r.tally.record d, sarif := some (path, more) }, text, ?_, rfl, ?_⟩
  · simp only [emit, hrender, hgather]
  · exact ⟨h.tally.record d, more, rfl, hgathers.add hmore⟩

/-- A diagnostic that cannot be shown is counted and not gathered. -/
theorem emit_of_not_shows (h : r.Accounts path before before) (hcomplete : d.Complete)
    (hshows : ¬ r.style.Shows limits d.location) :
    ∃ next fault, r.emit limits d = (next, .error fault) ∧
      next.Accounts path (before ++ [d]) before := by
  rcases hrender : render limits { r with tally := r.tally.record d } d with fault | text
  · refine ⟨{ r with tally := r.tally.record d }, fault, ?_, h.tally.record d, h.sarif⟩
    simp only [emit, hrender]
  · exact absurd ((exists_render_iff hcomplete).mp ⟨text, hrender⟩) hshows

/-- A report either shows all diagnostics, and then it has counted and gathered them all, or it ends
at the first that cannot be shown, and then it has counted that one and not gathered it. -/
theorem emitAll_accounts :
    (ds : List Diagnostic) → ∀ {r : Reporter} {before : List Diagnostic},
      r.Accounts path before before → (∀ d ∈ ds, d.Complete) →
      ∃ last text fault, r.emitAll limits ds = (last, text, fault) ∧
        (((∀ d ∈ ds, r.style.Shows limits d.location) ∧ fault = none ∧
            last.Accounts path (before ++ ds) (before ++ ds)) ∨
          ∃ shown d rest, ds = shown ++ d :: rest ∧ ¬ r.style.Shows limits d.location ∧
            fault ≠ none ∧ last.Accounts path (before ++ shown ++ [d]) (before ++ shown))
  | [], r, before, h, _ => by
      refine ⟨r, "", none, rfl, .inl ⟨by simp, rfl, ?_⟩⟩
      rw [List.append_nil]
      exact h
  | d :: rest, r, before, h, hcomplete => by
      rw [List.forall_mem_cons] at hcomplete
      by_cases hshows : r.style.Shows limits d.location
      · obtain ⟨next, text, hemit, hstyle, hnext⟩ := emit_of_shows h hcomplete.1 hshows
        obtain ⟨last, more, fault, hrest, hcases⟩ := emitAll_accounts rest hnext hcomplete.2
        rw [hstyle] at hcases
        refine ⟨last, text ++ more, fault, by simp only [emitAll, hemit, hrest], ?_⟩
        rcases hcases with ⟨hall, hfault, hlast⟩ | ⟨shown, e, others, rfl, he, hfault, hlast⟩
        · rw [List.append_assoc] at hlast
          exact .inl ⟨List.forall_mem_cons.mpr ⟨hshows, hall⟩, hfault, hlast⟩
        · rw [List.append_assoc before] at hlast
          exact .inr ⟨d :: shown, e, others, rfl, he, hfault, hlast⟩
      · obtain ⟨next, fault, hemit, hnext⟩ := emit_of_not_shows h hcomplete.1 hshows
        refine ⟨next, "", some fault, by simp only [emitAll, hemit], .inr ⟨[], d, rest, rfl, hshows,
          by simp, ?_⟩⟩
        rw [List.append_nil]
        exact hnext

end Reporter

/-! ## Agreement -/

open Sarif

/-- The counts of a tally are those of the results, and a document says the same of them. -/
structure Agrees (r : Results) (tally : Tally) (document : Json) : Prop where
  errors : tally.error = r.errorCount
  warnings : tally.warning = r.warningCount
  fixable : tally.fixable = r.fixableCount
  total : tally.total = r.total
  /-- One result per diagnostic, in order. -/
  results : List.Forall₂ Tells r.diagnostics (resultsIn document)
  distinct : ((rulesIn document).map (text? · "id")).Nodup
  /-- The rules are those that results name, in order of first appearance. -/
  rules : (rulesIn document).map (text? · "id")
    = ((resultsIn document).map (text? · "ruleId")).eraseDups
  /-- The replacements, read back, are the fixes that have a span, in order. -/
  fixes : ((resultsIn document).flatMap replacementsIn).map fixIn?
    = (r.fixes.filter fun f => f.span.isSome).map some

/-- Results that tell of diagnostics name their rules. -/
theorem ruleIds_of_tells {ds : List Diagnostic} {vs : List Json} (h : List.Forall₂ Tells ds vs) :
    vs.map (text? · "ruleId") = (ds.map Diagnostic.finding).map fun f => some f.id := by
  induction h with
  | nil => rfl
  | cons hv _ ih =>
    rw [List.map_cons, List.map_cons, List.map_cons, hv.ruleId, ih]

/-- They have the replacements of the fixes with a span, in order. -/
theorem fixes_of_tells {ds : List Diagnostic} {vs : List Json} (h : List.Forall₂ Tells ds vs) :
    (vs.flatMap replacementsIn).map fixIn?
      = ((ds.filterMap Diagnostic.fix).filter fun f => f.span.isSome).map some := by
  induction h with
  | nil => rfl
  | @cons d v ds vs hv _ ih =>
    rw [List.flatMap_cons, List.map_append, hv.replacements, ih, List.filterMap_cons]
    rcases d.fix with _ | f
    · rfl
    · rw [← List.map_append, ← List.filter_append]
      rfl

/-- A report that has counted and gathered the diagnostics of results agrees with them. -/
theorem agrees_of_accounts {r : Results} {tally : Tally} {s : Sarif}
    (hcounts : tally.Counts r.diagnostics) (hgathers : s.Gathers r.diagnostics)
    (tool version : String) : Agrees r tally (s.document tool version) := by
  have htells := hgathers.tells
  have hinjective : Function.Injective fun f : Finding => some f.id := by
    intro f g h
    exact Finding.id_injective (Option.some.inj h)
  have hids : (s.rules.map rule).map (text? · "id") = s.rules.map fun f => some f.id :=
    List.map_map
  have hrules : (s.rules.map rule).map (text? · "id")
      = (s.results.map (text? · "ruleId")).eraseDups := by
    rw [hids, ruleIds_of_tells htells, eraseDups_map hinjective, hgathers.rules]
  refine ⟨hcounts.error, hcounts.warning, hcounts.fixable, hcounts.total, ?_, ?_, ?_, ?_⟩
  · rw [resultsIn_document]
    exact htells
  · rw [rulesIn_document, hrules]
    exact nodup_eraseDups _
  · rw [rulesIn_document, resultsIn_document]
    exact hrules
  · rw [resultsIn_document]
    exact fixes_of_tells htells

/-- **Agreement.** Let the diagnostics of results be complete, and shown in a new report with a path
for a document. The tally, the document and the results agree exactly if each diagnostic can be
shown in the style of the report; in the plain style this is so if the places can be written. If one
cannot be shown, the report ends there with a fault, and the tally has one diagnostic more than the
document. The document is written as a whole or, if a limit on integers is passed, not at all. If
all is shown, it is written exactly if the spans of the fixes can be. -/
theorem emitAll_agrees_iff {r : Results} (hcomplete : ∀ d ∈ r.diagnostics, d.Complete)
    (limits : Limits) (style : Style) (path tool version : String) :
    ∃ last text fault document,
      Reporter.emitAll limits { style, sarif := some (path, {}), tool, version } r.diagnostics
        = (last, text, fault) ∧
      last.document? = some document ∧
      (Agrees r last.tally document ↔ ∀ d ∈ r.diagnostics, style.Shows limits d.location) ∧
      (fault = none ↔ ∀ d ∈ r.diagnostics, style.Shows limits d.location) ∧
      ((∃ d ∈ r.diagnostics, ¬ style.Shows limits d.location) →
        last.tally.total = (resultsIn document).length + 1) ∧
      (last.output limits = .ok (some ⟨path, document.pretty⟩) ∨
        last.output limits = .error (.beyondLimit (.writtenDigits limits.digits))) ∧
      (last.output limits = .ok (some ⟨path, document.pretty⟩) ↔
        ∀ n ∈ document.integers, limits.ofInt? n = none) ∧
      (fault = none → (last.output limits = .ok (some ⟨path, document.pretty⟩) ↔
        ∀ d ∈ r.diagnostics, Measured limits d)) := by
  have hnew : Reporter.Accounts { style, sarif := some (path, {}), tool, version } path [] [] :=
    ⟨.nil, {}, rfl, .nil⟩
  obtain ⟨last, text, fault, hrun, hcases⟩ := Reporter.emitAll_accounts _ hnew hcomplete
  rcases hcases with ⟨hall, hfault, htally, s, hsarif, hgathers⟩ |
    ⟨shown, d, rest, hsplit, hnot, hfault, htally, s, hsarif, hgathers⟩
  · obtain ⟨hoccurs, houtput⟩ := Reporter.output_eq_ok_iff hsarif
    refine ⟨last, text, fault, s.document last.tool last.version, hrun,
      Reporter.document?_eq hsarif, ?_, ?_, ?_, hoccurs, houtput, ?_⟩
    · exact iff_of_true (agrees_of_accounts htally hgathers _ _) hall
    · exact iff_of_true hfault hall
    · rintro ⟨d, hd, hnot⟩
      exact absurd (hall d hd) hnot
    · intro _
      rw [houtput, ← Json.writtenExcess?_eq_none_iff, hgathers.writtenExcess?_eq_none_iff]
      exact forall₂_congr fun d hd => and_iff_right (hall d hd).writable
  · obtain ⟨hoccurs, houtput⟩ := Reporter.output_eq_ok_iff hsarif
    have hlength : (resultsIn (s.document last.tool last.version)).length = shown.length := by
      rw [resultsIn_document]
      exact hgathers.results.length_eq.symm
    have hsome : ¬ ∀ d ∈ r.diagnostics, style.Shows limits d.location := by
      intro hall
      exact hnot (hall d (by simp [hsplit]))
    refine ⟨last, text, fault, s.document last.tool last.version, hrun,
      Reporter.document?_eq hsarif, ?_, ?_, ?_, hoccurs, houtput, fun h => absurd h hfault⟩
    · refine iff_of_false ?_ hsome
      intro hagrees
      have hall := hagrees.results.length_eq
      rw [hlength, hsplit, List.length_append, List.length_cons] at hall
      omega
    · exact iff_of_false hfault hsome
    · intro _
      rw [htally.total, hlength, List.nil_append, List.length_append, List.length_singleton]

/-- Diagnostics with and without fixes, and a last one in a column too far left to be counted. -/
def mixed : List Diagnostic :=
  [{ finding := .misspelled, data := [("name", "class"), ("standardName", "className")]
     severity := .error, location := ⟨"a", 1, 4⟩
     fix := some ⟨"className", some ⟨3, 8, by decide⟩⟩ },
   { finding := .unknown, data := [("name", "b")], severity := .information
     location := ⟨"a", 1, 0⟩ },
   { finding := .misspelled, data := [("name", "for"), ("standardName", "htmlFor")]
     location := ⟨"a", 7, 3⟩, fix := some ⟨"htmlFor", none⟩ },
   unknownAt 1 (-indexBound)]

/-- In the plain style all is in step, and the document is written. For a terminal the last
diagnostic cannot be shown, and the document lacks it. -/
theorem emitAll_agrees_iff_mixed :
    (∀ d ∈ mixed, d.Complete) ∧
    (∃ last text document,
      Reporter.emitAll machine { style := .plain, sarif := some ("out", {}) } mixed
        = (last, text, none) ∧
      last.document? = some document ∧ Agrees { diagnostics := mixed } last.tally document ∧
      last.output machine = .ok (some ⟨"out", document.pretty⟩)) ∧
    ∃ last text fault document,
      Reporter.emitAll machine
        { style := .terminal (Ansi.paint true) [("a", "<a b>")], sarif := some ("out", {}) } mixed
          = (last, text, fault) ∧
      last.document? = some document ∧ fault ≠ none ∧
      ¬ Agrees { diagnostics := mixed } last.tally document ∧
      last.tally.total = (resultsIn document).length + 1 := by
  have hcomplete : ∀ d ∈ mixed, d.Complete := by decide
  have hplain : ∀ d ∈ mixed, Style.plain.Shows machine d.location := by
    show ∀ d ∈ mixed, d.location.excess? machine = none
    decide
  have hmeasured : ∀ d ∈ mixed, Measured machine d := by
    unfold Measured
    decide
  have hlast : unknownAt 1 (-indexBound) ∈ mixed := by simp [mixed]
  have hnot : ¬ Style.Shows machine (.terminal (Ansi.paint true) [("a", "<a b>")])
      (unknownAt 1 (-indexBound)).location := by
    rintro ⟨-, hno | hno | hno⟩ <;> exact absurd hno (by decide)
  refine ⟨hcomplete, ?_, ?_⟩
  · obtain ⟨last, text, fault, document, hrun, hdocument, hagrees, hfault, -, -, -, hwritten⟩ :=
      emitAll_agrees_iff (r := { diagnostics := mixed }) hcomplete machine .plain "out" toolName
        toolVersion
    obtain rfl := hfault.mpr hplain
    exact ⟨last, text, document, hrun, hdocument, hagrees.mpr hplain,
      (hwritten rfl).mpr hmeasured⟩
  · obtain ⟨last, text, fault, document, hrun, hdocument, hagrees, hfault, hahead, -⟩ :=
      emitAll_agrees_iff (r := { diagnostics := mixed }) hcomplete machine
        (.terminal (Ansi.paint true) [("a", "<a b>")]) "out" toolName toolVersion
    refine ⟨last, text, fault, document, hrun, hdocument, ?_, ?_, hahead ⟨_, hlast, hnot⟩⟩
    · rw [ne_eq, hfault]
      exact fun hall => hnot (hall _ hlast)
    · rw [hagrees]
      exact fun hall => hnot (hall _ hlast)

end Report

end AttributeLint

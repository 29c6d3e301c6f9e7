import AttributeLint.Proofs.JsonText
import AttributeLint.Proofs.Rendering
import Mathlib.Data.List.Forall2

/-!
# Reading diagnostics back

Diagnostics are written as JSON, one object a line. Nothing of them is lost, whatever their texts
hold: quotes, line breaks and characters beyond ASCII are escaped, so a line break always ends a
diagnostic. Only an integer that is too long for the machine keeps a diagnostic from being written.

* `Diagnostic.eq_of_json`: diagnostics with one object are the same.
* `Diagnostic.legible_of_json`: the object can be read back within limits that it keeps.
* `Complete.exists_jsonLine_iff`: which diagnostics have a line.
* `Text.splitOn_intercalate`: lines of plain characters are found again in their text.
* **Lines read back** (`jsonLines_read_back`): complete diagnostics within the limits have one line
  each, and each line reads as the object of its diagnostic.
-/

namespace AttributeLint

/-! ## The object of a diagnostic -/

/-- A severity can be told from its text. -/
theorem Severity.ofText?_text (s : Severity) : ofText? s.text = some s := by
  cases s <;> rfl

/-- A kind of finding can be told from its identifier. -/
theorem Finding.ofId?_id (f : Finding) : ofId? f.id = some f := by
  cases f <;> rfl

/-- A span can be told from its JSON form. -/
theorem Span.json_injective : Function.Injective Span.json := by
  intro a b h
  obtain ⟨start, stop, _⟩ := a
  obtain ⟨start', stop', _⟩ := b
  simp only [Span.json, Json.arr.injEq, List.cons.injEq, Json.int.injEq, and_true] at h
  simp only [Span.mk.injEq]
  omega

/-- So can a fix. -/
theorem Fix.json_injective : Function.Injective Fix.json := by
  intro a b h
  obtain ⟨text, span⟩ := a
  obtain ⟨text', span'⟩ := b
  simp only [Fix.json, Json.obj.injEq, List.cons.injEq, Prod.mk.injEq, Json.str.injEq, true_and,
    and_true] at h
  obtain ⟨hspan, rfl⟩ := h
  have hsame : span = span' := by
    rcases span with _ | s <;> rcases span' with _ | s'
    · rfl
    · cases hspan
    · cases hspan
    · rw [Span.json_injective hspan]
  rw [hsame]

namespace Diagnostic

/-- The fields of the object of a diagnostic with a message. -/
def jsonFields (d : Diagnostic) (message : String) : List (String × Json) :=
  [("file", .str d.location.file), ("line", .int d.location.line),
   ("column", .int d.location.column), ("severity", .str d.severity.text),
   ("ruleId", .str d.rule), ("messageId", .str d.finding.id), ("message", .str message),
   ("data", .obj (d.data.map fun p => (p.1, .str p.2)))]
  ++ match d.fix with
    | some f => [("fix", f.json)]
    | none => []

/-- The object of a diagnostic has its fields, with some message. -/
theorem exists_of_json {d : Diagnostic} {v : Json} (h : d.json = .ok v) :
    ∃ message, v = .obj (d.jsonFields message) := by
  unfold json at h
  split at h
  · cases h
  · cases h
    exact ⟨_, rfl⟩

/-- The object says all that there is to a diagnostic. -/
theorem eq_of_json {d d' : Diagnostic} {v : Json} (h : d.json = .ok v) (h' : d'.json = .ok v) :
    d = d' := by
  obtain ⟨message, rfl⟩ := exists_of_json h
  obtain ⟨message', hv⟩ := exists_of_json h'
  obtain ⟨finding, data, severity, ⟨file, line, column⟩, fix, rule⟩ := d
  obtain ⟨finding', data', severity', ⟨file', line', column'⟩, fix', rule'⟩ := d'
  simp only [jsonFields, List.cons_append, List.nil_append, Json.obj.injEq, List.cons.injEq,
    Prod.mk.injEq, Json.str.injEq, Json.int.injEq, true_and] at hv
  obtain ⟨rfl, rfl, rfl, hseverity, rfl, hfinding, -, hdata, hfix⟩ := hv
  have hseverity' : severity = severity' := by
    have := congrArg Severity.ofText? hseverity
    rwa [Severity.ofText?_text, Severity.ofText?_text, Option.some.injEq] at this
  have hfinding' : finding = finding' := by
    have := congrArg Finding.ofId? hfinding
    rwa [Finding.ofId?_id, Finding.ofId?_id, Option.some.injEq] at this
  have hdata' : data = data' := by
    refine List.map_injective_iff.mpr ?_ hdata
    rintro ⟨k, s⟩ ⟨k', s'⟩ hp
    simpa using hp
  have hfix' : fix = fix' := by
    rcases fix with _ | f <;> rcases fix' with _ | f'
    · rfl
    · cases hfix
    · cases hfix
    · have hjson : f.json = f'.json := by simpa using hfix
      rw [Fix.json_injective hjson]
  rw [hseverity', hfinding', hdata', hfix']

/-- The integers that a diagnostic is written with are those of its object. -/
theorem integers_of_json {d : Diagnostic} {v : Json} (h : d.json = .ok v) :
    v.integers = d.integers := by
  obtain ⟨message, rfl⟩ := exists_of_json h
  rcases hfix : d.fix with _ | ⟨text, _ | s⟩ <;>
    simp [jsonFields, integers, Json.integers, Fix.json, Span.json, hfix, List.flatMap_map]

/-- The object of a diagnostic is at most three containers deep, so all that can make it illegible
are long integers and two values of one name. -/
theorem legible_of_json {limits : Limits} (hdepth : ∀ k < 3, limits.allowsDepth k = true)
    {d : Diagnostic} (hdata : (d.data.map Prod.fst).Nodup)
    (hintegers : ∀ n ∈ d.integers, limits.ofDigits? (Json.intDigits n).length = none) {v : Json}
    (h : d.json = .ok v) : v.Legible limits 0 := by
  obtain ⟨message, rfl⟩ := exists_of_json h
  rw [integers, List.forall_mem_cons, List.forall_mem_cons] at hintegers
  have hvalues : (Json.obj (d.data.map fun p => (p.1, .str p.2))).Legible limits 1 := by
    refine .obj (hdepth 1 (by omega)) ?_ ?_
    · rw [List.map_map]
      exact hdata
    · rw [List.forall_mem_map]
      exact fun p _ => .str p.2
  have hfix : ∀ f ∈ d.fix, f.json.Legible limits 1 := by
    rintro ⟨text, span⟩ hf
    rw [Option.mem_def] at hf
    rw [hf] at hintegers
    refine .obj (hdepth 1 (by omega)) (by simp) ?_
    simp only [List.forall_mem_cons, List.not_mem_nil, false_implies, implies_true, and_true]
    refine ⟨?_, .str text⟩
    rcases span with _ | s
    · exact .null
    · have hends := hintegers.2.2
      refine .arr (hdepth 2 (by omega)) ?_
      simp only [List.forall_mem_cons, List.not_mem_nil, false_implies, implies_true, and_true]
      exact ⟨.int (hends _ (by simp)), .int (hends _ (by simp))⟩
  refine .obj (hdepth 0 (by omega)) ?_ ?_
  · rw [jsonFields]
    rcases d.fix with _ | f
    · show ["file", "line", "column", "severity", "ruleId", "messageId", "message", "data"].Nodup
      decide
    · show ["file", "line", "column", "severity", "ruleId", "messageId", "message", "data",
        "fix"].Nodup
      decide
  · rw [jsonFields, List.forall_mem_append]
    simp only [List.forall_mem_cons, List.not_mem_nil, false_implies, implies_true, and_true]
    refine ⟨⟨.str _, .int hintegers.1, .int hintegers.2.1, .str _, .str _, .str _, .str _, hvalues⟩,
      ?_⟩
    rcases hf : d.fix with _ | f
    · simp
    · rw [List.forall_mem_singleton]
      exact hfix f hf

variable {limits : Limits} {d : Diagnostic} {v : Json}

/-- A diagnostic is written as its object is. -/
theorem jsonLine_of_json (h : d.json = .ok v) :
    d.jsonLine limits = written (v.writtenExcess? limits) v.compact := by
  rw [jsonLine, h]

/-- What can be written within the limit of digits can be read within it. -/
theorem legible_of_written (hdepth : ∀ k < 3, limits.allowsDepth k = true)
    (hdata : (d.data.map Prod.fst).Nodup) (hintegers : d.Writable limits) (h : d.json = .ok v) :
    v.Legible limits 0 :=
  legible_of_json hdepth hdata
    (fun n hn => Limits.ofDigits?_eq_none_iff.mpr (Limits.ofInt?_eq_none_iff.mp (hintegers n hn))) h

/-- A line of a diagnostic is made of the object of the diagnostic, whose integers can be
written. -/
theorem jsonLine_eq_ok_iff {line : String} : d.jsonLine limits = .ok line ↔
    ∃ v, d.json = .ok v ∧ d.Writable limits ∧ v.compact = line := by
  unfold Writable
  constructor
  · intro h
    rcases hv : d.json with f | v
    · rw [jsonLine, hv] at h
      cases h
    · rw [jsonLine_of_json hv, written_eq_ok_iff, Json.writtenExcess?_eq_none_iff,
        integers_of_json hv] at h
      exact ⟨v, rfl, h⟩
  · rintro ⟨v, hv, h⟩
    rwa [jsonLine_of_json hv, written_eq_ok_iff, Json.writtenExcess?_eq_none_iff,
      integers_of_json hv]

/-- A complete diagnostic has a line exactly if each of its integers can be written. -/
theorem Complete.exists_jsonLine_iff (h : d.Complete) :
    (∃ line, d.jsonLine limits = .ok line) ↔ d.Writable limits := by
  obtain ⟨v, hv⟩ := h.exists_json
  simp only [jsonLine_eq_ok_iff]
  constructor
  · rintro ⟨line, -, -, hwritable, -⟩
    exact hwritable
  · intro hwritable
    exact ⟨_, v, hv, hwritable, rfl⟩

/-- If it has none, the fault is that of the limit. -/
theorem Complete.jsonLine_eq_error (h : d.Complete) {f : Fault}
    (hf : d.jsonLine limits = .error f) : f = .beyondLimit (.writtenDigits limits.digits) := by
  obtain ⟨v, hv⟩ := h.exists_json
  rw [jsonLine_of_json hv] at hf
  rcases hexcess : v.writtenExcess? limits with _ | x
  · rw [hexcess] at hf
    cases hf
  · rw [hexcess] at hf
    cases hf
    rw [Json.writtenExcess?_eq_some hexcess]

/-- Without limits, values of distinct names are all it takes to read an object back. -/
theorem legible_unlimited (hdata : (d.data.map Prod.fst).Nodup) (h : d.json = .ok v) :
    v.Legible {} 0 :=
  legible_of_json (fun _ _ => rfl) hdata (fun _ _ => rfl) h

end Diagnostic

/-! ## Lines -/

namespace Text

variable {lines : List String}

/-- Lines of visible characters are put together with line breaks only. -/
theorem plain_intercalate (h : ∀ line ∈ lines, ∀ c ∈ line.toList, Plain c) :
    ∀ c ∈ ("\n".intercalate lines).toList, c = '\n' ∨ Plain c := by
  rw [String.toList_intercalate, ← Json.separated_eq_intercalate]
  apply Json.forall_mem_separated
  · intro c hc
    exact .inl (List.mem_singleton.mp hc)
  · rw [List.forall_mem_map]
    intro line hline c hc
    exact .inr (h line hline c hc)

/-- Lines without line breaks are cut apart again. -/
theorem splitOn_lines (h : ∀ line ∈ lines, '\n' ∉ line.toList) (hne : lines ≠ []) :
    ("\n".intercalate lines).toList.splitOn '\n' = lines.map String.toList := by
  rw [String.toList_intercalate]
  apply List.splitOn_intercalate
  · rw [List.forall_mem_map]
    exact h
  · rw [ne_eq, List.map_eq_nil_iff]
    exact hne

/-- Lines of visible characters are cut apart again. -/
theorem splitOn_intercalate (h : ∀ line ∈ lines, ∀ c ∈ line.toList, Plain c) (hne : lines ≠ []) :
    ("\n".intercalate lines).toList.splitOn '\n' = lines.map String.toList := by
  apply splitOn_lines _ hne
  intro line hline hbreak
  exact absurd (h line hline '\n' hbreak) (by decide)

end Text

/-- **Lines read back.** Take complete diagnostics whose values have distinct names. They are
written exactly if each of their integers is within the limit of digits; otherwise the fault is that
of the limit. What is written has visible ASCII characters and blanks only, and one line for each
diagnostic. Each line reads as the object of its diagnostic, without limits and within the same
limits, if three containers may nest. Diagnostics with one line are the same. -/
theorem jsonLines_read_back (limits : Limits) {r : Results}
    (hcomplete : ∀ d ∈ r.diagnostics, d.Complete)
    (hdata : ∀ d ∈ r.diagnostics, (d.data.map Prod.fst).Nodup) :
    ((∃ text, r.jsonLines limits = .ok text) ↔ ∀ d ∈ r.diagnostics, d.Writable limits) ∧
    (∀ f, r.jsonLines limits = .error f → f = .beyondLimit (.writtenDigits limits.digits)) ∧
    (∀ text, r.jsonLines limits = .ok text →
      (∀ c ∈ text.toList, c = '\n' ∨ 0x20 ≤ c.toNat ∧ c.toNat < 0x7f) ∧
      (r.diagnostics = [] → text = "") ∧
      ∃ lines : List String,
        (r.diagnostics ≠ [] → text.toList.splitOn '\n' = lines.map String.toList) ∧
        List.Forall₂ (fun d line => d.jsonLine limits = .ok line ∧ ∃ v, d.json = .ok v ∧
          Json.read line = .ok v ∧ ((∀ k < 3, limits.allowsDepth k = true) →
            Json.readWithin limits line = .ok v)) r.diagnostics lines) ∧
    ∀ d ∈ r.diagnostics, ∀ d' ∈ r.diagnostics, ∀ line, d.jsonLine limits = .ok line →
      d'.jsonLine limits = .ok line → d = d' := by
  refine ⟨?_, ?_, ?_, ?_⟩
  · rw [Results.jsonLines, Results.exists_joinLines_iff]
    exact forall₂_congr fun d hd => (hcomplete d hd).exists_jsonLine_iff
  · intro f hf
    obtain ⟨d, hd, hfault⟩ :=
      Results.exists_of_renderAll_error (Results.joinLines_eq_error_iff.mp hf)
    exact (hcomplete d hd).jsonLine_eq_error hfault
  · intro text htext
    obtain ⟨lines, hrender, rfl⟩ := Results.joinLines_eq_ok_iff.mp htext
    have hlines := Results.renderAll_eq_ok_iff.mp hrender
    have hplain : ∀ line ∈ lines, ∀ c ∈ line.toList, Text.Plain c := by
      intro line hline
      obtain ⟨d, hd, hjson⟩ := exists_of_mem_right hlines hline
      obtain ⟨v, hv, -, rfl⟩ := Diagnostic.jsonLine_eq_ok_iff.mp hjson
      rw [Json.compact, String.toList_ofList]
      exact (Diagnostic.legible_unlimited (hdata d hd) hv).plain
    refine ⟨Text.plain_intercalate hplain, ?_, lines, ?_, ?_⟩
    · intro hnone
      rw [hnone, List.forall₂_nil_left_iff] at hlines
      rw [hlines, String.intercalate_nil]
    · intro hsome
      apply Text.splitOn_intercalate hplain
      rintro rfl
      exact hsome (List.forall₂_nil_right_iff.mp hlines)
    · refine ((List.forall₂_and_left _ _).mpr ⟨hdata, hlines⟩).imp ?_
      rintro d _ ⟨hdistinct, hline⟩
      obtain ⟨v, hv, hintegers, rfl⟩ := Diagnostic.jsonLine_eq_ok_iff.mp hline
      refine ⟨hline, v, hv, (Diagnostic.legible_unlimited hdistinct hv).readWithin_compact, ?_⟩
      intro hdepth
      exact (Diagnostic.legible_of_written hdepth hdistinct hintegers hv).readWithin_compact
  · intro d hd d' hd' line hline hline'
    obtain ⟨v, hv, -, htext⟩ := Diagnostic.jsonLine_eq_ok_iff.mp hline
    obtain ⟨v', hv', -, htext'⟩ := Diagnostic.jsonLine_eq_ok_iff.mp hline'
    obtain rfl := (Diagnostic.legible_unlimited (hdata d hd) hv).eq_of_compact
      (Diagnostic.legible_unlimited (hdata d' hd') hv') (htext.trans htext'.symm)
    exact Diagnostic.eq_of_json hv hv'

/-- Two diagnostics with texts that need every kind of escape, and integers of both signs. -/
def escapedPair : List Diagnostic :=
  [{ finding := .misspelled
     data := [("name", "a\"\\\n\r\t\x08\x0c\x00\x7f"), ("standardName", "é\u2028😀"), ("", "")]
     severity := .error, location := ⟨"dir/ü\n.jsx", -3, 100000000000000000000⟩
     fix := some ⟨"</", some ⟨0, 7, by decide⟩⟩, rule := "a \"rule\"" },
   { finding := .unknown, data := [("name", "😀")], fix := some ⟨"", none⟩ }]

/-- Both diagnostics have the values that their messages name. -/
theorem complete_escapedPair : ∀ d ∈ escapedPair, d.Complete := by
  decide

/-- Characters of all kinds that are escaped, and integers of as many digits as are taken, are read
back within just the limits that this needs. -/
theorem jsonLines_read_back_escaped :
    (∀ d ∈ escapedPair, d.Complete) ∧ (∀ d ∈ escapedPair, (d.data.map Prod.fst).Nodup) ∧
      ∃ text lines,
        ({ diagnostics := escapedPair } : Results).jsonLines ⟨21, some 3, none⟩ = .ok text ∧
        text.toList.splitOn '\n' = lines.map String.toList ∧
        List.Forall₂ (fun d line => ∃ v, d.json = .ok v ∧ Json.read line = .ok v ∧
          Json.readWithin ⟨21, some 3, none⟩ line = .ok v) escapedPair lines := by
  have hdata : ∀ d ∈ escapedPair, (d.data.map Prod.fst).Nodup := by decide
  obtain ⟨hwritten, -, hread, -⟩ := jsonLines_read_back ⟨21, some 3, none⟩
    (r := { diagnostics := escapedPair }) complete_escapedPair hdata
  obtain ⟨text, htext⟩ := hwritten.mpr (by decide)
  obtain ⟨-, -, lines, hsplit, hlines⟩ := hread text htext
  refine ⟨complete_escapedPair, hdata, text, lines, htext, hsplit (by simp [escapedPair]), ?_⟩
  refine hlines.imp ?_
  rintro d line ⟨-, v, hv, hfree, hwithin⟩
  exact ⟨v, hv, hfree, hwithin (by decide)⟩

/-- A diagnostic at a line of any number. -/
def unknownAtLine (line : Int) : Diagnostic :=
  { finding := .unknown, data := [("name", "a")], location := ⟨"f", line, 0⟩ }

/-- It has the one value that its message names. -/
theorem complete_unknownAtLine (line : Int) : (unknownAtLine line).Complete := by
  rw [Diagnostic.complete_iff]
  simp [unknownAtLine, Finding.fields, Finding.template, Piece.field?]

/-- It cannot be written if the line number passes the limit. -/
theorem jsonLines_unknownAtLine {limits : Limits} {line : Int} {x : Excess}
    (h : limits.ofInt? line = some x) :
    ({ diagnostics := [unknownAtLine line] } : Results).jsonLines limits
      = .error (.beyondLimit x) := by
  obtain ⟨v, hv⟩ := (complete_unknownAtLine line).exists_json
  have hexcess : v.writtenExcess? limits = some x := by
    have hintegers : (unknownAtLine line).integers = [line, 0] := rfl
    rw [Json.writtenExcess?, Diagnostic.integers_of_json hv, hintegers, List.findSome?_cons, h]
  rw [Results.jsonLines, Results.joinLines_eq_error_iff, Results.renderAll,
    Diagnostic.jsonLine_of_json hv, hexcess, written_some]

/-- A diagnostic that has all the values of its message, each name once, cannot be written if its
line number has more digits than the machine takes. -/
theorem jsonLines_longLine :
    (unknownAtLine (10 ^ 4300)).Complete ∧
      ((unknownAtLine (10 ^ 4300)).data.map Prod.fst).Nodup ∧
      ({ diagnostics := [unknownAtLine (10 ^ 4300)] } : Results).jsonLines { digits := 4300 }
        = .error (.beyondLimit (.writtenDigits 4300)) :=
  ⟨complete_unknownAtLine _, List.pairwise_singleton _ _,
    jsonLines_unknownAtLine (Limits.ofInt?_tenPow rfl (by decide))⟩

end AttributeLint

import AttributeLint.Proofs.InStep
import AttributeLint.Proofs.WithinLimits
import AttributeLint.Report.Render
import AttributeLint.Report.Sarif
import AttributeLint.Results
import Mathlib.Tactic.SplitIfs

/-!
# Which diagnostics can be rendered

A rendering asks a diagnostic for the values that its message template names. A diagnostic that
carries them all is `Complete`; every diagnostic that is made of a verdict is. A rendering as text
also writes the place, which must be within the limits of the machine, and the one for terminals
counts out blanks up to the column, which not every integer allows.

* `Diagnostic.complete_iff`: completeness can be decided.
* `Diagnostic.complete_ofVerdict`: diagnostics of verdicts are complete.
* `Complete.exists_json`, `exists_hint`, `exists_add`: what a complete diagnostic can be turned
  into.
* `Complete.exists_line_iff`, `exists_plain_iff`: when it has a line, and a plain text.
* `Diagnostic.writable_iff`: the integers that a diagnostic is written with.
* `Results.renderAll_eq_ok_iff`: diagnostics are rendered in order, each by itself.
* `Complete.exists_terminal_iff`: when a diagnostic can be shown on a terminal.
-/

namespace AttributeLint

/-! ## Complete diagnostics -/

/-- The diagnostic carries every value that its message template names. -/
def Diagnostic.Complete (x : Diagnostic) : Prop :=
  ∀ field, Piece.value field ∈ x.finding.template → ∃ s, x.data.lookup field = some s

/-- A template is filled if each value that it names is there. -/
theorem exists_fill {data : List (String × String)} :
    (pieces : List Piece) →
      (∀ field, Piece.value field ∈ pieces → ∃ s, data.lookup field = some s) →
        ∃ text, fill data pieces = .ok text
  | [], _ => ⟨"", rfl⟩
  | .text s :: rest, h => by
      obtain ⟨more, hmore⟩ := exists_fill rest fun field hf => h field (List.mem_cons_of_mem _ hf)
      refine ⟨s ++ more, ?_⟩
      rw [fill, hmore]
  | .value field :: rest, h => by
      obtain ⟨s, hs⟩ := h field List.mem_cons_self
      obtain ⟨more, hmore⟩ := exists_fill rest fun field hf => h field (List.mem_cons_of_mem _ hf)
      refine ⟨s ++ more, ?_⟩
      rw [fill, hs, hmore]

/-- The value that a piece of a template asks for. -/
def Piece.field? : Piece → Option String
  | .text _ => none
  | .value field => some field

/-- The values that the message template of a finding names, in order. -/
def Finding.fields (f : Finding) : List String :=
  f.template.filterMap Piece.field?

/-- They are the ones that stand in the template. -/
theorem Finding.mem_fields {f : Finding} {field : String} :
    field ∈ f.fields ↔ Piece.value field ∈ f.template := by
  rw [fields, List.mem_filterMap]
  constructor
  · rintro ⟨piece, hpiece, hfield⟩
    rcases piece with s | other
    · cases hfield
    · cases hfield
      exact hpiece
  · intro hpiece
    exact ⟨_, hpiece, rfl⟩

/-- Completeness is a matter of finitely many values. -/
theorem Diagnostic.complete_iff {x : Diagnostic} :
    x.Complete ↔ ∀ field ∈ x.finding.fields, (x.data.lookup field).isSome = true := by
  simp only [Complete, Finding.mem_fields, Option.isSome_iff_exists]

instance (x : Diagnostic) : Decidable x.Complete :=
  decidable_of_iff _ Diagnostic.complete_iff.symm

/-- What is made of a verdict carries the values for its finding. -/
theorem Diagnostic.complete_ofVerdict {severity : Severity} {rule : String} {c : Context}
    {a : Attribute} {r : Verdict} {x : Diagnostic}
    (h : Diagnostic.ofVerdict severity rule c a r = some x) : x.Complete := by
  rcases r with _ | _ | n | ⟨n, tags⟩ <;> cases h
  all_goals
    intro field hfield
    simp only [Finding.template, List.mem_cons, Piece.value.injEq, reduceCtorEq, false_or,
      List.not_mem_nil, or_false] at hfield
  · subst hfield
    exact ⟨_, rfl⟩
  · rcases hfield with rfl | rfl <;> exact ⟨_, rfl⟩
  · rcases hfield with rfl | rfl | rfl <;> exact ⟨_, rfl⟩

namespace Diagnostic.Complete

variable {x : Diagnostic} {limits : Limits}

/-- A complete diagnostic has a message. -/
theorem exists_message (h : x.Complete) : ∃ text, x.message = .ok text :=
  exists_fill _ h

/-- It has every value that its message names. -/
theorem exists_value (h : x.Complete) {field : String}
    (hfield : Piece.value field ∈ x.finding.template) : ∃ s, x.value field = .ok s := by
  obtain ⟨s, hs⟩ := h field hfield
  refine ⟨s, ?_⟩
  unfold Diagnostic.value
  rw [hs]

/-- It has a name. -/
theorem exists_name (h : x.Complete) : ∃ s, x.name = .ok s := by
  refine h.exists_value ?_
  rcases x.finding with _ | _ | _ <;> simp [Finding.template]

/-- It has a hint, or is of a kind without one. -/
theorem exists_hint (h : x.Complete) : ∃ hint, x.hint = .ok hint := by
  unfold Diagnostic.hint
  rcases hfinding : x.finding with _ | _ | _
  · exact ⟨none, rfl⟩
  · have hfield : Piece.value "standardName" ∈ x.finding.template := by
      simp [hfinding, Finding.template]
    obtain ⟨s, hs⟩ := h.exists_value hfield
    exact ⟨_, by rw [hs]⟩
  · have hfield : Piece.value "allowedTags" ∈ x.finding.template := by
      simp [hfinding, Finding.template]
    obtain ⟨s, hs⟩ := h.exists_value hfield
    exact ⟨_, by rw [hs]⟩

/-- It has a JSON form. -/
theorem exists_json (h : x.Complete) : ∃ v, x.json = .ok v := by
  obtain ⟨text, htext⟩ := h.exists_message
  unfold Diagnostic.json
  rw [htext]
  exact ⟨_, rfl⟩

/-- A complete diagnostic has a line exactly if its place can be written. -/
theorem exists_line_iff (h : x.Complete) :
    (∃ line, x.line limits = .ok line) ↔ x.location.excess? limits = none := by
  obtain ⟨text, htext⟩ := h.exists_message
  unfold Diagnostic.line
  rcases x.location.excess? limits with _ | e
  · simp [htext]
  · simp

/-- If it has none, the fault is that of the limit. -/
theorem line_eq_error (h : x.Complete) {f : Fault} (hf : x.line limits = .error f) :
    f = .beyondLimit (.writtenDigits limits.digits) := by
  obtain ⟨text, htext⟩ := h.exists_message
  unfold Diagnostic.line at hf
  rcases hexcess : x.location.excess? limits with _ | e
  · simp [hexcess, htext] at hf
  · rw [hexcess] at hf
    cases hf
    rw [Location.excess?_eq_some hexcess]

/-- A complete diagnostic has a plain text exactly if its place can be written. -/
theorem exists_plain_iff (h : x.Complete) :
    (∃ text, Report.plain limits x = .ok text) ↔ x.location.excess? limits = none := by
  obtain ⟨hint, hhint⟩ := h.exists_hint
  rw [← h.exists_line_iff]
  unfold Report.plain
  rcases x.line limits with f | line
  · simp [bind, Except.bind]
  · simp [hhint, bind, Except.bind, pure, Except.pure]

/-- It can be added to any document. -/
theorem exists_add (h : x.Complete) (sarif : Report.Sarif) : ∃ more, sarif.add x = .ok more := by
  obtain ⟨text, htext⟩ := h.exists_message
  obtain ⟨hint, hhint⟩ := h.exists_hint
  unfold Report.Sarif.add Report.Sarif.result
  rw [htext, hhint]
  exact ⟨_, rfl⟩

end Diagnostic.Complete

/-! ## Integers of a diagnostic -/

namespace Diagnostic

variable {x : Diagnostic} {limits : Limits}

/-- The integers that a diagnostic is written with. -/
def integers (x : Diagnostic) : List Int :=
  x.location.line :: x.location.column ::
    ((x.fix.bind Fix.span).toList.flatMap fun s => [(s.start : Int), (s.stop : Int)])

/-- Each of them is within the limit. -/
def Writable (limits : Limits) (x : Diagnostic) : Prop :=
  ∀ n ∈ x.integers, limits.ofInt? n = none

instance : Decidable (x.Writable limits) :=
  inferInstanceAs (Decidable (∀ n ∈ x.integers, limits.ofInt? n = none))

/-- A diagnostic can be written exactly if its place and the span of its fix can be. -/
theorem writable_iff : x.Writable limits ↔ x.location.excess? limits = none ∧
    ∀ f ∈ x.fix, ∀ s ∈ f.span, limits.ofInt? s.start = none ∧ limits.ofInt? s.stop = none := by
  rw [Writable, integers, List.forall_mem_cons, List.forall_mem_cons, ← and_assoc,
    ← Location.excess?_eq_none_iff]
  rcases x.fix with _ | ⟨text, _ | s⟩ <;> simp

end Diagnostic

/-! ## Diagnostics in order -/

namespace Results

variable {render : Diagnostic → Except Fault String} {ds : List Diagnostic}

/-- What is rendered of diagnostics is what is rendered of each, in order. -/
theorem renderAll_eq_ok_iff {texts : List String} : renderAll render ds = .ok texts ↔
    List.Forall₂ (fun x text => render x = .ok text) ds texts := by
  induction ds generalizing texts with
  | nil => simp [renderAll, eq_comm]
  | cons x rest ih =>
    unfold renderAll
    rw [List.forall₂_cons_left_iff]
    simp only [← ih]
    rcases render x with f | text
    · simp
    · rcases renderAll render rest with f | more
      · simp
      · simp [eq_comm]

/-- A fault of all is the fault of one. -/
theorem exists_of_renderAll_error {f : Fault} (h : renderAll render ds = .error f) :
    ∃ x ∈ ds, render x = .error f := by
  induction ds with
  | nil => cases h
  | cons x rest ih =>
    unfold renderAll at h
    rcases hx : render x with g | text
    · rw [hx] at h
      cases h
      exact ⟨x, List.mem_cons_self, hx⟩
    · rcases hrest : renderAll render rest with g | more
      · rw [hx, hrest] at h
        cases h
        obtain ⟨y, hy, hfault⟩ := ih hrest
        exact ⟨y, List.mem_cons_of_mem _ hy, hfault⟩
      · rw [hx, hrest] at h
        cases h

/-- Lines are put together with line breaks between neighbours. -/
theorem joinLines_eq_ok_iff {r : Except Fault (List String)} {text : String} :
    joinLines r = .ok text ↔ ∃ lines, r = .ok lines ∧ "\n".intercalate lines = text := by
  rcases r with f | lines <;> simp [joinLines]

/-- A fault of the lines is kept. -/
theorem joinLines_eq_error_iff {r : Except Fault (List String)} {f : Fault} :
    joinLines r = .error f ↔ r = .error f := by
  rcases r with g | lines <;> simp [joinLines]

/-- Lines can be joined exactly if each of them can be made. -/
theorem exists_joinLines_iff : (∃ text, joinLines (renderAll render ds) = .ok text) ↔
    ∀ x ∈ ds, ∃ line, render x = .ok line := by
  rw [← exists_forall₂_iff]
  simp only [joinLines_eq_ok_iff, renderAll_eq_ok_iff]
  constructor
  · rintro ⟨text, lines, hlines, -⟩
    exact ⟨lines, hlines⟩
  · rintro ⟨lines, hlines⟩
    exact ⟨_, lines, hlines, rfl⟩

end Results

/-! ## Columns on a terminal -/

namespace Report

variable {limits : Limits}

/-- There is no source line to show for the location, or no column to point at, or the column is
one that blanks can be counted out to, and there is memory for them. -/
def Fits (limits : Limits) (sources : Sources) (l : Location) : Prop :=
  sourceLine sources l.file l.line = none ∨ l.column = 0 ∨
    (-indexBound ≤ l.column - 1 ∧ l.column - 1 < indexBound ∧
      limits.allowsBlanks (l.column - 1).toNat = true)

/-- There are blanks for a column exactly if they can be counted and are not too many. -/
theorem exists_indent_iff {column : Int} : (∃ blanks, indent limits column = .ok blanks) ↔
    -indexBound ≤ column - 1 ∧ column - 1 < indexBound ∧
      limits.allowsBlanks (column - 1).toNat = true := by
  unfold indent
  split_ifs with hindex hmemory
  · simp only [exists_false, false_iff]
    omega
  · simp only [Except.ok.injEq, exists_eq', true_iff, hmemory, and_true]
    omega
  · simp only [reduceCtorEq, exists_false, hmemory, and_false]

/-- There is an excerpt, or none is needed, exactly if the column fits. -/
theorem exists_excerptLines_iff (paint : Paint) (sources : Sources) {x : Diagnostic}
    (hline : limits.ofInt? x.location.line = none) (name : String) :
    (∃ shown, excerptLines limits paint sources x name = .ok shown) ↔
      Fits limits sources x.location := by
  unfold excerptLines Fits
  rcases sourceLine sources x.location.file x.location.line with _ | source
  · simp
  · by_cases hcolumn : x.location.column = 0
    · simp [hcolumn]
    · simp only [hcolumn, if_false, reduceCtorEq, false_or]
      rw [← exists_indent_iff]
      unfold excerpt
      rw [hline, written_none]
      rcases indent limits x.location.column with f | blanks <;>
        simp [bind, Except.bind, pure, Except.pure]

/-- A place that can be written has its lines. -/
theorem exists_placeLines (paint : Paint) {l : Location} (h : l.excess? limits = none) :
    ∃ place, placeLines limits paint l = .ok place := by
  unfold placeLines
  split_ifs with hnowhere
  · exact ⟨_, rfl⟩
  · rw [h]
    exact ⟨_, rfl⟩

end Report

/-- A complete diagnostic can be shown on a terminal exactly if its place can be written and its
column fits, however texts are painted. -/
theorem Diagnostic.Complete.exists_terminal_iff {x : Diagnostic} (h : x.Complete) (limits : Limits)
    (paint : Report.Paint) (sources : Report.Sources) :
    (∃ text, Report.terminal limits paint sources x = .ok text) ↔
      x.location.excess? limits = none ∧ Report.Fits limits sources x.location := by
  obtain ⟨message, hmessage⟩ := h.exists_message
  obtain ⟨name, hname⟩ := h.exists_name
  obtain ⟨hint, hhint⟩ := h.exists_hint
  unfold Report.terminal
  simp only [hmessage, hname, hhint, bind, Except.bind]
  by_cases hlocation : x.location.excess? limits = none
  · obtain ⟨line, hline⟩ := h.exists_line_iff.mpr hlocation
    obtain ⟨place, hplace⟩ := Report.exists_placeLines paint hlocation
    rw [← Report.exists_excerptLines_iff paint sources
      (Location.excess?_eq_none_iff.mp hlocation).1 name, and_iff_right hlocation]
    simp only [hline, hplace]
    rcases Report.excerptLines limits paint sources x name with f | shown
    · simp
    · simp [pure, Except.pure]
  · -- the plain line comes last and cannot be written
    obtain ⟨f, hline⟩ : ∃ f, x.line limits = .error f := by
      rcases hline : x.line limits with f | line
      · exact ⟨f, rfl⟩
      · exact absurd (h.exists_line_iff.mp ⟨line, hline⟩) hlocation
    simp only [hlocation, false_and, iff_false, hline]
    rcases Report.placeLines limits paint x.location with g | place
    · simp
    · rcases Report.excerptLines limits paint sources x name with g | shown <;> simp

end AttributeLint

import AttributeLint.CommandLine.Session
import AttributeLint.Proofs.Pipeline

/-!
# The phases of the command

The command loads all dumps, then checks all their files, then writes. What each phase gives is said
here without the log and the clock.

* `loadAll_eq_mapM`: loading is loading path by path, up to the first fault.
* `runAll_reported`: checking never fails, and reports of each file what is `reported` of it alone.
* `Dump.escapes_iff`: the faults of loading that are no problems of the input. A dump has one only
  if its path cannot be handed to the system or its text is beyond a limit of the machine.
* `writable_of_mem_reported`: behind the reader no integer is too long any more.
* `Json.readWithin_eq_tokensUpTo`: a reading that evaluates, for the runs on fixed documents.
-/

namespace AttributeLint

open Declarations

/-! ## Faults that escape -/

/-- Loading meets a fault of no family: the path has a null character, or the text that is read
passes a limit. -/
inductive Dump.Escapes (limits : Limits) (path : String) (opened : Opened) : Fault → Prop where
  | null (h : Path.hasNull path = true) : Escapes limits path opened .nullInPath
  | limit {text : String} {e : Json.ReadError} {excess : Excess}
      (htext : textOf path opened = .ok text) (hread : Json.readWithin limits text = .error e)
      (hflaw : e.flaw = .excess excess) : Escapes limits path opened (.beyondLimit excess)

/-- A fault escapes exactly if it is of no family. -/
theorem Fault.problem?_eq_none_iff {f : Fault} : f.problem? = none ↔ f.family? = none := by
  simp [Fault.problem?]

/-- A document that is read and refused is refused with a problem: what was read can be shown. -/
theorem Dump.family?_ofJson {limits : Limits} {text : String} {document : Json}
    (htext : Json.readWithin limits text = .ok document) {f : Fault}
    (h : ofJson limits document = .error f) : f.family? ≠ none := by
  rcases refused_of_ofJson h with hf | ⟨hf, -⟩ | ⟨-, hshown⟩
  · simp [hf]
  · simp [hf]
  · exact absurd (Json.readWithin_shown htext) hshown

/-- The faults of loading without a problem are those that escape. -/
theorem Dump.escapes_iff {limits : Limits} {path : String} {opened : Opened} {f : Fault} :
    Escapes limits path opened f ↔ load limits path opened = .error f ∧ f.problem? = none := by
  rw [Fault.problem?_eq_none_iff]
  constructor
  · intro h
    cases h with
    | null h => simp [load, textOf, h, Fault.family?]
    | limit htext hread hflaw => simp [load, htext, ofText, hread, unread, hflaw, Fault.family?]
  · rintro ⟨hload, hnone⟩
    unfold load at hload
    rcases htext : textOf path opened with g | text
    · rw [htext] at hload
      cases hload
      unfold textOf at htext
      split at htext
      case isTrue hnull =>
        cases htext
        exact .null hnull
      case isFalse =>
        split at htext
        · cases htext
          cases hnone
        · split at htext
          · cases htext
            cases hnone
          · cases htext
    · rw [htext] at hload
      simp only [ofText] at hload
      rcases hread : Json.readWithin limits text with e | document
      · rw [hread] at hload
        cases hload
        unfold unread at hnone ⊢
        split
        case h_1 excess hflaw => exact .limit htext hread hflaw
        case h_2 hflaw =>
          split at hnone
          · exact absurd ‹_› (hflaw _)
          · cases hnone
      · rw [hread] at hload
        exact absurd hnone (family?_ofJson hread hload)

/-! ## Reading by computation -/

namespace Json

/-- The lexemes of a text, where the text is not longer than a bound. -/
def tokensUpTo : Nat → List Char → List Lexeme
  | 0, _ => []
  | _ + 1, [] => []
  | n + 1, c :: rest =>
      if isBlank c then tokensUpTo n rest
      else ⟨(lexeme c rest).1, c :: rest⟩ :: tokensUpTo n (lexeme c rest).2

/-- As many steps as there are characters are enough for all tokens. -/
theorem tokens_eq_tokensUpTo {n : Nat} {cs : List Char} (h : cs.length ≤ n) :
    tokens cs = tokensUpTo n cs := by
  induction n generalizing cs with
  | zero => rw [List.length_eq_zero_iff.mp (Nat.le_zero.mp h), tokens, tokensUpTo]
  | succ n ih =>
      cases cs with
      | nil => rw [tokens, tokensUpTo]
      | cons c rest =>
          have hrest : rest.length ≤ n := by simpa using h
          rw [tokens, tokensUpTo, ih hrest, ih (Nat.le_trans (lexeme_length c rest) hrest)]

/-- Reading with structural recursion only. -/
theorem readWithin_eq_tokensUpTo (limits : Limits) (text : String) :
    readWithin limits text =
      if text.toList.head? = some (Char.ofNat 0xFEFF) then .error ⟨.byteOrderMark, 0⟩
      else
        match assemble limits .value [] (tokensUpTo text.toList.length text.toList) with
        | .ok v => .ok v
        | .error e => .error ⟨e.flaw, text.toList.length - e.left⟩ := by
  rw [← tokens_eq_tokensUpTo (Nat.le_refl _)]
  rfl

end Json

/-- The document without file objects. -/
theorem Dump.ofText_nil : ofText {} "[]" = .ok ⟨[]⟩ := by
  rw [ofText, Json.readWithin_eq_tokensUpTo]
  rfl

/-! ## What is reported of a file -/

/-- What is reported of a file: what the standard declarations find and is not suppressed. -/
def reported (o : Options) (s : Suppressions) (f : FileDump) : List Diagnostic :=
  s.filter (f.elements.flatMap (Vocabulary.standardDeclarations.findings o))

/-- What is reported is complete. -/
theorem complete_of_mem_reported {o : Options} {s : Suppressions} {f : FileDump} {x : Diagnostic}
    (hx : x ∈ reported o s f) : x.Complete := by
  obtain ⟨e, -, hx⟩ := List.mem_flatMap.mp (List.mem_filter.mp hx).1
  obtain ⟨a, -, r, hr⟩ := exists_verdict_of_mem_findings hx
  exact Diagnostic.complete_ofVerdict hr

/-- What was loaded is a document that can be shown. -/
theorem Dump.exists_shown_of_load {limits : Limits} {path : String} {opened : Opened} {dump : Dump}
    (h : load limits path opened = .ok dump) :
    ∃ document, Json.Shown limits document ∧ RecordsDump document dump := by
  unfold load ofText at h
  rcases htext : textOf path opened with f | text
  · simp [htext] at h
  · rcases hread : Json.readWithin limits text with e | document
    · simp [htext, hread] at h
    · simp only [htext, hread] at h
      exact ⟨document, Json.readWithin_shown hread, ofJson_eq_ok_iff.mp h⟩

/-- What is reported of a file that was loaded can be written. -/
theorem writable_of_mem_reported {limits : Limits} {path : String} {opened : Dump.Opened}
    {dump : Dump} (h : Dump.load limits path opened = .ok dump) {o : Options} {s : Suppressions}
    {f : FileDump} (hf : f ∈ dump.files) {x : Diagnostic} (hx : x ∈ reported o s f) :
    x.Writable limits := by
  obtain ⟨document, hshown, hrecords⟩ := Dump.exists_shown_of_load h
  obtain ⟨e, he, hx⟩ := List.mem_flatMap.mp (List.mem_filter.mp hx).1
  exact writable_of_mem_findings hrecords hshown hf he hx

/-- The runner of the command. -/
def Runner.ofCommand (o : Options) (s : Suppressions) (clock : Clock) : Runner :=
  { suppressions := s, options := o, clock := clock }

/-- The runner of a command has its options. -/
@[simp] theorem Runner.ofCommand_options (o : Options) (s : Suppressions) (clock : Clock) :
    (ofCommand o s clock).options = o :=
  rfl

/-- It has its suppressions. -/
@[simp] theorem Runner.ofCommand_suppressions (o : Options) (s : Suppressions) (clock : Clock) :
    (ofCommand o s clock).suppressions = s :=
  rfl

/-- By a rewrite: unifying the two vocabularies would evaluate the standard one. -/
theorem Runner.build_ofCommand (o : Options) (s : Suppressions) (clock : Clock) :
    Vocabulary.standardDeclarations.build = .ok (ofCommand o s clock).vocabulary := by
  dsimp only [ofCommand]
  rw [Vocabulary.build_standard]

/-- A run over a file object succeeds and reports what is found and not suppressed. -/
theorem Runner.exists_run_reported {r : Runner} (hreg : r.registry = .standard)
    (hv : Vocabulary.standardDeclarations.build = .ok r.vocabulary) (f : FileDump) :
    ∃ results, r.run (requestFor none f) = .ok results ∧
      results.diagnostics = reported r.options r.suppressions f :=
  ⟨_, run_of_build hreg hv f.elements f.file, rfl⟩

namespace CommandLine

/-! ## What is seen of a run -/

/-- How a run ends and what it writes. -/
def Outcome.visible (o : Outcome) : Ending × String :=
  (o.ending, o.out)

/-- What is seen of a run is how it ends and what it writes. -/
theorem Outcome.visible_eq_iff {o : Outcome} {ending : Ending} {out : String} :
    o.visible = (ending, out) ↔ o.ending = ending ∧ o.out = out := by
  rw [Outcome.visible, Prod.mk.injEq]

/-- How a run ends with a fault. -/
def faultEnding (f : Fault) : Ending :=
  match f.problem? with
  | some _ => .exit 2
  | none => .failed f

/-- A fault ends a run with code two if it is a problem, and escapes if not. -/
theorem faultEnding_cases (f : Fault) :
    (faultEnding f = .exit 2 ∧ f.problem? ≠ none) ∨
      (faultEnding f = .failed f ∧ f.problem? = none) := by
  unfold faultEnding
  rcases f.problem? with _ | p <;> simp

/-- A run that fails keeps what it has written. -/
theorem visible_failure (s : Settings) (records : List Record) (out : String) (f : Fault) :
    (failure s records out f).visible = (faultEnding f, out) := by
  unfold failure faultEnding
  rcases f.problem? with _ | p <;> rfl

/-! ## Loading -/

/-- The dump at a path. -/
def loadAt (limits : Limits) (openFile : String → Dump.Opened) (path : String) :
    Except Fault Dump :=
  Dump.load limits (Path.clean path) (openFile (Path.clean path))

/-- Dumps are loaded in order, up to the first fault. -/
theorem loadAll_eq_mapM (limits : Limits) (openFile : String → Dump.Opened) (paths : List String) :
    (loadAll limits openFile paths).2 = paths.mapM (loadAt limits openFile) := by
  induction paths with
  | nil => rfl
  | cons path rest ih =>
      rw [List.mapM_cons, ← ih, loadAll.eq_def]
      dsimp only [loadAt]
      rcases Dump.load limits (Path.clean path) (openFile (Path.clean path)) with f | dump
      · rfl
      · rcases loadAll limits openFile rest with ⟨more, f | dumps⟩ <;> rfl

/-! ## Writing -/

/-- Nothing is at fault exactly if each has its line; the text is these lines, in order. -/
theorem writeLines_eq_none_iff {α : Type} {line : α → Except Fault String} {xs : List α}
    {text : String} : writeLines line xs = (text, none) ↔
      ∃ lines, List.Forall₂ (fun a l => line a = .ok l) xs lines ∧
        text = String.join (lines.map (· ++ "\n")) := by
  induction xs generalizing text with
  | nil => simp [writeLines, eq_comm]
  | cons a rest ih =>
    rw [writeLines]
    simp only [List.forall₂_cons_left_iff]
    rcases line a with f | l
    · simp
    · rcases hmore : writeLines line rest with ⟨more, fault⟩
      simp only [Prod.mk.injEq, Except.ok.injEq]
      constructor
      · rintro ⟨rfl, rfl⟩
        obtain ⟨lines, hlines, rfl⟩ := ih.mp hmore
        exact ⟨l :: lines, ⟨l, lines, rfl, hlines, rfl⟩, String.join_cons.symm⟩
      · rintro ⟨-, ⟨-, lines, rfl, hlines, rfl⟩, rfl⟩
        cases hmore.symm.trans (ih.mpr ⟨lines, hlines, rfl⟩)
        exact ⟨String.join_cons.symm, rfl⟩

/-! ## Checking -/

/-- Checking files in turn reports of each what is reported of it alone; it never fails. -/
theorem runAll_reported {r : Runner} (hreg : r.registry = .standard)
    (hv : Vocabulary.standardDeclarations.build = .ok r.vocabulary) (files : List FileDump) :
    ∃ records checked, runAll r files = (records, .ok checked) ∧
      checked.map (fun c => (c.1, c.2.diagnostics)) =
        files.map fun f => (f, reported r.options r.suppressions f) := by
  induction files generalizing r with
  | nil => exact ⟨[], [], rfl, rfl⟩
  | cons f rest ih =>
      obtain ⟨results, hrun, hresults⟩ := Runner.exists_run_reported hreg hv f
      obtain ⟨records, checked, hrest, hchecked⟩ :=
        ih (r := r.afterReadings (r.readings (Runner.requestFor none f))) hreg hv
      refine ⟨r.log (Runner.requestFor none f) ++ records, (f, results) :: checked, ?_, ?_⟩
      · rw [runAll]
        simp only [hrun, hrest]
      · rw [List.map_cons, hchecked, hresults]
        rfl

end CommandLine

end AttributeLint

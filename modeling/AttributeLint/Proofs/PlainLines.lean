import AttributeLint.Proofs.JsonLines
import AttributeLint.Proofs.Pipeline
import Mathlib.Algebra.GroupWithZero.Nat

/-!
# One plain line for each diagnostic

The plain format writes a diagnostic on a line of its own, and writes the texts of the document into
it as they are. A name may hold any character, so the line may be more than one.

* `Text.breaks_intercalate`, `Text.length_splitOn`: line breaks between lines, and lines between
  line breaks.
* `Diagnostic.breaks_line`: the line breaks in the line of a diagnostic are those of its file and of
  the values of its message (`Diagnostic.breaks`).
* `breaks_of_mem_findings`: if the declarations have none, these are the line breaks of the file
  name, of the attribute's name and, for a misplaced attribute, of the tag.
* **Plain lines** (`runDump_plainLines`): how many line breaks the plain text of an accepted
  document has, and when it has one line for each diagnostic.
-/

namespace AttributeLint

open Declarations

/-! ## Line breaks in texts -/

namespace Text

/-- The number of line breaks in a text. -/
def breaks (s : String) : Nat :=
  s.toList.count '\n'

/-- Line breaks add up. -/
theorem breaks_append (s t : String) : breaks (s ++ t) = breaks s + breaks t := by
  unfold breaks
  rw [String.toList_append, List.count_append]

/-- There are none exactly if the character does not occur. -/
theorem breaks_eq_zero_iff {s : String} : breaks s = 0 ↔ '\n' ∉ s.toList :=
  List.count_eq_zero

/-- Between two texts stands one separator. -/
theorem breaks_intercalate (sep : String) (texts : List String) :
    breaks (sep.intercalate texts)
      = (texts.length - 1) * breaks sep + (texts.map breaks).sum := by
  unfold breaks
  rw [String.toList_intercalate]
  induction texts with
  | nil => simp
  | cons s rest ih =>
    rcases rest with _ | ⟨t, rest⟩
    · simp
    · rw [List.map_cons, List.map_cons, List.intercalate_cons_cons, ← List.map_cons,
        List.count_append, List.count_append, ih, List.map_cons (l := t :: rest), List.sum_cons]
      simp only [List.length_cons, Nat.add_sub_cancel]
      rw [Nat.add_mul]
      omega

/-- Line breaks cut a text into one more line. -/
theorem length_splitOn (cs : List Char) : (cs.splitOn '\n').length = cs.count '\n' + 1 := by
  induction cs with
  | nil => rfl
  | cons c rest ih =>
    rw [List.splitOn_cons_eq_if_modifyHead, List.count_cons]
    rcases c == '\n' with _ | _ <;> simpa using ih

/-- Lines are found again in their text exactly if none of them has a line break. -/
theorem splitOn_intercalate_iff {lines : List String} (hne : lines ≠ []) :
    ("\n".intercalate lines).toList.splitOn '\n' = lines.map String.toList ↔
      ∀ line ∈ lines, breaks line = 0 := by
  constructor
  · intro hsplit
    have hlength := congrArg List.length hsplit
    have hcount := breaks_intercalate "\n" lines
    have hone : breaks "\n" = 1 := rfl
    have hpos : 0 < lines.length := List.length_pos_of_ne_nil hne
    rw [length_splitOn, List.length_map] at hlength
    rw [hone, Nat.mul_one] at hcount
    unfold breaks at hcount
    have hsum : (lines.map breaks).sum = 0 := by
      unfold breaks
      omega
    rw [List.sum_eq_zero_iff_forall_eq_nat] at hsum
    intro line hline
    exact hsum _ (List.mem_map_of_mem hline)
  · intro hlines
    apply splitOn_lines _ hne
    intro line hline
    exact breaks_eq_zero_iff.mp (hlines line hline)

/-- A number is written without a line break. -/
theorem breaks_int (n : Int) : breaks (toString n) = 0 := by
  have hdigits : '\n' ∉ Json.intDigits n := by
    intro hmem
    exact absurd (Json.isDigit_of_mem_intDigits hmem) (by decide)
  have hchars : (toString n).toList = Json.chars (.int n) := by
    rw [Json.chars]
  rw [breaks_eq_zero_iff, hchars, Json.chars_int]
  split_ifs
  · intro hmem
    rcases List.mem_cons.mp hmem with hminus | hmem
    · exact absurd hminus (by decide)
    · exact hdigits hmem
  · exact hdigits

end Text

open Text

/-! ## Line breaks in the line of a diagnostic -/

/-- The line breaks of a place are those of its file. -/
theorem Location.breaks_text (l : Location) : breaks l.text = breaks l.file := by
  have hcolon : breaks ":" = 0 := rfl
  unfold Location.text
  split_ifs <;> simp only [breaks_append, breaks_int, hcolon, Nat.add_zero]

/-- The line breaks of a filled template are those of the values, if it has none of its own. -/
theorem breaks_fill {data : List (String × String)} {pieces : List Piece} {text : String}
    (hplain : ∀ s, .text s ∈ pieces → breaks s = 0) (h : fill data pieces = .ok text) :
    breaks text = ((pieces.filterMap Piece.field?).map fun field =>
      breaks ((data.lookup field).getD "")).sum := by
  induction pieces generalizing text with
  | nil =>
    cases h
    rfl
  | cons piece rest ih =>
    have hrest : ∀ s, .text s ∈ rest → breaks s = 0 := by
      intro s hs
      exact hplain s (List.mem_cons_of_mem _ hs)
    cases piece with
    | text s =>
      rw [fill] at h
      split at h
      · rename_i more hmore
        cases h
        rw [breaks_append, hplain s List.mem_cons_self, Nat.zero_add]
        exact ih hrest hmore
      · cases h
    | value field =>
      rw [fill] at h
      split at h
      · cases h
      · rename_i s hs
        split at h
        · rename_i more hmore
          cases h
          have hfields : (Piece.value field :: rest).filterMap Piece.field?
              = field :: rest.filterMap Piece.field? := rfl
          rw [breaks_append, ih hrest hmore, hfields, List.map_cons, List.sum_cons, hs]
          rfl
        · cases h

/-- The words of a message have no line break. -/
theorem Finding.breaks_template (f : Finding) (s : String) (h : .text s ∈ f.template) :
    breaks s = 0 := by
  have hall : ∀ piece ∈ f.template, ∀ s, piece = .text s → breaks s = 0 := by
    rcases f with _ | _ | _ <;> simp [template] <;> decide
  exact hall _ h s rfl

namespace Diagnostic

/-- The line breaks in the texts that a diagnostic writes as they are: its file and its values. -/
def breaks (x : Diagnostic) : Nat :=
  Text.breaks x.location.file + (x.data.map fun p => Text.breaks p.2).sum

variable {severity : Severity} {rule : String} {c : Context} {a : Attribute} {r : Verdict}
  {x : Diagnostic}

/-- The line breaks of a message are those of its values. -/
theorem breaks_message (hx : Diagnostic.ofVerdict severity rule c a r = some x) {message : String}
    (h : x.message = .ok message) :
    Text.breaks message = (x.data.map fun p => Text.breaks p.2).sum := by
  rw [breaks_fill x.finding.breaks_template h]
  rcases r with _ | _ | n | ⟨n, tags⟩ <;> cases hx <;> rfl

/-- The line breaks of a line are those that the diagnostic brings. -/
theorem breaks_line (hx : Diagnostic.ofVerdict severity rule c a r = some x) {limits : Limits}
    {line : String} (h : x.line limits = .ok line) : Text.breaks line = x.breaks := by
  obtain ⟨message, hmessage⟩ := (complete_ofVerdict hx).exists_message
  have hseverity : Text.breaks x.severity.text = 0 := by
    rcases x.severity with _ | _ | _ <;> rfl
  have hid : Text.breaks x.finding.id = 0 := by
    rcases x.finding with _ | _ | _ <;> rfl
  have hcolon : Text.breaks ": " = 0 := rfl
  have hopen : Text.breaks " [" = 0 := rfl
  have hclose : Text.breaks "]" = 0 := rfl
  have hplace : x.location.excess? limits = none :=
    (complete_ofVerdict hx).exists_line_iff.mp ⟨line, h⟩
  unfold Diagnostic.line at h
  rw [hplace, written_none, hmessage] at h
  cases h
  simp only [breaks_append, hseverity, hid, hcolon, hopen, hclose, x.location.breaks_text,
    breaks_message hx hmessage, Nat.add_zero]
  rfl

end Diagnostic

/-! ## Line breaks in the document -/

namespace Declarations

variable {d : Declarations}

/-- No declared name and no tag of a restriction has a line break. -/
structure Unbroken (d : Declarations) : Prop where
  names : ∀ name ∈ d.names, breaks name = 0
  tags : ∀ restriction ∈ d.restrictions, ∀ tag ∈ restriction.2, breaks tag = 0

/-- The tags of a name have none if those of no restriction have. -/
theorem Unbroken.tagsOf (h : d.Unbroken) {name tag : String} (htag : tag ∈ d.tagsOf name) :
    breaks tag = 0 := by
  unfold Declarations.tagsOf at htag
  rcases hlookup : d.restrictions.lookup name with _ | tags
  · rw [hlookup] at htag
    cases htag
  · rw [hlookup] at htag
    exact h.tags _ (Assoc.mem_of_lookup hlookup) tag htag

/-- No name and no tag of the standard vocabulary has a line break. -/
theorem Unbroken.standard : Vocabulary.standardDeclarations.Unbroken where
  names := by
    intro name hname
    exact breaks_eq_zero_iff.mpr (Vocabulary.newline_not_mem_standard hname)
  tags := by
    have htags : ∀ restriction ∈ Vocabulary.tagRestrictions, ∀ tag ∈ restriction.2,
        '\n' ∉ tag.toList := by
      decide
    intro restriction hrestriction tag htag
    exact breaks_eq_zero_iff.mpr (htags restriction hrestriction tag htag)

end Declarations

/-- A list of texts without line breaks, written with commas. -/
theorem breaks_listed {texts : List String} (h : ∀ s ∈ texts, breaks s = 0) :
    breaks (", ".intercalate texts) = 0 := by
  have hcomma : breaks ", " = 0 := rfl
  rw [breaks_intercalate, hcomma, Nat.mul_zero, Nat.zero_add, List.sum_eq_zero_iff_forall_eq_nat,
    List.forall_mem_map]
  exact h

/-- What is found with declarations that have no line breaks has those of the attribute and, if the
tag is named, of the tag. -/
theorem breaks_of_mem_findings {d : Declarations} (hacc : Acceptable d) (hd : d.Unbroken)
    {o : Options} {e : Element} {x : Diagnostic} (hx : x ∈ d.findings o e) :
    ∃ a ∈ e.attributes, x.name = .ok a.name ∧
      x.breaks = breaks x.location.file + breaks a.name
        + if x.finding = .misplaced then breaks (e.tag.getD "") else 0 := by
  obtain ⟨⟨a, r⟩, hj, hword⟩ := List.mem_filterMap.mp hx
  obtain ⟨ha, hverdict⟩ := mem_judgements hj
  refine ⟨a, ha, (Diagnostic.subject_ofVerdict hword).2, ?_⟩
  unfold Diagnostic.breaks
  rw [Nat.add_assoc]
  dsimp only at hverdict hword
  rcases r with _ | _ | n | ⟨n, tags⟩ <;> cases hword
  · rfl
  · have hn : breaks n = 0 := hd.names n (hacc.mem_of_rename hverdict.symm)
    change _ + (_ + (breaks n + 0)) = _
    rw [hn]
    rfl
  · have htags : breaks (", ".intercalate tags) = 0 := by
      apply breaks_listed
      intro t ht
      rw [(verdict_misplaced hverdict.symm).1] at ht
      exact hd.tagsOf ht
    have htag : e.context.tag = e.tag := by
      rw [e.context_eq]
    change _ + (_ + (breaks (e.context.tag.getD "") + (breaks (", ".intercalate tags) + 0))) = _
    rw [htags, htag]
    rfl

/-! ## The lines of a report -/

/-- What a run reports is complete, and its line has the line breaks of the diagnostic. -/
theorem Runner.breaks_line_of_runDump {d : Declarations} {r : Runner}
    (hreg : r.registry = .standard) (hv : d.build = .ok r.vocabulary) {dump : Dump}
    {checkers : Option (List String)} {results : Results}
    (hrun : r.runDump dump checkers = .ok results) {x : Diagnostic} (hx : x ∈ results.diagnostics) :
    x.Complete ∧ ∀ {limits : Limits} {line : String}, x.line limits = .ok line →
      breaks line = x.breaks := by
  obtain ⟨f, -, e, -, hfound⟩ := exists_finding_of_runDump hreg hv hrun hx
  obtain ⟨a, -, verdict, hverdict⟩ := exists_verdict_of_mem_findings hfound
  exact ⟨Diagnostic.complete_ofVerdict hverdict, Diagnostic.breaks_line hverdict⟩

/-- The line breaks of what a run reports come from the document. -/
theorem Runner.breaks_of_runDump {limits : Limits} {document : Json} {dump : Dump}
    (hdump : Dump.ofJson limits document = .ok dump) {d : Declarations} (hd : d.Unbroken)
    {r : Runner} (hreg : r.registry = .standard) (hv : d.build = .ok r.vocabulary)
    {checkers : Option (List String)} {results : Results}
    (hrun : r.runDump dump checkers = .ok results) {x : Diagnostic} (hx : x ∈ results.diagnostics) :
    ∃ f ∈ dump.files, ∃ e ∈ f.elements, ∃ a ∈ e.attributes, x.name = .ok a.name ∧
      x.breaks = breaks f.file + breaks a.name
        + if x.finding = .misplaced then breaks (e.tag.getD "") else 0 := by
  obtain ⟨f, hf, e, he, hfound⟩ := exists_finding_of_runDump hreg hv hrun hx
  obtain ⟨-, record, -, hplace, -⟩ :=
    exists_record_of_mem_findings (Dump.ofJson_eq_ok_iff.mp hdump) hf he hfound
  obtain ⟨a, ha, hname, hbreaks⟩ := breaks_of_mem_findings (acceptable_of_build hv) hd hfound
  exact ⟨f, hf, e, he, a, ha, hname, hplace.file ▸ hbreaks⟩

/-- The plain text of diagnostics is made of their lines, and has the line breaks that are in
them. -/
theorem Results.exists_lines_of_plainLines {limits : Limits} {r : Results}
    (h : ∀ x ∈ r.diagnostics, ∀ {line : String}, x.line limits = .ok line → breaks line = x.breaks)
    {text : String} (htext : r.plainLines limits = .ok text) :
    ∃ lines, text = "\n".intercalate lines ∧
      List.Forall₂ (fun x line => x.line limits = .ok line) r.diagnostics lines ∧
      lines.map breaks = r.diagnostics.map Diagnostic.breaks := by
  obtain ⟨lines, hrender, rfl⟩ := joinLines_eq_ok_iff.mp htext
  have hlines := renderAll_eq_ok_iff.mp hrender
  refine ⟨lines, rfl, hlines, Eq.symm ?_⟩
  have hbreaks : List.Forall₂ (fun x line => x.breaks = breaks line) r.diagnostics lines := by
    refine ((List.forall₂_and_left _ _).mpr ⟨fun x hx => hx, hlines⟩).imp ?_
    rintro x line ⟨hx, hline⟩
    exact (h x hx hline).symm
  rw [← List.forall₂_eq_eq_eq, List.forall₂_map_left_iff, List.forall₂_map_right_iff]
  exact hbreaks

/-- **Plain lines.** Take a document that is accepted, a built vocabulary, any options, any
suppressions, and any selection from the standard checkers. The run over the document succeeds. It
has a plain text exactly if the place of every diagnostic can be written within the limits of the
machine, which is so if the document was read within them; otherwise the fault is that of the limit.
The text is made of one line for each diagnostic, in order, with a line break between neighbours.
All other line breaks are those of the diagnostics, so there is one less than there are diagnostics,
and the text is cut into those lines again, exactly if no diagnostic has any. If no declared name
and no tag of a restriction has a line break, as in the standard vocabulary, they all come from the
document: from the names of the file and of the attribute, and from the tag on which an attribute is
misplaced. -/
theorem runDump_plainLines {limits : Limits} {document : Json} {dump : Dump}
    (hdump : Dump.ofJson limits document = .ok dump) {d : Declarations} {r : Runner}
    (hreg : r.registry = .standard) (hv : d.build = .ok r.vocabulary)
    (checkers : Option (List String)) :
    ∃ results, r.runDump dump checkers = .ok results ∧
      ((∃ text, results.plainLines limits = .ok text) ↔
        ∀ x ∈ results.diagnostics, x.location.excess? limits = none) ∧
      (∀ source, Json.readWithin limits source = .ok document →
        ∃ text, results.plainLines limits = .ok text) ∧
      (∀ f, results.plainLines limits = .error f →
        f = .beyondLimit (.writtenDigits limits.digits)) ∧
      (∀ text, results.plainLines limits = .ok text → ∃ lines, text = "\n".intercalate lines ∧
        List.Forall₂ (fun x line => x.line limits = .ok line) results.diagnostics lines ∧
        breaks text = results.total - 1 + (results.diagnostics.map Diagnostic.breaks).sum ∧
        (breaks text = results.total - 1 ↔ ∀ x ∈ results.diagnostics, x.breaks = 0) ∧
        (results.diagnostics ≠ [] → (text.toList.splitOn '\n' = lines.map String.toList ↔
          ∀ x ∈ results.diagnostics, x.breaks = 0))) ∧
      (d.Unbroken ∨ r.vocabulary = .standard → ∀ x ∈ results.diagnostics,
        ∃ f ∈ dump.files, ∃ e ∈ f.elements, ∃ a ∈ e.attributes, x.name = .ok a.name ∧
          x.breaks = breaks f.file + breaks a.name
            + if x.finding = .misplaced then breaks (e.tag.getD "") else 0) := by
  obtain ⟨results, hrun, -⟩ := Runner.exists_runFiles checkers dump.files {} hreg hv
  have hreported := fun x hx => Runner.breaks_line_of_runDump hreg hv hrun (x := x) hx
  have hwritten : (∃ text, results.plainLines limits = .ok text) ↔
      ∀ x ∈ results.diagnostics, x.location.excess? limits = none := by
    rw [Results.plainLines, Results.exists_joinLines_iff]
    exact forall₂_congr fun x hx => (hreported x hx).1.exists_line_iff
  refine ⟨results, hrun, hwritten, fun source hsource => hwritten.mpr fun x hx => ?_,
    fun f hf => ?_, fun text htext => ?_, ?_⟩
  · obtain ⟨file, hfile, e, he, hfound⟩ := Runner.exists_finding_of_runDump hreg hv hrun hx
    have hwritable := writable_of_mem_findings (Dump.ofJson_eq_ok_iff.mp hdump)
      (Json.readWithin_shown hsource) hfile he hfound
    exact (Diagnostic.writable_iff.mp hwritable).1
  · obtain ⟨x, hx, hfault⟩ :=
      Results.exists_of_renderAll_error (Results.joinLines_eq_error_iff.mp hf)
    exact (hreported x hx).1.line_eq_error hfault
  · obtain ⟨lines, rfl, hlines, hmap⟩ :=
      Results.exists_lines_of_plainLines (fun x hx => (hreported x hx).2) htext
    have hlength : lines.length = results.total := hlines.length_eq.symm
    have hone : breaks "\n" = 1 := rfl
    have hcount : breaks ("\n".intercalate lines)
        = results.total - 1 + (results.diagnostics.map Diagnostic.breaks).sum := by
      rw [breaks_intercalate, hone, Nat.mul_one, hlength, hmap]
    have hzero : (results.diagnostics.map Diagnostic.breaks).sum = 0 ↔
        ∀ x ∈ results.diagnostics, x.breaks = 0 := by
      rw [List.sum_eq_zero_iff_forall_eq_nat, List.forall_mem_map]
    refine ⟨lines, rfl, hlines, hcount, ?_, ?_⟩
    · rw [hcount, ← hzero]
      omega
    · intro hsome
      have hne : lines ≠ [] := by
        rintro rfl
        exact hsome (List.forall₂_nil_right_iff.mp hlines)
      rw [splitOn_intercalate_iff hne, ← hzero, ← hmap, List.sum_eq_zero_iff_forall_eq_nat,
        List.forall_mem_map]
  · rintro (hd | hstandard) x hx
    · exact Runner.breaks_of_runDump hdump hd hreg hv hrun hx
    · have hbuild : Vocabulary.standardDeclarations.build = .ok r.vocabulary := by
        rw [hstandard]
        exact Vocabulary.build_standard
      exact Runner.breaks_of_runDump hdump .standard hreg hbuild hrun hx

/-- A document with three attributes to complain about. A line break stands in the tag, which is
named for `poster` only, and in the name of the last attribute. -/
def brokenDocument : Json :=
  .obj [("file", .str "f"), ("elements", .arr [.obj [("tag", .str "a\nb"), ("attributes", .arr
    [.obj [("name", .str "poster")], .obj [("name", .str "aria-x")],
     .obj [("name", .str "aria-\n")]])]])]

/-- The element of the document. -/
def brokenElement : Element where
  tag := some "a\nb"
  occurrences := [.ofName "poster" ⟨"f", 0, 0⟩, .ofName "aria-x" ⟨"f", 0, 0⟩,
    .ofName "aria-\n" ⟨"f", 0, 0⟩]
  location := ⟨"f", 0, 0⟩

/-- An attribute for videos is misplaced on a tag with a line break. -/
theorem verdict_standard_poster : Vocabulary.standardDeclarations.verdict {}
    ⟨some "a\nb", false, false⟩ "poster" = .misplaced "poster" ["video"] := by
  have hmem : "poster" ∈ Vocabulary.standardDeclarations.names := by
    apply Vocabulary.mem_standard_of_mem_html
    simp [Vocabulary.htmlAttributes]
  unfold verdict
  rw [Vocabulary.standard_coherent.meant_key hmem]
  decide

/-- Two of the three findings bring a line break, one in the name and one in the tag. -/
theorem breaks_findings_brokenElement :
    (Vocabulary.standardDeclarations.findings {} brokenElement).map Diagnostic.breaks
      = [1, 0, 1] := by
  have hcontext : brokenElement.context = ⟨some "a\nb", false, false⟩ := rfl
  have hunlisted : Vocabulary.standardDeclarations.verdict {} ⟨some "a\nb", false, false⟩ "aria-x"
      = .unknown := by
    decide
  have hbroken : Vocabulary.standardDeclarations.verdict {} ⟨some "a\nb", false, false⟩ "aria-\n"
      = .unknown := by
    decide
  rw [findings, judgements, hcontext]
  change List.map _ (List.filterMap _
    [(_, verdict _ _ _ "poster"), (_, verdict _ _ _ "aria-x"), (_, verdict _ _ _ "aria-\n")]) = _
  rw [verdict_standard_poster, hunlisted, hbroken]
  rfl

/-- Three diagnostics of the standard vocabulary on five lines. -/
theorem runDump_plainLines_broken :
    ∃ dump v results text, Dump.ofJson machine brokenDocument = .ok dump ∧ v = .standard ∧
      ({ vocabulary := v } : Runner).runDump dump none = .ok results ∧ results.total = 3 ∧
      results.plainLines machine = .ok text ∧ breaks text = 4 := by
  have hdump : Dump.ofJson machine brokenDocument = .ok ⟨[⟨"f", [brokenElement], none⟩]⟩ := rfl
  -- the vocabulary is only named, so that no step evaluates it
  obtain ⟨v, hstandard, hv⟩ : ∃ v, v = .standard ∧
      Vocabulary.standardDeclarations.build = .ok v := ⟨_, rfl, Vocabulary.build_standard⟩
  obtain ⟨results, hrun, hwritten, -, -, hlines, -⟩ :=
    runDump_plainLines (r := { vocabulary := v }) hdump rfl hv none
  obtain ⟨reported, hreported, hfound⟩ := Runner.exists_runDump_single hv "f" brokenElement none
  obtain rfl : reported = results := Except.ok.inj (hreported.symm.trans hrun)
  obtain ⟨text, htext⟩ := hwritten.mpr (by
    intro x hx
    rw [hfound] at hx
    obtain ⟨a, ha, verdict, hverdict⟩ := exists_verdict_of_mem_findings hx
    have hplace : ∀ a ∈ brokenElement.attributes, a.location.excess? machine = none := by
      simp only [brokenElement]
      decide
    rw [(Diagnostic.subject_ofVerdict hverdict).1]
    exact hplace a ha)
  obtain ⟨-, -, -, hcount, -⟩ := hlines text htext
  have htotal : reported.total = 3 := by
    unfold Results.total
    rw [hfound, ← List.length_map, breaks_findings_brokenElement]
    rfl
  rw [htotal, hfound, breaks_findings_brokenElement] at hcount
  exact ⟨_, v, reported, text, hdump, hstandard, hrun, htotal, htext, hcount⟩

end AttributeLint

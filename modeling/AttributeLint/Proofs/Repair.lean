import AttributeLint.Proofs.Locality
import AttributeLint.Proofs.Splice

/-!
# One round of fixes is enough

A host that carries out all fixes of a run has elements with new names at new places.
`Element.repaired` says which: an attribute with a suggestion takes that name, and every span moves
by what the fixes to its left add and takes the length of its name.

* `fixes_eq_changes`: the fixes of a run are those of the revised attributes whose name differs from
  the text at their span.
* `verdict_repaired_ne_rename`: no attribute of a repaired element is renamed. Its own new name is
  declared; a name that was left alone could only be renamed now if the element had lost its marker,
  and the marker is a declared name, so it is never renamed.
* **Closure** (`run_of_repaired`): for elements that are anchored in a source, over the standard
  vocabulary, the fixes of a run are carried out without a fault, the new text has the names of the
  repaired elements at their spans and is otherwise unchanged, and a second run suggests no name.
-/

namespace AttributeLint

open Declarations

/-! ## Repaired elements -/

/-- The attribute under the name that its verdict suggests. -/
def Attribute.renamed (o : Options) (v : Vocabulary) (c : Context) (a : Attribute) : Attribute :=
  match judge o v c (.named a) with
  | .ok (.rename n) => if h : n = "" then a else { a with name := n, name_ne := h }
  | _ => a

/-- The attribute after the suggestions and at its new place. -/
def Attribute.repaired (o : Options) (v : Vocabulary) (fixes : List Fix) (c : Context)
    (a : Attribute) : Attribute :=
  { a.renamed o v c with span := a.span.map (Span.relocate fixes (a.renamed o v c).name) }

/-- A spread stays as it is. -/
def Occurrence.repaired (o : Options) (v : Vocabulary) (fixes : List Fix) (c : Context) :
    Occurrence → Occurrence
  | .named a => .named (a.repaired o v fixes c)
  | .spread location => .spread location

/-- The element with all its attributes repaired. -/
def Element.repaired (o : Options) (v : Vocabulary) (fixes : List Fix) (e : Element) : Element :=
  { e with occurrences := e.occurrences.map (Occurrence.repaired o v fixes e.context) }

/-- The spans of all attributes. -/
def spans (elements : List Element) : List Span :=
  elements.flatMap fun e => e.attributes.filterMap Attribute.span

/-- Every attribute has a span that is not empty, lies within the source and reads as its name, and
no two spans meet. -/
structure Anchored (source : String) (elements : List Element) : Prop where
  spelled : ∀ e ∈ elements, ∀ a ∈ e.attributes, ∃ s, a.span = some s ∧ s.start < s.stop ∧
    s.stop ≤ source.length ∧ s.covered source = a.name
  disjoint : (spans elements).Pairwise fun s t => s.stop ≤ t.start ∨ t.stop ≤ s.start

section repaired

variable {d : Declarations} {v : Vocabulary} {o : Options} {fixes : List Fix}

/-- Each attribute is repaired by itself, in the context of its element. -/
theorem Element.attributes_repaired (e : Element) :
    (e.repaired o v fixes).attributes
      = e.attributes.map (Attribute.repaired o v fixes e.context) := by
  have hone : ∀ x : Occurrence, (x.repaired o v fixes e.context).attribute?
      = x.attribute?.map (Attribute.repaired o v fixes e.context) := by
    rintro (a | location) <;> rfl
  exact filterMap_map_attribute hone e.occurrences

/-- A suggestion is a declared name, other than the one that was written, and it is taken over. -/
theorem name_renamed_of_rename (h : d.build = .ok v) {c : Context} {a : Attribute} {n : String}
    (hj : judge o v c (.named a) = .ok (.rename n)) :
    (a.renamed o v c).name = n ∧ n ∈ d.names ∧ a.name ≠ n := by
  have hverdict := (verdict_of_judge_ok h hj).2
  have hacc := acceptable_of_build h
  have hn := hacc.mem_of_rename hverdict
  refine ⟨?_, hn, (verdict_eq_rename_iff.mp hverdict).2.2.2.1⟩
  unfold Attribute.renamed
  rw [hj]
  dsimp only
  rw [dif_neg (hacc.coherent.ne_empty n hn)]

/-- An attribute that is not to be renamed keeps its name. -/
theorem renamed_eq_self {c : Context} {a : Attribute}
    (hj : ∀ n, judge o v c (.named a) ≠ .ok (.rename n)) : a.renamed o v c = a := by
  unfold Attribute.renamed
  split
  · next n hn => exact absurd hn (hj n)
  · rfl

/-- The renamed attribute has the name it had, or one that is declared. -/
theorem name_renamed_cases (h : d.build = .ok v) (c : Context) (a : Attribute) :
    (a.renamed o v c).name ∈ d.names ∨
      (a.renamed o v c = a ∧ ∀ n, judge o v c (.named a) ≠ .ok (.rename n)) := by
  by_cases hj : ∃ n, judge o v c (.named a) = .ok (.rename n)
  · obtain ⟨n, hn⟩ := hj
    obtain ⟨hname, hmem, -⟩ := name_renamed_of_rename h hn
    exact .inl (hname ▸ hmem)
  · rw [not_exists] at hj
    exact .inr ⟨renamed_eq_self hj, hj⟩

end repaired

/-! ## The second run -/

section second

variable {d : Declarations} {v : Vocabulary} {o : Options} {fixes : List Fix}

/-- Repairing leaves the tag alone, and so what is a component. -/
theorem component_repaired (e : Element) :
    (e.repaired o v fixes).context.component = e.context.component :=
  Element.component_congr rfl

/-- A marker that gets no suggestion keeps its name. -/
theorem name_renamed_marker (h : d.build = .ok v) {c : Context}
    (hkept : ∀ n, d.verdict o c markerName ≠ .rename n) {a : Attribute}
    (hname : a.name = markerName) : (a.renamed o v c).name = markerName := by
  have hself : a.renamed o v c = a := by
    refine renamed_eq_self fun n hn => hkept n ?_
    rw [← hname]
    exact (verdict_of_judge_ok h hn).2
  rw [hself, hname]

/-- Once renamed, an attribute is not renamed again in a context that has the marker if the first
one had it: its new name is declared, or it would have been renamed before. -/
theorem verdict_renamed_ne_rename (h : d.build = .ok v) {c c' : Context}
    (hc : c.component = false) (hmarker : c.marker = true → c'.marker = true) (a : Attribute)
    (n : String) : d.verdict o c' (a.renamed o v c).name ≠ .rename n := by
  intro hrename
  rcases name_renamed_cases (o := o) h c a with hmem | ⟨hself, hno⟩
  · exact verdict_ne_rename_of_mem_names (acceptable_of_build h).coherent hmem n hrename
  · rw [hself] at hrename
    have hbefore : d.verdict o c a.name = .rename n := verdict_rename_of_marker_le hmarker hrename
    refine hno n ?_
    rw [judge_of_build h o hc a, hbefore]

/-- A declared marker is not renamed, so a marked element stays marked. -/
theorem marker_repaired (h : d.build = .ok v) (hdeclared : markerName ∈ d.names) {e : Element}
    (hmarker : e.context.marker = true) : (e.repaired o v fixes).context.marker = true := by
  have hkept : ∀ n, d.verdict o e.context markerName ≠ .rename n :=
    verdict_ne_rename_of_mem_names (acceptable_of_build h).coherent hdeclared
  exact Element.marker_of_map (e := e) rfl e.attributes_repaired
    (fun _ hname => name_renamed_marker h hkept hname) hmarker

/-- **No rename is left.** -/
theorem verdict_repaired_ne_rename (h : d.build = .ok v) (hdeclared : markerName ∈ d.names)
    {e : Element} (hc : e.context.component = false) {a : Attribute}
    (ha : a ∈ (e.repaired o v fixes).attributes) (n : String) :
    d.verdict o (e.repaired o v fixes).context a.name ≠ .rename n := by
  rw [Element.attributes_repaired] at ha
  obtain ⟨b, -, rfl⟩ := List.mem_map.mp ha
  exact verdict_renamed_ne_rename h hc (marker_repaired h hdeclared) b n

/-- Only a rename is reported as a misspelling. -/
theorem Diagnostic.rename_of_ofVerdict {severity : Severity} {rule : String} {c : Context}
    {a : Attribute} {r : Verdict} {x : Diagnostic}
    (h : Diagnostic.ofVerdict severity rule c a r = some x) (hx : x.finding = .misspelled) :
    ∃ n, r = .rename n := by
  rcases r with _ | _ | n | _ <;> cases h
  · cases hx
  · exact ⟨n, rfl⟩
  · cases hx

/-- No misspelling is found in a repaired element. -/
theorem findings_repaired (h : d.build = .ok v) (hdeclared : markerName ∈ d.names) (e : Element) :
    ∀ x ∈ d.findings o (e.repaired o v fixes), x.finding ≠ .misspelled := by
  intro x hx hmisspelled
  unfold findings judgements at hx
  rw [component_repaired] at hx
  rcases hc : e.context.component with _ | _
  · simp only [hc, Bool.false_eq_true, if_false, List.mem_filterMap, List.mem_map] at hx
    obtain ⟨-, ⟨a, ha, rfl⟩, hdiag⟩ := hx
    obtain ⟨n, hn⟩ := Diagnostic.rename_of_ofVerdict hdiag hmisspelled
    exact verdict_repaired_ne_rename h hdeclared hc ha n hn
  · simp [hc] at hx

end second

/-! ## The fixes of the first run -/

/-- All attributes as edits that put their repaired names in the place of their spans. -/
def revisions (o : Options) (v : Vocabulary) (elements : List Element) : List Edit :=
  elements.flatMap fun e => e.attributes.filterMap fun a =>
    a.span.map fun s => ⟨s, (a.renamed o v e.context).name⟩

section first

variable {d : Declarations} {v : Vocabulary} {o : Options} {source : String}
  {elements : List Element}

/-- There is one revision for each attribute with a span. -/
theorem span_revisions (o : Options) (v : Vocabulary) (elements : List Element) :
    (revisions o v elements).map Edit.span = spans elements := by
  unfold revisions spans
  rw [List.map_flatMap]
  refine congrArg (fun f => elements.flatMap f) (funext fun e => ?_)
  rw [List.map_filterMap]
  refine congrArg (fun f => e.attributes.filterMap f) (funext fun a => ?_)
  rcases a.span with _ | s <;> rfl

/-- The spans of repaired elements are those of the revisions, moved. -/
theorem spans_repaired (o : Options) (v : Vocabulary) (fixes : List Fix)
    (elements : List Element) :
    spans (elements.map (Element.repaired o v fixes))
      = (revisions o v elements).map fun e => e.span.relocate fixes e.text := by
  unfold revisions spans
  rw [List.map_flatMap, List.flatMap_map]
  refine congrArg (fun f => elements.flatMap f) (funext fun e => ?_)
  rw [Element.attributes_repaired, List.map_filterMap, List.filterMap_map]
  refine congrArg (fun f => e.attributes.filterMap f) (funext fun a => ?_)
  change a.span.map _ = _
  rcases a.span with _ | s <;> rfl

/-- The revisions of anchored elements are apart. -/
theorem Anchored.apart (h : Anchored source elements) :
    Edit.Apart source.length (revisions o v elements) := by
  have hmem : ∀ r ∈ revisions o v elements,
      r.span.start < r.span.stop ∧ r.span.stop ≤ source.length := by
    intro r hr
    obtain ⟨e, he, hr⟩ := List.mem_flatMap.mp hr
    obtain ⟨a, ha, hr⟩ := List.mem_filterMap.mp hr
    obtain ⟨s, hs, hne, hlen, -⟩ := h.spelled e he a ha
    rw [hs] at hr
    cases hr
    exact ⟨hne, hlen⟩
  refine ⟨fun r hr => (hmem r hr).1, fun r hr => (hmem r hr).2, ?_⟩
  have := h.disjoint
  rwa [← span_revisions o v, List.pairwise_map] at this

/-- The fix of an attribute: its revision, if that changes the text at its span. -/
theorem fix_ofVerdict (h : d.build = .ok v) {c : Context} (hc : c.component = false)
    {a : Attribute} {s : Span} (hspan : a.span = some s) (hname : s.covered source = a.name) :
    (Diagnostic.ofVerdict .warning ruleName c a (d.verdict o c a.name)).bind Diagnostic.fix
      = if Edit.changes source.toList ⟨s, (a.renamed o v c).name⟩
        then some (Edit.fix ⟨s, (a.renamed o v c).name⟩) else none := by
  have hchanges : Edit.changes source.toList ⟨s, (a.renamed o v c).name⟩ = true ↔
      (a.renamed o v c).name ≠ a.name := by
    unfold Edit.changes
    rw [decide_eq_true_eq, ← hname, Span.covered]
    refine not_congr ⟨fun h => ?_, fun h => ?_⟩
    · rw [← h, String.ofList_toList]
    · rw [h, String.toList_ofList]
  have hjudge := judge_of_build h o hc a
  by_cases hrename : ∃ n, d.verdict o c a.name = .rename n
  · obtain ⟨n, hn⟩ := hrename
    rw [hn] at hjudge ⊢
    obtain ⟨hnew, -, hne⟩ := name_renamed_of_rename h hjudge
    rw [if_pos (hchanges.mpr (by rw [hnew]; exact hne.symm)), hnew]
    unfold Edit.fix
    rw [← hspan]
    rfl
  · rw [not_exists] at hrename
    have hself : a.renamed o v c = a :=
      renamed_eq_self fun n hn => hrename n (verdict_of_judge_ok h hn).2
    rw [if_neg (fun hch => hchanges.mp hch (by rw [hself]))]
    rcases hv : d.verdict o c a.name with _ | _ | n | _
    · rfl
    · rfl
    · exact absurd hv (hrename n)
    · rfl

/-- On a component nothing is renamed. -/
theorem renamed_of_component {c : Context} (hc : c.component = true) (a : Attribute) :
    a.renamed o v c = a := by
  refine renamed_eq_self fun n hn => ?_
  rw [component_of_judge_ok hn] at hc
  cases hc

/-- **The fixes of a run** are the revisions that change the text. -/
theorem fixes_eq_changes (h : d.build = .ok v) (hanchor : Anchored source elements) :
    (elements.flatMap (d.findings o)).filterMap Diagnostic.fix
      = ((revisions o v elements).filter (Edit.changes source.toList)).map Edit.fix := by
  unfold revisions
  rw [List.filterMap_flatMap, List.filter_flatMap, List.map_flatMap]
  refine List.flatMap_congr fun e he => ?_
  have hfilter : ∀ es : List Edit, (es.filter (Edit.changes source.toList)).map Edit.fix
      = es.filterMap fun r => if Edit.changes source.toList r then some r.fix else none := by
    intro es
    rw [← List.filterMap_eq_map, List.filterMap_filter]
    rfl
  rw [hfilter, List.filterMap_filterMap]
  unfold findings judgements
  rcases hc : e.context.component with _ | _
  · simp only [Bool.false_eq_true, if_false, List.filterMap_map, List.filterMap_filterMap]
    refine List.filterMap_congr fun a ha => ?_
    obtain ⟨s, hs, -, -, hname⟩ := hanchor.spelled e he a ha
    rw [hs]
    exact fix_ofVerdict h hc hs hname
  · simp only [if_true, List.filterMap_nil]
    refine (List.filterMap_eq_nil_iff.mpr fun a ha => ?_).symm
    obtain ⟨s, hs, -, -, hname⟩ := hanchor.spelled e he a ha
    rw [hs, renamed_of_component hc a]
    have hsame : Edit.changes source.toList ⟨s, a.name⟩ = false := by
      rw [← hname]
      simp [Edit.changes, Span.covered]
    simp [hsame]

/-- Each repaired attribute stands at its span in the new text. -/
theorem covered_repaired {fixes : List Fix} {out : String} (hanchor : Anchored source elements)
    (htexts : ∀ r ∈ revisions o v elements, (r.span.relocate fixes r.text).covered out = r.text) :
    ∀ e ∈ elements.map (Element.repaired o v fixes), ∀ a ∈ e.attributes,
      ∃ s, a.span = some s ∧ s.covered out = a.name := by
  intro e' he' a' ha'
  obtain ⟨e, he, rfl⟩ := List.mem_map.mp he'
  rw [Element.attributes_repaired] at ha'
  obtain ⟨a, ha, rfl⟩ := List.mem_map.mp ha'
  obtain ⟨s, hs, -⟩ := hanchor.spelled e he a ha
  refine ⟨s.relocate fixes (a.renamed o v e.context).name, ?_, ?_⟩
  · unfold Attribute.repaired
    rw [hs]
    rfl
  · have hmem : (⟨s, (a.renamed o v e.context).name⟩ : Edit) ∈ revisions o v elements :=
      List.mem_flatMap.mpr ⟨e, he, List.mem_filterMap.mpr ⟨a, ha, by rw [hs]; rfl⟩⟩
    exact htexts _ hmem

end first

/-! ## Closure -/

/-- A run without suppressions over the standard vocabulary. -/
theorem exists_run_standard (o : Options) (clock : Clock) (elements : List Element)
    (file : String) :
    ∃ results,
      ({ options := o, clock := clock } : Runner).run ⟨elements, file, none⟩ = .ok results ∧
      results.diagnostics = elements.flatMap (Vocabulary.standardDeclarations.findings o) := by
  let r : Runner := { options := o, clock := clock }
  -- by a rewrite: unifying the two vocabularies would evaluate the standard one
  have hbuild : Vocabulary.standardDeclarations.build = .ok r.vocabulary := by
    dsimp only [r]
    rw [Vocabulary.build_standard]
  refine ⟨_, Runner.run_of_build (r := r) rfl hbuild elements file, ?_⟩
  exact Suppressions.filter_none _

/-- **Closure.** Let the attributes of some elements be anchored in a source. A run over the
standard vocabulary succeeds with any options, and so do its fixes. No span is shifted out of the
text, the new text has each repaired attribute at its span, and outside of the spans it is the
source. A run on the repaired elements, with the same options, succeeds and suggests no name. -/
theorem run_of_repaired {source : String} {elements : List Element}
    (h : Anchored source elements) (limits : Limits) (o : Options) (clock : Clock) (file : String) :
    ∃ results out,
      ({ options := o, clock := clock } : Runner).run ⟨elements, file, none⟩ = .ok results ∧
      applyFixes limits source results.fixes = .ok out ∧
      (∀ s ∈ spans elements, 0 ≤ s.start + shift results.fixes s.start) ∧
      (∀ e ∈ elements.map (Element.repaired o .standard results.fixes), ∀ a ∈ e.attributes,
        ∃ s, a.span = some s ∧ s.covered out = a.name) ∧
      outside (spans (elements.map (Element.repaired o .standard results.fixes))) out
        = outside (spans elements) source ∧
      ∀ (clock' : Clock) (file' : String), ∃ results',
        ({ options := o, clock := clock' } : Runner).run
            ⟨elements.map (Element.repaired o .standard results.fixes), file', none⟩
          = .ok results' ∧
        results'.withId "unknownPropWithStandardName" = [] := by
  obtain ⟨results, hresults, hdiagnostics⟩ := exists_run_standard o clock elements file
  have hfixes : results.fixes = ((revisions o .standard elements).filter
      (Edit.changes source.toList)).map Edit.fix := by
    unfold Results.fixes
    rw [hdiagnostics]
    exact fixes_eq_changes Vocabulary.build_standard h
  obtain ⟨out, hout, hnonneg, htexts, houtside⟩ :=
    applyFixes_changed (h.apart (o := o) (v := .standard)) limits
  rw [← hfixes] at hout hnonneg htexts houtside
  refine ⟨results, out, hresults, hout, ?_, covered_repaired h htexts, ?_, ?_⟩
  · intro s hs
    rw [← span_revisions o .standard] at hs
    obtain ⟨r, hr, rfl⟩ := List.mem_map.mp hs
    exact hnonneg r hr
  · rw [spans_repaired, houtside, span_revisions]
  · intro clock' file'
    obtain ⟨results', hresults', hdiagnostics'⟩ := exists_run_standard o clock'
      (elements.map (Element.repaired o .standard results.fixes)) file'
    refine ⟨results', hresults', ?_⟩
    have hmarker : markerName ∈ Vocabulary.standardDeclarations.names :=
      Vocabulary.mem_standard_of_mem_html (by simp [markerName, Vocabulary.htmlAttributes])
    unfold Results.withId
    rw [hdiagnostics', List.filter_eq_nil_iff]
    intro x hx
    obtain ⟨e', he', hx⟩ := List.mem_flatMap.mp hx
    obtain ⟨e, -, rfl⟩ := List.mem_map.mp he'
    have hkind := findings_repaired Vocabulary.build_standard hmarker e x hx
    rcases hfinding : x.finding with _ | _ | _
    · decide
    · exact absurd hfinding hkind
    · decide

/-- Two elements, the one that comes second in the text first. Only its repaired marker would exempt
its `class`. -/
def crossed : List Element :=
  [{ tag := some "p"
     occurrences :=
      [.named { name := "class", name_ne := by decide, span := some ⟨12, 17, by decide⟩ },
       .named { name := "IS", name_ne := by decide, span := some ⟨18, 20, by decide⟩ }] },
   { tag := some "b"
     occurrences :=
      [.named { name := "for", name_ne := by decide, span := some ⟨3, 6, by decide⟩ }] }]

/-- What is to be done about them. -/
def crossedEdits : List Edit :=
  [⟨⟨12, 17, by decide⟩, "className"⟩, ⟨⟨18, 20, by decide⟩, "is"⟩,
   ⟨⟨3, 6, by decide⟩, "htmlFor"⟩]

/-- The fixes that are found are those of the edits. -/
theorem fixes_crossed :
    (crossed.flatMap (Vocabulary.standardDeclarations.findings {})).filterMap Diagnostic.fix
      = crossedEdits.map Edit.fix := by
  have hclass : Vocabulary.standardDeclarations.verdict {} ⟨some "p", false, false⟩ "class"
      = .rename "className" :=
    verdict_eq_rename_iff.mpr ⟨by decide, by decide,
      Vocabulary.standard_meant_rename (r := ("class", "className"))
        (by simp [Vocabulary.standardRenames]), by decide, by decide⟩
  have hmarker : Vocabulary.standardDeclarations.verdict {} ⟨some "p", false, false⟩ "IS"
      = .rename "is" := by
    have hkey : Name.key "IS" = Name.key "is" := by decide
    refine verdict_eq_rename_iff.mpr ⟨by decide, by decide, ?_, by decide, by decide⟩
    rw [hkey]
    exact Vocabulary.standard_coherent.meant_key
      (Vocabulary.mem_standard_of_mem_html (by simp [Vocabulary.htmlAttributes]))
  have hfor : Vocabulary.standardDeclarations.verdict {} ⟨some "b", false, false⟩ "for"
      = .rename "htmlFor" :=
    verdict_eq_rename_iff.mpr ⟨by decide, by decide,
      Vocabulary.standard_meant_rename (r := ("for", "htmlFor"))
        (by simp [Vocabulary.standardRenames]), by decide, by decide⟩
  have hjudgements : crossed.map (Vocabulary.standardDeclarations.judgements {})
      = [[({ name := "class", name_ne := by decide, span := some ⟨12, 17, by decide⟩ },
            Vocabulary.standardDeclarations.verdict {} ⟨some "p", false, false⟩ "class"),
          ({ name := "IS", name_ne := by decide, span := some ⟨18, 20, by decide⟩ },
            Vocabulary.standardDeclarations.verdict {} ⟨some "p", false, false⟩ "IS")],
         [({ name := "for", name_ne := by decide, span := some ⟨3, 6, by decide⟩ },
            Vocabulary.standardDeclarations.verdict {} ⟨some "b", false, false⟩ "for")]] := rfl
  rw [hclass, hmarker, hfor] at hjudgements
  simp only [crossed, List.map_cons, List.map_nil, List.cons.injEq, and_true] at hjudgements
  simp only [crossed, findings, List.flatMap_cons, List.flatMap_nil, hjudgements.1,
    hjudgements.2]
  rfl

/-- The source with its fixes applied. -/
theorem applyFixes_crossed :
    applyFixes {} "<b for=x><p class IS>" (crossedEdits.map Edit.fix)
      = .ok "<b htmlFor=x><p className is>" := by
  have harrange : Edit.arrange crossedEdits = [⟨⟨3, 6, by decide⟩, "htmlFor"⟩,
      ⟨⟨12, 17, by decide⟩, "className"⟩, ⟨⟨18, 20, by decide⟩, "is"⟩] := by
    simp [crossedEdits, Edit.arrange, List.mergeSort, List.MergeSort.Internal.splitInTwo]
  unfold applyFixes carryOut
  rw [Edit.ofFixes_map_fix crossedEdits (by decide)]
  dsimp only
  rw [harrange]
  rfl

/-- Three names of different lengths are renamed, the last one first. -/
theorem run_of_repaired_crossed :
    Anchored "<b for=x><p class IS>" crossed ∧ ∃ results,
      ({} : Runner).run ⟨crossed, "", none⟩ = .ok results ∧
      applyFixes {} "<b for=x><p class IS>" results.fixes = .ok "<b htmlFor=x><p className is>" ∧
      (∀ e ∈ crossed.map (Element.repaired {} .standard results.fixes), ∀ a ∈ e.attributes,
        ∃ s, a.span = some s ∧ s.covered "<b htmlFor=x><p className is>" = a.name) ∧
      ∃ results', ({} : Runner).run
          ⟨crossed.map (Element.repaired {} .standard results.fixes), "", none⟩ = .ok results' ∧
        results'.withId "unknownPropWithStandardName" = [] := by
  have hanchor : Anchored "<b for=x><p class IS>" crossed := by
    refine ⟨?_, by decide⟩
    simp only [crossed, List.forall_mem_cons, Element.attributes, List.filterMap_cons,
      Occurrence.attribute?, List.filterMap_nil, List.not_mem_nil, false_imp_iff, implies_true,
      and_true]
    exact ⟨⟨⟨_, rfl, by decide, by decide, by decide⟩, ⟨_, rfl, by decide, by decide, by decide⟩⟩,
      ⟨_, rfl, by decide, by decide, by decide⟩⟩
  obtain ⟨results, out, hrun, hout, -, htexts, -, hagain⟩ := run_of_repaired hanchor {} {} {} ""
  have hfixes : results.fixes = crossedEdits.map Edit.fix := by
    obtain ⟨results', hrun', hdiagnostics⟩ := exists_run_standard {} {} crossed ""
    have heq : results = results' := Except.ok.inj (hrun.symm.trans hrun')
    unfold Results.fixes
    rw [heq, hdiagnostics, fixes_crossed]
  have happly : applyFixes {} "<b for=x><p class IS>" results.fixes
      = .ok "<b htmlFor=x><p className is>" := by
    rw [hfixes, applyFixes_crossed]
  have htext : out = "<b htmlFor=x><p className is>" := Except.ok.inj (hout.symm.trans happly)
  exact ⟨hanchor, results, hrun, happly, htext ▸ htexts, hagain {} ""⟩

end AttributeLint

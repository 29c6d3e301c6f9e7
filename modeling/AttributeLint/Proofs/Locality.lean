import AttributeLint.Proofs.Survey
import Mathlib.Logic.Equiv.Defs

/-!
# Verdicts are local

The verdict on an attribute is found in the context of its element, and the context comes of all its
attributes. The only thing that it keeps of them is whether there is a marker, and a marker counts
for one spelling only. So attributes hardly affect each other.

* `Element.context_eq`: the context is made of the tag and of whether the element is marked.
* `Declarations.verdict_congr`: of two contexts with one tag, only the marker can tell, and only on
  the spelling that a marker exempts.
* **Locality** (`verdicts_local`): a name gets the same verdict on any two elements with one tag,
  that spelling on a marked and an unmarked element apart. Rearranged attributes have rearranged
  verdicts, spreads have no effect, and a new attribute that is no marker leaves the verdicts on
  the others as they are.
-/

namespace AttributeLint

open Declarations

/-! ## What a context keeps of an element -/

namespace Element

/-- The element has an attribute whose name is that of the marker. -/
def Marked (e : Element) : Prop :=
  ∃ a ∈ e.attributes, a.name = markerName

instance (e : Element) : Decidable e.Marked :=
  inferInstanceAs (Decidable (∃ a ∈ e.attributes, a.name = markerName))

/-- The attributes that get a verdict: all that have a name, and on a component none. -/
def subjects (e : Element) : List Attribute :=
  if e.context.component then [] else e.attributes

/-- Attributes are listed part by part. -/
@[simp] theorem attributes_append (tag : Option String) (front back : List Occurrence)
    (location : Location) : attributes ⟨tag, front ++ back, location⟩
      = attributes ⟨tag, front, location⟩ ++ attributes ⟨tag, back, location⟩ :=
  List.filterMap_append

/-- A named attribute is one of them. -/
@[simp] theorem attributes_named (tag : Option String) (a : Attribute) (back : List Occurrence)
    (location : Location) : attributes ⟨tag, .named a :: back, location⟩
      = a :: attributes ⟨tag, back, location⟩ := rfl

/-- A spread is none. -/
@[simp] theorem attributes_spread (tag : Option String) (place : Location)
    (back : List Occurrence) (location : Location) :
    attributes ⟨tag, .spread place :: back, location⟩ = attributes ⟨tag, back, location⟩ := rfl

/-- The context is made of the tag and of whether the element is marked. -/
theorem context_eq (e : Element) : e.context =
    ⟨e.tag, !e.tag.any isIntrinsicTag, e.tag.any isIntrinsicTag && decide e.Marked⟩ := by
  have hmarker : ((e.occurrences.filterMap Occurrence.attribute?).any fun a => a.name == markerName)
      = decide e.Marked := by
    rw [Bool.eq_iff_iff, List.any_eq_true, decide_eq_true_eq]
    simp only [beq_iff_eq]
    rfl
  unfold context Context.classify
  rw [hmarker]
  split_ifs with htag <;> simp [htag]

/-- An element is a marker exactly if its tag is an intrinsic one and it has the marking
attribute. -/
theorem marker_iff (e : Element) :
    e.context.marker = true ↔ e.tag.any isIntrinsicTag = true ∧ e.Marked := by
  simp [context_eq]

/-- A change of each attribute by itself. -/
theorem filterMap_map_attribute {f : Attribute → Attribute} {g : Occurrence → Occurrence}
    (hg : ∀ x, (g x).attribute? = x.attribute?.map f) (occurrences : List Occurrence) :
    (occurrences.map g).filterMap Occurrence.attribute?
      = (occurrences.filterMap Occurrence.attribute?).map f := by
  rw [List.filterMap_map, List.map_filterMap]
  exact congrArg (fun h => occurrences.filterMap h) (funext hg)

/-- A change that keeps the names of markers keeps the marker. -/
theorem marker_of_map {e e' : Element} {f : Attribute → Attribute} (htag : e.tag = e'.tag)
    (hmap : e'.attributes = e.attributes.map f)
    (hf : ∀ a, a.name = markerName → (f a).name = markerName) (h : e.context.marker = true) :
    e'.context.marker = true := by
  obtain ⟨hintrinsic, a, ha, hname⟩ := e.marker_iff.mp h
  refine e'.marker_iff.mpr ⟨htag ▸ hintrinsic, f a, ?_, hf a hname⟩
  rw [hmap]
  exact List.mem_map_of_mem ha

/-- Whether an element is a component is a matter of its tag. -/
theorem component_congr {e e' : Element} (htag : e.tag = e'.tag) :
    e.context.component = e'.context.component := by
  rw [context_eq, context_eq, htag]

/-- The context is a matter of the tag and the mark. -/
theorem context_congr {e e' : Element} (htag : e.tag = e'.tag) (hmarked : e.Marked ↔ e'.Marked) :
    e.context = e'.context := by
  rw [context_eq, context_eq, htag, decide_eq_decide.mpr hmarked]

/-- The mark is a matter of which attributes there are. -/
theorem marked_congr {e e' : Element} (h : ∀ a, a ∈ e.attributes ↔ a ∈ e'.attributes) :
    e.Marked ↔ e'.Marked := by
  unfold Marked
  simp only [h]

/-- The attributes to be judged are listed part by part. -/
theorem subjects_append (tag : Option String) (front back : List Occurrence)
    (location : Location) : subjects ⟨tag, front ++ back, location⟩
      = subjects ⟨tag, front, location⟩ ++ subjects ⟨tag, back, location⟩ := by
  simp only [subjects, context_eq, attributes_append]
  split_ifs <;> rfl

/-- A new attribute that is no marker is no reason for being marked. -/
theorem context_insert (tag : Option String) (front back : List Occurrence) (location : Location)
    {a : Attribute} (ha : a.name ≠ markerName) :
    context ⟨tag, front ++ back, location⟩
      = context ⟨tag, front ++ .named a :: back, location⟩ := by
  refine context_congr rfl ?_
  simp [Marked, or_and_right, exists_or, ha]

end Element

/-! ## What a verdict takes from the context -/

namespace Declarations

variable {d : Declarations} {o : Options}

/-- The marker counts for one spelling, and nothing but the tag for all others. -/
theorem verdict_congr {c c' : Context} {name : String} (htag : c.tag = c'.tag)
    (hmarker : name = classSpelling → c.marker = c'.marker) :
    d.verdict o c name = d.verdict o c' name := by
  have hexempt : d.Exempt o c name ↔ d.Exempt o c' name := by
    unfold Exempt
    by_cases hname : name = classSpelling
    · rw [hmarker hname]
    · simp [hname]
  unfold verdict
  rw [htag]
  simp only [hexempt]

/-- On two elements with one tag, a name gets the same verdict, unless it is the spelling that a
marker exempts and one of the two is marked. -/
theorem verdict_context_congr {e e' : Element} {name : String} (htag : e.tag = e'.tag)
    (hmarked : name = classSpelling → (e.Marked ↔ e'.Marked)) :
    d.verdict o e.context name = d.verdict o e'.context name := by
  refine verdict_congr ?_ fun hname => ?_
  · rw [e.context_eq, e'.context_eq, htag]
  · rw [Element.context_congr htag (hmarked hname)]

/-- Each attribute is judged by itself, in the context of its element. -/
theorem judgements_eq_map (d : Declarations) (o : Options) (e : Element) :
    d.judgements o e = e.subjects.map fun a => (a, d.verdict o e.context a.name) := by
  unfold judgements Element.subjects
  split_ifs <;> rfl

/-- A judgement is about an attribute of the element. -/
theorem mem_judgements {e : Element} {j : Attribute × Verdict} (h : j ∈ d.judgements o e) :
    j.1 ∈ e.attributes ∧ j.2 = d.verdict o e.context j.1.name := by
  rw [judgements_eq_map] at h
  obtain ⟨a, ha, rfl⟩ := List.mem_map.mp h
  unfold Element.subjects at ha
  split_ifs at ha
  · cases ha
  · exact ⟨ha, rfl⟩

end Declarations

/-! ## Rearranging, leaving out, adding -/

section changed

variable {d : Declarations} {o : Options}

/-- Elements with one context are judged by one rule. -/
theorem judgements_of_context {e e' : Element} (h : e.context = e'.context) :
    d.judgements o e' = e'.subjects.map fun a => (a, d.verdict o e.context a.name) := by
  rw [judgements_eq_map, h]

/-- The order of occurrences does not matter for the judgements. -/
theorem judgements_perm {e e' : Element} (htag : e.tag = e'.tag)
    (hperm : e.occurrences.Perm e'.occurrences) :
    (d.judgements o e).Perm (d.judgements o e') := by
  have hattributes : e.attributes.Perm e'.attributes := hperm.filterMap _
  have hcontext : e.context = e'.context :=
    Element.context_congr htag (Element.marked_congr fun _ => hattributes.mem_iff)
  rw [judgements_eq_map d o e, judgements_of_context hcontext]
  refine List.Perm.map _ ?_
  unfold Element.subjects
  rw [hcontext]
  split_ifs
  · exact .refl _
  · exact hattributes

/-- Attributes that are rearranged by their positions. -/
theorem getElem?_judgements {e e' : Element} (htag : e.tag = e'.tag) (σ : Equiv.Perm ℕ)
    (hmoved : ∀ i, e'.attributes[i]? = e.attributes[σ i]?) (i : ℕ) :
    (d.judgements o e')[i]? = (d.judgements o e)[σ i]? := by
  have hmem : ∀ a, a ∈ e.attributes ↔ a ∈ e'.attributes := by
    intro a
    simp only [List.mem_iff_getElem?, hmoved]
    exact σ.surjective.exists
  have hcontext : e.context = e'.context :=
    Element.context_congr htag (Element.marked_congr hmem)
  rw [judgements_eq_map d o e, judgements_of_context hcontext, List.getElem?_map,
    List.getElem?_map]
  unfold Element.subjects
  rw [hcontext]
  split_ifs
  · simp
  · rw [hmoved]

/-- Nothing but the tag and the attributes matters. -/
theorem judgements_congr {e e' : Element} (htag : e.tag = e'.tag)
    (hattributes : e.attributes = e'.attributes) : d.judgements o e = d.judgements o e' := by
  have hcontext : e.context = e'.context :=
    Element.context_congr htag (Element.marked_congr fun _ => by rw [hattributes])
  unfold judgements
  rw [hcontext, hattributes]

/-- One more attribute adds its own judgement, and the others are judged in the same order. -/
theorem judgements_insert (tag : Option String) (front back : List Occurrence)
    (location : Location) {a : Attribute} (ha : a.name ≠ markerName) :
    ∃ before new after : List (Attribute × Verdict),
      d.judgements o ⟨tag, front ++ back, location⟩ = before ++ after ∧
      d.judgements o ⟨tag, front ++ .named a :: back, location⟩ = before ++ new ++ after ∧
      before.map Prod.fst = Element.subjects ⟨tag, front, location⟩ ∧
      new.map Prod.fst = Element.subjects ⟨tag, [.named a], location⟩ ∧
      after.map Prod.fst = Element.subjects ⟨tag, back, location⟩ := by
  have hold := judgements_eq_map d o ⟨tag, front ++ back, location⟩
  have hnew := judgements_of_context (d := d) (o := o)
    (Element.context_insert tag front back location ha)
  rw [Element.subjects_append, List.map_append] at hold
  rw [List.append_cons, Element.subjects_append, Element.subjects_append, List.map_append,
    List.map_append] at hnew
  rw [List.append_cons]
  refine ⟨_, _, _, hold, hnew, ?_, ?_, ?_⟩
  all_goals simp [Function.comp_def]

end changed

/-! ## Locality -/

/-- **Locality.** Over a built vocabulary every element gets a verdict for each of its attributes,
in order, and none on a component. Two attributes with one name, on elements with one tag, get the
same verdict, whatever else there is to them and beside them; the one exception is the spelling that
a marker exempts, if exactly one of the elements is marked. Hence rearranged attributes have
verdicts rearranged in the same way, a spread more or less has no effect, and a new attribute that
is no marker has no effect on the others. -/
theorem verdicts_local {d : Declarations} {v : Vocabulary} (hv : d.build = .ok v) (o : Options) :
    ∃ judged : Element → List (Attribute × Verdict),
      (∀ e, e.verdicts o v = .ok (judged e) ∧ (judged e).map Prod.fst = e.subjects) ∧
      (∀ e e' : Element, e.tag = e'.tag → ∀ j ∈ judged e, ∀ j' ∈ judged e', j.1.name = j'.1.name →
        ¬ (j.1.name = classSpelling ∧ (e.Marked ↔ ¬ e'.Marked)) → j.2 = j'.2) ∧
      (∀ e e' : Element, e.tag = e'.tag → e.occurrences.Perm e'.occurrences →
        (judged e).Perm (judged e')) ∧
      (∀ e e' : Element, e.tag = e'.tag → ∀ σ : Equiv.Perm ℕ,
        (∀ i, e'.attributes[i]? = e.attributes[σ i]?) → ∀ i, (judged e')[i]? = (judged e)[σ i]?) ∧
      (∀ (tag : Option String) (front back : List Occurrence) (place location : Location),
        judged ⟨tag, front ++ .spread place :: back, location⟩
          = judged ⟨tag, front ++ back, location⟩) ∧
      ∀ (tag : Option String) (front back : List Occurrence) (location : Location) (a : Attribute),
        a.name ≠ markerName → ∃ before new after,
          judged ⟨tag, front ++ back, location⟩ = before ++ after ∧
          judged ⟨tag, front ++ .named a :: back, location⟩ = before ++ new ++ after ∧
          before.map Prod.fst = Element.subjects ⟨tag, front, location⟩ ∧
          new.map Prod.fst = Element.subjects ⟨tag, [.named a], location⟩ ∧
          after.map Prod.fst = Element.subjects ⟨tag, back, location⟩ := by
  refine ⟨d.judgements o, fun e => ⟨verdicts_of_build hv o e, ?_⟩, ?_,
    fun e e' => judgements_perm, fun e e' => getElem?_judgements, ?_,
    fun tag front back location a => judgements_insert tag front back location⟩
  · rw [judgements_eq_map]
    simp [Function.comp_def]
  · intro e e' htag j hj j' hj' hname hexcept
    rw [(mem_judgements hj).2, (mem_judgements hj').2, ← hname]
    refine verdict_context_congr htag fun hclass => ?_
    by_contra hdiffer
    exact hexcept ⟨hclass, by tauto⟩
  · intro tag front back place location
    exact judgements_congr rfl (by simp)

/-- An attribute with a name only; without a name it is a spread. -/
def Occurrence.ofName (name : String) (location : Location := {}) : Occurrence :=
  if h : name = "" then .spread location else .named { name, name_ne := h, location }

/-- Two attributes of an element without a marker. -/
def unmarkedPair : Element where
  tag := some "img"
  occurrences := [.ofName "class", .ofName "poster"]

/-- The same names in another order and at other places, beside a spread and a marker. -/
def markedPair : Element where
  tag := some "img"
  occurrences := [.ofName "poster" ⟨"a.jsx", 2, 3⟩, .spread {}, .ofName "is",
    .ofName "class" ⟨"a.jsx", 4, 1⟩]

/-- `poster` is misplaced on both elements; `class` is renamed on one and accepted on the other. -/
theorem verdicts_local_poster :
    ∃ v, few.build = .ok v ∧ ∃ judged judged',
      unmarkedPair.verdicts {} v = .ok judged ∧ markedPair.verdicts {} v = .ok judged' ∧
      (∀ j ∈ judged, ∀ j' ∈ judged', j.1.name = "poster" → j'.1.name = "poster" → j.2 = j'.2) ∧
      judged.map Prod.snd = [.rename "className", .misplaced "poster" ["video"]] ∧
      judged'.map Prod.snd = [.misplaced "poster" ["video"], .unknown, .ok] := by
  obtain ⟨judged, hjudged, hsame, -⟩ := verdicts_local (d := few) rfl {}
  refine ⟨_, rfl, judged unmarkedPair, judged markedPair, (hjudged _).1, (hjudged _).1, ?_, ?_, ?_⟩
  · intro j hj j' hj' hposter hposter'
    refine hsame unmarkedPair markedPair rfl j hj j' hj' (hposter.trans hposter'.symm) ?_
    rintro ⟨hclass, -⟩
    exact absurd (hposter.symm.trans hclass) (by decide)
  · have hverdicts := (hjudged unmarkedPair).1
    exact (congrArg (List.map Prod.snd) (Except.ok.inj hverdicts)).symm.trans rfl
  · have hverdicts := (hjudged markedPair).1
    exact (congrArg (List.map Prod.snd) (Except.ok.inj hverdicts)).symm.trans rfl

end AttributeLint

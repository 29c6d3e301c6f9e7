import AttributeLint.Proofs.Repair

/-!
# Two rounds of renaming are enough

`Element.renamed` takes all suggestions of an element at once. A suggestion is a declared name, so
it is final by itself; but a round can take the marker away or bring one in, and with it the
exemption of one spelling.

* `settled_renamed`: after a round in which no marker is lost nothing is left to rename.
* `renamed_of_settled`: then a further round changes nothing.
* **Rounds** (`renamed_renamed_settled`): over any built vocabulary two rounds settle an element. If
  the marker is not itself to be renamed, as in the standard vocabulary, one round does, and all
  verdicts stay that asked for no rename and were not on the exempted spelling.

Two rounds suffice because a marker can be lost only once: if the first round loses it, the second
has none to lose, and if it does not, the first round was enough.
-/

namespace AttributeLint

open Declarations

/-! ## A round -/

/-- A spread stays as it is. -/
def Occurrence.renamed (o : Options) (v : Vocabulary) (c : Context) : Occurrence → Occurrence
  | .named a => .named (a.renamed o v c)
  | .spread location => .spread location

namespace Element

/-- The element with every suggestion taken, all at once. -/
def renamed (o : Options) (v : Vocabulary) (e : Element) : Element :=
  { e with occurrences := e.occurrences.map (Occurrence.renamed o v e.context) }

/-- All attributes of the element get a verdict, and none is to be renamed. -/
def Settled (o : Options) (v : Vocabulary) (e : Element) : Prop :=
  ∃ judged, e.verdicts o v = .ok judged ∧ ∀ j ∈ judged, ∀ n, j.2 ≠ .rename n

variable {o : Options} {v : Vocabulary}

/-- Each attribute is renamed by itself, in the context of its element. -/
theorem attributes_renamed (e : Element) :
    (e.renamed o v).attributes = e.attributes.map (Attribute.renamed o v e.context) := by
  have hone : ∀ x : Occurrence, (x.renamed o v e.context).attribute?
      = x.attribute?.map (Attribute.renamed o v e.context) := by
    rintro (a | location) <;> rfl
  exact filterMap_map_attribute hone e.occurrences

/-- The same attributes are judged after it. -/
theorem subjects_renamed (e : Element) :
    (e.renamed o v).subjects = e.subjects.map (Attribute.renamed o v e.context) := by
  have hcomponent : (e.renamed o v).context.component = e.context.component :=
    component_congr rfl
  unfold subjects
  rw [hcomponent, attributes_renamed]
  split_ifs <;> rfl

end Element

section rounds

variable {d : Declarations} {v : Vocabulary} {o : Options}

/-- An element is settled exactly if none of its attributes is to be renamed. -/
theorem settled_iff (h : d.build = .ok v) {e : Element} : e.Settled o v ↔
    ∀ a ∈ e.subjects, ∀ n, d.verdict o e.context a.name ≠ .rename n := by
  unfold Element.Settled
  rw [verdicts_of_build h, judgements_eq_map]
  constructor
  · rintro ⟨judged, heq, hno⟩ a ha
    cases heq
    exact hno _ (List.mem_map_of_mem ha)
  · intro hno
    refine ⟨_, rfl, fun j hj => ?_⟩
    obtain ⟨a, ha, rfl⟩ := List.mem_map.mp hj
    exact hno a ha

/-- Only elements that are no components have attributes to be judged. -/
theorem component_of_mem_subjects {e : Element} {a : Attribute} (ha : a ∈ e.subjects) :
    e.context.component = false := by
  unfold Element.subjects at ha
  split_ifs at ha with hc
  · cases ha
  · exact Bool.eq_false_iff.mpr hc

/-- The step: a round settles the element unless it loses the marker. -/
theorem settled_renamed (h : d.build = .ok v) {e : Element}
    (hmarker : e.context.marker = true → (e.renamed o v).context.marker = true) :
    (e.renamed o v).Settled o v := by
  rw [settled_iff h, Element.subjects_renamed]
  intro a ha
  obtain ⟨b, hb, rfl⟩ := List.mem_map.mp ha
  exact verdict_renamed_ne_rename h (component_of_mem_subjects hb) hmarker b

/-- In a settled element there is nothing to take. -/
theorem renamed_of_settled (h : d.build = .ok v) {e : Element} (hsettled : e.Settled o v) :
    e.renamed o v = e := by
  have hone : ∀ x ∈ e.occurrences, x.renamed o v e.context = x := by
    rintro (a | location) hx
    · refine congrArg Occurrence.named (renamed_eq_self fun n hn => ?_)
      obtain ⟨hc, hverdict⟩ := verdict_of_judge_ok h hn
      have ha : a ∈ e.subjects := by
        unfold Element.subjects
        rw [hc]
        exact List.mem_filterMap.mpr ⟨_, hx, rfl⟩
      exact (settled_iff h).mp hsettled a ha n hverdict
    · rfl
  unfold Element.renamed
  rw [List.map_congr_left hone, List.map_id']

/-- The run of two rounds. -/
theorem settled_renamed_renamed (h : d.build = .ok v) (e : Element) :
    ((e.renamed o v).renamed o v).Settled o v := by
  rcases hmarker : (e.renamed o v).context.marker with _ | _
  · -- without a marker after the first round the second one loses none
    refine settled_renamed h fun hlost => ?_
    rw [hmarker] at hlost
    cases hlost
  · have hfirst : (e.renamed o v).Settled o v := settled_renamed h fun _ => hmarker
    rwa [renamed_of_settled h hfirst]

/-- A marker that is not to be renamed is not lost. -/
theorem marker_renamed (h : d.build = .ok v) {e : Element}
    (hkept : ∀ n, d.verdict o e.context markerName ≠ .rename n)
    (hmarker : e.context.marker = true) : (e.renamed o v).context.marker = true :=
  Element.marker_of_map (e := e) rfl e.attributes_renamed
    (fun _ hname => name_renamed_marker h hkept hname) hmarker

/-- What a round leaves alone: a verdict that asks for no rename, the exempted spelling apart. -/
theorem judgements_renamed (h : d.build = .ok v) {e : Element} {i : ℕ} {a : Attribute} {r : Verdict}
    (hi : (d.judgements o e)[i]? = some (a, r)) (hr : ∀ n, r ≠ .rename n)
    (hname : a.name ≠ classSpelling) :
    (d.judgements o (e.renamed o v))[i]? = some (a, r) := by
  rw [judgements_eq_map, List.getElem?_map, Option.map_eq_some_iff] at hi
  obtain ⟨b, hb, heq⟩ := hi
  cases heq
  have hself : a.renamed o v e.context = a :=
    renamed_eq_self fun n hn => hr n (verdict_of_judge_ok h hn).2
  have hverdict : d.verdict o (e.renamed o v).context a.name = d.verdict o e.context a.name :=
    verdict_context_congr rfl fun hclass => absurd hclass hname
  rw [judgements_eq_map, List.getElem?_map, Element.subjects_renamed, List.getElem?_map, hb,
    Option.map_some, hself, Option.map_some, hverdict]

end rounds

/-! ## Rounds -/

/-- **Rounds.** Over a built vocabulary a round takes every suggestion, two rounds settle any
element, and a third changes nothing. If no marker is to be renamed on the element, one round
settles it, and every verdict stays that asked for no rename and is not on the exempted spelling.
Over the standard vocabulary the marker is never to be renamed. -/
theorem renamed_renamed_settled :
    (∀ (d : Declarations) (v : Vocabulary), d.build = .ok v → ∀ (o : Options) (e : Element),
      (∀ a ∈ e.attributes, ∀ n, judge o v e.context (.named a) = .ok (.rename n) →
        (a.renamed o v e.context).name = n) ∧
      ((e.renamed o v).renamed o v).Settled o v ∧
      ((e.renamed o v).renamed o v).renamed o v = (e.renamed o v).renamed o v ∧
      ∀ marker : Attribute, marker.name = markerName →
        (∀ n, judge o v e.context (.named marker) ≠ .ok (.rename n)) →
          (e.renamed o v).Settled o v ∧
          ∃ judged judged', e.verdicts o v = .ok judged ∧
            (e.renamed o v).verdicts o v = .ok judged' ∧
            judged.length = judged'.length ∧
            ∀ (i : ℕ) (a : Attribute) (r : Verdict), judged[i]? = some (a, r) →
              (∀ n, r ≠ .rename n) → a.name ≠ classSpelling → judged'[i]? = some (a, r)) ∧
    ∀ (o : Options) (c : Context) (marker : Attribute), marker.name = markerName →
      ∀ n, judge o .standard c (.named marker) ≠ .ok (.rename n) := by
  refine ⟨?_, ?_⟩
  · intro d v hv o e
    have htwo := settled_renamed_renamed (o := o) hv e
    refine ⟨fun a _ n hn => (name_renamed_of_rename hv hn).1, htwo, renamed_of_settled hv htwo, ?_⟩
    intro marker hmarker hkept
    have hsettled : (e.renamed o v).Settled o v := by
      rcases hc : e.context.component with _ | _
      · refine settled_renamed hv (marker_renamed hv fun n hn => hkept n ?_)
        rw [judge_of_build hv o hc marker, hmarker, hn]
      · -- a component has no verdicts and no marker
        refine settled_renamed hv fun hmarked => ?_
        obtain ⟨htag, -⟩ := e.marker_iff.mp hmarked
        simp [e.context_eq, htag] at hc
    refine ⟨hsettled, _, _, verdicts_of_build hv o e, verdicts_of_build hv o _, ?_,
      fun i a r => judgements_renamed hv⟩
    rw [judgements_eq_map, judgements_eq_map, Element.subjects_renamed]
    simp
  · intro o c marker hmarker n hn
    have hdeclared : marker.name ∈ Vocabulary.standardDeclarations.names := by
      rw [hmarker]
      exact Vocabulary.mem_standard_of_mem_html (by decide)
    exact verdict_ne_rename_of_mem_names Vocabulary.standard_coherent hdeclared n
      (verdict_of_judge_ok Vocabulary.build_standard hn).2

/-- Declarations under which the marker is itself to be renamed. -/
def Declarations.withoutMarker : Declarations where
  groups := [("html", ["className", "kind"])]
  restrictions := []
  aliases := []
  renames := [("class", "className"), ("is", "kind")]
  aria := []

/-- An element whose `class` is exempt as long as the marker is there. -/
def exemptPair : Element where
  tag := some "div"
  occurrences := [.ofName "is", .ofName "class"]

/-- The first round loses the marker and is not enough; the second one is. Where the marker has no
other name, one round is. -/
theorem renamed_renamed_settled_lost :
    (∃ v, withoutMarker.build = .ok v ∧
      ((exemptPair.renamed {} v).verdicts {} v).map (List.map Prod.snd)
        = .ok [.ok, .rename "className"] ∧
      ((exemptPair.renamed {} v).renamed {} v).Settled {} v ∧
      ((exemptPair.renamed {} v).renamed {} v).attributes.map Attribute.name
        = ["kind", "className"]) ∧
    ∃ v, few.build = .ok v ∧ (unmarkedPair.renamed {} v).Settled {} v ∧
      (unmarkedPair.renamed {} v).attributes.map Attribute.name = ["className", "poster"] := by
  refine ⟨⟨_, rfl, rfl, ?_, rfl⟩, ⟨_, rfl, ?_, rfl⟩⟩
  · exact (renamed_renamed_settled.1 withoutMarker _ rfl {} exemptPair).2.1
  · obtain ⟨-, -, -, hone⟩ := renamed_renamed_settled.1 few _ rfl {} unmarkedPair
    refine (hone { name := "is", name_ne := by decide } rfl fun n hn => ?_).1
    -- the marker is not declared here, so it is unknown
    cases hn

end AttributeLint

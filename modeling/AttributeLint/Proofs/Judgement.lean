import AttributeLint.Proofs.StandardVocabulary
import AttributeLint.Verdict

/-!
# Judgements read from the declarations

`judge` goes through the lookup tables of a vocabulary. `Declarations.verdict` is the judgement read
directly from what was declared: the exceptions first, then the name that is meant, then its
spelling, then its tags. It is a total function.

* **Agreement** (`judge_eq_declared_verdict`): over a built vocabulary `judge` answers what the
  declarations say and is never at fault; a misplaced attribute comes with the declared tags, which
  are some and not the element's.
* **Suggestions are final** (`judge_suggestion_final`): a suggested name is not renamed again. It is
  accepted or misplaced, unless it starts like an accessibility name that is not listed; the
  standard vocabulary has no such name.

The lemmas on `verdict` say which verdicts a declared name can get (`verdict_of_mem_names`) and when
a verdict is a rename (`verdict_eq_rename_iff`). A rename never hangs on the tag, and on the marker
only for one spelling (`verdict_rename_of_marker_le`).
-/

namespace AttributeLint

open Declarations

namespace Declarations

/-! ## The reference -/

/-- A name that is accepted without a lookup: it is ignored, a data name, a listed accessibility
name, or the spelling that customized built-in elements may keep. -/
def Exempt (d : Declarations) (o : Options) (c : Context) (name : String) : Prop :=
  o.ignores name ∨ Name.isData name ∨ (Name.isAria name ∧ name ∈ d.aria)
    ∨ (name = classSpelling ∧ c.marker)

instance (d : Declarations) (o : Options) (c : Context) (name : String) :
    Decidable (d.Exempt o c name) :=
  inferInstanceAs (Decidable (_ ∨ _))

/-- The judgement of a spelling that means the declared name `canonical`. -/
def spellingVerdict (d : Declarations) (canonical : String) (tag : Option String) (name : String) :
    Verdict :=
  if name ≠ canonical ∧ name ∉ d.aliasesOf canonical then .rename canonical
  else if d.tagsOf canonical = [] ∨ ∃ t ∈ d.tagsOf canonical, tag = some t then .ok
  else .misplaced canonical (d.tagsOf canonical)

/-- The judgement of a name on an intrinsic element, read from the declarations. -/
def verdict (d : Declarations) (o : Options) (c : Context) (name : String) : Verdict :=
  if d.Exempt o c name then .ok
  else if Name.isAria name then .unknown
  else
    match d.meant? (Name.key name) with
    | none => .unknown
    | some canonical => d.spellingVerdict canonical c.tag name

end Declarations

/-! ## `judge` follows the declarations -/

section agreement

variable {d : Declarations} {v : Vocabulary}

/-- The verdict of an entry is that of the declared name. -/
theorem Verdict.ofEntry_entry (d : Declarations) (n : Declared) (tag : Option String)
    (name : String) :
    Verdict.ofEntry (d.entry n) tag name = .ok (d.spellingVerdict n.name tag name) := by
  have haccepts : (d.entry n).accepts name = true ↔
      ¬ (name ≠ n.name ∧ name ∉ d.aliasesOf n.name) := by
    unfold Entry.accepts aliasesOf entry
    simp only [Bool.or_eq_true, beq_iff_eq, List.contains_iff_mem]
    tauto
  have hallows : (d.entry n).allows tag = true ↔
      d.tagsOf n.name = [] ∨ ∃ t ∈ d.tagsOf n.name, tag = some t := by
    unfold Entry.allows tagsOf entry
    rcases (d.restrictions.lookup n.name).getD [] with _ | ⟨t, rest⟩
    · simp
    · rcases tag with _ | s <;> simp
  unfold Verdict.ofEntry spellingVerdict
  by_cases hspelling : name ≠ n.name ∧ name ∉ d.aliasesOf n.name
  · have hno : (d.entry n).accepts name = false :=
      Bool.eq_false_iff.mpr fun h => haccepts.mp h hspelling
    rw [if_pos hspelling, hno]
    rfl
  · rw [if_neg hspelling, haccepts.mpr hspelling]
    by_cases htag : d.tagsOf n.name = [] ∨ ∃ t ∈ d.tagsOf n.name, tag = some t
    · rw [if_pos htag, hallows.mpr htag]
      rfl
    · have hno : (d.entry n).allows tag = false :=
        Bool.eq_false_iff.mpr fun h => htag (hallows.mp h)
      have hsome : (d.tagsOf n.name).isEmpty = false := by
        rw [List.isEmpty_eq_false_iff]
        exact fun h => htag (.inl h)
      rw [if_neg htag, hno]
      unfold Verdict.misplacedOn
      change (if (d.tagsOf n.name).isEmpty then _ else _) = _
      rw [hsome]
      rfl

/-- The lookup: a key leads to the entry of the name that is meant. -/
theorem judgeByKey_of_build (h : d.build = .ok v) (tag : Option String) {name : String}
    (hne : name ≠ "") :
    judgeByKey v tag name = .ok (match d.meant? (Name.key name) with
      | none => .unknown
      | some canonical => d.spellingVerdict canonical tag name) := by
  unfold judgeByKey
  rw [Name.key?_of_ne hne]
  rcases hm : d.meant? (Name.key name) with _ | canonical
  · simp [bind, Except.bind, find_of_meant_none h hm, pure, Except.pure]
  · obtain ⟨category, hfind⟩ := find_of_meant_some h hm
    simp only [bind, Except.bind, hfind]
    exact Verdict.ofEntry_entry d ⟨canonical, category⟩ tag name

/-- The `aria` names of a built vocabulary are the declared ones. -/
theorem hasAria_iff (h : d.build = .ok v) (name : String) :
    v.hasAria name = true ↔ name ∈ d.aria := by
  unfold Vocabulary.hasAria
  rw [aria_of_build h, List.contains_iff_mem]

/-- A name that is not empty gets the verdict of the declarations. -/
theorem judgeName_of_build (h : d.build = .ok v) (o : Options) (c : Context) {name : String}
    (hne : name ≠ "") : judgeName o v c name = .ok (d.verdict o c name) := by
  have haria := hasAria_iff h name
  unfold judgeName verdict
  by_cases hign : o.ignores name = true
  · simp [hign, Exempt]
  by_cases hdata : Name.isData name = true
  · simp [hdata, Exempt]
  by_cases hprefix : Name.isAria name = true
  · by_cases hlisted : name ∈ d.aria
    · simp [hign, hdata, hprefix, haria.mpr hlisted, Exempt, hlisted]
    · have hno : v.hasAria name = false := Bool.eq_false_iff.mpr fun hv => hlisted (haria.mp hv)
      have hclass : name ≠ classSpelling := by
        rintro rfl
        exact absurd hprefix (by decide)
      simp [hign, hdata, hprefix, hno, Exempt, hlisted, hclass]
  by_cases hclass : name = classSpelling ∧ c.marker = true
  · obtain ⟨rfl, hmarker⟩ := hclass
    simp [hign, hdata, hprefix, hmarker, Exempt]
  have hexempt : ¬ d.Exempt o c name := by
    simp [Exempt, hign, hdata, hprefix, hclass]
  have hcond : (c.marker && name == classSpelling) = false := by
    rw [Bool.eq_false_iff, ne_eq, Bool.and_eq_true, beq_iff_eq]
    exact fun hc => hclass ⟨hc.2, hc.1⟩
  rw [if_neg hign, if_neg hdata, if_neg hprefix, hcond, if_neg hexempt, if_neg hprefix]
  exact judgeByKey_of_build h c.tag hne

/-- Over a built vocabulary an attribute of an intrinsic element gets the verdict of the
declarations. -/
theorem judge_of_build (h : d.build = .ok v) (o : Options) {c : Context}
    (hc : c.component = false) (a : Attribute) :
    judge o v c (.named a) = .ok (d.verdict o c a.name) := by
  unfold judge
  simp only [hc]
  exact judgeName_of_build h o c a.name_ne

/-- An attribute of a component gets no verdict at all. -/
theorem component_of_judge_ok {o : Options} {c : Context} {a : Attribute} {r : Verdict}
    (h : judge o v c (.named a) = .ok r) : c.component = false := by
  unfold judge at h
  rcases hc : c.component with _ | _
  · rfl
  · simp [hc] at h

/-- The other direction: what `judge` answers is the verdict of the declarations. -/
theorem verdict_of_judge_ok (h : d.build = .ok v) {o : Options} {c : Context} {a : Attribute}
    {r : Verdict} (hj : judge o v c (.named a) = .ok r) :
    c.component = false ∧ d.verdict o c a.name = r := by
  have hc := component_of_judge_ok hj
  rw [judge_of_build h o hc a] at hj
  exact ⟨hc, Except.ok.inj hj⟩

end agreement

/-! ## Which verdicts a name can get -/

section verdicts

variable {d : Declarations} {o : Options} {c : Context} {name : String}

/-- No data name is an `aria` name. -/
theorem Name.isAria_of_isData (h : Name.isData name = true) : Name.isAria name = false := by
  unfold Name.isData Name.hasDataShape at h
  simp only [Bool.and_eq_true, Bool.or_eq_true, decide_eq_true_eq] at h
  unfold Name.isAria
  rcases h.2 with (h | h) | ⟨h, -⟩
  · rw [h]
    decide
  · rw [h]
    decide
  · -- a name cannot start with two different letters
    obtain ⟨rest, hrest⟩ := List.isPrefixOf_iff_prefix.mp h
    rw [← hrest]
    rfl

/-- A spelling is misplaced only on a tag that its name is not for. -/
theorem Declarations.spellingVerdict_misplaced {canonical n : String} {tag : Option String}
    {tags : List String} (h : d.spellingVerdict canonical tag name = .misplaced n tags) :
    n = canonical ∧ tags = d.tagsOf n ∧ tags ≠ [] ∧ ∀ t ∈ tags, tag ≠ some t := by
  unfold spellingVerdict at h
  split_ifs at h with hspelling htag
  cases h
  rw [not_or, not_exists] at htag
  exact ⟨rfl, rfl, htag.1, fun t ht heq => htag.2 t ⟨ht, heq⟩⟩

/-- When a verdict is a rename. -/
theorem Declarations.verdict_eq_rename_iff {n : String} :
    d.verdict o c name = .rename n ↔ ¬ d.Exempt o c name ∧ Name.isAria name = false ∧
      d.meant? (Name.key name) = some n ∧ name ≠ n ∧ name ∉ d.aliasesOf n := by
  unfold verdict
  by_cases hexempt : d.Exempt o c name
  · simp [hexempt]
  by_cases haria : Name.isAria name = true
  · simp [hexempt, haria]
  rw [if_neg hexempt, if_neg haria]
  rcases hm : d.meant? (Name.key name) with _ | canonical
  · simp
  · dsimp only
    unfold spellingVerdict
    split_ifs with hspelling htag
    · simp only [Verdict.rename.injEq, hexempt, not_false_eq_true, Bool.eq_false_iff.mpr haria,
        Option.some.injEq, true_and]
      constructor
      · rintro rfl
        exact ⟨rfl, hspelling⟩
      · exact fun h => h.1
    · simp only [Option.some.injEq, false_iff, not_and]
      rintro - - rfl hne hmem
      exact hspelling ⟨hne, hmem⟩
    · simp only [Option.some.injEq, false_iff, not_and]
      rintro - - rfl hne hmem
      exact hspelling ⟨hne, hmem⟩

/-- So is an attribute. -/
theorem Declarations.verdict_misplaced {n : String} {tags : List String}
    (h : d.verdict o c name = .misplaced n tags) :
    tags = d.tagsOf n ∧ tags ≠ [] ∧ ∀ t ∈ tags, c.tag ≠ some t := by
  unfold verdict at h
  split_ifs at h with hexempt haria
  split at h
  · cases h
  · exact (spellingVerdict_misplaced h).2

/-- What can be said of a declared name: it is unknown when it starts like an accessibility name
that is not listed and is not ignored, and otherwise accepted or misplaced. -/
theorem Declarations.verdict_of_mem_names (hco : Coherent d.names) (hn : name ∈ d.names) :
    (d.verdict o c name = .ok ∨ (∃ tags, d.verdict o c name = .misplaced name tags)
      ∨ d.verdict o c name = .unknown) ∧
    (d.verdict o c name = .unknown ↔
      Name.isAria name = true ∧ name ∉ d.aria ∧ o.ignores name = false) := by
  unfold verdict
  by_cases hexempt : d.Exempt o c name
  · rw [if_pos hexempt]
    refine ⟨.inl rfl, ⟨fun h => (nomatch h), ?_⟩⟩
    rintro ⟨haria, hlisted, hign⟩
    rcases hexempt with h | h | ⟨-, h⟩ | ⟨rfl, -⟩
    · rw [hign] at h
      cases h
    · rw [Name.isAria_of_isData h] at haria
      cases haria
    · exact absurd h hlisted
    · exact absurd haria (by decide)
  · rw [if_neg hexempt]
    by_cases haria : Name.isAria name = true
    · rw [if_pos haria]
      simp only [Exempt, haria, true_and, not_or] at hexempt
      exact ⟨.inr (.inr rfl), by simp [haria, hexempt.1, hexempt.2.2.1]⟩
    · rw [if_neg haria, hco.meant_key hn]
      dsimp only
      unfold spellingVerdict
      rw [if_neg (fun h => h.1 rfl)]
      split_ifs with htag
      · exact ⟨.inl rfl, by simp [haria]⟩
      · exact ⟨.inr (.inl ⟨_, rfl⟩), by simp [haria]⟩

/-- A declared name is never renamed. -/
theorem Declarations.verdict_ne_rename_of_mem_names (hco : Coherent d.names) (hn : name ∈ d.names)
    (n : String) : d.verdict o c name ≠ .rename n := by
  intro h
  obtain ⟨-, -, hmeant, hne, -⟩ := verdict_eq_rename_iff.mp h
  rw [hco.meant_key hn] at hmeant
  exact hne (Option.some.inj hmeant)

/-- A suggested name is a declared one. -/
theorem Declarations.Acceptable.mem_of_rename (hacc : Acceptable d) {n : String}
    (h : d.verdict o c name = .rename n) : n ∈ d.names :=
  hacc.mem_of_meant (verdict_eq_rename_iff.mp h).2.2.1

/-- Renames under a marker are renames without it: the tag plays no part, and a marker only
exempts. -/
theorem Declarations.verdict_rename_of_marker_le {c' : Context} {n : String}
    (hmarker : c.marker = true → c'.marker = true) (h : d.verdict o c' name = .rename n) :
    d.verdict o c name = .rename n := by
  obtain ⟨hexempt, hrest⟩ := verdict_eq_rename_iff.mp h
  refine verdict_eq_rename_iff.mpr ⟨fun hex => hexempt ?_, hrest⟩
  rcases hex with h | h | h | ⟨h₁, h₂⟩
  · exact .inl h
  · exact .inr (.inl h)
  · exact .inr (.inr (.inl h))
  · exact .inr (.inr (.inr ⟨h₁, hmarker h₂⟩))

end verdicts

/-! ## The two statements -/

/-- **Agreement.** Over a built vocabulary every attribute of an intrinsic element gets the verdict
that the declarations give, without a fault; the name that is meant is the one declared name with
the key, if there is one; and a misplaced attribute comes with the tags declared for it, which are
some and do not have the element's among them. -/
theorem judge_eq_declared_verdict {d : Declarations} {v : Vocabulary} (hv : d.build = .ok v)
    (o : Options) {c : Context} (hc : c.component = false) {tag : String} (ht : c.tag = some tag)
    (a : Attribute) :
    judge o v c (.named a) = .ok (d.verdict o c a.name) ∧
      (∀ n ∈ d.names, Name.key n = Name.key a.name → d.meant? (Name.key a.name) = some n) ∧
      ∀ n tags, d.verdict o c a.name = .misplaced n tags →
        tags = d.tagsOf n ∧ tags ≠ [] ∧ tag ∉ tags := by
  refine ⟨judge_of_build hv o hc a, ?_, ?_⟩
  · intro n hn hkey
    rw [← hkey]
    exact (acceptable_of_build hv).coherent.meant_key hn
  · intro n tags h
    obtain ⟨htags, hne, hnot⟩ := verdict_misplaced h
    exact ⟨htags, hne, fun hmem => hnot tag hmem ht⟩

/-- A few declarations of every kind. -/
def Declarations.few : Declarations where
  groups := [("html", ["className", "charSet", "poster"])]
  restrictions := [("poster", ["video"])]
  aliases := [("charSet", ["charset"])]
  renames := [("class", "className")]
  aria := ["aria-label"]

/-- An attribute that is restricted to another tag. -/
theorem judge_eq_declared_verdict_poster :
    ∃ v, few.build = .ok v ∧
      judge {} v ⟨some "img", false, false⟩ (.named { name := "poster", name_ne := by decide })
        = .ok (.misplaced "poster" ["video"]) ∧ "img" ∉ ["video"] := by
  refine ⟨_, rfl, ?_⟩
  obtain ⟨hjudge, -, hmisplaced⟩ := judge_eq_declared_verdict (d := few) rfl {}
    (c := ⟨some "img", false, false⟩) rfl rfl { name := "poster", name_ne := by decide }
  exact ⟨hjudge, (hmisplaced "poster" ["video"] rfl).2.2⟩

/-- **Suggestions are final.** Over a built vocabulary, a suggested name is a name, and any
attribute with that name in the same context is accepted or misplaced; it is unknown exactly when it
starts like an accessibility name, is not listed and is not ignored. Over the standard vocabulary it
is always accepted or misplaced. -/
theorem judge_suggestion_final :
    (∀ (d : Declarations) (v : Vocabulary), d.build = .ok v →
      ∀ (o : Options) (c : Context) (a : Attribute) (n : String),
        judge o v c (.named a) = .ok (.rename n) → n ≠ "" ∧ ∀ b : Attribute, b.name = n →
          ∃ r, judge o v c (.named b) = .ok r ∧
            (r = .ok ∨ (∃ tags, r = .misplaced n tags) ∨ r = .unknown) ∧
            (r = .unknown ↔
              Name.isAria n = true ∧ v.hasAria n = false ∧ o.ignores n = false)) ∧
    ∀ (o : Options) (c : Context) (a : Attribute) (n : String),
      judge o .standard c (.named a) = .ok (.rename n) → ∀ b : Attribute, b.name = n →
        judge o .standard c (.named b) = .ok .ok ∨
          ∃ tags, judge o .standard c (.named b) = .ok (.misplaced n tags) := by
  have declared : ∀ {d : Declarations} {v : Vocabulary}, d.build = .ok v →
      ∀ {o : Options} {c : Context} {a : Attribute} {n : String},
        judge o v c (.named a) = .ok (.rename n) → c.component = false ∧ n ∈ d.names := by
    intro d v hv o c a n h
    obtain ⟨hc, hverdict⟩ := verdict_of_judge_ok hv h
    exact ⟨hc, (acceptable_of_build hv).mem_of_rename hverdict⟩
  refine ⟨?_, ?_⟩
  · intro d v hv o c a n h
    obtain ⟨hc, hn⟩ := declared hv h
    have hco := (acceptable_of_build hv).coherent
    have haria : v.hasAria n = false ↔ n ∉ d.aria := by
      rw [Bool.eq_false_iff, ne_eq, hasAria_iff hv]
    refine ⟨hco.ne_empty n hn, ?_⟩
    rintro b rfl
    refine ⟨_, judge_of_build hv o hc b, ?_⟩
    rw [haria]
    exact verdict_of_mem_names hco hn
  · rintro o c a n h b rfl
    have hv := Vocabulary.build_standard
    obtain ⟨hc, hn⟩ := declared hv h
    obtain ⟨hcases, hunknown⟩ :=
      verdict_of_mem_names (o := o) (c := c) (acceptable_of_build hv).coherent hn
    rw [judge_of_build hv o hc b]
    rcases hcases with h | ⟨tags, h⟩ | h
    · exact .inl (by rw [h])
    · exact .inr ⟨tags, by rw [h]⟩
    · have haria := (hunknown.mp h).1
      rw [Vocabulary.not_isAria_of_mem_standard hn] at haria
      cases haria

/-- `class` is renamed, by the few declarations and by the standard ones, and its new name stays. -/
theorem judge_suggestion_final_class :
    ∃ v, few.build = .ok v ∧
      judge {} v ⟨some "div", false, false⟩ (.named { name := "class", name_ne := by decide })
        = .ok (.rename "className") ∧
      (∃ r, judge {} v ⟨some "div", false, false⟩
          (.named { name := "className", name_ne := by decide }) = .ok r ∧ r ≠ .unknown) ∧
      judge {} .standard ⟨some "div", false, false⟩
          (.named { name := "class", name_ne := by decide }) = .ok (.rename "className") ∧
      (judge {} .standard ⟨some "div", false, false⟩
            (.named { name := "className", name_ne := by decide }) = .ok .ok ∨
        ∃ tags, judge {} .standard ⟨some "div", false, false⟩
            (.named { name := "className", name_ne := by decide })
              = .ok (.misplaced "className" tags)) := by
  have hmeant : Vocabulary.standardDeclarations.meant? (Name.key "class") = some "className" :=
    Vocabulary.standard_meant_rename (r := ("class", "className"))
      (by simp [Vocabulary.standardRenames])
  have hstandard : judge {} .standard ⟨some "div", false, false⟩
      (.named { name := "class", name_ne := by decide }) = .ok (.rename "className") := by
    rw [judge_of_build Vocabulary.build_standard {} rfl]
    exact congrArg _ (verdict_eq_rename_iff.mpr
      ⟨by decide, by decide, hmeant, by decide, by decide⟩)
  refine ⟨_, rfl, rfl, ?_, hstandard, judge_suggestion_final.2 {} _ _ _ hstandard _ rfl⟩
  obtain ⟨-, hfinal⟩ := judge_suggestion_final.1 few _ rfl {} ⟨some "div", false, false⟩
    { name := "class", name_ne := by decide } "className" rfl
  obtain ⟨r, hr, -, hunknown⟩ := hfinal { name := "className", name_ne := by decide } rfl
  exact ⟨r, hr, fun h => absurd (hunknown.mp h).1 (by decide)⟩

end AttributeLint

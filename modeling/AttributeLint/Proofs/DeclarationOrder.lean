import AttributeLint.Proofs.BuiltVocabulary
import AttributeLint.Proofs.Judgement

/-!
# The order of declarations

`Declarations.build` walks through the declared names from the first to the last, keeps the first
declaration of each name and stops at the first conflict. Nothing of that order is left in what it
accepts or in what the vocabulary says.

* `Reordered`: the same names in any order and in any groups, the same restrictions and aliases in
  any order.
* `Reordered.acceptable`: acceptance asks what is declared, never where.
* `Reordered.verdict_eq`: the reference judgement is the same, since a key means at most one of
  coherent names (`Coherent.find?_eq_of_perm`) and a map has one value for a key
  (`Assoc.lookup_eq_of_perm`).
* **Order** (`build_of_reordered`): both are refused or both make a vocabulary, and then the two
  vocabularies give the same judgements, names, renames and accessibility names. They need not be
  equal: the order of their entries and the categories of moved names may differ.
-/

namespace AttributeLint

/-! ## What does not depend on order -/

/-- If no key occurs twice, the order of the pairs does not show in what is read. -/
theorem Assoc.lookup_eq_of_perm {κ α : Type} [BEq κ] [LawfulBEq κ] {pairs pairs' : List (κ × α)}
    (hp : pairs.Perm pairs') (hkeys : (pairs.map Prod.fst).Nodup) (k : κ) :
    pairs.lookup k = pairs'.lookup k := by
  have hkeys' : (pairs'.map Prod.fst).Nodup := (hp.map Prod.fst).nodup_iff.mp hkeys
  rcases hl : pairs.lookup k with _ | v
  · rcases hl' : pairs'.lookup k with _ | v'
    · rfl
    · have hfound := lookup_of_mem hkeys (hp.mem_iff.mpr (mem_of_lookup hl'))
      rw [hl] at hfound
      cases hfound
  · exact (lookup_of_mem hkeys' (hp.mem_iff.mp (mem_of_lookup hl))).symm

/-- Texts have one ascending order. -/
theorem Text.sorted_eq_of_perm {texts texts' : List String} (hp : texts.Perm texts') :
    sorted texts = sorted texts' := by
  have hascending : ∀ ts, (sorted ts).Pairwise fun a b => decide (a ≤ b) = true := by
    intro ts
    apply List.pairwise_mergeSort
    · intro a b c hab hbc
      rw [decide_eq_true_eq] at hab hbc ⊢
      exact String.le_trans hab hbc
    · intro a b
      rw [Bool.or_eq_true, decide_eq_true_eq, decide_eq_true_eq]
      exact String.le_total a b
  have hperm : (sorted texts).Perm (sorted texts') :=
    ((List.mergeSort_perm texts _).trans hp).trans (List.mergeSort_perm texts' _).symm
  refine hperm.eq_of_pairwise ?_ (hascending texts) (hascending texts')
  intro a b _ _ hab hba
  exact String.le_antisymm (of_decide_eq_true hab) (of_decide_eq_true hba)

namespace Declarations

/-- Restrictions and aliases are maps: no name has two of them. -/
structure Mapped (d : Declarations) : Prop where
  restrictions : (d.restrictions.map Prod.fst).Nodup
  aliases : (d.aliases.map Prod.fst).Nodup

/-- The same declarations in another order. Names may also change groups; the renames stay as they
are, because the last of several with one key counts. -/
structure Reordered (d d' : Declarations) : Prop where
  names : d.names.Perm d'.names
  restrictions : d.restrictions.Perm d'.restrictions
  aliases : d.aliases.Perm d'.aliases
  renames : d.renames = d'.renames
  aria : d.aria = d'.aria

variable {d d' : Declarations}

/-- Being reordered is symmetric. -/
theorem Reordered.symm (h : Reordered d d') : Reordered d' d :=
  ⟨h.names.symm, h.restrictions.symm, h.aliases.symm, h.renames.symm, h.aria.symm⟩

/-! ## Acceptance -/

/-- Reordered declarations are acceptable if the others are. -/
theorem Reordered.acceptable (h : Reordered d d') (hacc : Acceptable d) : Acceptable d' where
  coherent :=
    { ne_empty := fun c hc => hacc.coherent.ne_empty c (h.names.mem_iff.mpr hc)
      eq_of_key := fun a ha b hb =>
        hacc.coherent.eq_of_key a (h.names.mem_iff.mpr ha) b (h.names.mem_iff.mpr hb) }
  restricted r hr := h.names.mem_iff.mp (hacc.restricted r (h.restrictions.mem_iff.mpr hr))
  aliased a ha := h.names.mem_iff.mp (hacc.aliased a (h.aliases.mem_iff.mpr ha))
  alias_key a ha := hacc.alias_key a (h.aliases.mem_iff.mpr ha)
  reaches r hr := by
    obtain ⟨hne, hhides, htarget⟩ := hacc.reaches r (h.renames ▸ hr)
    exact ⟨hne, fun c hc => hhides c (h.names.mem_iff.mpr hc), h.names.mem_iff.mp htarget⟩

/-! ## Judgement -/

/-- At most one of coherent names has a key, so it does not matter which is tried first. -/
theorem Coherent.find?_eq_of_perm {names names' : List String} (hco : Coherent names)
    (hp : names.Perm names') (key : String) :
    (names.find? fun c => Name.key c = key) = names'.find? fun c => Name.key c = key := by
  rcases hf : names.find? fun c => Name.key c = key with _ | a
  · symm
    apply List.find?_eq_none.mpr
    intro c hc
    exact List.find?_eq_none.mp hf c (hp.mem_iff.mpr hc)
  · have ha := List.mem_of_find?_eq_some hf
    have hkey : Name.key a = key := by simpa using List.find?_some hf
    have hsome : (names'.find? fun c => Name.key c = key).isSome :=
      List.find?_isSome.mpr ⟨a, hp.mem_iff.mp ha, by simp [hkey]⟩
    obtain ⟨b, hb⟩ := Option.isSome_iff_exists.mp hsome
    have hkey' : Name.key b = key := by simpa using List.find?_some hb
    have hmem : b ∈ names := hp.mem_iff.mpr (List.mem_of_find?_eq_some hb)
    rw [hb, hco.eq_of_key a ha b hmem (hkey.trans hkey'.symm)]

/-- A key means the same name. -/
theorem Reordered.meant_eq (h : Reordered d d') (hco : Coherent d.names) (key : String) :
    d.meant? key = d'.meant? key := by
  unfold meant?
  rw [hco.find?_eq_of_perm h.names key, h.renames]

/-- A spelling gets the same verdict. -/
theorem Reordered.spellingVerdict_eq (h : Reordered d d') (hmaps : d.Mapped) (canonical : String)
    (tag : Option String) (name : String) :
    d.spellingVerdict canonical tag name = d'.spellingVerdict canonical tag name := by
  have haliases : d.aliasesOf canonical = d'.aliasesOf canonical := by
    unfold aliasesOf
    rw [Assoc.lookup_eq_of_perm h.aliases hmaps.aliases]
  have htags : d.tagsOf canonical = d'.tagsOf canonical := by
    unfold tagsOf
    rw [Assoc.lookup_eq_of_perm h.restrictions hmaps.restrictions]
  unfold spellingVerdict
  rw [haliases, htags]

/-- The judgement read from the declarations is the same, whatever their order. -/
theorem Reordered.verdict_eq (h : Reordered d d') (hmaps : d.Mapped) (hco : Coherent d.names)
    (o : Options) (c : Context) (name : String) : d.verdict o c name = d'.verdict o c name := by
  have hexempt : d.Exempt o c name ↔ d'.Exempt o c name := by
    unfold Exempt
    rw [h.aria]
  unfold verdict
  rw [if_congr hexempt rfl rfl, h.meant_eq hco]
  rcases d'.meant? (Name.key name) with _ | canonical
  · rfl
  · dsimp only
    rw [h.spellingVerdict_eq hmaps]

/-! ## The names of a built vocabulary -/

/-- The entries of a built vocabulary have distinct names. -/
theorem nodup_names_of_build {v : Vocabulary} (hv : d.build = .ok v) :
    (v.entries.map fun e => e.2.name).Nodup := by
  have hkeys : (v.entries.map fun e => e.2.name).map Name.key = v.entries.map Prod.fst := by
    rw [List.map_map]
    apply List.map_congr_left
    intro p hp
    obtain ⟨n, -, rfl⟩ := mem_entries_of_build hv hp
    rfl
  exact List.Nodup.of_map Name.key (hkeys ▸ nodup_entries_of_build hv)

/-- They have the declared names. -/
theorem mem_names_of_build {v : Vocabulary} (hv : d.build = .ok v) {name : String} :
    (name ∈ v.entries.map fun e => e.2.name) ↔ name ∈ d.names := by
  rw [List.mem_map]
  constructor
  · rintro ⟨p, hp, rfl⟩
    obtain ⟨n, hn, rfl⟩ := mem_entries_of_build hv hp
    exact hn
  · intro hname
    obtain ⟨category, hentry⟩ := lookup_entries_of_build hv hname
    exact ⟨_, Assoc.mem_of_lookup hentry, rfl⟩

/-- A name declared several times is listed once in both. -/
theorem Reordered.names_eq (h : Reordered d d') {v v' : Vocabulary} (hv : d.build = .ok v)
    (hv' : d'.build = .ok v') : v.names = v'.names := by
  apply Text.sorted_eq_of_perm
  apply (List.perm_ext_iff_of_nodup (nodup_names_of_build hv) (nodup_names_of_build hv')).mpr
  intro name
  rw [mem_names_of_build hv, mem_names_of_build hv', h.names.mem_iff]

/-! ## The statement -/

/-- **Order.** Let declarations be put in another order: the groups, the names in them, also from
group to group, and the restrictions and aliases, which are maps. Then the new ones make a
vocabulary exactly if the old ones do, and the two vocabularies give the same judgement of every
occurrence in every context under all options. They have the same names, renames and accessibility
names. -/
theorem build_of_reordered (hmaps : d.Mapped) (h : Reordered d d') :
    ((∃ v, d.build = .ok v) ↔ ∃ v', d'.build = .ok v') ∧
    ∀ v v', d.build = .ok v → d'.build = .ok v' →
      (∀ (o : Options) (c : Context) (occ : Occurrence), judge o v c occ = judge o v' c occ) ∧
        v.names = v'.names ∧ v.renames = v'.renames ∧ v.aria = v'.aria := by
  refine ⟨⟨?_, ?_⟩, ?_⟩
  · rintro ⟨v, hv⟩
    exact (h.acceptable (acceptable_of_build hv)).exists_build
  · rintro ⟨v', hv'⟩
    exact (h.symm.acceptable (acceptable_of_build hv')).exists_build
  · intro v v' hv hv'
    have hco := (acceptable_of_build hv).coherent
    refine ⟨?_, h.names_eq hv hv', ?_, ?_⟩
    · intro o c occ
      cases occ with
      | spread location => rfl
      | named a =>
        rcases hc : c.component with _ | _
        · rw [judge_of_build hv o hc a, judge_of_build hv' o hc a, h.verdict_eq hmaps hco]
        · simp [judge, hc]
    · obtain ⟨-, -, -, rfl⟩ := build_eq_ok_iff.mp hv
      obtain ⟨-, -, -, rfl⟩ := build_eq_ok_iff.mp hv'
      show renamesOnto [] d.renames = renamesOnto [] d'.renames
      rw [h.renames]
    · rw [aria_of_build hv, aria_of_build hv', h.aria]

/-- The crowded declarations in another order: of the two declarations of `color` the other one
comes first, and the names beside it have changed groups. -/
def shuffled : Declarations where
  groups := [("svg", ["color", "-"]), ("html", ["color"]), ("other", ["className"])]
  restrictions := [("className", ["div", "p"]), ("color", [])]
  aliases := [("className", ["class-name"])]
  renames := [("class", "className")]
  aria := []

/-- The two vocabularies differ and judge alike. With a name that shares the key of another,
declared first or last, there is none. -/
theorem build_of_reordered_shuffled :
    (∃ v v', crowded.build = .ok v ∧ shuffled.build = .ok v' ∧ v ≠ v' ∧
      (∀ (o : Options) (c : Context) (occ : Occurrence), judge o v c occ = judge o v' c occ) ∧
      v.names = v'.names) ∧
    ¬ ∃ v, ({ shuffled with groups := shuffled.groups ++ [("svg", ["Color"])] }).build = .ok v := by
  refine ⟨?_, ?_⟩
  · obtain ⟨v, v', hv, hv', hne⟩ :
        ∃ v v', crowded.build = .ok v ∧ shuffled.build = .ok v' ∧ v ≠ v' :=
      ⟨_, _, rfl, rfl, by decide⟩
    have hmaps : crowded.Mapped := ⟨by decide, by decide⟩
    have horder : Reordered crowded shuffled := ⟨by decide, by decide, by decide, rfl, rfl⟩
    obtain ⟨hjudge, hnames, -, -⟩ := (build_of_reordered hmaps horder).2 v v' hv hv'
    exact ⟨v, v', hv, hv', hne, hjudge, hnames⟩
  · have hmaps : Mapped { crowded with groups := ("svg", ["Color"]) :: crowded.groups } :=
      ⟨by decide, by decide⟩
    have horder : Reordered { crowded with groups := ("svg", ["Color"]) :: crowded.groups }
        { shuffled with groups := shuffled.groups ++ [("svg", ["Color"])] } :=
      ⟨by decide, by decide, by decide, rfl, rfl⟩
    rw [← (build_of_reordered hmaps horder).1]
    rintro ⟨v, hv⟩
    cases hv

end Declarations

end AttributeLint

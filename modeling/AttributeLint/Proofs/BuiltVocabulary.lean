import AttributeLint.Proofs.Declared

/-!
# Vocabularies that can be built

Which declarations make a vocabulary, what every vocabulary made of declarations is like, and what
becomes of the renames among them.

* **Acceptance** (`build_accepts_wellFormed`): `build` succeeds exactly on `Acceptable`
  declarations. What it makes is `WellFormed`: no key stands for two things, every entry stands
  under its own key with its aliases, and every rename leads to an entry. So a lookup is never at
  fault, and finds something exactly under the keys that the vocabulary knows
  (`WellFormed.exists_find`).
* **Renames** (`renames_honoured_iff`): of the renames with one key the last is honoured, and
  another only if it has the same target. All are honoured exactly if the renames are `Unambiguous`,
  which `build` does not ask for.
-/

namespace AttributeLint

/-- The tags of an entry are those that messages list, and a restriction allows some tag. -/
def Entry.TagsListed (e : Entry) : Prop :=
  e.tags = none ∨ ∃ tags, e.tags = some tags ∧ tags ≠ [] ∧ ∀ t, t ∈ tags ↔ t ∈ e.tagOrder

namespace Vocabulary

/-- Every key leads to one attribute, and every spelling that is kept leads to its entry. -/
structure WellFormed (v : Vocabulary) : Prop where
  entry_keys : (v.entries.map Prod.fst).Nodup
  rename_keys : (v.renames.map Prod.fst).Nodup
  disjoint : ∀ p ∈ v.entries, ∀ r ∈ v.renames, p.1 ≠ r.1
  name_key : ∀ p ∈ v.entries, Name.key? p.2.name = .ok p.1
  tags_listed : ∀ p ∈ v.entries, p.2.TagsListed
  alias_key : ∀ p ∈ v.entries, ∀ s ∈ p.2.aliases, Name.key? s = .ok p.1
  target_named : ∀ r ∈ v.renames, ∃ p ∈ v.entries, p.2.name = r.2

/-- A lookup in a well-formed vocabulary is not at fault, and finds an entry exactly under the keys
that have an entry or a rename. -/
theorem WellFormed.exists_find {v : Vocabulary} (w : v.WellFormed) (key : String) :
    ∃ found, v.find key = .ok found ∧ (found.isSome = true ↔ v.knows key = true) := by
  unfold knows find
  rw [Assoc.has_eq_isSome, Assoc.has_eq_isSome]
  rcases v.entries.lookup key with _ | e
  · rcases hrename : v.renames.lookup key with _ | target
    · exact ⟨none, rfl, by simp⟩
    · -- the target's own key has an entry, so the second lookup succeeds
      obtain ⟨p, hp, hname⟩ := w.target_named _ (Assoc.mem_of_lookup hrename)
      have hname : p.2.name = target := hname
      have hkey : Name.key? target = .ok p.1 := hname ▸ w.name_key p hp
      have hlookup := Assoc.lookup_of_mem w.entry_keys hp
      refine ⟨some p.2, ?_, by simp⟩
      simp [hkey, hlookup, bind, Except.bind, pure, Except.pure]
  · exact ⟨some e, rfl, by simp⟩

/-- A rename is honoured: its raw spelling has a key, and that key leads to the entry of its
target. -/
def Honours (v : Vocabulary) (rename : String × String) : Prop :=
  ∃ key e, Name.key? rename.1 = .ok key ∧ v.find key = .ok (some e) ∧ e.name = rename.2

end Vocabulary

namespace Declarations

/-! ## Keys occur once -/

/-- The step: a declaration adds no key that is there already. -/
theorem nodup_declare {register register' : Register} {n : Declared}
    (h : declare register n = .ok register') (hkeys : (register.map Prod.fst).Nodup) :
    (register'.map Prod.fst).Nodup := by
  obtain ⟨-, ⟨hnone, rfl⟩ | ⟨-, -, -, rfl⟩⟩ := declare_eq_ok_iff.mp h
  · have hnew : Name.key n.name ∉ register.map Prod.fst := by
      intro hmem
      obtain ⟨r, hr, hkey⟩ := List.mem_map.mp hmem
      have hfound := Assoc.lookup_of_mem hkeys hr
      rw [hkey, hnone] at hfound
      cases hfound
    rw [← Assoc.put_of_not_mem n hnew]
    exact Assoc.nodup_put _ n hkeys
  · exact hkeys

/-- The run: no key of a register occurs twice. -/
theorem nodup_declareAll {register' : Register} :
    (ns : List Declared) → ∀ {register : Register}, (register.map Prod.fst).Nodup →
      declareAll register ns = .ok register' → (register'.map Prod.fst).Nodup
  | [], _, hkeys, h => by
      cases h
      exact hkeys
  | n :: rest, register, hkeys, h => by
      unfold declareAll at h
      rcases hstep : declare register n with e | more
      · rw [hstep] at h
        cases h
      · rw [hstep] at h
        exact nodup_declareAll rest (nodup_declare hstep hkeys) h

/-- Renames are kept under distinct keys. -/
theorem nodup_renamesOnto (renames : List (String × String)) {done : List (String × String)}
    (h : (done.map Prod.fst).Nodup) : ((renamesOnto done renames).map Prod.fst).Nodup := by
  unfold renamesOnto
  induction renames generalizing done with
  | nil => exact h
  | cons r rest ih => exact ih (Assoc.nodup_put _ _ h)

/-! ## The parts of a built vocabulary -/

section built

variable {d : Declarations} {v : Vocabulary}

/-- A built vocabulary has one entry for each key. -/
theorem nodup_entries_of_build (h : d.build = .ok v) : (v.entries.map Prod.fst).Nodup := by
  obtain ⟨-, register, hreg, rfl⟩ := build_eq_ok_iff.mp h
  have hnil : (([] : Register).map Prod.fst).Nodup := List.nodup_nil
  have hkeys := nodup_declareAll d.named hnil hreg
  simpa [Function.comp_def] using hkeys

/-- It has one rename for each key. -/
theorem nodup_renames_of_build (h : d.build = .ok v) : (v.renames.map Prod.fst).Nodup := by
  obtain ⟨-, register, -, rfl⟩ := build_eq_ok_iff.mp h
  exact nodup_renamesOnto d.renames List.nodup_nil

/-- An entry is that of a declared name and stands under its key. -/
theorem mem_entries_of_build (h : d.build = .ok v) {p : String × Entry} (hp : p ∈ v.entries) :
    ∃ n : Declared, n.name ∈ d.names ∧ p = (Name.key n.name, d.entry n) := by
  obtain ⟨-, register, hreg, rfl⟩ := build_eq_ok_iff.mp h
  have H : Holds register d.names := by
    simpa [named_map_name] using holds_nil.declareAll d.named hreg
  obtain ⟨r, hr, rfl⟩ := List.mem_map.mp hp
  obtain ⟨hname, hkey⟩ := H.sound r hr
  exact ⟨r.2, hname, by rw [hkey]⟩

/-- A rename by key is a declared one. -/
theorem mem_renames_of_build (h : d.build = .ok v) {r : String × String} (hr : r ∈ v.renames) :
    ∃ declared ∈ d.renames, r = (Name.key declared.1, declared.2) := by
  have hlookup := Assoc.lookup_of_mem (nodup_renames_of_build h) hr
  rw [lookup_renames_of_build h] at hlookup
  obtain ⟨declared, hfind, htarget⟩ := Option.map_eq_some_iff.mp hlookup
  refine ⟨declared, List.mem_reverse.mp (List.mem_of_find?_eq_some hfind), ?_⟩
  have hkey : Name.key declared.1 = r.1 := by simpa using List.find?_some hfind
  rw [hkey, htarget]

/-- The tags of an entry are those of its restrictions, in order. -/
theorem tagsListed_entry (d : Declarations) (n : Declared) : (d.entry n).TagsListed := by
  unfold Entry.TagsListed entry
  rcases (d.restrictions.lookup n.name).getD [] with _ | ⟨t, rest⟩
  · exact .inl rfl
  · exact .inr ⟨t :: rest, rfl, List.cons_ne_nil t rest, fun _ => Iff.rfl⟩

/-- An alias in an entry is declared for its name, so it has the same key. -/
theorem Acceptable.key?_of_mem_aliases (hacc : Acceptable d) {n : Declared} {s : String}
    (hs : s ∈ (d.entry n).aliases) : Name.key? s = .ok (Name.key n.name) := by
  have hs : s ∈ (d.aliases.lookup n.name).getD [] := hs
  rcases hlookup : d.aliases.lookup n.name with _ | spellings
  · rw [hlookup] at hs
    cases hs
  · rw [hlookup] at hs
    obtain ⟨hne, hkey⟩ := hacc.alias_key _ (Assoc.mem_of_lookup hlookup) s hs
    rw [Name.key?_of_ne hne, hkey]

/-- A built vocabulary is well formed. -/
theorem wellFormed_of_build (h : d.build = .ok v) : v.WellFormed := by
  have hacc := acceptable_of_build h
  refine ⟨nodup_entries_of_build h, nodup_renames_of_build h, ?_, ?_, ?_, ?_, ?_⟩
  · intro p hp r hr
    obtain ⟨n, hn, rfl⟩ := mem_entries_of_build h hp
    obtain ⟨declared, hdeclared, rfl⟩ := mem_renames_of_build h hr
    exact (hacc.reaches declared hdeclared).hides_none n.name hn
  · intro p hp
    obtain ⟨n, hn, rfl⟩ := mem_entries_of_build h hp
    exact Name.key?_of_ne (hacc.coherent.ne_empty n.name hn)
  · intro p hp
    obtain ⟨n, -, rfl⟩ := mem_entries_of_build h hp
    exact tagsListed_entry d n
  · intro p hp s hs
    obtain ⟨n, -, rfl⟩ := mem_entries_of_build h hp
    exact hacc.key?_of_mem_aliases hs
  · intro r hr
    obtain ⟨declared, hdeclared, rfl⟩ := mem_renames_of_build h hr
    have htarget := (hacc.reaches declared hdeclared).target_mem
    obtain ⟨category, hentry⟩ := lookup_entries_of_build h htarget
    exact ⟨_, Assoc.mem_of_lookup hentry, rfl⟩

end built

/-! ## Acceptance -/

/-- **Acceptance.** Declarations make a vocabulary exactly if they are acceptable: no declared name,
alias or renamed spelling is empty, different declared names have different keys, restrictions and
aliases are for declared names, an alias has the key of its name, and a rename hides no declared
name and leads to one. The vocabulary is then well formed, no lookup in it is at fault, and a lookup
finds an entry exactly if the vocabulary knows the key. -/
theorem build_accepts_wellFormed (d : Declarations) :
    ((∃ v, d.build = .ok v) ↔ Acceptable d) ∧
    ∀ v, d.build = .ok v → v.WellFormed ∧
      ∀ key, ∃ found, v.find key = .ok found ∧ (found.isSome = true ↔ v.knows key = true) := by
  refine ⟨⟨?_, Acceptable.exists_build⟩, ?_⟩
  · rintro ⟨v, hv⟩
    exact acceptable_of_build hv
  · intro v hv
    have hwell := wellFormed_of_build hv
    exact ⟨hwell, hwell.exists_find⟩

/-- A name declared twice, a name with an empty key, a restriction to no tag, an alias and a
rename. -/
def crowded : Declarations where
  groups := [("html", ["className", "color", "-"]), ("svg", ["color"])]
  restrictions := [("color", []), ("className", ["div", "p"])]
  aliases := [("className", ["class-name"])]
  renames := [("class", "className")]
  aria := []

/-- The empty key leads to an entry like others. With a rename that hides a name there is no
vocabulary. -/
theorem build_accepts_wellFormed_crowded :
    (∃ v, crowded.build = .ok v ∧ v.WellFormed ∧ ∃ e, v.find "" = .ok (some e)) ∧
      ¬ Acceptable { crowded with renames := [("CO-LOR", "className")] } := by
  refine ⟨?_, ?_⟩
  · obtain ⟨v, hv⟩ : ∃ v, crowded.build = .ok v := ⟨_, rfl⟩
    obtain ⟨hwell, hfind⟩ := (build_accepts_wellFormed crowded).2 v hv
    obtain ⟨found, hfound, hiff⟩ := hfind ""
    have hknown : v.knows "" = true := by
      cases hv
      rfl
    obtain ⟨e, rfl⟩ := Option.isSome_iff_exists.mp (hiff.mpr hknown)
    exact ⟨v, hv, hwell, e, hfound⟩
  · intro hacc
    obtain ⟨v, hv⟩ := (build_accepts_wellFormed _).1.mpr hacc
    cases hv

/-! ## Renames -/

/-- Renames with one key have one target. -/
def Unambiguous (d : Declarations) : Prop :=
  ∀ r ∈ d.renames, ∀ s ∈ d.renames, Name.key r.1 = Name.key s.1 → r.2 = s.2

/-- The last rename with a key. -/
def LastRename (d : Declarations) (key : String) (last : String × String) : Prop :=
  Name.key last.1 = key ∧
    ∃ front back, d.renames = front ++ last :: back ∧ ∀ s ∈ back, Name.key s.1 ≠ key

section renames

variable {d : Declarations} {v : Vocabulary} {key : String} {r last : String × String}

/-- The last rename with a key is one of the renames. -/
theorem LastRename.mem (h : d.LastRename key last) : last ∈ d.renames := by
  obtain ⟨-, front, back, hsplit, -⟩ := h
  simp [hsplit]

/-- Every rename is followed by a last one with its key, if it is not that itself. -/
theorem exists_lastRename (hr : r ∈ d.renames) : ∃ last, d.LastRename (Name.key r.1) last := by
  have hsome : (d.renames.reverse.find? fun s => Name.key s.1 = Name.key r.1).isSome :=
    List.find?_isSome.mpr ⟨r, List.mem_reverse.mpr hr, by simp⟩
  obtain ⟨last, hfind⟩ := Option.isSome_iff_exists.mp hsome
  obtain ⟨hkey, later, earlier, hsplit, hlater⟩ := List.find?_eq_some_iff_append.mp hfind
  refine ⟨last, by simpa using hkey, earlier.reverse, later.reverse, ?_, ?_⟩
  · simpa using congrArg List.reverse hsplit
  · intro s hs
    simpa using hlater s (List.mem_reverse.mp hs)

/-- A key with a rename means the target of the last one. -/
theorem Acceptable.meant_of_lastRename (hacc : Acceptable d) (h : d.LastRename key last) :
    d.meant? key = some last.2 := by
  have hmem := h.mem
  obtain ⟨rfl, front, back, hsplit, hback⟩ := h
  have hnames : (d.names.find? fun c => Name.key c = Name.key last.1) = none := by
    apply List.find?_eq_none.mpr
    intro c hc
    simpa using (hacc.reaches last hmem).hides_none c hc
  have hlater : (back.reverse.find? fun s => Name.key s.1 = Name.key last.1) = none := by
    apply List.find?_eq_none.mpr
    intro s hs
    simpa using hback s (List.mem_reverse.mp hs)
  unfold meant?
  rw [hnames, hsplit]
  simp [hlater]

/-- A rename is honoured if the last one with its key has the same target, and not otherwise. -/
theorem honours_iff_of_lastRename (hv : d.build = .ok v) (hr : r ∈ d.renames)
    (hlast : d.LastRename (Name.key r.1) last) : v.Honours r ↔ r.2 = last.2 := by
  have hacc := acceptable_of_build hv
  have hkey := Name.key?_of_ne (hacc.reaches r hr).ne_empty
  obtain ⟨category, hfind⟩ := find_of_meant_some hv (hacc.meant_of_lastRename hlast)
  constructor
  · rintro ⟨key, e, hkey', hfound, hname⟩
    rw [hkey] at hkey'
    cases hkey'
    rw [hfind] at hfound
    cases hfound
    exact hname.symm
  · intro htarget
    exact ⟨_, _, hkey, hfind, htarget.symm⟩

end renames

/-- **Renames.** In a built vocabulary the last rename with a key is honoured, and another rename
with that key exactly if it has the same target. So all renames are honoured exactly if those with
one key have one target. -/
theorem renames_honoured_iff {d : Declarations} {v : Vocabulary} (hv : d.build = .ok v) :
    (∀ r ∈ d.renames, ∃ last, d.LastRename (Name.key r.1) last ∧ v.Honours last ∧
      (v.Honours r ↔ r.2 = last.2)) ∧
    ((∀ r ∈ d.renames, v.Honours r) ↔ d.Unambiguous) := by
  refine ⟨?_, ?_, ?_⟩
  · intro r hr
    obtain ⟨last, hlast⟩ := exists_lastRename hr
    have hown : d.LastRename (Name.key last.1) last := hlast.1 ▸ hlast
    exact ⟨last, hlast, (honours_iff_of_lastRename hv hlast.mem hown).mpr rfl,
      honours_iff_of_lastRename hv hr hlast⟩
  · intro hall r hr s hs hkey
    obtain ⟨last, hlast⟩ := exists_lastRename hr
    have hr₂ := (honours_iff_of_lastRename hv hr hlast).mp (hall r hr)
    have hs₂ := (honours_iff_of_lastRename hv hs (hkey ▸ hlast)).mp (hall s hs)
    exact hr₂.trans hs₂.symm
  · intro hone r hr
    obtain ⟨last, hlast⟩ := exists_lastRename hr
    apply (honours_iff_of_lastRename hv hr hlast).mpr
    exact hone r hr last hlast.mem hlast.1.symm

/-- Two spellings with one key that are renamed to different names, and two that are not. -/
def contested : Declarations where
  groups := [("html", ["className", "htmlFor"])]
  restrictions := []
  aliases := []
  renames := [("class", "className"), ("for", "htmlFor"), ("CLASS", "htmlFor"), ("f-or", "htmlFor")]
  aria := []

/-- The declarations are accepted, and the first of the two contested renames has no effect. -/
theorem renames_honoured_iff_contested :
    ∃ v, contested.build = .ok v ∧ ¬ v.Honours ("class", "className") ∧
      v.Honours ("for", "htmlFor") ∧ ¬ contested.Unambiguous := by
  obtain ⟨v, hv⟩ : ∃ v, contested.build = .ok v := ⟨_, rfl⟩
  obtain ⟨hlast, hall⟩ := renames_honoured_iff hv
  have hacc := acceptable_of_build hv
  have hclass : ¬ v.Honours ("class", "className") := by
    obtain ⟨last, hl, -, hiff⟩ := hlast ("class", "className") (by simp [contested])
    have hmeant : contested.meant? (Name.key "class") = some "htmlFor" := by decide
    rw [hacc.meant_of_lastRename hl] at hmeant
    rw [hiff, Option.some.inj hmeant]
    decide
  have hfor : v.Honours ("for", "htmlFor") := by
    obtain ⟨last, hl, -, hiff⟩ := hlast ("for", "htmlFor") (by simp [contested])
    have hmeant : contested.meant? (Name.key "for") = some "htmlFor" := by decide
    rw [hacc.meant_of_lastRename hl] at hmeant
    exact hiff.mpr (Option.some.inj hmeant).symm
  refine ⟨v, hv, hclass, hfor, fun hone => hclass ?_⟩
  exact hall.mpr hone _ (by simp [contested])

end Declarations

end AttributeLint

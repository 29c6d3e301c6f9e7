import AttributeLint.Proofs.BuiltVocabulary
import AttributeLint.Proofs.Lowercasing
import AttributeLint.Proofs.Respelling

/-!
# Lookup keys beyond ASCII

A lookup key is made in two steps: lowercase first, and then the removal of separators. For names of
arbitrary characters two questions are left open by the definition: what the key of a key is, and
what becomes of the key when separators are put in or left out.

* `Name.keyChars_eq_lowercaseBy`: the key is the bare name in lowercase, where the capital sigmas
  that end a word are those of the name as it is written, separators included.
* **Keys of keys** (`Name.key?_key`): a key with a character is its own key. So are the keys of a
  built vocabulary.
* **Separators** (`Name.key?_eq_iff_of_bare_eq`): spellings that differ by separators only have one
  key exactly if the same of their capital sigmas end a word. Colons do not matter to that, since a
  search for the end of a word passes over them. Hyphens do: `ΑΣ-Α` and `ΑΣΑ` have two keys.
-/

namespace AttributeLint

open Text

namespace Name

/-! ## Separators and lowercase -/

/-- The separators are the hyphen and the colon. -/
theorem isSeparator_iff {c : Char} : isSeparator c = true ↔ c = '-' ∨ c = ':' := by
  unfold isSeparator
  rw [Bool.or_eq_true, decide_eq_true_eq, decide_eq_true_eq]

/-- They have no case. -/
theorem lowercaseChar_of_isSeparator {c : Char} (h : isSeparator c = true) :
    lowercaseChar c = [c] := by
  rcases isSeparator_iff.mp h with rfl | rfl <;> decide

/-- No other character has a separator in its lowercase form. -/
theorem isSeparator_of_mem_lowercaseChar {b c : Char} (h : b ∈ lowercaseChar c)
    (hb : isSeparator b = true) : isSeparator c = true := by
  rcases mem_lowercaseChar_cases h with rfl | rfl | ⟨rfl, -⟩ | ⟨r, hr, hmaps, himage⟩
  · exact absurd hb (by decide)
  · exact absurd hb (by decide)
  · exact hb
  · have hsmall := toNat_of_isSeparator hb
    have hletter := (placed_of_mem r hr).1
    have hlow := hmaps.image_le.1
    omega

/-- Neither form of sigma is a separator. -/
theorem not_isSeparator_sigmaForm (ends : Bool) : isSeparator (sigmaForm ends) = false := by
  cases ends <;> decide

/-- Character by character, lowercase and the removal of separators can change places. -/
theorem bare_lowercaseBy (endings : List Bool) (cs : List Char) :
    bare (lowercaseBy endings cs) = lowercaseBy endings (bare cs) := by
  unfold bare
  induction cs generalizing endings with
  | nil => rfl
  | cons c rest ih =>
    rw [lowercaseBy, List.filter_cons]
    by_cases hsigma : c = capitalSigma
    · subst hsigma
      have hkept : (!isSeparator capitalSigma) = true := by decide
      rw [if_pos rfl, if_pos hkept, lowercaseBy, if_pos rfl, List.filter_cons,
        not_isSeparator_sigmaForm, ih]
      rfl
    · rw [if_neg hsigma, List.filter_append, ih]
      rcases hc : isSeparator c with _ | _
      · have hall : (lowercaseChar c).filter (fun b => !isSeparator b) = lowercaseChar c := by
          apply List.filter_eq_self.mpr
          intro b hb
          rw [Bool.not_eq_true', Bool.eq_false_iff]
          intro hsep
          rw [isSeparator_of_mem_lowercaseChar hb hsep] at hc
          cases hc
        rw [hall, Bool.not_false, if_pos rfl, lowercaseBy, if_neg hsigma]
      · rw [lowercaseChar_of_isSeparator hc, List.filter_cons, hc]
        rfl

/-- The key of a name is its bare form in lowercase. Only for its capital sigmas does it matter
where the separators were. -/
theorem keyChars_eq_lowercaseBy (name : List Char) :
    keyChars name = lowercaseBy (sigmaEndings name) (bare name) := by
  rw [← bare_lowercaseBy]
  unfold keyChars bare lowercase
  rw [lowercaseAfter_eq_lowercaseBy]
  rfl

/-- Keys are compared character by character. -/
theorem key_eq_iff {s t : String} : key s = key t ↔ keyChars s.toList = keyChars t.toList := by
  unfold key
  exact ⟨fun h => String.ofList_injective h, congrArg String.ofList⟩

/-! ## Keys of keys -/

/-- Keys have lowercase characters only. -/
theorem settled_of_mem_keyChars {name : List Char} {c : Char} (h : c ∈ keyChars name) :
    Settled c :=
  settled_of_mem_lowercaseAfter [] (List.mem_of_mem_filter h)

/-- The key of a key is the key, character by character. -/
theorem keyChars_keyChars (name : List Char) : keyChars (keyChars name) = keyChars name := by
  have hlower : lowercase (keyChars name) = keyChars name :=
    lowercaseAfter_of_settled [] fun _ => settled_of_mem_keyChars
  rw [keyChars, hlower]
  unfold keyChars
  rw [List.filter_filter]
  simp only [Bool.and_self]

/-- The key of a key is the key. -/
theorem key_key (name : String) : key (key name) = key name := by
  rw [key_eq_iff]
  unfold key
  rw [String.toList_ofList, keyChars_keyChars]

/-- Nothing but separators is lost in a key. -/
theorem key_eq_empty_iff {name : String} :
    key name = "" ↔ ∀ c ∈ name.toList, c = '-' ∨ c = ':' := by
  have hbare : keyChars name.toList = [] ↔ bare name.toList = [] := by
    rw [keyChars_eq_lowercaseBy]
    rcases bare name.toList with _ | ⟨c, rest⟩
    · exact Iff.rfl
    · refine ⟨fun h => ?_, fun h => nomatch h⟩
      unfold lowercaseBy lowercaseChar at h
      split_ifs at h <;> cases h
  unfold key
  rw [String.ofList_eq_empty_iff, hbare]
  unfold bare
  rw [List.filter_eq_nil_iff]
  simp only [Bool.not_eq_true', Bool.not_eq_false, isSeparator_iff]

/-- **Keys of keys.** A name with a character has a key. The key is empty exactly if the name is
made of separators, and any other key is its own key. Every key that a built vocabulary knows, of an
entry or of a rename, is its own key too unless it is empty. -/
theorem key?_key :
    (∀ raw : String, raw ≠ "" → ∃ k, key? raw = .ok k ∧ (k ≠ "" → key? k = .ok k) ∧
      (k = "" ↔ ∀ c ∈ raw.toList, c = '-' ∨ c = ':')) ∧
    ∀ (d : Declarations) (v : Vocabulary), d.build = .ok v →
      ∀ k, v.knows k = true → k ≠ "" → key? k = .ok k := by
  have hkey : ∀ name, key name ≠ "" → key? (key name) = .ok (key name) := by
    intro name hne
    rw [key?_of_ne hne, key_key]
  refine ⟨?_, ?_⟩
  · intro raw hraw
    exact ⟨key raw, key?_of_ne hraw, hkey raw, key_eq_empty_iff⟩
  · intro d v hv k hknown hne
    -- a known key is that of a declared name or of a renamed spelling
    obtain ⟨name, rfl⟩ : ∃ name, k = key name := by
      unfold Vocabulary.knows at hknown
      rw [Bool.or_eq_true, Assoc.has_eq_isSome, Assoc.has_eq_isSome, Option.isSome_iff_exists,
        Option.isSome_iff_exists] at hknown
      rcases hknown with ⟨e, he⟩ | ⟨target, htarget⟩
      · obtain ⟨n, -, hn⟩ := Declarations.mem_entries_of_build hv (Assoc.mem_of_lookup he)
        exact ⟨n.name, congrArg Prod.fst hn⟩
      · obtain ⟨r, -, hr⟩ := Declarations.mem_renames_of_build hv (Assoc.mem_of_lookup htarget)
        exact ⟨r.1, congrArg Prod.fst hr⟩
    exact hkey name hne

/-- A name with a lowercase form of two characters, a sigma before a separator and a letter that is
mapped into ASCII; and a vocabulary that knows the empty key and others. -/
theorem key?_key_mixed :
    (∃ k, key? "İΣ-ΣK" = .ok k ∧ k ≠ "" ∧ key? k = .ok k) ∧
    ∃ v, Declarations.crowded.build = .ok v ∧ v.knows "classname" = true ∧
      key? "classname" = .ok "classname" ∧ v.knows "" = true := by
  refine ⟨?_, ?_⟩
  · obtain ⟨k, hk, hfixed, hempty⟩ := key?_key.1 "İΣ-ΣK" (by decide)
    have hne : k ≠ "" := by
      intro h
      have hall := hempty.mp h 'İ' (by decide)
      exact absurd hall (by decide)
    exact ⟨k, hk, hne, hfixed hne⟩
  · obtain ⟨v, hv, hclass, hnone⟩ : ∃ v, Declarations.crowded.build = .ok v ∧
        v.knows "classname" = true ∧ v.knows "" = true := ⟨_, rfl, rfl, rfl⟩
    exact ⟨v, hv, hclass, key?_key.2 _ v hv _ hclass (by decide), hnone⟩

/-! ## Spellings that differ by separators -/

/-- Names that are equal without separators have one key exactly if their capital sigmas end
alike. -/
theorem keyChars_eq_iff_of_bare_eq {s t : List Char} (h : bare s = bare t) :
    keyChars s = keyChars t ↔ sigmaEndings s = sigmaEndings t := by
  have hlength : ∀ name, (sigmaEndings name).length = (bare name).count capitalSigma := by
    intro name
    unfold sigmaEndings bare
    rw [length_sigmaEndingsAfter, List.count_filter (by decide)]
  rw [keyChars_eq_lowercaseBy, keyChars_eq_lowercaseBy, ← h]
  constructor
  · intro hkeys
    exact lowercaseBy_inj (hlength s) (h ▸ hlength t) hkeys
  · intro hendings
    rw [hendings]

/-- Without a capital sigma there is no ending. -/
theorem sigmaEndings_of_not_mem {name : List Char} (h : capitalSigma ∉ name) :
    sigmaEndings name = [] := by
  apply List.eq_nil_of_length_eq_zero
  unfold sigmaEndings
  rw [length_sigmaEndingsAfter, List.count_eq_zero]
  exact h

/-- **Separators.** Take two names with characters that are the same once all hyphens and colons are
removed. Both have a key, and it is one key exactly if the same of their capital sigmas end a word.
So it is one key if there is no capital sigma in them, and if they differ by colons only. -/
theorem key?_eq_iff_of_bare_eq {s t : String} (hs : s ≠ "") (ht : t ≠ "")
    (h : bare s.toList = bare t.toList) :
    (∃ k, key? s = .ok k) ∧ (∃ k, key? t = .ok k) ∧
    (key? s = key? t ↔ sigmaEndings s.toList = sigmaEndings t.toList) ∧
    ('Σ' ∉ s.toList → key? s = key? t) ∧
    (s.toList.filter (· != ':') = t.toList.filter (· != ':') → key? s = key? t) := by
  have hiff : key? s = key? t ↔ sigmaEndings s.toList = sigmaEndings t.toList := by
    rw [key?_of_ne hs, key?_of_ne ht, Except.ok.injEq, key_eq_iff, keyChars_eq_iff_of_bare_eq h]
  refine ⟨⟨_, key?_of_ne hs⟩, ⟨_, key?_of_ne ht⟩, hiff, ?_, ?_⟩
  · intro hsigma
    -- a sigma is no separator, so the other name has none either
    have hsigma' : capitalSigma ∉ t.toList := by
      intro hmem
      have hbare : capitalSigma ∈ bare t.toList := List.mem_filter.mpr ⟨hmem, by decide⟩
      rw [← h] at hbare
      exact hsigma (List.mem_of_mem_filter hbare)
    apply hiff.mpr
    rw [sigmaEndings_of_not_mem hsigma, sigmaEndings_of_not_mem hsigma']
  · intro hcolons
    have hignorable : ∀ c : Char, (c != ':') = false → isCaseIgnorable c = true := by
      intro c hc
      rw [bne_eq_false_iff_eq.mp hc]
      decide
    apply hiff.mpr
    rw [← sigmaEndings_filter hignorable s.toList, hcolons, sigmaEndings_filter hignorable]

/-- A hyphen behind a capital sigma makes it end a word, and one before it keeps it from ending one;
a colon at the same place does neither. -/
theorem key?_eq_iff_of_bare_eq_sigma :
    bare "ΑΣ-Α".toList = bare "ΑΣΑ".toList ∧ key? "ΑΣ-Α" ≠ key? "ΑΣΑ" ∧
      bare "Α-Σ".toList = bare "ΑΣ".toList ∧ key? "Α-Σ" ≠ key? "ΑΣ" ∧
      key? "ΑΣ:Α" = key? "ΑΣΑ" ∧ key? "on-Click:" = key? "onClick" := by
  have hbehind := key?_eq_iff_of_bare_eq (s := "ΑΣ-Α") (t := "ΑΣΑ") (by decide) (by decide)
    (by decide)
  have hbefore := key?_eq_iff_of_bare_eq (s := "Α-Σ") (t := "ΑΣ") (by decide) (by decide)
    (by decide)
  have hcolon := key?_eq_iff_of_bare_eq (s := "ΑΣ:Α") (t := "ΑΣΑ") (by decide) (by decide)
    (by decide)
  have hlatin := key?_eq_iff_of_bare_eq (s := "on-Click:") (t := "onClick") (by decide) (by decide)
    (by decide)
  refine ⟨by decide, ?_, by decide, ?_, ?_, ?_⟩
  · rw [ne_eq, hbehind.2.2.1]
    decide
  · rw [ne_eq, hbefore.2.2.1]
    decide
  · exact hcolon.2.2.2.2 (by decide)
  · exact hlatin.2.2.2.1 (by decide)

end Name

end AttributeLint

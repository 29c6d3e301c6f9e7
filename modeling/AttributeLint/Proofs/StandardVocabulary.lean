import AttributeLint.Proofs.Declared
import AttributeLint.Vocabulary.Standard
import Mathlib.Data.List.Nodup

/-!
# The standard vocabulary is well declared

* `standard_keys_nodup`: the declared names and the raw spellings of the renames all have different
  lookup keys.
* `build_standard`: hence the standard declarations are accepted, and `standard` is what they build
  (its definition falls back on the empty vocabulary, and never does).
* `not_isAria_of_mem_standard`, `newline_not_mem_standard`: no declared name starts like an
  accessibility name or has a line break.

The facts about some six hundred names are evaluated by the kernel, once, on lists of characters:
a text literal is such a list for the kernel, while decoding it from its octets is slow.
-/

namespace AttributeLint.Vocabulary

open Declarations

/-! ## Names as lists of characters -/

/-- The lists of characters spell the names. -/
def Spells (spelled : List (List Char)) (names : List String) : Prop :=
  spelled.map String.ofList = names

namespace Spells

variable {spelled spelled' : List (List Char)} {names names' : List String}

/-- No characters spell no names. -/
theorem nil : Spells [] [] := rfl

/-- One more name may be spelled in front. -/
theorem cons {cs : List Char} {name : String} (h : String.ofList cs = name)
    (hrest : Spells spelled names) : Spells (cs :: spelled) (name :: names) := by
  unfold Spells at hrest ⊢
  rw [List.map_cons, h, hrest]

/-- Spellings are put together as names are. -/
theorem append (h : Spells spelled names) (h' : Spells spelled' names') :
    Spells (spelled ++ spelled') (names ++ names') := by
  unfold Spells at h h' ⊢
  rw [List.map_append, h, h']

/-- One ending added to all names. -/
theorem ending {cs : List Char} {s : String} (h : Spells spelled names)
    (hs : String.ofList cs = s) : Spells (spelled.map (· ++ cs)) (names.map (· ++ s)) := by
  unfold Spells at h ⊢
  subst hs
  rw [← h, List.map_map, List.map_map]
  refine congrArg (fun f => spelled.map f) (funext fun ds => ?_)
  simp

/-- Every name is spelled. -/
theorem exists_of_mem (h : Spells spelled names) {name : String} (hn : name ∈ names) :
    ∃ cs ∈ spelled, String.ofList cs = name := by
  unfold Spells at h
  rw [← h] at hn
  exact List.mem_map.mp hn

end Spells

/-! ## Telling keys apart -/

/-- The key of a spelling as a number. The modulus is the least one under which the standard
spellings have different numbers. -/
def residue (cs : List Char) : Nat :=
  (Name.keyChars cs).foldl (fun n c => n * 128 + c.toNat) 0 % 22846

/-- A function at a number that is evaluated first. -/
def atValue (f : Nat → Bool) (n : Nat) : Bool :=
  match n with
  | 0 => f 0
  | k + 1 => f (k + 1)

/-- The value is used as it is, once it is computed. -/
@[simp] theorem atValue_eq (f : Nat → Bool) (n : Nat) : atValue f n = f n := by
  cases n <;> rfl

/-- Do the numbers differ from those in the bit set `seen` and from each other? -/
def allNew (seen : Nat) : List Nat → Bool
  | [] => true
  | n :: rest =>
      atValue (fun n => !seen.testBit n && atValue (allNew · rest) (seen ||| 1 <<< n)) n

/-- Numbers of which each is new are distinct, and none was seen before. -/
theorem nodup_of_allNew :
    (ns : List Nat) → ∀ {seen : Nat}, allNew seen ns = true →
      ns.Nodup ∧ ∀ n ∈ ns, seen.testBit n = false
  | [], _, _ => by simp
  | n :: rest, seen, h => by
      simp only [allNew, atValue_eq, Bool.and_eq_true, Bool.not_eq_true'] at h
      obtain ⟨hnodup, hnew⟩ := nodup_of_allNew rest h.2
      have hsplit : ∀ m ∈ rest, seen.testBit m = false ∧ n ≠ m := by
        intro m hm
        have := hnew m hm
        simpa [Nat.testBit_or, Nat.one_shiftLeft, Nat.testBit_two_pow] using this
      refine ⟨List.nodup_cons.mpr ⟨fun hn => (hsplit n hn).2 rfl, hnodup⟩, ?_⟩
      intro m hm
      rcases List.mem_cons.mp hm with rfl | hm
      · exact h.1
      · exact (hsplit m hm).1

/-- What is evaluated: no spelling is empty, starts like an accessibility name or has a line break,
and the keys of different places differ. -/
def Sound (spelled : List (List Char)) : Bool :=
  (spelled.all fun cs => !cs.isEmpty && !"aria-".toList.isPrefixOf cs && !cs.contains '\n')
    && allNew 0 (spelled.map residue)

/-- The declared names of the standard vocabulary and the raw spellings of its renames. -/
def standardSpellings : List String :=
  standardDeclarations.names ++ standardRenames.map Prod.fst

set_option maxRecDepth 4000 in
/-- The standard spellings, as characters, pass the check. -/
theorem standardSpellings_spelled :
    ∃ spelled, Spells spelled standardSpellings ∧ Sound spelled = true := by
  have hall : standardSpellings =
      (htmlAttributes ++ (rdfaAttributes ++ (svgAttributes ++
        ((eventHandlers ++ eventHandlers.map (· ++ "Capture")) ++ frameworkProperties))))
      ++ ["class", "for"] := by
    simp [standardSpellings, Declarations.names, standardDeclarations, standardRenames]
  rw [hall]
  -- the spelling is found by unification, group by group, and only then evaluated
  apply Exists.intro
  apply And.intro
  · apply Spells.append
    · apply Spells.append
      · unfold htmlAttributes
        dsimp only
        repeat apply Spells.cons rfl
        exact .nil
      apply Spells.append
      · unfold rdfaAttributes
        repeat apply Spells.cons rfl
        exact .nil
      apply Spells.append
      · unfold svgAttributes
        dsimp only
        repeat apply Spells.cons rfl
        exact .nil
      apply Spells.append
      · apply Spells.append
        · unfold eventHandlers
          dsimp only
          repeat apply Spells.cons rfl
          exact .nil
        · apply fun h => Spells.ending h rfl
          unfold eventHandlers
          dsimp only
          repeat apply Spells.cons rfl
          exact .nil
      · unfold frameworkProperties
        repeat apply Spells.cons rfl
        exact .nil
    · repeat apply Spells.cons rfl
      exact .nil
  · decide +kernel

/-! ## The standard declarations -/

/-- No two spellings of the standard declarations share a key. -/
theorem standard_keys_nodup : (standardSpellings.map Name.key).Nodup := by
  obtain ⟨spelled, hspell, hsound⟩ := standardSpellings_spelled
  simp only [Sound, Bool.and_eq_true] at hsound
  have hres : (spelled.map residue).Nodup := (nodup_of_allNew _ hsound.2).1
  -- the residue is a function of the key, so different residues are different keys
  have hkeys : (spelled.map Name.keyChars).Nodup := by
    refine List.Nodup.of_map
      (fun key => key.foldl (fun n (c : Char) => n * 128 + c.toNat) 0 % 22846) ?_
    rw [List.map_map]
    exact hres
  have hmap : standardSpellings.map Name.key = (spelled.map Name.keyChars).map String.ofList := by
    unfold Spells at hspell
    rw [← hspell, List.map_map, List.map_map]
    refine congrArg (fun f => spelled.map f) (funext fun cs => ?_)
    simp [Name.key]
  rw [hmap]
  exact hkeys.map fun _ _ h => String.ofList_injective h

/-- The declared names are among the spellings. -/
theorem mem_standardSpellings {c : String} (hc : c ∈ standardDeclarations.names) :
    c ∈ standardSpellings :=
  List.mem_append_left _ hc

/-- No two standard names share a key. -/
theorem standard_coherent : Coherent standardDeclarations.names := by
  refine ⟨fun c hc => ?_, fun a ha b hb hkey => ?_⟩
  · obtain ⟨spelled, hspell, hsound⟩ := standardSpellings_spelled
    obtain ⟨cs, hcs, rfl⟩ := hspell.exists_of_mem (mem_standardSpellings hc)
    simp only [Sound, Bool.and_eq_true, List.all_eq_true] at hsound
    intro hempty
    have hnil : cs = [] := String.ofList_injective (hempty.trans String.ofList_nil.symm)
    have := (hsound.1 cs hcs).1.1
    simp [hnil] at this
  · exact List.inj_on_of_nodup_map standard_keys_nodup (mem_standardSpellings ha)
      (mem_standardSpellings hb) hkey

/-- No declared name starts like an accessibility name. -/
theorem not_isAria_of_mem_standard {c : String} (hc : c ∈ standardDeclarations.names) :
    Name.isAria c = false := by
  obtain ⟨spelled, hspell, hsound⟩ := standardSpellings_spelled
  obtain ⟨cs, hcs, rfl⟩ := hspell.exists_of_mem (mem_standardSpellings hc)
  simp only [Sound, Bool.and_eq_true, List.all_eq_true, Bool.not_eq_true'] at hsound
  unfold Name.isAria
  rw [String.toList_ofList (l := cs)]
  exact (hsound.1 cs hcs).1.2

/-- No declared name has a line break. -/
theorem newline_not_mem_standard {c : String} (hc : c ∈ standardDeclarations.names) :
    '\n' ∉ c.toList := by
  obtain ⟨spelled, hspell, hsound⟩ := standardSpellings_spelled
  obtain ⟨cs, hcs, rfl⟩ := hspell.exists_of_mem (mem_standardSpellings hc)
  simp only [Sound, Bool.and_eq_true, List.all_eq_true, Bool.not_eq_true'] at hsound
  rw [String.toList_ofList (l := cs), ← List.contains_iff_mem, (hsound.1 cs hcs).2]
  exact Bool.false_ne_true

/-- The names from HTML are among the standard ones. -/
theorem mem_standard_of_mem_html {c : String} (hc : c ∈ htmlAttributes) :
    c ∈ standardDeclarations.names := by
  simp [Declarations.names, standardDeclarations, hc]

/-- A rename of the standard declarations hides no declared name. -/
theorem standard_rename_hides_none {r : String × String} (hr : r ∈ standardRenames) {c : String}
    (hc : c ∈ standardDeclarations.names) : Name.key c ≠ Name.key r.1 := by
  have hnodup := standard_keys_nodup
  unfold standardSpellings at hnodup
  rw [List.map_append, List.nodup_append] at hnodup
  exact hnodup.2.2 _ (List.mem_map_of_mem hc) _ (List.mem_map_of_mem (List.mem_map_of_mem hr))

/-- The raw spelling of a rename means the name it is renamed to. -/
theorem standard_meant_rename {r : String × String} (hr : r ∈ standardRenames) :
    standardDeclarations.meant? (Name.key r.1) = some r.2 := by
  have hnone : standardDeclarations.names.find? (fun n => Name.key n = Name.key r.1) = none := by
    rw [List.find?_eq_none]
    intro n hn
    simpa using standard_rename_hides_none hr hn
  unfold meant?
  rw [hnone]
  simp only [standardRenames, List.mem_cons, List.not_mem_nil, or_false] at hr
  rcases hr with rfl | rfl <;> rfl

/-- The standard declarations are acceptable. -/
theorem standard_acceptable : Acceptable standardDeclarations where
  coherent := standard_coherent
  restricted := by
    have hhtml : ∀ r ∈ tagRestrictions, r.1 ∈ htmlAttributes := by
      simp [tagRestrictions, htmlAttributes]
    exact fun r hr => mem_standard_of_mem_html (hhtml r hr)
  aliased := by
    have hhtml : ∀ a ∈ acceptedAliases, a.1 ∈ htmlAttributes := by
      simp [acceptedAliases, htmlAttributes]
    exact fun a ha => mem_standard_of_mem_html (hhtml a ha)
  alias_key := by
    have hkeys : ∀ a ∈ acceptedAliases, ∀ s ∈ a.2, s ≠ "" ∧ Name.key s = Name.key a.1 := by
      decide +kernel
    exact hkeys
  reaches := by
    have hne : ∀ r ∈ standardRenames, r.1 ≠ "" := by
      simp [standardRenames]
    have hhtml : ∀ r ∈ standardRenames, r.2 ∈ htmlAttributes := by
      simp [standardRenames, htmlAttributes]
    exact fun r hr => ⟨hne r hr, fun c hc => standard_rename_hides_none hr hc,
      mem_standard_of_mem_html (hhtml r hr)⟩

/-- **The standard vocabulary is what its declarations build.** -/
theorem build_standard : standardDeclarations.build = .ok standard := by
  obtain ⟨v, hv⟩ := standard_acceptable.exists_build
  have hstandard : standard = v := by
    unfold standard
    rw [hv]
    rfl
  rw [hstandard, hv]

end AttributeLint.Vocabulary

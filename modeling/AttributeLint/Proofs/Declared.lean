import AttributeLint.Vocabulary.Build
import Mathlib.Tactic.SplitIfs

/-!
# What a built vocabulary says about its declarations

`Declarations.build` makes several passes: a register of names, checks of restrictions and aliases
against it, a map of renames, and the entries. This file says once what each pass does, and puts the
passes together in two statements.

* **Acceptance** (`build_eq_ok_iff`): `build` succeeds exactly on `Acceptable` declarations, and the
  vocabulary is then made of the register and of the renames by key.
* **Lookup** (`find_of_meant_none`, `find_of_meant_some`): in a built vocabulary a lookup key leads
  to the entry of the name that the declarations mean by it (`meant?`): the declared name with that
  key, or else the target of the last rename whose raw spelling has it. No lookup is at fault.

The invariant behind both is `Holds register names`: the register holds exactly the names declared
so far, each under its own key. One declaration keeps it (`Holds.declare`), so a run of declarations
does (`Holds.declareAll`).
-/

namespace AttributeLint

/-! ## Keys and association lists -/

/-- A name has a key exactly if it is not empty. -/
theorem Name.key?_eq_ok_iff {name key : String} :
    Name.key? name = .ok key ↔ name ≠ "" ∧ key = Name.key name := by
  unfold Name.key?
  split_ifs with h
  · simp [h]
  · simp [h, eq_comm]

/-- A name with a character has a key. -/
theorem Name.key?_of_ne {name : String} (h : name ≠ "") : Name.key? name = .ok (Name.key name) :=
  Name.key?_eq_ok_iff.mpr ⟨h, rfl⟩

namespace Assoc

variable {κ α β : Type} [BEq κ]

/-- What is found under a key is one of the pairs. -/
theorem mem_of_lookup [LawfulBEq κ] {k : κ} {v : α} {pairs : List (κ × α)}
    (h : pairs.lookup k = some v) : (k, v) ∈ pairs := by
  obtain ⟨front, back, rfl, -⟩ := List.lookup_eq_some_iff.mp h
  simp

/-- If no key occurs twice, a pair is found under its key. -/
theorem lookup_of_mem [LawfulBEq κ] {pairs : List (κ × α)} (h : (pairs.map Prod.fst).Nodup)
    {p : κ × α} (hp : p ∈ pairs) : pairs.lookup p.1 = some p.2 := by
  induction pairs with
  | nil => cases hp
  | cons q rest ih =>
    obtain ⟨hq, hrest⟩ : q.1 ∉ rest.map Prod.fst ∧ (rest.map Prod.fst).Nodup := by simpa using h
    rw [List.lookup_cons]
    rcases List.mem_cons.mp hp with rfl | hp
    · rw [beq_self_eq_true]
    · have hne : p.1 ≠ q.1 := fun heq => hq (heq ▸ List.mem_map_of_mem hp)
      rw [beq_false_of_ne hne, ih hrest hp]

/-- A key is there exactly if something is found under it. -/
theorem has_eq_isSome (k : κ) : (pairs : List (κ × α)) → has k pairs = (pairs.lookup k).isSome
  | [] => rfl
  | (k', v) :: rest => by
      have hrest := has_eq_isSome k rest
      unfold has at hrest ⊢
      rw [List.any_cons, List.lookup_cons, hrest]
      cases k == k' <;> rfl

/-- Changing the values of a list changes what is read from it in the same way. -/
theorem lookup_map_snd (f : α → β) (k : κ) :
    (pairs : List (κ × α)) → (pairs.map fun p => (p.1, f p.2)).lookup k = (pairs.lookup k).map f
  | [] => rfl
  | (k', v) :: rest => by
      rw [List.map_cons, List.lookup_cons, List.lookup_cons, lookup_map_snd f k rest]
      cases k == k' <;> rfl

/-- Reading after a write: the written value under its key, and what was there before elsewhere. -/
theorem lookup_put [LawfulBEq κ] (k k' : κ) (v : α) :
    (pairs : List (κ × α)) →
      (put k v pairs).lookup k' = if k' == k then some v else pairs.lookup k'
  | [] => by
      rw [put, List.lookup_cons, List.lookup_nil]
      cases k' == k <;> rfl
  | (k₁, v₁) :: rest => by
      unfold put
      by_cases hk : k = k₁
      · subst hk
        simp only [beq_self_eq_true, if_true, List.lookup_cons]
        cases k' == k <;> rfl
      · rw [if_neg (by simpa using hk), List.lookup_cons, List.lookup_cons, lookup_put k k' v rest]
        by_cases hk' : k' = k₁
        · subst hk'
          simp [Ne.symm hk]
        · simp [beq_false_of_ne hk']

end Assoc

namespace Declarations

/-! ## What the declarations say -/

/-- The declared names, in order. -/
def names (d : Declarations) : List String :=
  d.groups.flatMap Prod.snd

/-- The name that the declarations mean by a lookup key: the declared name with this key, or else
the target of the last rename whose raw spelling has it. -/
def meant? (d : Declarations) (key : String) : Option String :=
  (d.names.find? fun c => Name.key c = key).or
    ((d.renames.reverse.find? fun r => Name.key r.1 = key).map Prod.snd)

/-- The other spellings declared for a name. -/
def aliasesOf (d : Declarations) (name : String) : List String :=
  (d.aliases.lookup name).getD []

/-- The tags that a name is restricted to, in declared order; none if it is not restricted. -/
def tagsOf (d : Declarations) (name : String) : List String :=
  (d.restrictions.lookup name).getD []

/-- Names that can be declared together: none is empty, and different ones have different keys. -/
structure Coherent (names : List String) : Prop where
  ne_empty : ∀ c ∈ names, c ≠ ""
  eq_of_key : ∀ a ∈ names, ∀ b ∈ names, Name.key a = Name.key b → a = b

/-- A rename that can stand beside declared names: it has a raw spelling, hides no name and leads
to one. -/
structure Reaches (names : List String) (rename : String × String) : Prop where
  ne_empty : rename.1 ≠ ""
  hides_none : ∀ c ∈ names, Name.key c ≠ Name.key rename.1
  target_mem : rename.2 ∈ names

/-- What `build` asks of declarations. -/
structure Acceptable (d : Declarations) : Prop where
  coherent : Coherent d.names
  restricted : ∀ r ∈ d.restrictions, r.1 ∈ d.names
  aliased : ∀ a ∈ d.aliases, a.1 ∈ d.names
  alias_key : ∀ a ∈ d.aliases, ∀ s ∈ a.2, s ≠ "" ∧ Name.key s = Name.key a.1
  reaches : ∀ r ∈ d.renames, Reaches d.names r

/-- The declared names are those of the groups, in order. -/
theorem named_map_name (d : Declarations) : d.named.map Declared.name = d.names := by
  unfold named names
  rw [List.map_flatMap]
  refine congrArg (fun f => d.groups.flatMap f) (funext fun g => ?_)
  simp [Function.comp_def]

/-! ## The register -/

/-- The register holds exactly the given names, each under its own key. -/
structure Holds (register : Register) (names : List String) : Prop where
  sound : ∀ r ∈ register, r.2.name ∈ names ∧ r.1 = Name.key r.2.name
  complete : ∀ c ∈ names, ∃ n, register.lookup (Name.key c) = some n ∧ n.name = c
  ne_empty : ∀ c ∈ names, c ≠ ""

/-- An empty register holds no names. -/
theorem holds_nil : Holds [] [] :=
  ⟨by simp, by simp, by simp⟩

namespace Holds

variable {register : Register} {names : List String}

/-- A key in the register belongs to one of the names. -/
theorem of_lookup (H : Holds register names) {key : String} {n : Declared}
    (h : register.lookup key = some n) : n.name ∈ names ∧ Name.key n.name = key := by
  obtain ⟨hmem, hkey⟩ := H.sound _ (Assoc.mem_of_lookup h)
  exact ⟨hmem, hkey.symm⟩

/-- Nothing is found under a key exactly if no declared name has it. -/
theorem lookup_eq_none_iff (H : Holds register names) {key : String} :
    register.lookup key = none ↔ ∀ c ∈ names, Name.key c ≠ key := by
  constructor
  · rintro h c hc rfl
    obtain ⟨n, hn, -⟩ := H.complete c hc
    rw [h] at hn
    cases hn
  · intro h
    rcases hl : register.lookup key with _ | n
    · rfl
    · obtain ⟨hmem, hkey⟩ := H.of_lookup hl
      exact absurd hkey (h _ hmem)

/-- A name counts as declared exactly if it is declared. -/
theorem isDeclared_iff (H : Holds register names) {c : String} :
    isDeclared register c = true ↔ c ∈ names := by
  unfold isDeclared
  rw [List.any_eq_true]
  constructor
  · rintro ⟨r, hr, hc⟩
    rw [← eq_of_beq hc]
    exact (H.sound r hr).1
  · intro hc
    obtain ⟨n, hn, hname⟩ := H.complete c hc
    exact ⟨_, Assoc.mem_of_lookup hn, by simp [hname]⟩

/-- The names of a register are coherent: two with one key are found at one place. -/
theorem coherent (H : Holds register names) : Coherent names := by
  refine ⟨H.ne_empty, fun a ha b hb hkey => ?_⟩
  obtain ⟨n, hn, rfl⟩ := H.complete a ha
  obtain ⟨m, hm, rfl⟩ := H.complete b hb
  rw [hkey, hm] at hn
  cases hn
  rfl

end Holds

/-- **What one declaration can do**: add a name under a new key, or meet the same name again. -/
theorem declare_eq_ok_iff {register register' : Register} {n : Declared} :
    declare register n = .ok register' ↔ n.name ≠ "" ∧
      ((register.lookup (Name.key n.name) = none ∧
          register' = register ++ [(Name.key n.name, n)]) ∨
        ∃ seen, register.lookup (Name.key n.name) = some seen ∧ seen.name = n.name ∧
          register' = register) := by
  unfold declare
  by_cases hne : n.name = ""
  · simp [hne, Name.key?]
  · rw [Name.key?_of_ne hne]
    dsimp only
    rcases hl : register.lookup (Name.key n.name) with _ | seen
    · simp [hne, eq_comm]
    · by_cases hseen : seen.name = n.name
      · simp [hne, hseen, eq_comm]
      · simp [hne, hseen]

namespace Holds

variable {register register' : Register} {names : List String}

/-- The step: declaring a name adds it to the names that the register holds. -/
theorem declare (H : Holds register names) {n : Declared}
    (h : Declarations.declare register n = .ok register') :
    Holds register' (names ++ [n.name]) := by
  obtain ⟨hne, ⟨hnone, rfl⟩ | ⟨seen, hseen, hname, rfl⟩⟩ := declare_eq_ok_iff.mp h
  · refine ⟨?_, ?_, ?_⟩
    · intro r hr
      rcases List.mem_append.mp hr with hr | hr
      · obtain ⟨hmem, hkey⟩ := H.sound r hr
        exact ⟨List.mem_append_left _ hmem, hkey⟩
      · rw [List.mem_singleton] at hr
        subst hr
        simp
    · intro c hc
      rw [List.lookup_append]
      rcases List.mem_append.mp hc with hc | hc
      · obtain ⟨m, hm, hmc⟩ := H.complete c hc
        exact ⟨m, by simp [hm], hmc⟩
      · rw [List.mem_singleton] at hc
        subst hc
        exact ⟨n, by simp [hnone], rfl⟩
    · intro c hc
      rcases List.mem_append.mp hc with hc | hc
      · exact H.ne_empty c hc
      · rwa [List.mem_singleton.mp hc]
  · -- the name is there already, so nothing new is held
    have hmem : n.name ∈ names := hname ▸ (H.of_lookup hseen).1
    refine ⟨fun r hr => ?_, fun c hc => ?_, fun c hc => ?_⟩
    · obtain ⟨hr₁, hr₂⟩ := H.sound r hr
      exact ⟨List.mem_append_left _ hr₁, hr₂⟩
    · rcases List.mem_append.mp hc with hc | hc
      · exact H.complete c hc
      · exact H.complete c (List.mem_singleton.mp hc ▸ hmem)
    · rcases List.mem_append.mp hc with hc | hc
      · exact H.ne_empty c hc
      · rwa [List.mem_singleton.mp hc]

/-- The run: declaring names in order adds all of them. -/
theorem declareAll :
    (ns : List Declared) → ∀ {register : Register} {names : List String}, Holds register names →
      Declarations.declareAll register ns = .ok register' →
        Holds register' (names ++ ns.map Declared.name)
  | [], _, _, H, h => by
      cases h
      simpa using H
  | n :: rest, register, names, H, h => by
      unfold Declarations.declareAll at h
      rcases hstep : Declarations.declare register n with e | more
      · rw [hstep] at h
        cases h
      · rw [hstep] at h
        have hrest := declareAll rest (H.declare hstep) h
        simpa [List.append_assoc] using hrest

/-- Progress of one step: a name that is coherent with the held ones can be declared. -/
theorem exists_declare (H : Holds register names) {n : Declared} (hne : n.name ≠ "")
    (hco : ∀ c ∈ names, Name.key c = Name.key n.name → c = n.name) :
    ∃ more, Declarations.declare register n = .ok more := by
  rcases hl : register.lookup (Name.key n.name) with _ | seen
  · exact ⟨_, declare_eq_ok_iff.mpr ⟨hne, .inl ⟨hl, rfl⟩⟩⟩
  · obtain ⟨hmem, hkey⟩ := H.of_lookup hl
    exact ⟨_, declare_eq_ok_iff.mpr ⟨hne, .inr ⟨seen, hl, hco _ hmem hkey, rfl⟩⟩⟩

/-- Progress of a run: coherent names can all be declared. -/
theorem exists_declareAll :
    (ns : List Declared) → ∀ {register : Register} {names : List String}, Holds register names →
      Coherent (names ++ ns.map Declared.name) →
        ∃ register', Declarations.declareAll register ns = .ok register'
  | [], register, _, _, _ => ⟨register, rfl⟩
  | n :: rest, register, names, H, hco => by
      have hn : n.name ∈ names ++ (n :: rest).map Declared.name := by simp
      obtain ⟨more, hmore⟩ := H.exists_declare (hco.ne_empty _ hn) fun c hc hkey =>
        hco.eq_of_key c (List.mem_append_left _ hc) _ hn hkey
      obtain ⟨register', hrest⟩ := exists_declareAll rest (H.declare hmore)
        (by simpa [List.append_assoc] using hco)
      refine ⟨register', ?_⟩
      unfold Declarations.declareAll
      rw [hmore]
      exact hrest

end Holds

/-! ## The checks -/

/-- A check of all passes exactly if each check does. -/
theorem checkAll_eq_ok_iff {α : Type} {check : α → Except Fault Unit} :
    (xs : List α) → (checkAll check xs = .ok () ↔ ∀ x ∈ xs, check x = .ok ())
  | [] => by simp [checkAll]
  | x :: rest => by
      unfold checkAll
      rcases hx : check x with e | ⟨⟩
      · simp [hx]
      · simp [hx, checkAll_eq_ok_iff rest]

section checks

variable {register : Register} {names : List String}

/-- The check for a declared name passes exactly for those. -/
theorem checkDeclared_eq_ok_iff (H : Holds register names) {c : String} :
    checkDeclared register c = .ok () ↔ c ∈ names := by
  unfold checkDeclared
  rw [← H.isDeclared_iff]
  split_ifs with h <;> simp [h]

/-- An alias passes exactly if it is not empty and has the key of its name. -/
theorem checkAlias_eq_ok_iff {name spelling : String} :
    checkAlias name spelling = .ok () ↔ spelling ≠ "" ∧ Name.key spelling = Name.key name := by
  unfold checkAlias
  by_cases hne : spelling = ""
  · simp [hne, Name.key?]
  · rw [Name.key?_of_ne hne]
    by_cases hkey : Name.key spelling = Name.key name <;> simp [hne, hkey]

/-- A rename passes exactly if it reaches a declared name, and is kept under its key. -/
theorem checkRename_eq_ok_iff (H : Holds register names) {raw target key : String} :
    checkRename register raw target = .ok key ↔
      Reaches names (raw, target) ∧ key = Name.key raw := by
  have hreach : Reaches names (raw, target) ↔
      raw ≠ "" ∧ register.lookup (Name.key raw) = none ∧ isDeclared register target = true := by
    rw [H.lookup_eq_none_iff, H.isDeclared_iff]
    exact ⟨fun h => ⟨h.1, h.2, h.3⟩, fun h => ⟨h.1, h.2.1, h.2.2⟩⟩
  rw [hreach]
  unfold checkRename
  by_cases hne : raw = ""
  · simp [hne, Name.key?]
  · rw [Name.key?_of_ne hne]
    dsimp only
    rcases hl : register.lookup (Name.key raw) with _ | hidden
    · by_cases hdec : isDeclared register target = true <;> simp [hne, hdec, eq_comm]
    · simp

end checks

/-! ## Renames by key -/

/-- The renames by lookup key, written one after the other onto `done`. -/
def renamesOnto (done renames : List (String × String)) : List (String × String) :=
  renames.foldl (fun acc r => Assoc.put (Name.key r.1) r.2 acc) done

/-- Renames pass exactly if each does, and a later one takes the place of an earlier one with the
same key. -/
theorem renameAll_eq_ok_iff {register : Register} {names : List String} (H : Holds register names) :
    (renames : List (String × String)) → ∀ {done out : List (String × String)},
      renameAll register done renames = .ok out ↔
        (∀ r ∈ renames, Reaches names r) ∧ out = renamesOnto done renames
  | [], done, out => by simp [renameAll, renamesOnto, eq_comm]
  | (raw, target) :: rest, done, out => by
      unfold renameAll
      rcases hr : checkRename register raw target with e | key
      · have hno : ¬ Reaches names (raw, target) := by
          intro hreach
          rw [(checkRename_eq_ok_iff H).mpr ⟨hreach, rfl⟩] at hr
          cases hr
        simp [hno]
      · obtain ⟨hreach, rfl⟩ := (checkRename_eq_ok_iff H).mp hr
        simp only [List.forall_mem_cons, hreach, true_and]
        exact renameAll_eq_ok_iff H rest

/-- Of several renames with one key the last one counts. -/
theorem lookup_renamesOnto (key : String) :
    (renames done : List (String × String)) → (renamesOnto done renames).lookup key =
      ((renames.reverse.find? fun r => Name.key r.1 = key).map Prod.snd).or (done.lookup key)
  | [], done => by simp [renamesOnto]
  | (raw, target) :: rest, done => by
      have hrest := lookup_renamesOnto key rest (Assoc.put (Name.key raw) target done)
      rw [Assoc.lookup_put] at hrest
      unfold renamesOnto at hrest ⊢
      rw [List.foldl_cons, hrest, List.reverse_cons, List.find?_append]
      rcases hf : List.find? (fun r => decide (Name.key r.1 = key)) rest.reverse with _ | r
      · by_cases hkey : Name.key raw = key
        · simp [hf, hkey]
        · simp [hf, hkey, Ne.symm hkey]
      · simp [hf]

/-! ## Acceptance -/

/-- **What `build` does**: it accepts acceptable declarations and no others, and makes the
vocabulary of the register, the renames by key and the accessibility names. -/
theorem build_eq_ok_iff {d : Declarations} {v : Vocabulary} :
    d.build = .ok v ↔ Acceptable d ∧ ∃ register, declareAll [] d.named = .ok register ∧
      v = ⟨register.map fun r => (r.1, d.entry r.2), renamesOnto [] d.renames, d.aria⟩ := by
  unfold build
  rcases hreg : declareAll [] d.named with e | register
  · simp [bind, Except.bind]
  have H : Holds register d.names := by
    simpa [named_map_name] using holds_nil.declareAll d.named hreg
  have hdeclared :
      checkAll (checkDeclared register) (d.restrictions.map Prod.fst ++ d.aliases.map Prod.fst)
          = .ok () ↔ (∀ r ∈ d.restrictions, r.1 ∈ d.names) ∧ ∀ a ∈ d.aliases, a.1 ∈ d.names := by
    simp only [checkAll_eq_ok_iff, checkDeclared_eq_ok_iff H, List.forall_mem_append,
      List.forall_mem_map]
  have haliases : checkAll (fun a => checkAll (checkAlias a.1) a.2) d.aliases = .ok () ↔
      ∀ a ∈ d.aliases, ∀ s ∈ a.2, s ≠ "" ∧ Name.key s = Name.key a.1 := by
    simp only [checkAll_eq_ok_iff, checkAlias_eq_ok_iff]
  have hrenames : ∀ out, renameAll register [] d.renames = .ok out ↔
      (∀ r ∈ d.renames, Reaches d.names r) ∧ out = renamesOnto [] d.renames :=
    fun _ => renameAll_eq_ok_iff H d.renames
  constructor
  · intro h
    rcases h₁ : checkAll (checkDeclared register)
        (d.restrictions.map Prod.fst ++ d.aliases.map Prod.fst) with e | ⟨⟩
    · simp [bind, Except.bind, h₁] at h
    rcases h₂ : checkAll (fun a => checkAll (checkAlias a.1) a.2) d.aliases with e | ⟨⟩
    · simp [bind, Except.bind, h₁, h₂] at h
    rcases h₃ : renameAll register [] d.renames with e | renames
    · simp [bind, Except.bind, h₁, h₂, h₃] at h
    obtain ⟨hreach, rfl⟩ := (hrenames _).mp h₃
    obtain ⟨hres, hali⟩ := hdeclared.mp h₁
    refine ⟨⟨H.coherent, hres, hali, haliases.mp h₂, hreach⟩, register, rfl, ?_⟩
    simpa [bind, Except.bind, h₁, h₂, h₃, pure, Except.pure, eq_comm] using h
  · rintro ⟨hacc, register', hreg', rfl⟩
    cases hreg'
    have h₁ := hdeclared.mpr ⟨hacc.restricted, hacc.aliased⟩
    have h₂ := haliases.mpr hacc.alias_key
    have h₃ := (hrenames _).mpr ⟨hacc.reaches, rfl⟩
    simp [bind, Except.bind, h₁, h₂, h₃, pure, Except.pure]

/-- Acceptable declarations make a vocabulary. -/
theorem Acceptable.exists_build {d : Declarations} (hacc : Acceptable d) :
    ∃ v, d.build = .ok v := by
  obtain ⟨register, hreg⟩ := holds_nil.exists_declareAll d.named
    (by simpa [named_map_name] using hacc.coherent)
  exact ⟨_, build_eq_ok_iff.mpr ⟨hacc, register, hreg, rfl⟩⟩

/-! ## Lookup in a built vocabulary -/

section built

variable {d : Declarations} {v : Vocabulary}

/-- Only acceptable declarations can be built. -/
theorem acceptable_of_build (h : d.build = .ok v) : Acceptable d :=
  (build_eq_ok_iff.mp h).1

/-- The built vocabulary has the declared `aria` names. -/
theorem aria_of_build (h : d.build = .ok v) : v.aria = d.aria := by
  obtain ⟨-, register, -, rfl⟩ := build_eq_ok_iff.mp h
  rfl

/-- An entry's key leads to the entry of the one declared name with that key. -/
theorem lookup_entries_of_build (h : d.build = .ok v) {c : String} (hc : c ∈ d.names) :
    ∃ category, v.entries.lookup (Name.key c) = some (d.entry ⟨c, category⟩) := by
  obtain ⟨-, register, hreg, rfl⟩ := build_eq_ok_iff.mp h
  have H : Holds register d.names := by
    simpa [named_map_name] using holds_nil.declareAll d.named hreg
  obtain ⟨n, hn, rfl⟩ := H.complete c hc
  refine ⟨n.category, ?_⟩
  rw [Assoc.lookup_map_snd, hn]
  rfl

/-- There is no entry under a key exactly if no declared name has it. -/
theorem lookup_entries_eq_none_iff (h : d.build = .ok v) {key : String} :
    v.entries.lookup key = none ↔ ∀ c ∈ d.names, Name.key c ≠ key := by
  obtain ⟨-, register, hreg, rfl⟩ := build_eq_ok_iff.mp h
  have H : Holds register d.names := by
    simpa [named_map_name] using holds_nil.declareAll d.named hreg
  rw [Assoc.lookup_map_snd, Option.map_eq_none_iff, H.lookup_eq_none_iff]

/-- The rename under a key is the last one declared with it. -/
theorem lookup_renames_of_build (h : d.build = .ok v) (key : String) :
    v.renames.lookup key =
      (d.renames.reverse.find? fun r => Name.key r.1 = key).map Prod.snd := by
  obtain ⟨-, register, -, rfl⟩ := build_eq_ok_iff.mp h
  simp [lookup_renamesOnto]

/-- A key means a declared name or nothing. -/
theorem Acceptable.mem_of_meant (hacc : Acceptable d) {key c : String}
    (h : d.meant? key = some c) : c ∈ d.names := by
  unfold meant? at h
  rcases Option.or_eq_some_iff.mp h with h | ⟨-, h⟩
  · exact List.mem_of_find?_eq_some h
  · obtain ⟨r, hr, rfl⟩ := Option.map_eq_some_iff.mp h
    exact (hacc.reaches r (List.mem_reverse.mp (List.mem_of_find?_eq_some hr))).target_mem

/-- The key of a declared name means that name and no other. -/
theorem Coherent.meant_key (hco : Coherent d.names) {c : String} (hc : c ∈ d.names) :
    d.meant? (Name.key c) = some c := by
  unfold meant?
  rcases hf : d.names.find? fun a => decide (Name.key a = Name.key c) with _ | a
  · have := List.find?_eq_none.mp hf c hc
    simp at this
  · have hkey : Name.key a = Name.key c := by simpa using List.find?_some hf
    rw [hco.eq_of_key a (List.mem_of_find?_eq_some hf) c hc hkey]
    rfl

/-- Nothing is found under a key that means no declared name. -/
theorem find_of_meant_none (h : d.build = .ok v) {key : String} (hm : d.meant? key = none) :
    v.find key = .ok none := by
  obtain ⟨hnames, hrenames⟩ := Option.or_eq_none_iff.mp hm
  have hentries : v.entries.lookup key = none := by
    rw [lookup_entries_eq_none_iff h]
    simpa using hnames
  unfold Vocabulary.find
  rw [hentries, lookup_renames_of_build h, hrenames]

/-- Under a key that means a declared name its entry is found. -/
theorem find_of_meant_some (h : d.build = .ok v) {key c : String} (hm : d.meant? key = some c) :
    ∃ category, v.find key = .ok (some (d.entry ⟨c, category⟩)) := by
  have hacc := acceptable_of_build h
  have hc : c ∈ d.names := hacc.mem_of_meant hm
  obtain ⟨category, hentry⟩ := lookup_entries_of_build h hc
  refine ⟨category, ?_⟩
  unfold meant? at hm
  rcases Option.or_eq_some_iff.mp hm with hdirect | ⟨hnone, hrename⟩
  · -- the key is that of a declared name
    have hkey : Name.key c = key := by simpa using List.find?_some hdirect
    unfold Vocabulary.find
    rw [← hkey, hentry]
  · -- the key is only that of a rename, and the target's own key leads on
    have hentries : v.entries.lookup key = none := by
      rw [lookup_entries_eq_none_iff h]
      simpa using hnone
    unfold Vocabulary.find
    rw [hentries, lookup_renames_of_build h, hrename]
    simp [Name.key?_of_ne (hacc.coherent.ne_empty c hc), hentry, bind, Except.bind, pure,
      Except.pure]

end built

end Declarations

end AttributeLint

import AttributeLint.Proofs.OptionValues
import Mathlib.Data.List.Sort
import Mathlib.Data.String.Basic

/-!
# The canonical form of options

Options are a set of names, kept and written as an ascending list. A set has one such list, so the
written form is as good as the options: it reads back as them, and it tells two of them apart.

* `Text.distinct_eq_iff`: the ascending list is one for all lists with the same members, and for no
  others.
* `Options.Named`: what all options are like that were read (`named_of_ofIgnore`,
  `named_of_ofJson`).
* **Canonical form** (`Options.ofJson_canonical`): options that were read are written so that they
  read back, alone or in a list. Lists of names give the same options, and the same written form,
  exactly if they have the same members.
-/

namespace AttributeLint

/-! ## Sets of texts -/

namespace Text

variable {texts texts' : List String}

/-- A set has one ascending list. -/
theorem distinct_eq_iff : distinct texts = distinct texts' ↔ ∀ t, t ∈ texts ↔ t ∈ texts' := by
  constructor
  · intro h t
    rw [← mem_distinct texts, h, mem_distinct]
  · intro h
    apply (pairwise_distinct texts).eq_of_mem_iff (pairwise_distinct texts')
    intro t
    rw [mem_distinct, mem_distinct, h]

/-- An ascending list is that of its own members. -/
theorem distinct_of_pairwise (h : texts.Pairwise (· < ·)) : distinct texts = texts :=
  (pairwise_distinct texts).eq_of_mem_iff h fun _ => mem_distinct texts

end Text

namespace Options

variable {limits : Limits} {o p : Options}

/-! ## Options that were read -/

/-- No name is empty. -/
def Named (o : Options) : Prop :=
  ∀ n ∈ o.ignore, n ≠ ""

/-- Listed names are not empty. -/
theorem Lists.ne_empty {w : Json} {names : List String} (h : Lists w names) :
    ∀ n ∈ names, n ≠ "" := by
  cases h with
  | nothing => exact fun n hn => absurd hn List.not_mem_nil
  | items hne => exact hne
  | keys hne => exact hne

/-- Options with names that are not empty have such names only. -/
theorem named_ofNames {names : List String} (h : ∀ n ∈ names, n ≠ "") : (ofNames names).Named :=
  fun n hn => h n ((Text.mem_distinct names).mp hn)

/-- So have options that were read from a list of names. -/
theorem named_of_ofIgnore {w : Json} (h : ofIgnore limits w = .ok o) : o.Named := by
  obtain ⟨names, hnames, rfl⟩ := ofIgnore_eq_ok_iff.mp h
  exact named_ofNames hnames.ne_empty

/-- So have options that were read from a configuration value. -/
theorem named_of_ofJson {v : Json} (h : ofJson limits v = .ok o) : o.Named := by
  obtain ⟨w, names, -, hnames, rfl⟩ := ofJson_eq_ok_iff.mp h
  exact named_ofNames hnames.ne_empty

/-- A list of names is accepted exactly if none is empty. -/
theorem ofIgnore_names_iff {names : List String} :
    ofIgnore limits (.arr (names.map .str)) = .ok o ↔
      (∀ n ∈ names, n ≠ "") ∧ o = ofNames names := by
  rw [ofIgnore_eq_ok_iff]
  constructor
  · rintro ⟨names', hlists, rfl⟩
    generalize hitems : Json.arr (names.map .str) = w at hlists
    cases hlists with
    | nothing => cases hitems
    | keys => cases hitems
    | items hne =>
      obtain rfl := (List.map_inj_right fun _ _ => Json.str.inj).mp (Json.arr.inj hitems)
      exact ⟨hne, rfl⟩
  · rintro ⟨hne, rfl⟩
    exact ⟨names, .items hne, rfl⟩

/-! ## The written form -/

/-- The object of options has their names under its one key. -/
theorem objectWith_toJson (o : Options) : ObjectWith o.toJson (.arr (o.ignore.map .str)) := by
  refine ⟨_, rfl, ?_, by simp⟩
  intro f hf
  rw [List.mem_singleton.mp hf]

/-- Options are those of their own list of names. -/
theorem ofNames_ignore (o : Options) : ofNames o.ignore = o := by
  obtain ⟨names, hascending⟩ := o
  unfold ofNames
  congr 1
  exact Text.distinct_of_pairwise hascending

/-- It is read as the options again, by itself and as the only item of a list. -/
theorem Named.ofJson_toJson (h : o.Named) :
    ofJson limits o.toJson = .ok o ∧ ofJson limits (.arr [o.toJson]) = .ok o := by
  have hwritten := objectWith_toJson o
  have hlists : ∀ v, ConfigurationWith v (.arr (o.ignore.map .str)) → ofJson limits v = .ok o :=
    fun v hv => ofJson_eq_ok_iff.mpr ⟨_, _, hv, .items h, (ofNames_ignore o).symm⟩
  exact ⟨hlists _ (.object hwritten), hlists _ (.single hwritten)⟩

/-- Options are told from their object. -/
theorem toJson_injective : Function.Injective toJson := by
  rintro ⟨names, hnames⟩ ⟨names', hnames'⟩ h
  have hitems : names.map Json.str = names'.map Json.str := by
    simpa only [toJson, Json.obj.injEq, List.cons.injEq, Prod.mk.injEq, Json.arr.injEq, true_and,
      and_true] using h
  obtain rfl := (List.map_inj_right fun _ _ => Json.str.inj).mp hitems
  rfl

/-! ## The statement -/

/-- **Canonical form.** Options that were read, from a value of `ignore` or from a configuration
value, are written as a configuration value that reads back as the same options, alone or as the one
member of a list. A list of names is accepted exactly if none of them is empty, and the options are
then written with its members in ascending order, each once. Two accepted lists give the same
options exactly if they have the same members, whatever their order and repetitions, and exactly if
the written forms are the same. An object and the list of that object give the same options or the
same fault. -/
theorem ofJson_canonical (limits : Limits) :
    (∀ (v : Json) (o : Options), ofIgnore limits v = .ok o ∨ ofJson limits v = .ok o →
      ofJson limits o.toJson = .ok o ∧ ofJson limits (.arr [o.toJson]) = .ok o) ∧
    (∀ xs : List String, (∃ o, ofIgnore limits (.arr (xs.map .str)) = .ok o) ↔ ∀ n ∈ xs, n ≠ "") ∧
    (∀ (xs : List String) (o : Options), ofIgnore limits (.arr (xs.map .str)) = .ok o →
      ∃ names : List String, o.toJson = .obj [("ignore", .arr (names.map .str))] ∧
        names.Pairwise (· < ·) ∧ ∀ n, n ∈ names ↔ n ∈ xs) ∧
    (∀ (xs ys : List String) (o p : Options), ofIgnore limits (.arr (xs.map .str)) = .ok o →
      ofIgnore limits (.arr (ys.map .str)) = .ok p →
        (o = p ↔ ∀ n, n ∈ xs ↔ n ∈ ys) ∧ (o = p ↔ o.toJson = p.toJson)) ∧
    ∀ fields : List (String × Json),
      ofJson limits (.arr [.obj fields]) = ofJson limits (.obj fields) := by
  refine ⟨?_, ?_, ?_, ?_, ?_⟩
  · rintro v o (h | h)
    · exact (named_of_ofIgnore h).ofJson_toJson
    · exact (named_of_ofJson h).ofJson_toJson
  · intro xs
    constructor
    · rintro ⟨o, ho⟩
      exact (ofIgnore_names_iff.mp ho).1
    · intro hne
      exact ⟨ofNames xs, ofIgnore_names_iff.mpr ⟨hne, rfl⟩⟩
  · intro xs o ho
    obtain ⟨-, rfl⟩ := ofIgnore_names_iff.mp ho
    exact ⟨_, rfl, Text.pairwise_distinct xs, fun n => Text.mem_distinct xs⟩
  · intro xs ys o p ho hp
    obtain ⟨-, rfl⟩ := ofIgnore_names_iff.mp ho
    obtain ⟨-, rfl⟩ := ofIgnore_names_iff.mp hp
    refine ⟨?_, toJson_injective.eq_iff.symm⟩
    rw [← Text.distinct_eq_iff]
    constructor
    · exact congrArg ignore
    · intro hsame
      unfold ofNames
      congr 1
  · intro fields
    rfl

/-- Two lists that differ in order and repetitions, with a name beyond ASCII and one that precedes
another one, and a list with a further name. -/
theorem ofJson_canonical_repeated :
    ∃ o p, ofIgnore {} (.arr (["é", "on", "onClick", "on"].map .str)) = .ok o ∧
      ofIgnore {} (.arr (["onClick", "é", "é", "on"].map .str)) = .ok o ∧
      ofIgnore {} (.arr (["é", "on", "onClick", "On"].map .str)) = .ok p ∧ o ≠ p ∧
      o.toJson = .obj [("ignore", .arr (["on", "onClick", "é"].map .str))] ∧
      ofJson {} o.toJson = .ok o ∧ ofJson {} (.arr [p.toJson]) = .ok p := by
  obtain ⟨hback, haccepted, -, hsame, -⟩ := ofJson_canonical {}
  obtain ⟨o, ho⟩ := (haccepted ["é", "on", "onClick", "on"]).mpr (by decide)
  obtain ⟨o', ho'⟩ := (haccepted ["onClick", "é", "é", "on"]).mpr (by decide)
  obtain ⟨p, hp⟩ := (haccepted ["é", "on", "onClick", "On"]).mpr (by decide)
  obtain rfl : o = o' := by
    apply (hsame _ _ o o' ho ho').1.mpr
    intro n
    simp only [List.mem_cons, List.not_mem_nil, or_false]
    tauto
  refine ⟨o, p, ho, ho', hp, ?_, ?_, (hback _ o (.inl ho)).1, (hback _ p (.inl hp)).2⟩
  · intro heq
    have hOn : "On" ∈ ["é", "on", "onClick", "on"] :=
      ((hsame _ _ o p ho hp).1.mp heq "On").mpr (by simp)
    exact absurd hOn (by decide)
  · obtain ⟨-, rfl⟩ := ofIgnore_names_iff.mp ho
    have hnames : (ofNames ["é", "on", "onClick", "on"]).ignore = ["on", "onClick", "é"] := by
      decide
    rw [toJson, hnames]
    rfl

end Options

end AttributeLint

import AttributeLint.Options
import AttributeLint.Proofs.DumpFormat

/-!
# Which values configure the check

`Options.ofJson` takes a configuration value apart in two steps: the value under `ignore`, and the
names that it lists. Both are said here without it, by `ConfigurationWith` and by `Lists`.

* `readIgnore_reads`, `readJson_reads`: what can be read, and which faults there are.
* **Outcomes** (`ofJson_outcome`): a configuration value gives the options with the names that it
  lists, or it is refused as a bad configuration. There are two exceptions, with faults of no
  family. A value whose `ignore` is a truth value or a number has no items to look at. And a list
  whose first entry that is no name is beyond the limits of the machine is refused by a message that
  cannot be worded; a value that was read within the limits has no such entry.
-/

namespace AttributeLint

/-! ## Sets of texts -/

/-- The members of a set are those it was made of. -/
theorem Text.mem_distinct {t : String} (texts : List String) :
    t ∈ Text.distinct texts ↔ t ∈ texts := by
  induction texts with
  | nil => simp [Text.distinct]
  | cons s rest ih =>
    show t ∈ Text.insert s (Text.distinct rest) ↔ t ∈ s :: rest
    rw [Text.mem_insert, ih, List.mem_cons]

namespace Options

/-- Exactly the given names are accepted. -/
theorem ignores_ofNames {names : List String} {name : String} :
    (ofNames names).ignores name = true ↔ name ∈ names := by
  unfold ignores ofNames
  rw [List.contains_iff_mem, Text.mem_distinct]

/-! ## The two steps -/

/-- The value of `ignore` lists the names: it is nothing, a list of them, or an object with them as
its keys. No name is empty. -/
inductive Lists : Json → List String → Prop where
  | nothing : Lists .null []
  | items {names : List String} : (∀ n ∈ names, n ≠ "") → Lists (.arr (names.map .str)) names
  | keys {fields : List (String × Json)} : (∀ n ∈ fields.map Prod.fst, n ≠ "") →
      Lists (.obj fields) (fields.map Prod.fst)

/-- A value with no items: a truth value or a number. -/
def Itemless (w : Json) : Prop :=
  (∃ b, w = .bool b) ∨ (∃ n, w = .int n) ∨ ∃ x, w = .real x

/-- The first entry of the list that is no name: it is empty or not a text. -/
def FirstBad (entries : List Json) (entry : Json) : Prop :=
  ∃ (names : List String) (rest : List Json), entries = names.map .str ++ entry :: rest ∧
    (∀ n ∈ names, n ≠ "") ∧ ∀ s, entry = .str s → s = ""

/-- A list with a first entry that is no name, where showing that entry passes a limit. -/
def Unshown (limits : Limits) (w : Json) (x : Excess) : Prop :=
  ∃ entries entry, w = .arr entries ∧ FirstBad entries entry ∧ entry.shownExcess? limits 0 = some x

/-- An options object with the value under its only key; without that key the value is null. -/
def ObjectWith (m w : Json) : Prop :=
  ∃ fields, m = .obj fields ∧ (∀ f ∈ fields, f.1 = ignoreKey) ∧
    w = (fields.lookup ignoreKey).getD .null

/-- A configuration value that comes down to the value of `ignore`. -/
inductive ConfigurationWith : Json → Json → Prop where
  | nothing : ConfigurationWith .null .null
  | noObject : ConfigurationWith (.arr []) .null
  | object {m w : Json} : ObjectWith m w → ConfigurationWith m w
  | single {m w : Json} : ObjectWith m w → ConfigurationWith (.arr [m]) w

/-! ## The names under `ignore` -/

/-- An entry is a text that is not empty, and anything else is refused with the entry. -/
theorem checkEntry_reads (entry : Json) :
    Reads (checkEntry entry) (fun s => entry = .str s ∧ s ≠ "")
      fun f => f = .ignoreEntry entry ∧ ∀ s, entry = .str s → s = "" := by
  unfold checkEntry
  split
  · rename_i s
    split_ifs with hs
    · apply Reads.of_error
      · rintro t ⟨ht, hne⟩
        cases ht
        exact hne hs
      · refine ⟨rfl, fun t ht => ?_⟩
        cases ht
        exact hs
    · apply Reads.of_ok
      intro t
      constructor
      · rintro ⟨ht, -⟩
        cases ht
        rfl
      · rintro rfl
        exact ⟨rfl, hs⟩
  · rename_i hkind
    apply Reads.of_error
    · rintro t ⟨rfl, -⟩
      exact hkind t rfl
    · exact ⟨rfl, fun t ht => absurd ht (hkind t)⟩

/-- Entries are looked at in order, up to the first that is no name. -/
theorem mapM_checkEntry_reads (entries : List Json) :
    Reads (entries.mapM checkEntry) (fun names => entries = names.map .str ∧ ∀ n ∈ names, n ≠ "")
      fun f => ∃ entry, FirstBad entries entry ∧ f = .ignoreEntry entry := by
  induction entries with
  | nil =>
    apply Reads.of_ok
    intro names
    cases names <;> simp
  | cons entry rest ih =>
    rw [List.mapM_cons]
    -- the first entry, then the others; what is left is that a list of names is built up like that
    have hfirst : Reads (checkEntry entry) (fun s => entry = .str s ∧ s ≠ "")
        fun f => ∃ bad, FirstBad (entry :: rest) bad ∧ f = .ignoreEntry bad := by
      refine (checkEntry_reads entry).congr (fun _ => Iff.rfl) ?_
      rintro f ⟨hf, hbad⟩
      exact ⟨entry, ⟨[], rest, rfl, by simp, hbad⟩, hf⟩
    have hrest : ∀ s, entry = .str s ∧ s ≠ "" → Reads (rest.mapM checkEntry)
        (fun names => rest = names.map .str ∧ ∀ n ∈ names, n ≠ "")
        fun f => ∃ bad, FirstBad (entry :: rest) bad ∧ f = .ignoreEntry bad := by
      rintro s ⟨rfl, hs⟩
      refine ih.congr (fun _ => Iff.rfl) ?_
      rintro f ⟨bad, ⟨names, behind, rfl, hnames, hbad⟩, hf⟩
      exact ⟨bad, ⟨s :: names, behind, rfl, List.forall_mem_cons.mpr ⟨hs, hnames⟩, hbad⟩, hf⟩
    have hstep := hfirst.bind fun s hs => (hrest s hs).bind fun names _ =>
      Reads.of_ok (a := s :: names) (P := fun all => all = s :: names) fun _ => Iff.rfl
    refine hstep.congr (fun all => ?_) fun _ => id
    constructor
    · rintro ⟨s, ⟨rfl, hs⟩, names, ⟨rfl, hnames⟩, rfl⟩
      exact ⟨rfl, List.forall_mem_cons.mpr ⟨hs, hnames⟩⟩
    · rintro ⟨hall, hne⟩
      obtain ⟨s, names, rfl⟩ := List.exists_cons_of_ne_nil (l := all) (by rintro rfl; cases hall)
      rw [List.map_cons, List.cons.injEq] at hall
      obtain ⟨hs, hnames⟩ := List.forall_mem_cons.mp hne
      exact ⟨s, ⟨hall.1, hs⟩, names, ⟨hall.2, hnames⟩, rfl⟩

/-- The faults of reading the value of `ignore`: its first entry that is no name, or another defect,
whose wording shows nothing, or that there are no items. -/
inductive Refuses (w : Json) (f : Fault) : Prop where
  | entry {entries : List Json} {bad : Json} (list : w = .arr entries)
      (first : FirstBad entries bad) (fault : f = .ignoreEntry bad)
  | plain (family : f.family? = some .configuration) (worded : ∀ limits, f.excess? limits = none)
  | itemless (item : Itemless w) (fault : f = .notIterable w)

/-- The names that are read are those that the value lists. A value with no items is met with a
fault of its own. -/
theorem readIgnore_reads (w : Json) :
    Reads (readIgnore w) (fun o => ∃ names, Lists w names ∧ o = ofNames names) (Refuses w) := by
  have named : ∀ entries, Reads (do return ofNames (← entries.mapM checkEntry))
      (fun o => ∃ names, (entries = names.map .str ∧ ∀ n ∈ names, n ≠ "") ∧ o = ofNames names)
      fun f => ∃ entry, FirstBad entries entry ∧ f = .ignoreEntry entry := fun entries =>
    (mapM_checkEntry_reads entries).bind fun names _ =>
      Reads.of_ok (a := ofNames names) (P := (· = ofNames names)) fun _ => Iff.rfl
  cases w with
  | null =>
    apply Reads.of_ok
    intro o
    constructor
    · rintro ⟨names, ⟨⟩, rfl⟩
      rfl
    · rintro rfl
      exact ⟨[], .nothing, rfl⟩
  | arr entries =>
    refine (named entries).congr (fun o => ?_) fun _ ⟨_, hfirst, hf⟩ => .entry rfl hfirst hf
    constructor
    · rintro ⟨names, ⟨rfl, hne⟩, rfl⟩
      exact ⟨names, .items hne, rfl⟩
    · rintro ⟨names, hlists, rfl⟩
      cases hlists with
      | items hne => exact ⟨names, ⟨rfl, hne⟩, rfl⟩
  | obj fields =>
    -- an object is read like the list of its keys
    have hkeys : (fields.mapM fun f => checkEntry (.str f.1)) =
        ((fields.map Prod.fst).map Json.str).mapM checkEntry := by
      rw [List.map_map, List.mapM_map]
      rfl
    unfold readIgnore
    dsimp only
    rw [hkeys]
    -- and the only key that is no name is the empty one, which a message can show
    have hempty : ∀ f, (∃ entry, FirstBad ((fields.map Prod.fst).map Json.str) entry ∧
        f = .ignoreEntry entry) → Refuses (.obj fields) f := by
      rintro f ⟨entry, ⟨names, rest, hentries, -, hbad⟩, rfl⟩
      have hmem : entry ∈ (fields.map Prod.fst).map Json.str := by simp [hentries]
      obtain ⟨key, -, rfl⟩ := List.mem_map.mp hmem
      exact .plain rfl fun limits => by simp [Fault.excess?, Json.shownExcess?]
    refine (named _).congr (fun o => ?_) hempty
    constructor
    · rintro ⟨names, ⟨hnames, hne⟩, rfl⟩
      obtain rfl := (List.map_inj_right fun _ _ => Json.str.inj).mp hnames
      exact ⟨_, .keys hne, rfl⟩
    · rintro ⟨names, hlists, rfl⟩
      cases hlists with
      | keys hne => exact ⟨_, ⟨rfl, hne⟩, rfl⟩
  | str s =>
    apply Reads.of_error
    · rintro o ⟨names, ⟨⟩, -⟩
    · exact .plain rfl fun _ => rfl
  | bool b =>
    apply Reads.of_error
    · rintro o ⟨names, ⟨⟩, -⟩
    · exact .itemless (.inl ⟨b, rfl⟩) rfl
  | int n =>
    apply Reads.of_error
    · rintro o ⟨names, ⟨⟩, -⟩
    · exact .itemless (.inr (.inl ⟨n, rfl⟩)) rfl
  | real x =>
    apply Reads.of_error
    · rintro o ⟨names, ⟨⟩, -⟩
    · exact .itemless (.inr (.inr ⟨x, rfl⟩)) rfl

/-! ## The value under `ignore` -/

/-- An object has no unknown keys exactly if all its keys are the one that is known. -/
theorem unknownKeys_isEmpty_iff {fields : List (String × Json)} :
    (unknownKeys fields).isEmpty = true ↔ ∀ f ∈ fields, f.1 = ignoreKey := by
  rw [List.isEmpty_iff, List.eq_nil_iff_forall_not_mem]
  unfold unknownKeys
  simp only [Text.mem_distinct, List.mem_filter, bne_iff_ne, not_and, not_not, List.forall_mem_map]

/-- An options object is read by the value under its key. -/
theorem readObject_of_objectWith {m w : Json} (h : ObjectWith m w) :
    readObject m = readIgnore w := by
  obtain ⟨fields, rfl, hkeys, rfl⟩ := h
  unfold readObject
  dsimp only
  rw [if_pos (unknownKeys_isEmpty_iff.mpr hkeys)]

/-- Anything else is refused as a configuration, in words that can always be made. -/
theorem readObject_of_no_objectWith {m : Json} (h : ∀ w, ¬ ObjectWith m w) :
    ∃ f, readObject m = .error f ∧ f.family? = some .configuration ∧
      ∀ limits, f.excess? limits = none := by
  unfold readObject
  split
  · rename_i fields
    have hkeys : ¬ (unknownKeys fields).isEmpty = true := fun hempty =>
      h _ ⟨fields, rfl, unknownKeys_isEmpty_iff.mp hempty, rfl⟩
    rw [if_neg hkeys]
    exact ⟨_, rfl, rfl, fun _ => rfl⟩
  · exact ⟨_, rfl, rfl, fun _ => rfl⟩

/-- A configuration value gives the options of the value that it comes down to. -/
theorem readJson_of_configurationWith {v w : Json} (h : ConfigurationWith v w) :
    readJson v = readIgnore w := by
  cases h with
  | nothing => rfl
  | noObject => rfl
  | object h =>
    rw [← readObject_of_objectWith h]
    obtain ⟨fields, rfl, -, -⟩ := h
    rfl
  | single h => exact readObject_of_objectWith h

/-- Any other value is a bad configuration. -/
theorem readJson_of_no_configurationWith {v : Json} (h : ∀ w, ¬ ConfigurationWith v w) :
    ∃ f, readJson v = .error f ∧ f.family? = some .configuration ∧
      ∀ limits, f.excess? limits = none := by
  unfold readJson
  split
  · exact absurd .nothing (h _)
  · exact absurd .noObject (h _)
  · exact readObject_of_no_objectWith fun w hw => h w (.single hw)
  · exact ⟨_, rfl, rfl, fun _ => rfl⟩
  · exact readObject_of_no_objectWith fun w hw => h w (.object hw)

/-- The options are those of the names listed under `ignore`, and the faults are those of the value
that lists them, unless there is none. -/
theorem readJson_reads (v : Json) :
    Reads (readJson v)
      (fun o => ∃ w names, ConfigurationWith v w ∧ Lists w names ∧ o = ofNames names)
      fun f => (∃ w, ConfigurationWith v w ∧ Refuses w f) ∨
        (f.family? = some .configuration ∧ ∀ limits, f.excess? limits = none) := by
  by_cases hconf : ∃ w, ConfigurationWith v w
  · obtain ⟨w, hw⟩ := hconf
    refine ⟨fun o => ⟨?_, ?_⟩, ?_⟩
    · intro ho
      rw [readJson_of_configurationWith hw] at ho
      obtain ⟨names, hnames, rfl⟩ := ((readIgnore_reads w).ok_iff o).mp ho
      exact ⟨w, names, hw, hnames, rfl⟩
    · rintro ⟨w', names, hw', hnames, rfl⟩
      rw [readJson_of_configurationWith hw']
      exact ((readIgnore_reads w').ok_iff _).mpr ⟨names, hnames, rfl⟩
    · intro f hf
      rw [readJson_of_configurationWith hw] at hf
      exact .inl ⟨w, hw, (readIgnore_reads w).refused f hf⟩
  · obtain ⟨f, hf, hfamily⟩ := readJson_of_no_configurationWith (not_exists.mp hconf)
    rw [hf]
    apply Reads.of_error
    · rintro o ⟨w, -, hw, -⟩
      exact hconf ⟨w, hw⟩
    · exact .inr hfamily

/-! ## Values of two kinds that are refused without a family -/

/-- A truth value or a number has no items. -/
theorem readIgnore_of_itemless {w : Json} (h : Itemless w) :
    readIgnore w = .error (.notIterable w) := by
  rcases h with ⟨b, rfl⟩ | ⟨n, rfl⟩ | ⟨x, rfl⟩ <;> rfl

/-- The first entry that is no name is the fault. -/
theorem readIgnore_of_firstBad {entries : List Json} {entry : Json} (h : FirstBad entries entry) :
    readIgnore (.arr entries) = .error (.ignoreEntry entry) := by
  obtain ⟨names, rest, rfl, hnames, hbad⟩ := h
  have hentry : checkEntry entry = .error (.ignoreEntry entry) := by
    unfold checkEntry
    split
    · rename_i s
      exact if_pos (hbad s rfl)
    · rfl
  have hmapM : (names.map Json.str ++ entry :: rest).mapM checkEntry
      = .error (.ignoreEntry entry) := by
    clear hbad
    induction names with
    | nil =>
      rw [List.map_nil, List.nil_append, List.mapM_cons, hentry]
      rfl
    | cons n more ih =>
      obtain ⟨hn, hmore⟩ := List.forall_mem_cons.mp hnames
      have hname : checkEntry (.str n) = .ok n := if_neg hn
      rw [List.map_cons, List.cons_append, List.mapM_cons, hname, ih hmore]
      rfl
  unfold readIgnore
  dsimp only
  rw [hmapM]
  rfl

/-- A list that can be shown has no entry that cannot be. -/
theorem not_unshown_of_shown {limits : Limits} {v w : Json} (hw : ConfigurationWith v w)
    (hv : Json.Shown limits v) (x : Excess) : ¬ Unshown limits w x := by
  have hobject : ∀ {m w : Json}, ObjectWith m w → Json.Shown limits m → Json.Shown limits w := by
    rintro m w ⟨fields, rfl, -, rfl⟩ hm
    rcases hlookup : fields.lookup ignoreKey with _ | u
    · exact Limits.ofLevel?_zero
    · exact hm.field hlookup
  have hshown : Json.Shown limits w := by
    cases hw with
    | nothing => exact Limits.ofLevel?_zero
    | noObject => exact Limits.ofLevel?_zero
    | object h => exact hobject h hv
    | single h => exact hobject h (hv.item List.mem_cons_self)
  rintro ⟨entries, entry, rfl, ⟨names, rest, rfl, -, -⟩, hexcess⟩
  have hentry : Json.Shown limits entry := hshown.item (by simp)
  rw [Json.Shown, hexcess] at hentry
  cases hentry

/-! ## Outcomes -/

variable {limits : Limits}

/-- A list of names is read, for a host, like without limits. -/
theorem ofIgnore_eq_ok_iff {w : Json} {o : Options} :
    ofIgnore limits w = .ok o ↔ ∃ names, Lists w names ∧ o = ofNames names :=
  Fault.raise_eq_ok_iff.trans ((readIgnore_reads w).ok_iff o)

/-- A configuration value gives options exactly if it lists names, and then those with these
names. -/
theorem ofJson_eq_ok_iff {v : Json} {o : Options} :
    ofJson limits v = .ok o ↔
      ∃ w names, ConfigurationWith v w ∧ Lists w names ∧ o = ofNames names :=
  Fault.raise_eq_ok_iff.trans ((readJson_reads v).ok_iff o)

/-- A configuration value without items is refused for that. -/
theorem ofJson_of_itemless {v w : Json} (hw : ConfigurationWith v w) (h : Itemless w) :
    ofJson limits v = .error (.notIterable w) := by
  rw [ofJson, readJson_of_configurationWith hw, readIgnore_of_itemless h]
  rfl

/-- One with an entry that cannot be shown is refused for the limit. -/
theorem ofJson_of_unshown {v w : Json} {x : Excess} (hw : ConfigurationWith v w)
    (h : Unshown limits w x) : ofJson limits v = .error (.beyondLimit x) := by
  obtain ⟨entries, entry, rfl, hfirst, hexcess⟩ := h
  have hfault : (Fault.ignoreEntry entry).excess? limits = some x := hexcess
  rw [ofJson, readJson_of_configurationWith hw, readIgnore_of_firstBad hfirst, Fault.raise,
    Fault.raised_of_excess?_some hfault]

/-- Apart from the two exceptions a value that gives no options is a bad configuration. -/
theorem family?_ofJson {v : Json} {f : Fault} (h : ofJson limits v = .error f) :
    f.family? = some .configuration ∨
      ∃ w, ConfigurationWith v w ∧ (Itemless w ∨ ∃ x, Unshown limits w x) := by
  obtain ⟨cause, hcause, rfl⟩ := Fault.raise_eq_error_iff.mp h
  rcases (readJson_reads v).refused cause hcause with ⟨w, hw, hrefuses⟩ | ⟨hfamily, hworded⟩
  · cases hrefuses with
    | @entry entries bad list first fault =>
      rcases hexcess : cause.excess? limits with _ | x
      · rw [Fault.raised_of_excess? hexcess, fault]
        exact .inl rfl
      · rw [fault] at hexcess
        exact .inr ⟨w, hw, .inr ⟨x, entries, bad, list, first, hexcess⟩⟩
    | plain family worded =>
      rw [Fault.raised_of_excess? (worded limits)]
      exact .inl family
    | itemless item _ => exact .inr ⟨w, hw, .inl item⟩
  · rw [Fault.raised_of_excess? (hworded limits)]
    exact .inl hfamily

/-- **Outcomes.** A configuration value gives the options with the names that are listed under its
`ignore`, and nothing else gives options. Every value gives options or a fault of the configuration,
with two exceptions. If the value of `ignore` is a truth value or a number, the fault is that there
are no items. If it is a list whose first entry that is no name cannot be shown, the fault is the
limit that the message passes. Neither is of a family. A value that was read within the limits is
never the second exception. -/
theorem ofJson_outcome (limits : Limits) (v : Json) :
    (∀ o, ofJson limits v = .ok o ↔
      ∃ w names, ConfigurationWith v w ∧ Lists w names ∧ o = ofNames names) ∧
    (((∃ o, ofJson limits v = .ok o) ∨
        ∃ f, ofJson limits v = .error f ∧ f.family? = some .configuration) ↔
      ¬ ∃ w, ConfigurationWith v w ∧ (Itemless w ∨ ∃ x, Unshown limits w x)) ∧
    (∀ w, ConfigurationWith v w → Itemless w →
      ofJson limits v = .error (.notIterable w) ∧ (Fault.notIterable w).family? = none) ∧
    (∀ w x, ConfigurationWith v w → Unshown limits w x →
      ofJson limits v = .error (.beyondLimit x) ∧ (Fault.beyondLimit x).family? = none) ∧
    ∀ text, Json.readWithin limits text = .ok v →
      ∀ w x, ConfigurationWith v w → ¬ Unshown limits w x := by
  refine ⟨fun o => ofJson_eq_ok_iff, ⟨?_, ?_⟩, fun w hw h => ⟨ofJson_of_itemless hw h, rfl⟩,
    fun w x hw h => ⟨ofJson_of_unshown hw h, rfl⟩,
    fun text htext w x hw => not_unshown_of_shown hw (Json.readWithin_shown htext) x⟩
  · rintro hout ⟨w, hw, hitem | ⟨x, hunshown⟩⟩
    · rw [ofJson_of_itemless hw hitem] at hout
      rcases hout with ⟨o, ho⟩ | ⟨f, hf, hfamily⟩
      · cases ho
      · cases hf
        cases hfamily
    · rw [ofJson_of_unshown hw hunshown] at hout
      rcases hout with ⟨o, ho⟩ | ⟨f, hf, hfamily⟩
      · cases ho
      · cases hf
        cases hfamily
  · intro hno
    rcases hread : ofJson limits v with f | o
    · exact .inr ⟨f, rfl, (family?_ofJson hread).resolve_right hno⟩
    · exact .inl ⟨o, rfl⟩

/-- The options object with a list of one entry, inside a list. -/
def single (entry : Json) : Json :=
  .arr [.obj [(ignoreKey, .arr [entry])]]

/-- A number in place of the list of names is a fault of no family. A number inside the list is a
bad configuration, unless it has too many digits for the message. -/
theorem ofJson_outcome_number :
    (∃ f, ofJson {} (.obj [(ignoreKey, .int 5)]) = .error f ∧ f.family? = none) ∧
      (∃ f, ofJson {} (single (.int 5)) = .error f ∧ f.family? = some .configuration) ∧
      ofJson { digits := 4300 } (single (.int (10 ^ 4300)))
        = .error (.beyondLimit (.writtenDigits 4300)) := by
  have hsingle : ∀ entry, ConfigurationWith (single entry) (.arr [entry]) := fun entry =>
    .single ⟨_, rfl, by simp, by simp⟩
  refine ⟨?_, ?_, ?_⟩
  · have hvalue : ConfigurationWith (.obj [(ignoreKey, .int 5)]) (.int 5) :=
      .object ⟨_, rfl, by simp, by simp⟩
    exact ⟨_, (ofJson_outcome {} _).2.2.1 (.int 5) hvalue (.inr (.inl ⟨5, rfl⟩))⟩
  · exact ⟨_, rfl, rfl⟩
  · have hlong : ∀ n x, Limits.ofInt? { digits := 4300 } n = some x →
        Unshown { digits := 4300 } (.arr [.int n]) x := by
      intro n x hn
      refine ⟨_, _, rfl, ⟨[], [], rfl, by simp, by simp⟩, ?_⟩
      rw [Json.shownExcess?_int, hn]
    exact ((ofJson_outcome _ _).2.2.2.1 _ _ (hsingle _)
      (hlong _ _ (Limits.ofInt?_tenPow rfl (by decide)))).1

end Options

end AttributeLint

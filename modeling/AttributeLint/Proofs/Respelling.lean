import AttributeLint.Proofs.Judgement

/-!
# Other spellings of a declared name

A declared name can be spelled in exponentially many ways: each of its letters in either case, and
separators anywhere in between. All of these spellings have one lookup key, so all of them are led
to the name.

* `Text.lowercase_of_ascii`: on ASCII text, lowercase goes character by character. The context of a
  character plays no part there.
* `Name.keyChars_of_ascii`: so lowercase and the removal of separators can change places.
* `Name.Respells.key_eq`: two spellings that agree up to case and separators have one key.
* **Respelling** (`judge_of_respells`): a spelling of a declared name is renamed to it, unless it is
  the name or one of its aliases, and then only its tag is judged.
-/

namespace AttributeLint

/-! ## Lowercase of ASCII text -/

namespace Text

/-- Only characters of the ASCII range. -/
def Ascii (cs : List Char) : Prop :=
  ∀ c ∈ cs, c.toNat < 128

instance (cs : List Char) : Decidable (Ascii cs) :=
  List.decidableBAll (fun c : Char => c.toNat < 128) cs

/-- An ASCII capital has its lowercase letter 32 codes further on. -/
theorem toNat_toLower (c : Char) :
    c.toLower.toNat = if 65 ≤ c.toNat ∧ c.toNat ≤ 90 then c.toNat + 32 else c.toNat := by
  have hbounds : c.val ≥ 'A'.val ∧ c.val ≤ 'Z'.val ↔ 65 ≤ c.toNat ∧ c.toNat ≤ 90 := by
    rw [ge_iff_le, UInt32.le_iff_toNat_le, UInt32.le_iff_toNat_le]
    rfl
  unfold Char.toLower
  by_cases h : c.val ≥ 'A'.val ∧ c.val ≤ 'Z'.val
  · have hupper := hbounds.mp h
    have hval : c.val.toNat = c.toNat := rfl
    have hshift : (32 : UInt32).toNat = 32 := rfl
    rw [dif_pos h, if_pos hupper]
    show (c.val + 32).toNat = c.toNat + 32
    rw [UInt32.toNat_add, hval, hshift]
    omega
  · rw [dif_neg h, if_neg (fun hupper => h (hbounds.mpr hupper))]

/-- A character whose lowercase letter is an ASCII character is one itself. -/
theorem toNat_lt_of_toLower {c : Char} (h : c.toLower.toNat < 128) : c.toNat < 128 := by
  rw [toNat_toLower] at h
  split_ifs at h <;> omega

/-- ASCII characters are lowercased one by one. -/
theorem lowercaseChar_of_ascii {c : Char} (h : c.toNat < 128) :
    lowercaseChar c = [c.toLower] := by
  have hall : ∀ n < 128, lowercaseChar (Char.ofNat n) = [(Char.ofNat n).toLower] := by decide
  simpa using hall c.toNat h

/-- So is an ASCII text, whatever is before it. -/
theorem lowercaseAfter_of_ascii (before : List Char) {cs : List Char} (h : Ascii cs) :
    lowercaseAfter before cs = cs.map Char.toLower := by
  induction cs generalizing before with
  | nil => rfl
  | cons c rest ih =>
    obtain ⟨hc, hrest⟩ : c.toNat < 128 ∧ Ascii rest := List.forall_mem_cons.mp h
    have hsigma : c ≠ capitalSigma := by
      rintro rfl
      exact absurd hc (by decide)
    rw [lowercaseAfter, if_neg hsigma, lowercaseChar_of_ascii hc, ih _ hrest]
    rfl

/-- So is an ASCII text by itself. -/
theorem lowercase_of_ascii {cs : List Char} (h : Ascii cs) :
    lowercase cs = cs.map Char.toLower :=
  lowercaseAfter_of_ascii [] h

end Text

/-! ## Spellings with one key -/

namespace Name

/-- The characters of a name without separators. -/
def bare (name : List Char) : List Char :=
  name.filter fun c => !isSeparator c

/-- Two spellings agree up to the case of ASCII letters once all separators are removed. -/
def Respells (spelling name : String) : Prop :=
  (bare spelling.toList).map Char.toLower = (bare name.toList).map Char.toLower

instance (spelling name : String) : Decidable (Respells spelling name) :=
  inferInstanceAs (Decidable (_ = _))

/-- Separators come before all letters. -/
theorem toNat_of_isSeparator {c : Char} (h : isSeparator c = true) : c.toNat < 65 := by
  unfold isSeparator at h
  simp only [Bool.or_eq_true, decide_eq_true_eq] at h
  rcases h with rfl | rfl <;> decide

/-- Case and separators do not meet: no letter becomes a separator, and a separator has no case. -/
theorem isSeparator_toLower (c : Char) : isSeparator c.toLower = isSeparator c := by
  have hnat := Text.toNat_toLower c
  split_ifs at hnat with hupper
  · have hlower : isSeparator c.toLower = false := by
      rw [Bool.eq_false_iff]
      intro h
      have := toNat_of_isSeparator h
      omega
    have hletter : isSeparator c = false := by
      rw [Bool.eq_false_iff]
      intro h
      have := toNat_of_isSeparator h
      omega
    rw [hlower, hletter]
  · rw [Char.toNat_inj.mp hnat]

/-- The key of an ASCII name, with the two steps in the other order. -/
theorem keyChars_of_ascii {name : List Char} (h : Text.Ascii name) :
    keyChars name = (bare name).map Char.toLower := by
  have hsame : ((fun c => !isSeparator c) ∘ Char.toLower) = fun c => !isSeparator c := by
    funext c
    rw [Function.comp_apply, isSeparator_toLower]
  unfold keyChars bare
  rw [Text.lowercase_of_ascii h, List.filter_map, hsame]

/-- A spelling of an ASCII name is ASCII: what is left of it without separators agrees with the name
up to case, and separators are ASCII characters. -/
theorem Respells.ascii {spelling name : String} (h : Respells spelling name)
    (hname : Text.Ascii name.toList) : Text.Ascii spelling.toList := by
  intro c hc
  by_cases hsep : isSeparator c = true
  · have := toNat_of_isSeparator hsep
    omega
  · have hbare : c ∈ bare spelling.toList := List.mem_filter.mpr ⟨hc, by simpa using hsep⟩
    have hlower : c.toLower ∈ (bare name.toList).map Char.toLower := h ▸ List.mem_map_of_mem hbare
    obtain ⟨b, hb, hbc⟩ := List.mem_map.mp hlower
    have hb : b.toNat < 128 := hname b (List.mem_of_mem_filter hb)
    apply Text.toNat_lt_of_toLower
    rw [← hbc, Text.toNat_toLower]
    split_ifs <;> omega

/-- Another spelling of an ASCII name has its key. -/
theorem Respells.key_eq {spelling name : String} (h : Respells spelling name)
    (hname : Text.Ascii name.toList) : key spelling = key name := by
  unfold key
  rw [keyChars_of_ascii (h.ascii hname), keyChars_of_ascii hname, h]

end Name

/-! ## The statement -/

open Declarations

/-- A name that no exception applies to gets the verdict on its spelling, if its key is that of a
declared name. -/
theorem Declarations.verdict_of_key {d : Declarations} (hco : Coherent d.names) {o : Options}
    {c : Context} {name canonical : String} (hcanonical : canonical ∈ d.names)
    (hkey : Name.key name = Name.key canonical) (hexempt : ¬ d.Exempt o c name)
    (haria : Name.isAria name = false) :
    d.verdict o c name = d.spellingVerdict canonical c.tag name := by
  unfold verdict
  rw [if_neg hexempt, haria, hkey, hco.meant_key hcanonical]
  rfl

/-- **Respelling.** Over a built vocabulary, let an attribute of an intrinsic element spell a
declared ASCII name with letters in whatever case and separators wherever. If it is not ignored, is
not a data name, does not start like an accessibility name and is not the spelling that customized
built-in elements may keep, then it is renamed to that name; unless it is the name or one of its
aliases. Those are accepted where the declared tags allow it, and misplaced under that name
elsewhere. -/
theorem judge_of_respells {d : Declarations} {v : Vocabulary} (hv : d.build = .ok v)
    {canonical : String} (hcanonical : canonical ∈ d.names)
    (hascii : Text.Ascii canonical.toList)
    {a : Attribute} (hspells : Name.Respells a.name canonical)
    {o : Options} {c : Context} (hc : c.component = false) (hign : o.ignores a.name = false)
    (hdata : Name.isData a.name = false) (haria : Name.isAria a.name = false)
    (hclass : ¬ (a.name = classSpelling ∧ c.marker = true)) :
    (a.name ≠ canonical ∧ a.name ∉ d.aliasesOf canonical →
      judge o v c (.named a) = .ok (.rename canonical)) ∧
    (a.name = canonical ∨ a.name ∈ d.aliasesOf canonical →
      judge o v c (.named a) = .ok
        (if d.tagsOf canonical = [] ∨ ∃ t ∈ d.tagsOf canonical, c.tag = some t then .ok
          else .misplaced canonical (d.tagsOf canonical))) := by
  have hexempt : ¬ d.Exempt o c a.name := by
    rintro (h | h | ⟨h, -⟩ | h)
    · rw [hign] at h
      cases h
    · rw [hdata] at h
      cases h
    · rw [haria] at h
      cases h
    · exact hclass h
  have hco := (acceptable_of_build hv).coherent
  have hverdict := verdict_of_key hco hcanonical (hspells.key_eq hascii) hexempt haria
  rw [judge_of_build hv o hc a, hverdict]
  unfold spellingVerdict
  refine ⟨?_, ?_⟩
  · intro hother
    rw [if_pos hother]
  · intro haccepted
    have hnot : ¬ (a.name ≠ canonical ∧ a.name ∉ d.aliasesOf canonical) := by
      rintro ⟨hne, hnotAlias⟩
      exact haccepted.elim hne hnotAlias
    rw [if_neg hnot]

/-- A spelling that differs in case and separators and an alias, both under a marker, and a name on
a tag it is not valid on. -/
theorem judge_of_respells_few :
    ∃ v, few.build = .ok v ∧ Name.Respells ":CHAR-set-" "charSet" ∧
      judge {} v ⟨some "meta", false, true⟩ (.named { name := ":CHAR-set-", name_ne := by decide })
        = .ok (.rename "charSet") ∧
      judge {} v ⟨some "meta", false, true⟩ (.named { name := "charset", name_ne := by decide })
        = .ok .ok ∧
      judge {} v ⟨some "img", false, false⟩ (.named { name := "poster", name_ne := by decide })
        = .ok (.misplaced "poster" ["video"]) := by
  obtain ⟨v, hv⟩ : ∃ v, few.build = .ok v := ⟨_, rfl⟩
  have hother : Name.Respells ":CHAR-set-" "charSet" := by decide
  have halias : Name.Respells "charset" "charSet" := by decide
  have hsame : Name.Respells "poster" "poster" := rfl
  refine ⟨v, hv, hother, ?_, ?_, ?_⟩
  · exact (judge_of_respells (a := { name := ":CHAR-set-", name_ne := by decide }) hv (by decide)
      (by decide) hother rfl rfl rfl rfl (by decide)).1 (by decide)
  · exact (judge_of_respells (a := { name := "charset", name_ne := by decide }) hv (by decide)
      (by decide) halias rfl rfl rfl rfl (by decide)).2 (.inr (by decide))
  · exact (judge_of_respells (a := { name := "poster", name_ne := by decide }) hv (by decide)
      (by decide) hsame rfl rfl rfl rfl (by decide)).2 (.inl rfl)

end AttributeLint

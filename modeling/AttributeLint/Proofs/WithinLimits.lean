import AttributeLint.Fault
import AttributeLint.Json.Printer
import AttributeLint.Json.Reader
import Mathlib.Algebra.Group.Int.Defs
import Mathlib.Algebra.Group.Nat.Defs

/-!
# Within the limits of the machine

What it takes for a text to be made, and that what was read can be shown.

* `Limits.ofInt?_eq_none_iff`, `digitCount_le_iff`: the integers that can be written.
* `Fault.raise_eq_ok_iff`, `Fault.raise_eq_error_iff`: raising changes no result, and no fault whose
  texts can be made.
* `Json.Shown`: the values that a message can show. So can be their parts (`Shown.item`,
  `Shown.field`).
* **Reading** (`Json.readWithin_shown`): a value that was read within limits can be shown within
  them. `Json.step_shown` says what one lexeme preserves, `Json.assemble_shown` what the walk over
  all of them does.
-/

namespace AttributeLint

/-! ## Digits -/

/-- An integer has at most `k` digits exactly if its size is below the `k`-th power of ten. -/
theorem digitCount_le_iff {n : Int} {k : Nat} (hk : 0 < k) :
    digitCount n ≤ k ↔ n.natAbs < 10 ^ k :=
  Nat.length_toDigits_le_iff (by decide) hk

namespace Limits

variable {limits : Limits} {n : Int} {count around around' : Nat}

/-- The integers that can be written: all, or those that have no more digits than the limit. -/
theorem ofInt?_eq_none_iff :
    limits.ofInt? n = none ↔ limits.digits = 0 ∨ digitCount n ≤ limits.digits := by
  simp only [ofInt?, allowsDigits, decide_eq_true_eq]
  split <;> simp [*]

/-- The digits that can be read. -/
theorem ofDigits?_eq_none_iff :
    limits.ofDigits? count = none ↔ limits.digits = 0 ∨ count ≤ limits.digits := by
  simp only [ofDigits?, allowsDigits, decide_eq_true_eq]
  split <;> simp [*]

/-- An integer too long to be written is reported with the limit. -/
theorem ofInt?_eq_some {x : Excess} (h : limits.ofInt? n = some x) :
    x = .writtenDigits limits.digits := by
  unfold ofInt? at h
  split at h
  · cases h
  · exact (Option.some.inj h).symm

/-- What is not given counts as zero, and zero can always be written. -/
@[simp] theorem ofInt?_zero : limits.ofInt? 0 = none := by
  rw [ofInt?_eq_none_iff]
  rcases Nat.eq_zero_or_pos limits.digits with h | h
  · exact .inl h
  · exact .inr h

/-- The limits of reading and of writing integers are one. -/
theorem ofInt?_eq_none_of_le (h : limits.ofDigits? count = none) (hn : digitCount n ≤ count) :
    limits.ofInt? n = none := by
  rw [ofDigits?_eq_none_iff] at h
  exact ofInt?_eq_none_iff.mpr (h.imp_right (Nat.le_trans hn))

/-- The least integer with one digit more than the limit. -/
theorem ofInt?_tenPow {k : Nat} (hdigits : limits.digits = k) (hk : 0 < k) :
    limits.ofInt? (10 ^ k) = some (.writtenDigits k) := by
  have hcount : ¬ digitCount (10 ^ k) ≤ k := by
    rw [digitCount_le_iff hk, Int.natAbs_pow]
    exact Nat.lt_irrefl _
  unfold ofInt? allowsDigits
  rw [hdigits, if_neg]
  simp only [decide_eq_true_eq]
  omega

/-- A value may lie less deep. -/
theorem ofLevel?_mono (h : limits.ofLevel? around = none) (hle : around' ≤ around) :
    limits.ofLevel? around' = none := by
  unfold ofLevel? at h ⊢
  rcases hdepth : limits.depth with _ | limit
  · rfl
  · have hlimit : ¬ limit < around := by simpa [hdepth] using h
    exact if_neg (by omega)

/-- What is not nested is never too deep. -/
@[simp] theorem ofLevel?_zero : limits.ofLevel? 0 = none := by
  unfold ofLevel?
  split <;> simp

/-- Where a container may open, its contents may lie. -/
theorem ofLevel?_of_allowsDepth (h : limits.allowsDepth around = true) :
    limits.ofLevel? (around + 1) = none := by
  unfold allowsDepth at h
  unfold ofLevel?
  split at h
  · rfl
  · exact if_neg (by have := of_decide_eq_true h; omega)

end Limits

/-- A location can be written exactly if its line can be and its column, if it has one. -/
theorem Location.excess?_eq_none_iff {limits : Limits} {l : Location} :
    l.excess? limits = none ↔ limits.ofInt? l.line = none ∧ limits.ofInt? l.column = none := by
  unfold Location.excess?
  rw [Option.or_eq_none_iff]
  split
  · rename_i h
    simp [h]
  · rfl

/-- A location too long to be written is reported with the limit. -/
theorem Location.excess?_eq_some {limits : Limits} {l : Location} {x : Excess}
    (h : l.excess? limits = some x) : x = .writtenDigits limits.digits := by
  unfold Location.excess? at h
  rcases Option.or_eq_some_iff.mp h with hline | ⟨-, hcolumn⟩
  · exact Limits.ofInt?_eq_some hline
  · split at hcolumn
    · cases hcolumn
    · exact Limits.ofInt?_eq_some hcolumn

/-! ## Raising and writing -/

namespace Fault

variable {α : Type} {limits : Limits} {r : Except Fault α}

/-- Raising changes no result. -/
@[simp] theorem raise_eq_ok_iff {a : α} : raise limits r = .ok a ↔ r = .ok a := by
  rcases r with f | b
  · exact ⟨fun h => (nomatch h), fun h => (nomatch h)⟩
  · rfl

/-- What is raised is the cause, or the limit that its texts pass. -/
theorem raise_eq_error_iff {f : Fault} :
    raise limits r = .error f ↔ ∃ cause, r = .error cause ∧ cause.raised limits = f := by
  rcases r with g | b
  · simp [raise]
  · simp [raise]

/-- A fault whose texts can be made is raised as it is. -/
theorem raised_of_excess? {f : Fault} (h : f.excess? limits = none) : f.raised limits = f := by
  rw [raised, h]

/-- A fault with a text that cannot be made is raised as the limit that it passes. -/
theorem raised_of_excess?_some {f : Fault} {x : Excess} (h : f.excess? limits = some x) :
    f.raised limits = .beyondLimit x := by
  rw [raised, h]

end Fault

/-- A text is made exactly if no limit is passed. -/
theorem written_eq_ok_iff {excess : Option Excess} {text made : String} :
    written excess text = .ok made ↔ excess = none ∧ text = made := by
  rcases excess with _ | x
  · simp [written]
  · simp [written]

/-- Within the limits the text is made. -/
@[simp] theorem written_none (text : String) : written none text = .ok text :=
  rfl

/-- Beyond them the limit is the fault. -/
@[simp] theorem written_some (x : Excess) (text : String) :
    written (some x) text = .error (.beyondLimit x) :=
  rfl

namespace Json

variable {limits : Limits} {around around' : Nat}

/-! ## Values that can be shown -/

/-- Items can be shown exactly if each can be. -/
@[simp] theorem itemsExcess?_eq_none_iff {items : List Json} :
    itemsExcess? limits around items = none ↔
      ∀ v ∈ items, v.shownExcess? limits around = none := by
  induction items with
  | nil => simp [itemsExcess?]
  | cons v rest ih => simp [itemsExcess?, Option.or_eq_none_iff, ih]

/-- Fields can be shown exactly if the value of each can be. -/
@[simp] theorem fieldsExcess?_eq_none_iff {fields : List (String × Json)} :
    fieldsExcess? limits around fields = none ↔
      ∀ p ∈ fields, p.2.shownExcess? limits around = none := by
  induction fields with
  | nil => simp [fieldsExcess?]
  | cons p rest ih => simp [fieldsExcess?, Option.or_eq_none_iff, ih]

mutual

/-- A value that can be shown inside containers can be shown inside fewer. -/
theorem shownExcess?_mono {around around' : Nat} (hle : around' ≤ around) : (v : Json) →
    v.shownExcess? limits around = none → v.shownExcess? limits around' = none
  | .null, h | .bool _, h | .real _, h | .str _, h => Limits.ofLevel?_mono h hle
  | .int n, h => by
      rw [shownExcess?, Option.or_eq_none_iff] at h ⊢
      exact ⟨Limits.ofLevel?_mono h.1 hle, h.2⟩
  | .arr items, h => by
      rw [shownExcess?, Option.or_eq_none_iff] at h ⊢
      exact ⟨Limits.ofLevel?_mono h.1 hle, itemsExcess?_mono (Nat.succ_le_succ hle) items h.2⟩
  | .obj fields, h => by
      rw [shownExcess?, Option.or_eq_none_iff] at h ⊢
      exact ⟨Limits.ofLevel?_mono h.1 hle, fieldsExcess?_mono (Nat.succ_le_succ hle) fields h.2⟩

/-- Items that can be shown inside a container can be shown further out as well. -/
theorem itemsExcess?_mono {around around' : Nat} (hle : around' ≤ around) : (items : List Json) →
    itemsExcess? limits around items = none → itemsExcess? limits around' items = none
  | [], _ => rfl
  | v :: rest, h => by
      rw [itemsExcess?, Option.or_eq_none_iff] at h ⊢
      exact ⟨shownExcess?_mono hle v h.1, itemsExcess?_mono hle rest h.2⟩

/-- So can fields. -/
theorem fieldsExcess?_mono {around around' : Nat} (hle : around' ≤ around) :
    (fields : List (String × Json)) →
    fieldsExcess? limits around fields = none → fieldsExcess? limits around' fields = none
  | [], _ => rfl
  | (_, v) :: rest, h => by
      rw [fieldsExcess?, Option.or_eq_none_iff] at h ⊢
      exact ⟨shownExcess?_mono hle v h.1, fieldsExcess?_mono hle rest h.2⟩

end

/-- An integer is shown by its digits. -/
theorem shownExcess?_int (n : Int) : (Json.int n).shownExcess? limits 0 = limits.ofInt? n := by
  rw [shownExcess?, Limits.ofLevel?_zero, Option.none_or]

/-- The integers of a list are those of its items. -/
@[simp] theorem itemIntegers_eq (items : List Json) :
    itemIntegers items = items.flatMap integers := by
  induction items with
  | nil => rfl
  | cons v rest ih => rw [itemIntegers, ih, List.flatMap_cons]

/-- The integers of an object are those of its fields. -/
@[simp] theorem fieldIntegers_eq (fields : List (String × Json)) :
    fieldIntegers fields = fields.flatMap fun p => p.2.integers := by
  induction fields with
  | nil => rfl
  | cons p rest ih => rw [fieldIntegers, ih, List.flatMap_cons]

/-- A value can be written exactly if each of its integers can be. -/
theorem writtenExcess?_eq_none_iff {v : Json} :
    v.writtenExcess? limits = none ↔ ∀ n ∈ v.integers, limits.ofInt? n = none := by
  rw [writtenExcess?, List.findSome?_eq_none_iff]

/-- A value that cannot be written is reported with the limit. -/
theorem writtenExcess?_eq_some {v : Json} {x : Excess} (h : v.writtenExcess? limits = some x) :
    x = .writtenDigits limits.digits := by
  obtain ⟨n, -, hn⟩ := List.exists_of_findSome?_eq_some h
  exact Limits.ofInt?_eq_some hn

/-- A message can show the value. -/
def Shown (limits : Limits) (v : Json) : Prop :=
  v.shownExcess? limits 0 = none

namespace Shown

/-- An integer can be shown exactly if it can be written. -/
theorem int_iff {n : Int} : Shown limits (.int n) ↔ limits.ofInt? n = none := by
  rw [Shown, shownExcess?_int]

/-- So can be the items of a list. -/
theorem item {items : List Json} (h : Shown limits (.arr items)) {v : Json} (hv : v ∈ items) :
    Shown limits v := by
  rw [Shown, shownExcess?, Option.or_eq_none_iff, itemsExcess?_eq_none_iff] at h
  exact shownExcess?_mono (Nat.zero_le _) v (h.2 v hv)

/-- So can be the fields of an object. -/
theorem field {v w : Json} {key : String} (h : Shown limits v) (hw : v.field? key = some w) :
    Shown limits w := by
  cases v with
  | obj fields =>
    rw [Shown, shownExcess?, Option.or_eq_none_iff, fieldsExcess?_eq_none_iff] at h
    obtain ⟨front, back, rfl, -⟩ := List.lookup_eq_some_iff.mp hw
    exact shownExcess?_mono (Nat.zero_le _) w (h.2 (key, w) (by simp))
  | _ => cases hw

end Shown

/-! ## Integers of a text -/

/-- The whole part of a number is made of digits, at least one. -/
theorem isDigit_of_mem_wholePart? {cs whole rest : List Char}
    (h : wholePart? cs = some (whole, rest)) : whole ≠ [] ∧ ∀ d ∈ whole, d.isDigit = true := by
  unfold wholePart? at h
  split at h
  · cases h
  · rename_i c more
    split at h
    · rename_i hzero
      obtain ⟨rfl, -⟩ := Prod.mk.inj (Option.some.inj h)
      exact ⟨List.cons_ne_nil _ _, by simp [hzero]⟩
    · split at h
      · rename_i hdigit
        obtain ⟨rfl, -⟩ := Prod.mk.inj (Option.some.inj h)
        refine ⟨List.cons_ne_nil _ _, fun d hd => ?_⟩
        rcases List.mem_cons.mp hd with rfl | hd
        · exact hdigit
        · exact List.all_eq_true.mp List.all_takeWhile d hd
      · cases h

/-- The value of a run of digits has no more digits than the run. -/
theorem digitsValue_lt {ds : List Char} (h : ∀ d ∈ ds, d.isDigit = true) :
    digitsValue ds < 10 ^ ds.length := by
  suffices hfold : ∀ (ds : List Char) (a : Nat), (∀ d ∈ ds, d.isDigit = true) →
      ds.foldl (fun n d => n * 10 + (d.toNat - 48)) a < (a + 1) * 10 ^ ds.length by
    simpa [digitsValue] using hfold ds 0 h
  intro ds
  induction ds with
  | nil => intro a _; simp
  | cons d rest ih =>
    intro a hall
    have hd : d.toNat - 48 ≤ 9 := by
      have hdigit := hall d List.mem_cons_self
      simp only [Char.isDigit, Bool.and_eq_true, decide_eq_true_eq] at hdigit
      have hle : d.toNat ≤ 57 := hdigit.2
      omega
    have hrest := ih (a * 10 + (d.toNat - 48)) fun e he => hall e (List.mem_cons_of_mem _ he)
    have hstep : a * 10 + (d.toNat - 48) + 1 ≤ (a + 1) * 10 := by omega
    calc rest.foldl (fun n d => n * 10 + (d.toNat - 48)) (a * 10 + (d.toNat - 48))
        < (a * 10 + (d.toNat - 48) + 1) * 10 ^ rest.length := hrest
      _ ≤ (a + 1) * 10 * 10 ^ rest.length := Nat.mul_le_mul_right _ hstep
      _ = (a + 1) * 10 ^ (d :: rest).length := by
        rw [List.length_cons, Nat.pow_succ, Nat.mul_assoc, Nat.mul_comm 10]

/-- The scalar of a lexeme is no container, and an integer has no more digits than its text. -/
def Lexeme.Sound (l : Lexeme) : Prop :=
  ∀ v, l.token = .scalar v →
    match v with
    | .int n => AttributeLint.digitCount n ≤ l.digitCount
    | .arr _ => False
    | .obj _ => False
    | _ => True

/-- The sign does not change the size. -/
theorem natAbs_signedInt (negative : Bool) (n : Nat) : (signedInt negative n).natAbs = n := by
  cases negative <;> simp [signedInt]

/-- A number that is read as an integer has no more digits than its text. -/
theorem number?_sound {cs rest : List Char} {v : Json} (h : number? cs = some (v, rest)) :
    Lexeme.Sound ⟨.scalar v, cs⟩ := by
  rintro _ ⟨⟩
  unfold number? magnitude? at h
  split at h
  · cases h
  · rename_i whole more hwhole
    dsimp only at h
    split at h
    · obtain ⟨rfl, -⟩ := Prod.mk.inj (Option.some.inj h)
      obtain ⟨hne, hdigits⟩ := isDigit_of_mem_wholePart? hwhole
      simp only [Lexeme.digitCount, hwhole]
      rw [digitCount_le_iff (List.length_pos_iff.mpr hne), natAbs_signedInt]
      exact digitsValue_lt hdigits
    · obtain ⟨rfl, -⟩ := Prod.mk.inj (Option.some.inj h)
      trivial

/-- A constant is as sound as the word that it is read from. -/
theorem constant?_sound {cs rest : List Char} {v : Json} {words : List (List Char × Json)}
    (hwords : ∀ w ∈ words, Lexeme.Sound ⟨.scalar w.2, cs⟩)
    (h : constant? cs words = some (v, rest)) : Lexeme.Sound ⟨.scalar v, cs⟩ := by
  induction words with
  | nil => cases h
  | cons w more ih =>
    unfold constant? at h
    split at h
    · obtain ⟨rfl, -⟩ := Prod.mk.inj (Option.some.inj h)
      exact hwords w List.mem_cons_self
    · exact ih (fun w hw => hwords w (List.mem_cons_of_mem _ hw)) h

/-- The lexeme at the front of a text is sound. -/
theorem lexeme_sound (c : Char) (rest : List Char) :
    Lexeme.Sound ⟨(lexeme c rest).1, c :: rest⟩ := by
  have hconstants : ∀ w ∈ constants, Lexeme.Sound ⟨.scalar w.2, c :: rest⟩ := by
    intro w hw
    simp only [constants, List.mem_cons, List.not_mem_nil, or_false] at hw
    rcases hw with rfl | rfl | rfl | rfl | rfl | rfl <;> rintro _ ⟨⟩ <;> trivial
  unfold lexeme
  repeat' split
  all_goals try (rintro v ⟨⟩; done)
  · rintro v ⟨⟩
    trivial
  · rename_i v more hscalar
    unfold scalar? at hscalar
    split at hscalar
    · rename_i hconstant
      rw [hscalar] at hconstant
      exact constant?_sound hconstants hconstant
    · exact number?_sound hscalar

/-- So are all lexemes of a text. -/
theorem tokens_sound (cs : List Char) : ∀ l ∈ tokens cs, l.Sound := by
  fun_induction tokens cs with
  | case1 => simp
  | case2 c rest hblank ih => exact ih
  | case3 c rest hblank ih =>
    intro l hl
    rcases List.mem_cons.mp hl with rfl | hl
    · exact lexeme_sound c rest
    · exact ih l hl

/-! ## The reader -/

/-- What an open container holds can be shown inside so many containers. -/
def Frame.Shown (limits : Limits) (around : Nat) : Frame → Prop
  | .items done => ∀ v ∈ done, v.shownExcess? limits around = none
  | .fields done _ => ∀ p ∈ done, p.2.shownExcess? limits around = none

/-- What the open containers hold can be shown where it lies. -/
def StackShown (limits : Limits) : List Frame → Prop
  | [] => True
  | f :: rest =>
      limits.ofLevel? (rest.length + 1) = none ∧ f.Shown limits (rest.length + 1) ∧
        StackShown limits rest

/-- What has been read and is in no open container yet can be shown where it will lie. -/
def Mode.Shown (limits : Limits) (around : Nat) : Mode → Prop
  | .value => True
  | .firstItem => True
  | .firstKey => limits.ofLevel? (around + 1) = none
  | .nextKey done =>
      limits.ofLevel? (around + 1) = none ∧
        ∀ p ∈ done, p.2.shownExcess? limits (around + 1) = none
  | .colon done _ =>
      limits.ofLevel? (around + 1) = none ∧
        ∀ p ∈ done, p.2.shownExcess? limits (around + 1) = none
  | .after v => v.shownExcess? limits around = none

/-- The level of the innermost container is allowed. -/
theorem StackShown.level {stack : List Frame} (h : StackShown limits stack) :
    limits.ofLevel? stack.length = none := by
  cases stack with
  | nil => simp
  | cons f rest => exact h.1

/-- Leaving a container leaves the others as they are. -/
theorem StackShown.tail {stack : List Frame} (h : StackShown limits stack) :
    StackShown limits stack.tail := by
  cases stack with
  | nil => exact h
  | cons f rest => exact h.2.2

/-- The fields of an object that is being read can be shown with one more of them. -/
theorem shown_of_mem_put {key : String} {v : Json} {done : List (String × Json)}
    (hv : v.shownExcess? limits around = none)
    (hdone : ∀ p ∈ done, p.2.shownExcess? limits around = none) :
    ∀ p ∈ Assoc.put key v done, p.2.shownExcess? limits around = none := by
  intro p hp
  rcases Assoc.mem_put hp with rfl | hp
  · exact hv
  · exact hdone p hp

section step

variable {stack stack' : List Frame} {mode mode' : Mode} {l : Lexeme}

/-- A value that begins is a sound scalar, or opens a container at a level that is allowed. -/
theorem startValue_shown (hl : l.Sound) (hstack : StackShown limits stack)
    (h : startValue limits stack l = .ok (mode', stack')) :
    StackShown limits stack' ∧ mode'.Shown limits stack'.length := by
  unfold startValue at h
  split at h
  · cases h
  · rename_i hexcess htoken
    obtain ⟨rfl, rfl⟩ := Prod.mk.inj (Except.ok.inj h)
    have hdepth : limits.allowsDepth stack.length = true := by
      simpa [excess?, htoken] using hexcess
    exact ⟨⟨Limits.ofLevel?_of_allowsDepth hdepth, by simp [Frame.Shown], hstack⟩, trivial⟩
  · rename_i hexcess htoken
    obtain ⟨rfl, rfl⟩ := Prod.mk.inj (Except.ok.inj h)
    have hdepth : limits.allowsDepth stack.length = true := by
      simpa [excess?, htoken] using hexcess
    exact ⟨hstack, Limits.ofLevel?_of_allowsDepth hdepth⟩
  · rename_i v hexcess htoken
    obtain ⟨rfl, rfl⟩ := Prod.mk.inj (Except.ok.inj h)
    refine ⟨hstack, ?_⟩
    have hlevel := hstack.level
    have hscalar := hl v htoken
    cases v with
    | int n =>
      have hdigits : limits.ofDigits? l.digitCount = none := by
        simpa [excess?, htoken] using hexcess
      rw [Mode.Shown, shownExcess?, hlevel, Limits.ofInt?_eq_none_of_le hdigits hscalar]
      rfl
    | arr => exact hscalar.elim
    | obj => exact hscalar.elim
    | _ => exact hlevel
  · cases h

/-- A key changes nothing of what has been read. -/
theorem startKey_shown {done : List (String × Json)} (hstack : StackShown limits stack)
    (hdone : (Mode.nextKey done).Shown limits stack.length)
    (h : startKey done stack l = .ok (mode', stack')) :
    StackShown limits stack' ∧ mode'.Shown limits stack'.length := by
  unfold startKey at h
  split at h
  · obtain ⟨rfl, rfl⟩ := Prod.mk.inj (Except.ok.inj h)
    exact ⟨hstack, hdone⟩
  · cases h

/-- A value that is complete joins the container around it, and what closes is itself a value that
can be shown one level further out. -/
theorem afterValue_shown {v : Json} (hstack : StackShown limits stack)
    (hv : v.shownExcess? limits stack.length = none)
    (h : afterValue v stack l = .ok (mode', stack')) :
    StackShown limits stack' ∧ mode'.Shown limits stack'.length := by
  unfold afterValue at h
  split at h
  · cases h
  · obtain ⟨rfl, rfl⟩ := Prod.mk.inj (Except.ok.inj h)
    obtain ⟨hlevel, hdone, hrest⟩ := hstack
    exact ⟨⟨hlevel, List.forall_mem_cons.mpr ⟨hv, hdone⟩, hrest⟩, trivial⟩
  · obtain ⟨rfl, rfl⟩ := Prod.mk.inj (Except.ok.inj h)
    obtain ⟨-, hdone, hrest⟩ := hstack
    refine ⟨hrest, ?_⟩
    rw [Mode.Shown, shownExcess?, hrest.level, Option.none_or, itemsExcess?_eq_none_iff]
    intro w hw
    rcases List.mem_cons.mp (List.mem_reverse.mp hw) with rfl | hw
    · exact hv
    · exact hdone w hw
  · obtain ⟨rfl, rfl⟩ := Prod.mk.inj (Except.ok.inj h)
    obtain ⟨hlevel, hdone, hrest⟩ := hstack
    exact ⟨hrest, hlevel, shown_of_mem_put hv hdone⟩
  · obtain ⟨rfl, rfl⟩ := Prod.mk.inj (Except.ok.inj h)
    obtain ⟨-, hdone, hrest⟩ := hstack
    refine ⟨hrest, ?_⟩
    rw [Mode.Shown, shownExcess?, hrest.level, Option.none_or, fieldsExcess?_eq_none_iff]
    exact shown_of_mem_put hv hdone
  · cases h

/-- The step: what has been read can be shown before a lexeme, and after it. -/
theorem step_shown (hl : l.Sound) (hstack : StackShown limits stack)
    (hmode : mode.Shown limits stack.length)
    (h : step limits mode stack l = .ok (mode', stack')) :
    StackShown limits stack' ∧ mode'.Shown limits stack'.length := by
  unfold step at h
  split at h
  · exact startValue_shown hl hstack h
  · obtain ⟨rfl, rfl⟩ := Prod.mk.inj (Except.ok.inj h)
    refine ⟨hstack.tail, ?_⟩
    rw [Mode.Shown, shownExcess?, hstack.tail.level]
    rfl
  · exact startValue_shown hl hstack h
  · obtain ⟨rfl, rfl⟩ := Prod.mk.inj (Except.ok.inj h)
    refine ⟨hstack, ?_⟩
    rw [Mode.Shown, shownExcess?, hstack.level]
    rfl
  · exact startKey_shown hstack ⟨hmode, by simp⟩ h
  · exact startKey_shown hstack hmode h
  · obtain ⟨rfl, rfl⟩ := Prod.mk.inj (Except.ok.inj h)
    exact ⟨⟨hmode.1, hmode.2, hstack⟩, trivial⟩
  · cases h
  · exact afterValue_shown hstack hmode h

/-- The run: so it can be at the end. -/
theorem assemble_shown {ls : List Lexeme} (hls : ∀ l ∈ ls, l.Sound)
    (hstack : StackShown limits stack) (hmode : mode.Shown limits stack.length) {v : Json}
    (h : assemble limits mode stack ls = .ok v) : Shown limits v := by
  induction ls generalizing mode stack with
  | nil =>
    unfold assemble finish at h
    split at h
    · cases h
      exact hmode
    all_goals cases h
  | cons l rest ih =>
    obtain ⟨hl, hrest⟩ := List.forall_mem_cons.mp hls
    rw [assemble] at h
    rcases hstep : step limits mode stack l with e | ⟨mode', stack'⟩
    · rw [hstep] at h
      cases h
    · rw [hstep] at h
      obtain ⟨hstack', hmode'⟩ := step_shown hl hstack hmode hstep
      exact ih hrest hstack' hmode' h

end step

/-- **Reading.** A value that was read within limits can be shown within them. -/
theorem readWithin_shown {text : String} {v : Json} (h : readWithin limits text = .ok v) :
    Shown limits v := by
  unfold readWithin at h
  dsimp only at h
  split at h
  · cases h
  · rcases hread : assemble limits .value [] (tokens text.toList) with e | w
    · rw [hread] at h
      cases h
    · rw [hread] at h
      cases h
      have hstack : StackShown limits [] := trivial
      have hmode : Mode.value.Shown limits 0 := trivial
      exact assemble_shown (tokens_sound _) hstack hmode hread

end Json

end AttributeLint

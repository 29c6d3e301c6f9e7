import AttributeLint.Proofs.Replacement
import Mathlib.Algebra.BigOperators.Group.List.Basic
import Mathlib.Algebra.GroupWithZero.Nat

/-!
# What fixes keep of the source

A fix may put a text at an empty span. Two spans of which one is empty and starts where the other
does not overlap, in either order, so such fixes are carried out. But a copy that has gone past the
longer span and then meets the empty one goes on from there, and the characters of the longer span
come again.

* `length_splice`: how long a copy is, with what is repeated in it.
* `repeated_eq_zero_iff`: nothing is repeated exactly if the edits are in a line.
* `exists_woven`: a copy is made of stretches of the source and of the texts of the edits, in turn.
* **Conservation** (`applyFixes_conserves_iff`): if fixes have a result, then it has what is outside
  of their spans and the texts of all fixes, each once, and nothing else, exactly if no empty span
  comes behind a longer one that starts at its place. Otherwise it is too long.
-/

namespace AttributeLint

namespace Edit

/-! ## How long a copy is -/

/-- How many characters a copy goes back, all in all, when edits start before the place that it has
come to. -/
def repeated : Nat → List Edit → Nat
  | _, [] => 0
  | pos, e :: rest => (pos - e.span.start) + repeated e.span.stop rest

/-- A copy from a position on takes the rest of the source for the spans, puts the texts in, and has
more by what it repeats. -/
theorem length_splice (source : List Char) :
    (edits : List Edit) → ∀ {pos : Nat}, pos ≤ source.length →
      (∀ e ∈ edits, e.span.stop ≤ source.length) →
      (splice source pos edits).length + pos + (edits.map fun e => e.span.length).sum
        = source.length + (edits.map fun e => e.text.length).sum + repeated pos edits
  | [], pos, hpos, _ => by
      simp only [splice, repeated, List.length_drop, List.map_nil, List.sum_nil]
      omega
  | e :: rest, pos, hpos, hwithin => by
      rw [List.forall_mem_cons] at hwithin
      have ih := length_splice source rest hwithin.1 hwithin.2
      have hle := e.span.start_le_stop
      have hlength : e.span.stop = e.span.start + e.span.length := by
        unfold Span.length
        omega
      simp only [splice, repeated, List.length_append, List.length_drop, List.length_take,
        String.length_toList, List.map_cons, List.sum_cons]
      omega

/-- No character is repeated exactly if the spans are in line. -/
theorem repeated_eq_zero_iff {n : Nat} :
    (edits : List Edit) → ∀ {pos : Nat}, pos ≤ n → (∀ e ∈ edits, e.span.stop ≤ n) →
      (repeated pos edits = 0 ↔ Span.InLine n pos (edits.map span))
  | [], _, hpos, _ => by
      simp [repeated, Span.InLine, hpos]
  | e :: rest, _, _, hwithin => by
      rw [List.forall_mem_cons] at hwithin
      rw [repeated, Nat.add_eq_zero_iff, Nat.sub_eq_zero_iff_le,
        repeated_eq_zero_iff rest hwithin.1 hwithin.2]
      rfl

/-- Of spans in line, each ends before all later ones begin. -/
theorem before_of_inLine {n : Nat} :
    (edits : List Edit) → ∀ {pos : Nat}, Span.InLine n pos (edits.map span) →
      edits.Pairwise fun e f => e.span.stop ≤ f.span.start
  | [], _, _ => .nil
  | e :: rest, _, hline => by
      refine List.pairwise_cons.mpr ⟨fun f hf => ?_, before_of_inLine rest hline.2⟩
      exact hline.2.le_start f.span (List.mem_map_of_mem hf)

/-! ## What a copy is made of -/

/-- The stretches of the source are the gaps, also where the copy goes back. -/
theorem exists_woven (source : List Char) :
    (edits : List Edit) → ∀ pos : Nat, ∃ (pieces : List (List Char × Fix)) (last : List Char),
      pieces.map Prod.snd = edits.map fix ∧
      splice source pos edits = (pieces.flatMap fun p => p.1 ++ p.2.text.toList) ++ last ∧
      Span.gaps source pos (edits.map span) = pieces.flatMap Prod.fst ++ last
  | [], pos => ⟨[], source.drop pos, rfl, rfl, rfl⟩
  | e :: rest, pos => by
      obtain ⟨pieces, last, hfixes, hsplice, hgaps⟩ := exists_woven source rest e.span.stop
      refine ⟨((source.take e.span.start).drop pos, e.fix) :: pieces, last, ?_, ?_, ?_⟩
      · rw [List.map_cons, List.map_cons, hfixes]
      · rw [splice, hsplice, List.flatMap_cons, List.append_assoc, List.append_assoc,
          List.append_assoc]
        rfl
      · rw [List.map_cons, Span.gaps, hgaps, List.flatMap_cons, List.append_assoc]

end Edit

/-! ## Conservation -/

/-- No empty span comes behind a longer one that starts at its place. -/
def Fix.EmptyFirst (fixes : List Fix) : Prop :=
  fixes.Pairwise fun f g => ∀ s ∈ f.span, ∀ t ∈ g.span,
    s.start < s.stop → t.start = t.stop → s.start ≠ t.start

/-- Nothing of a source is lost or repeated on the way to a text, and nothing of the fixes. -/
structure Conserves (source : String) (fixes : List Fix) (out : String) : Prop where
  clear : fixes.Pairwise Fix.Clear
  /-- The text is made of pieces of the source with the text of a fix behind each, and of a last
  piece. Every fix comes once, and the pieces are the characters outside of all spans, in order. -/
  woven : ∃ (pieces : List (List Char × Fix)) (last : List Char),
    (pieces.map Prod.snd).Perm fixes ∧
    out.toList = (pieces.flatMap fun p => p.1 ++ p.2.text.toList) ++ last ∧
    (outside (fixes.filterMap Fix.span) source).toList = pieces.flatMap Prod.fst ++ last
  length : out.length + ((fixes.filterMap Fix.span).map Span.length).sum
    = source.length + (fixes.map fun f => f.text.length).sum

open Edit

section conserves

variable {source : String} {edits : List Edit}

/-- Empty spans come first among fixes exactly if they do among the edits. -/
theorem Fix.emptyFirst_map_fix : Fix.EmptyFirst (edits.map fix) ↔ Edit.EmptyFirst edits := by
  unfold Fix.EmptyFirst Edit.EmptyFirst
  rw [List.pairwise_map]
  constructor
  · intro h
    exact h.imp fun hef => hef _ rfl _ rfl
  · intro h
    refine h.imp ?_
    rintro e f hef _ ⟨⟩ _ ⟨⟩
    exact hef

/-- The fixes of edits have the spans of the edits. -/
theorem Fix.filterMap_span_map_fix (edits : List Edit) :
    (edits.map fix).filterMap Fix.span = edits.map Edit.span := by
  rw [List.filterMap_map]
  exact congrFun List.filterMap_eq_map edits

/-- The lengths of all that goes into a copy with the arranged edits. -/
theorem length_arranged (hwithin : ∀ e ∈ edits, e.span.stop ≤ source.length) :
    (splice source.toList 0 (arrange edits)).length + (edits.map fun e => e.span.length).sum
      = source.length + (edits.map fun e => e.text.length).sum + repeated 0 (arrange edits) := by
  have hperm := arrange_perm edits
  have hlength := length_splice source.toList (arrange edits) (Nat.zero_le _) (by
    intro e he
    rw [String.length_toList]
    exact hwithin e (hperm.mem_iff.mp he))
  rwa [Nat.add_zero, String.length_toList, (hperm.map fun e => e.span.length).sum_eq,
    (hperm.map fun e => e.text.length).sum_eq] at hlength

/-- Edits that are arranged in a line conserve the source. -/
theorem conserves_of_inLine (hwithin : ∀ e ∈ edits, e.span.stop ≤ source.length)
    (hline : Span.InLine source.length 0 ((arrange edits).map span)) :
    Conserves source (edits.map fix)
      (String.ofList (splice source.toList 0 (arrange edits))) := by
  have hperm := arrange_perm edits
  refine ⟨?_, ?_, ?_⟩
  · rw [List.pairwise_map]
    refine (apart_of_before (before_of_inLine _ hline)).imp ?_
    rintro e f hef _ ⟨⟩ _ ⟨⟩
    exact hef
  · obtain ⟨pieces, last, hfixes, hsplice, hgaps⟩ := exists_woven source.toList (arrange edits) 0
    rw [← String.length_toList] at hline
    refine ⟨pieces, last, ?_, ?_, ?_⟩
    · rw [hfixes]
      exact hperm.map fix
    · rw [String.toList_ofList, hsplice]
    · have houtside := outside_eq_gaps hline
      rw [String.ofList_toList] at houtside
      rw [Fix.filterMap_span_map_fix, outside_perm (hperm.symm.map span), houtside,
        String.toList_ofList, hgaps]
  · have hnone : repeated 0 (arrange edits) = 0 := by
      refine (repeated_eq_zero_iff _ (Nat.zero_le _) ?_).mpr hline
      intro e he
      exact hwithin e (hperm.mem_iff.mp he)
    have hlength := length_arranged hwithin
    rw [hnone] at hlength
    rw [Fix.filterMap_span_map_fix, List.map_map, List.map_map, String.length_ofList]
    exact hlength

end conserves

/-- **Conservation.** Let fixes have a result. No two of their spans overlap, and the result has the
characters outside of all spans in order, and the text of every fix, each exactly once, exactly if
no empty span comes behind a longer one that starts at its place. If one does, characters come more
than once: the result is longer than that. -/
theorem applyFixes_conserves_iff {limits : Limits} {source out : String} {fixes : List Fix}
    (h : applyFixes limits source fixes = .ok out) :
    (Conserves source fixes out ↔ Fix.EmptyFirst fixes) ∧
    (¬ Fix.EmptyFirst fixes → source.length + (fixes.map fun f => f.text.length).sum
      < out.length + ((fixes.filterMap Fix.span).map Span.length).sum) := by
  obtain ⟨edits, rfl, hwithin, hclash, rfl⟩ := applyFixes_eq_ok_iff.mp h
  have hperm := arrange_perm edits
  have hwithin' : ∀ e ∈ arrange edits, e.span.stop ≤ source.length := by
    intro e he
    exact hwithin e (hperm.mem_iff.mp he)
  -- in a line, before one another and with empty spans first: the same of arranged edits
  have hline : Span.InLine source.length 0 ((arrange edits).map span) ↔
      Fix.EmptyFirst (edits.map fix) := by
    rw [Fix.emptyFirst_map_fix, ← before_arrange_iff hclash]
    constructor
    · exact before_of_inLine _
    · intro hbefore
      exact inLine_of_pairwise _ hbefore hwithin' (Nat.zero_le _) (fun _ _ => Nat.zero_le _)
  have hlonger : ¬ Fix.EmptyFirst (edits.map fix) →
      source.length + ((edits.map fix).map fun f => f.text.length).sum
        < (String.ofList (splice source.toList 0 (arrange edits))).length
          + (((edits.map fix).filterMap Fix.span).map Span.length).sum := by
    intro hnot
    have hsome : repeated 0 (arrange edits) ≠ 0 := by
      rw [← hline, ← repeated_eq_zero_iff _ (Nat.zero_le _) hwithin'] at hnot
      exact hnot
    have hlength := length_arranged hwithin
    rw [Fix.filterMap_span_map_fix, List.map_map, List.map_map, String.length_ofList]
    show _ + (edits.map fun e => e.text.length).sum < _ + (edits.map fun e => e.span.length).sum
    omega
  refine ⟨⟨fun hconserves => ?_, fun hfirst => ?_⟩, hlonger⟩
  · by_contra hnot
    have hlength := hconserves.length
    have := hlonger hnot
    omega
  · exact conserves_of_inLine hwithin (hline.mpr hfirst)

/-- A long span, an empty one at its start, and one within the long span. -/
def backward : List Fix :=
  [fixAt 0 5 "X", fixAt 0 0 "Y", fixAt 2 1 "Z"]

/-- The first two in the other order. -/
def forward : List Fix :=
  [fixAt 0 0 "Y", fixAt 0 5 "X"]

/-- The empty span keeps the other two from being neighbours, so that they overlap is not seen, and
what they cover comes again. In the other order all is well. -/
theorem applyFixes_conserves_iff_backward :
    (applyFixes {} "abcdef" backward = .ok "XYabZdef" ∧ ¬ backward.Pairwise Fix.Clear ∧
      ¬ Conserves "abcdef" backward "XYabZdef") ∧
    applyFixes {} "abcdef" forward = .ok "YXf" ∧ Conserves "abcdef" forward "YXf" := by
  have hbackward : applyFixes {} "abcdef" backward = .ok "XYabZdef" := by
    refine applyFixes_eq_ok_iff.mpr ⟨[⟨⟨0, 5, by decide⟩, "X"⟩, ⟨⟨0, 0, by decide⟩, "Y"⟩,
      ⟨⟨2, 3, by decide⟩, "Z"⟩], rfl, by decide, ?_⟩
    rw [arrange, List.mergeSort_of_pairwise (by decide)]
    exact ⟨rfl, rfl⟩
  have hforward : applyFixes {} "abcdef" forward = .ok "YXf" := by
    refine applyFixes_eq_ok_iff.mpr ⟨[⟨⟨0, 0, by decide⟩, "Y"⟩, ⟨⟨0, 5, by decide⟩, "X"⟩], rfl,
      by decide, ?_⟩
    rw [arrange, List.mergeSort_of_pairwise (by decide)]
    exact ⟨rfl, rfl⟩
  have hnot : ¬ Fix.EmptyFirst backward := by
    intro hfirst
    have hpair := (List.pairwise_cons.mp hfirst).1 (fixAt 0 0 "Y") List.mem_cons_self
    exact hpair _ rfl _ rfl (by decide) rfl rfl
  have hfirst : Fix.EmptyFirst forward := by
    refine List.pairwise_pair.mpr ?_
    rintro _ ⟨⟩ _ ⟨⟩ hlong
    exact absurd hlong (by decide)
  refine ⟨⟨hbackward, by decide, ?_⟩, hforward, ?_⟩
  · rw [(applyFixes_conserves_iff hbackward).1]
    exact hnot
  · exact (applyFixes_conserves_iff hforward).1.mpr hfirst

end AttributeLint

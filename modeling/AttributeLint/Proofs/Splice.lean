import AttributeLint.Fix
import AttributeLint.Proofs.WithinLimits
import Mathlib.Data.List.Forall2
import Mathlib.Data.Nat.Basic
import Mathlib.Order.Basic

/-!
# Text after fixes

What a text looks like after fixes is said with two readings of it: the text that a span covers, and
the text outside some spans.

* `outside_eq_gaps`: for spans in a line, what is outside is what lies between them.
* `landings_spec`: behind a copy that carries out edits in a line, each edit's text stands where the
  edit lands, and what lies between the landings is what lay between the spans.
* `landings_eq_relocate`: an edit lands where its span started, shifted by what the edits to its
  left add.
* **Fixes in any order** (`applyFixes_changed`): take edits of disjoint spans, in any order. To
  carry out those that change the text is to carry out all of them.

Edits that change nothing are taken along on purpose: the spans that no fix touches move too, and as
edits they need no argument of their own.
-/

namespace AttributeLint

/-! ## Texts and spans -/

namespace Span

/-- The characters at a span. -/
def chars (s : Span) (cs : List Char) : List Char :=
  (cs.take s.stop).drop s.start

/-- The text at a span. -/
def covered (s : Span) (text : String) : String :=
  String.ofList (s.chars text.toList)

/-- Does a position belong to a span? -/
def covers (s : Span) (i : Nat) : Bool :=
  decide (s.start ≤ i ∧ i < s.stop)

/-- Spans one behind the other, from `pos` on and up to `length`. -/
def InLine (length : Nat) : Nat → List Span → Prop
  | pos, [] => pos ≤ length
  | pos, s :: rest => pos ≤ s.start ∧ InLine length s.stop rest

/-- What lies between spans in a line, from `pos` on. -/
def gaps (cs : List Char) : Nat → List Span → List Char
  | pos, [] => cs.drop pos
  | pos, s :: rest => (cs.take s.start).drop pos ++ gaps cs s.stop rest

variable {n pos : Nat} {cs : List Char}

/-- Spans in line begin within the source. -/
theorem InLine.le_length : {spans : List Span} → ∀ {pos}, InLine n pos spans → pos ≤ n
  | [], _, h => h
  | s :: _, _, h => h.1.trans (s.start_le_stop.trans h.2.le_length)

/-- None of them begins before the place where the line begins. -/
theorem InLine.le_start :
    {spans : List Span} → ∀ {pos}, InLine n pos spans → ∀ s ∈ spans, pos ≤ s.start
  | s :: rest, pos, h, t, ht => by
      rcases List.mem_cons.mp ht with rfl | ht
      · exact h.1
      · exact h.1.trans (s.start_le_stop.trans (h.2.le_start t ht))

/-- A span within the source covers as many characters as it is long. -/
theorem length_chars {s : Span} (h : s.stop ≤ cs.length) : (s.chars cs).length = s.length := by
  simp [chars, length, h]

/-- A text from a position on goes up to a later position and on from there. -/
theorem drop_eq_append {mid : Nat} (h : pos ≤ mid) :
    cs.drop pos = (cs.take mid).drop pos ++ cs.drop mid := by
  conv_lhs => rw [← List.take_append_drop mid cs]
  rw [List.drop_append, List.length_take]
  rcases Nat.le_total mid cs.length with hlen | hlen
  · rw [Nat.min_eq_left hlen, Nat.sub_eq_zero_of_le h, List.drop_zero]
  · simp [List.drop_eq_nil_of_le hlen]

/-- Spans do not overlap exactly if one of them ends before the other starts. -/
theorem overlaps_eq_false_iff {s t : Span} :
    s.overlaps t = false ↔ s.stop ≤ t.start ∨ t.stop ≤ s.start := by
  unfold overlaps
  rw [decide_eq_false_iff_not]
  omega

end Span

/-! ## The text outside spans -/

/-- The characters outside spans, of characters that start at position `pos`. -/
def outsideFrom (spans : List Span) (pos : Nat) (cs : List Char) : List Char :=
  ((cs.zipIdx pos).filter fun p => !spans.any fun s => s.covers p.2).map Prod.fst

/-- The text outside spans. -/
def outside (spans : List Span) (text : String) : String :=
  String.ofList (outsideFrom spans 0 text.toList)

section outside

variable {spans : List Span} {pos : Nat} {cs : List Char}

/-- The characters outside of spans can be told part by part. -/
theorem outsideFrom_append (ds : List Char) :
    outsideFrom spans pos (cs ++ ds)
      = outsideFrom spans pos cs ++ outsideFrom spans (pos + cs.length) ds := by
  simp [outsideFrom, List.zipIdx_append]

/-- Where no span reaches, all characters are outside. -/
theorem outsideFrom_eq_self
    (h : ∀ s ∈ spans, s.stop ≤ pos ∨ pos + cs.length ≤ s.start) :
    outsideFrom spans pos cs = cs := by
  unfold outsideFrom
  rw [List.filter_eq_self.mpr, List.zipIdx_map_fst]
  rintro ⟨c, i⟩ hi
  obtain ⟨hle, hlt, -⟩ := List.mem_zipIdx hi
  simp only [Bool.not_eq_true', List.any_eq_false, Span.covers, decide_eq_true_eq]
  rintro s hs ⟨hstart, hstop⟩
  rcases h s hs with h | h <;> omega

/-- Within a span no character is outside. -/
theorem outsideFrom_eq_nil {s : Span} (hs : s ∈ spans) (hstart : s.start ≤ pos)
    (hstop : pos + cs.length ≤ s.stop) : outsideFrom spans pos cs = [] := by
  unfold outsideFrom
  rw [List.filter_eq_nil_iff.mpr, List.map_nil]
  rintro ⟨c, i⟩ hi
  obtain ⟨hle, hlt, -⟩ := List.mem_zipIdx hi
  have hany : (spans.any fun s => s.covers i) = true := by
    rw [List.any_eq_true]
    refine ⟨s, hs, ?_⟩
    simp only [Span.covers, decide_eq_true_eq]
    omega
  simp [hany]

/-- The induction is on the spans that are still ahead; the others end before `pos`. -/
theorem outsideFrom_drop_eq_gaps :
    (ahead : List Span) → ∀ {pos}, Span.InLine cs.length pos ahead → (∀ s ∈ ahead, s ∈ spans) →
      (∀ s ∈ spans, s.stop ≤ pos ∨ s ∈ ahead) →
      outsideFrom spans pos (cs.drop pos) = Span.gaps cs pos ahead
  | [], pos, _, _, hbefore => by
      refine outsideFrom_eq_self fun s hs => .inl ?_
      simpa using hbefore s hs
  | s :: rest, pos, hline, hmem, hbefore => by
      have hlen : s.stop ≤ cs.length := hline.2.le_length
      have hle := s.start_le_stop
      have hgap : pos + ((cs.take s.start).drop pos).length = s.start := by
        rw [List.length_drop, List.length_take]
        have := hline.1
        omega
      unfold Span.gaps
      rw [Span.drop_eq_append hline.1, Span.drop_eq_append hle]
      change outsideFrom spans pos (_ ++ (s.chars cs ++ _)) = _
      rw [outsideFrom_append, outsideFrom_append, hgap, Span.length_chars hlen]
      have hstop : s.start + s.length = s.stop := by
        unfold Span.length
        omega
      -- up to the span nothing is covered, then everything is
      have hfirst : outsideFrom spans pos ((cs.take s.start).drop pos)
          = (cs.take s.start).drop pos := by
        refine outsideFrom_eq_self fun t ht => ?_
        rw [hgap]
        rcases hbefore t ht with h | h
        · exact .inl h
        · rcases List.mem_cons.mp h with rfl | h
          · exact .inr le_rfl
          · exact .inr (hle.trans (hline.2.le_start t h))
      have hsecond : outsideFrom spans s.start (s.chars cs) = [] := by
        refine outsideFrom_eq_nil (hmem s List.mem_cons_self) le_rfl ?_
        rw [Span.length_chars hlen, hstop]
      have hthird := outsideFrom_drop_eq_gaps rest hline.2
        (fun t ht => hmem t (List.mem_cons_of_mem _ ht)) (fun t ht => by
          rcases hbefore t ht with h | h
          · exact .inl (h.trans (hline.1.trans hle))
          · rcases List.mem_cons.mp h with rfl | h
            · exact .inl le_rfl
            · exact .inr h)
      rw [hfirst, hsecond, hstop, hthird, List.nil_append]

/-- What is outside spans in a line is what lies between them. -/
theorem outside_eq_gaps (h : Span.InLine cs.length 0 spans) :
    outside spans (String.ofList cs) = String.ofList (Span.gaps cs 0 spans) := by
  have hgaps : outsideFrom spans 0 (cs.drop 0) = Span.gaps cs 0 spans :=
    outsideFrom_drop_eq_gaps spans h (fun _ hs => hs) (fun _ hs => .inr hs)
  unfold outside
  rw [String.toList_ofList, ← hgaps, List.drop_zero]

/-- The order of the spans plays no part. -/
theorem outside_perm {spans' : List Span} (h : spans.Perm spans') (text : String) :
    outside spans text = outside spans' text := by
  have hany : ∀ i, (spans.any fun s => s.covers i) = spans'.any fun s => s.covers i := by
    intro i
    rw [Bool.eq_iff_iff, List.any_eq_true, List.any_eq_true]
    simp only [h.mem_iff]
  unfold outside outsideFrom
  simp only [hany]

end outside

/-! ## Where edits land -/

/-- What a fix to the left of a position adds to the text in front of it. -/
def Fix.growth (pos : Nat) (f : Fix) : Int :=
  match f.span with
  | some s => if s.stop ≤ pos then (f.text.length : Int) - s.length else 0
  | none => 0

/-- What the fixes to the left of a position add in all. -/
def shift : List Fix → Nat → Int
  | [], _ => 0
  | f :: rest, pos => f.growth pos + shift rest pos

/-- A span shifted by the fixes to its left and resized to a text. -/
def Span.relocate (fixes : List Fix) (text : String) (s : Span) : Span where
  start := (s.start + shift fixes s.start).toNat
  stop := (s.start + shift fixes s.start).toNat + text.length
  start_le_stop := Nat.le_add_right _ _

namespace Edit

/-- The edit as a fix. -/
def fix (e : Edit) : Fix :=
  ⟨e.text, some e.span⟩

/-- The spans of the texts of edits in a line, when the copy of `pos` stands at `place`. -/
def landings : Nat → Nat → List Edit → List Span
  | _, _, [] => []
  | place, pos, e :: rest =>
      ⟨place + (e.span.start - pos), place + (e.span.start - pos) + e.text.length,
        Nat.le_add_right _ _⟩
        :: landings (place + (e.span.start - pos) + e.text.length) e.span.stop rest

variable {source : List Char}

/-- **Landings.** Behind any characters `front`, a copy with edits in a line has the text of each
edit at its landing; the landings are in a line and leave what the spans left. -/
theorem landings_spec :
    (edits : List Edit) → ∀ {pos : Nat} (front : List Char),
      Span.InLine source.length pos (edits.map span) →
      let out := front ++ splice source pos edits
      let landed := landings front.length pos edits
      Span.InLine out.length front.length landed ∧
        Span.gaps out front.length landed = Span.gaps source pos (edits.map span) ∧
        List.Forall₂ (fun e s => s.chars out = e.text.toList) edits landed
  | [], pos, front, _ => by
      simp [landings, splice, Span.InLine, Span.gaps]
  | e :: rest, pos, front, hline => by
      intro out landed
      have hlen : e.span.start ≤ source.length :=
        e.span.start_le_stop.trans hline.2.le_length
      let gap := (source.take e.span.start).drop pos
      have hgap : gap.length = e.span.start - pos := by
        simp [gap, hlen]
      -- the copy goes on behind the gap and the text of the edit
      have hout : out = (front ++ gap ++ e.text.toList) ++ splice source e.span.stop rest := by
        simp [out, splice, gap]
      have hfront : (front ++ gap ++ e.text.toList).length
          = front.length + (e.span.start - pos) + e.text.length := by
        rw [List.length_append, List.length_append, hgap, String.length_toList]
      obtain ⟨hinline, hgaps, htexts⟩ :=
        landings_spec rest (front ++ gap ++ e.text.toList) hline.2
      rw [← hout, hfront] at hinline hgaps htexts
      refine ⟨⟨Nat.le_add_right _ _, hinline⟩, ?_, .cons ?_ htexts⟩
      · change (out.take _).drop _ ++ Span.gaps out _ _ = gap ++ Span.gaps source _ _
        rw [hgaps]
        refine congrArg (· ++ _) ?_
        have htake : out.take (front.length + (e.span.start - pos)) = front ++ gap := by
          rw [hout, List.append_assoc, ← hgap, ← List.length_append]
          exact List.take_left
        rw [htake]
        exact List.drop_left
      · have htake : out.take (front.length + (e.span.start - pos) + e.text.length)
            = front ++ gap ++ e.text.toList := by
          rw [hout, ← hfront]
          exact List.take_left
        change (out.take (front.length + (e.span.start - pos) + e.text.length)).drop
          (front.length + (e.span.start - pos)) = _
        rw [htake, ← hgap, ← List.length_append]
        exact List.drop_left

section shift

/-- An edit makes room behind it, by as much as its text is longer than its span. -/
theorem growth_fix (e : Edit) (pos : Nat) : e.fix.growth pos
    = if e.span.stop ≤ pos then (e.text.length : Int) - e.span.length else 0 := rfl

/-- Shifts of fixes add up. -/
theorem shift_append (pos : Nat) : (fixes fixes' : List Fix) →
    shift (fixes ++ fixes') pos = shift fixes pos + shift fixes' pos
  | [], _ => (Int.zero_add _).symm
  | f :: rest, fixes' => by
      simp only [List.cons_append, shift]
      rw [shift_append pos rest fixes', Int.add_assoc]

/-- Edits that are not to the left do not count. -/
theorem shift_eq_zero {pos : Nat} :
    (es : List Edit) → (∀ e ∈ es, pos < e.span.stop) → shift (es.map fix) pos = 0
  | [], _ => rfl
  | e :: rest, h => by
      have hright := h e List.mem_cons_self
      simp only [List.map_cons, shift]
      rw [growth_fix, if_neg (by omega),
        shift_eq_zero rest fun f hf => h f (List.mem_cons_of_mem _ hf), Int.zero_add]

/-- To the right of all edits the shift is the same everywhere. -/
theorem shift_eq_of_le {pos next : Nat} (hle : pos ≤ next) :
    (es : List Edit) → (∀ e ∈ es, e.span.stop ≤ pos) →
      shift (es.map fix) next = shift (es.map fix) pos
  | [], _ => rfl
  | e :: rest, h => by
      have hleft := h e List.mem_cons_self
      simp only [List.map_cons, shift]
      rw [growth_fix, growth_fix, if_pos hleft, if_pos (hleft.trans hle),
        shift_eq_of_le hle rest fun f hf => h f (List.mem_cons_of_mem _ hf)]

/-- The order of the fixes plays no part. -/
theorem shift_perm {fixes fixes' : List Fix} (h : fixes.Perm fixes') (pos : Nat) :
    shift fixes pos = shift fixes' pos := by
  induction h with
  | nil => rfl
  | cons f _ ih =>
      simp only [shift]
      rw [ih]
  | swap f g rest =>
      simp only [shift]
      omega
  | trans _ _ ih ih' => exact ih.trans ih'

/-- Carries the edits `done` that lie before `pos`: their shift is how far the copy has got ahead of
the source. -/
theorem landings_eq_relocate :
    (edits : List Edit) → ∀ {place pos n : Nat} (done : List Edit),
      Span.InLine n pos (edits.map span) → (∀ e ∈ edits, e.span.start < e.span.stop) →
      (∀ e ∈ done, e.span.stop ≤ pos) → (place : Int) = pos + shift (done.map fix) pos →
      landings place pos edits
          = (edits.map fun e => e.span.relocate ((done ++ edits).map fix) e.text) ∧
        ∀ e ∈ edits, 0 ≤ e.span.start + shift ((done ++ edits).map fix) e.span.start
  | [], _, _, _, _, _, _, _, _ => ⟨rfl, fun _ he => (nomatch he)⟩
  | e :: rest, place, pos, n, done, hline, hne, hdone, hplace => by
      have hpos : pos ≤ e.span.start := hline.1
      have hnonempty := hne e List.mem_cons_self
      have hrest : ∀ f ∈ rest, e.span.stop ≤ f.span.start := fun f hf =>
        hline.2.le_start f.span (List.mem_map_of_mem hf)
      have hahead : ∀ f ∈ e :: rest, e.span.start < f.span.stop := by
        intro f hf
        have := hne f hf
        rcases List.mem_cons.mp hf with rfl | hf
        · exact this
        · have := hrest f hf
          omega
      have hshift : shift ((done ++ e :: rest).map fix) e.span.start
          = shift (done.map fix) pos := by
        rw [List.map_append, shift_append, shift_eq_zero _ hahead, shift_eq_of_le hpos _ hdone,
          Int.add_zero]
      -- one more edit is done
      have hnext : shift ((done ++ [e]).map fix) e.span.stop
          = shift (done.map fix) pos + ((e.text.length : Int) - e.span.length) := by
        rw [List.map_append, shift_append, shift_eq_of_le (by omega) _ hdone]
        simp [shift, growth_fix]
      have hdone' : ∀ f ∈ done ++ [e], f.span.stop ≤ e.span.stop := by
        intro f hf
        rcases List.mem_append.mp hf with hf | hf
        · have := hdone f hf
          omega
        · rw [List.mem_singleton.mp hf]
      have hplace' : ((place + (e.span.start - pos) + e.text.length : Nat) : Int)
          = e.span.stop + shift ((done ++ [e]).map fix) e.span.stop := by
        rw [hnext]
        unfold Span.length
        omega
      obtain ⟨hlandings, hnonneg⟩ := landings_eq_relocate rest (done ++ [e]) hline.2
        (fun f hf => hne f (List.mem_cons_of_mem _ hf)) hdone' hplace'
      rw [List.append_assoc, List.singleton_append] at hlandings hnonneg
      have hstart : e.span.start + shift ((done ++ e :: rest).map fix) e.span.start
          = ((place + (e.span.start - pos) : Nat) : Int) := by
        rw [hshift]
        omega
      refine ⟨?_, ?_⟩
      · unfold landings
        rw [hlandings, List.map_cons]
        refine congrArg (· :: _) ?_
        simp only [Span.relocate, hstart, Int.toNat_natCast]
      · intro f hf
        rcases List.mem_cons.mp hf with rfl | hf
        · rw [hstart]
          exact Int.natCast_nonneg _
        · exact hnonneg f hf

end shift

/-! ## Edits that change nothing -/

/-- Does an edit put another text in the place of its span? -/
def changes (source : List Char) (e : Edit) : Bool :=
  decide (e.text.toList ≠ e.span.chars source)

/-- An edit that changes nothing writes what is there. -/
theorem text_of_not_changes {e : Edit} (h : ¬ changes source e = true) :
    e.text.toList = e.span.chars source := by
  simpa [changes] using h

/-- A copy goes up to a position in front of all edits and on from there. -/
theorem splice_eq_append {edits : List Edit} {pos mid : Nat} (h : pos ≤ mid)
    (hedits : ∀ e ∈ edits, mid ≤ e.span.start) :
    splice source pos edits = (source.take mid).drop pos ++ splice source mid edits := by
  rcases edits with _ | ⟨e, rest⟩
  · exact Span.drop_eq_append h
  · have hmid : mid ≤ e.span.start := hedits e List.mem_cons_self
    have htake : (source.take e.span.start).take mid = source.take mid := by
      rw [List.take_take, Nat.min_eq_left hmid]
    unfold splice
    rw [Span.drop_eq_append h, htake]
    simp only [List.append_assoc]

/-- Such edits can be left out. -/
theorem splice_filter_changes :
    (edits : List Edit) → ∀ {pos : Nat}, Span.InLine source.length pos (edits.map span) →
      splice source pos (edits.filter (changes source)) = splice source pos edits
  | [], _, _ => rfl
  | e :: rest, pos, hline => by
      have ih := splice_filter_changes rest hline.2
      have hle := e.span.start_le_stop
      by_cases hchange : changes source e = true
      · rw [List.filter_cons_of_pos hchange]
        unfold splice
        rw [ih]
      · -- the copy runs through the span and finds the text there
        have htext := text_of_not_changes hchange
        have hrest : ∀ f ∈ rest.filter (changes source), e.span.stop ≤ f.span.start :=
          fun f hf => hline.2.le_start f.span (List.mem_map_of_mem (List.mem_of_mem_filter hf))
        rw [List.filter_cons_of_neg hchange,
          splice_eq_append (hline.1) (fun f hf => hle.trans (hrest f hf)),
          splice_eq_append hle hrest, ih]
        conv_rhs => unfold splice
        rw [htext, List.append_assoc]
        rfl

/-- They do not shift anything either. -/
theorem shift_filter_changes {edits : List Edit} (h : ∀ e ∈ edits, e.span.stop ≤ source.length)
    (pos : Nat) :
    shift ((edits.filter (changes source)).map fix) pos = shift (edits.map fix) pos := by
  induction edits with
  | nil => rfl
  | cons e rest ih =>
      have ih := ih fun f hf => h f (List.mem_cons_of_mem _ hf)
      by_cases hchange : changes source e = true
      · rw [List.filter_cons_of_pos hchange]
        simp only [List.map_cons, shift]
        rw [ih]
      · have hlength : e.text.length = e.span.length := by
          rw [← String.length_toList, text_of_not_changes hchange,
            Span.length_chars (h e List.mem_cons_self)]
        rw [List.filter_cons_of_neg hchange, ih]
        simp only [List.map_cons, shift]
        rw [growth_fix, hlength]
        simp

/-! ## Edits in any order -/

/-- Edits of spans that are not empty, within a text of `n` characters and disjoint. -/
structure Apart (n : Nat) (edits : List Edit) : Prop where
  nonempty : ∀ e ∈ edits, e.span.start < e.span.stop
  within : ∀ e ∈ edits, e.span.stop ≤ n
  disjoint : edits.Pairwise fun e f => e.span.stop ≤ f.span.start ∨ f.span.stop ≤ e.span.start

section arrange

variable {n : Nat} {edits : List Edit}

/-- Arranging is a permutation. -/
theorem arrange_perm (edits : List Edit) : (arrange edits).Perm edits :=
  List.mergeSort_perm _ _

/-- The order in which edits are arranged is transitive. -/
theorem start_le_trans (a b c : Edit) (hab : decide (a.span.start ≤ b.span.start) = true)
    (hbc : decide (b.span.start ≤ c.span.start) = true) :
    decide (a.span.start ≤ c.span.start) = true := by
  rw [decide_eq_true_eq] at hab hbc ⊢
  exact hab.trans hbc

/-- It is total, as starts are compared only. -/
theorem start_le_total (a b : Edit) :
    (decide (a.span.start ≤ b.span.start) || decide (b.span.start ≤ a.span.start)) = true := by
  rw [Bool.or_eq_true, decide_eq_true_eq, decide_eq_true_eq]
  exact Nat.le_total _ _

/-- Arranged edits begin in order. -/
theorem arrange_sorted (edits : List Edit) :
    (arrange edits).Pairwise fun e f => e.span.start ≤ f.span.start := by
  simpa [arrange] using List.pairwise_mergeSort start_le_trans start_le_total edits

/-- Edits that are apart stay so if some are left out. -/
theorem Apart.filter (h : Apart n edits) (p : Edit → Bool) : Apart n (edits.filter p) where
  nonempty e he := h.nonempty e (List.mem_of_mem_filter he)
  within e he := h.within e (List.mem_of_mem_filter he)
  disjoint := h.disjoint.filter p

/-- They stay so in any order. -/
theorem Apart.perm {edits' : List Edit} (h : Apart n edits) (hp : edits.Perm edits') :
    Apart n edits' where
  nonempty e he := h.nonempty e (hp.mem_iff.mpr he)
  within e he := h.within e (hp.mem_iff.mpr he)
  disjoint := (hp.pairwise_iff fun h => h.symm).mp h.disjoint

/-- Arranged edits end before the next ones start. -/
theorem Apart.arranged (h : Apart n edits) :
    (arrange edits).Pairwise fun e f => e.span.stop ≤ f.span.start := by
  have happart := h.perm (arrange_perm edits).symm
  refine ((arrange_sorted edits).and happart.disjoint).imp_of_mem fun {e f} _ hf hef => ?_
  have := happart.nonempty f hf
  obtain ⟨hstart, hapart⟩ := hef
  omega

/-- Edits of which each ends before all later ones begin are in line. -/
theorem inLine_of_pairwise :
    (edits : List Edit) → ∀ {pos : Nat}, edits.Pairwise (fun e f => e.span.stop ≤ f.span.start) →
      (∀ e ∈ edits, e.span.stop ≤ n) → pos ≤ n → (∀ e ∈ edits, pos ≤ e.span.start) →
      Span.InLine n pos (edits.map span)
  | [], _, _, _, hpos, _ => hpos
  | e :: rest, _, hpair, hwithin, _, hstart => by
      obtain ⟨hnext, hpair⟩ := List.pairwise_cons.mp hpair
      exact ⟨hstart e List.mem_cons_self, inLine_of_pairwise rest hpair
        (fun f hf => hwithin f (List.mem_cons_of_mem _ hf)) (hwithin e List.mem_cons_self) hnext⟩

/-- Edits that are apart are in line once they are arranged. -/
theorem Apart.inLine (h : Apart n edits) : Span.InLine n 0 ((arrange edits).map span) :=
  inLine_of_pairwise _ h.arranged (fun e he => h.within e ((arrange_perm edits).mem_iff.mp he))
    (Nat.zero_le _) (fun _ _ => Nat.zero_le _)

/-- Arranging and selecting can be exchanged: there is one arrangement only. -/
theorem Apart.arrange_filter (h : Apart n edits) (p : Edit → Bool) :
    arrange (edits.filter p) = (arrange edits).filter p := by
  refine List.Perm.eq_of_pairwise ?_ (h.filter p).arranged (h.arranged.filter p)
    ((arrange_perm _).trans ((arrange_perm edits).filter p).symm)
  intro e f he hf hef hfe
  have hmem : e ∈ edits := List.mem_of_mem_filter ((arrange_perm _).mem_iff.mp he)
  have := h.nonempty e hmem
  have := f.span.start_le_stop
  omega

/-- Edits in line do not clash. -/
theorem clash?_eq_none :
    (edits : List Edit) → edits.Pairwise (fun e f => e.span.stop ≤ f.span.start) →
      clash? edits = none
  | [], _ => rfl
  | [_], _ => rfl
  | e :: f :: rest, h => by
      obtain ⟨hnext, hrest⟩ := List.pairwise_cons.mp h
      have hno : e.span.overlaps f.span = false :=
        Span.overlaps_eq_false_iff.mpr (.inl (hnext f List.mem_cons_self))
      unfold clash?
      rw [hno]
      exact clash?_eq_none (f :: rest) hrest

/-- Edits within the source are told from their fixes. -/
theorem ofFixes_map_fix :
    (edits : List Edit) → (∀ e ∈ edits, e.span.stop ≤ n) → ofFixes n (edits.map fix) = .ok edits
  | [], _ => rfl
  | e :: rest, h => by
      have hone : ofFix n e.fix = .ok e := by
        have := h e List.mem_cons_self
        unfold ofFix fix
        simp only
        rw [if_neg (by omega)]
      rw [List.map_cons]
      unfold ofFixes
      rw [hone, ofFixes_map_fix rest fun f hf => h f (List.mem_cons_of_mem _ hf)]

end arrange

end Edit

open Edit in
/-- **Fixes in any order.** Of edits of disjoint spans, in any order, those that change the text are
carried out without a fault. Then each edit's text, of those and of the others, stands at its span
relocated by these fixes, and the text outside the spans is as it was. -/
theorem applyFixes_changed {source : String} {edits : List Edit} (h : Apart source.length edits)
    (limits : Limits) :
    let fixes := (edits.filter (changes source.toList)).map Edit.fix
    ∃ out, applyFixes limits source fixes = .ok out ∧
      (∀ e ∈ edits, 0 ≤ e.span.start + shift fixes e.span.start) ∧
      (∀ e ∈ edits, (e.span.relocate fixes e.text).covered out = e.text) ∧
      outside (edits.map fun e => e.span.relocate fixes e.text) out
        = outside (edits.map Edit.span) source := by
  intro fixes
  have hlength : source.toList.length = source.length := String.length_toList
  have hline : Span.InLine source.toList.length 0 ((arrange edits).map span) := by
    rw [hlength]
    exact h.inLine
  have hperm := arrange_perm edits
  let out := splice source.toList 0 (arrange edits)
  have happly : carryOut source fixes = .ok (String.ofList out) := by
    have hchanged := h.filter (changes source.toList)
    unfold carryOut
    rw [ofFixes_map_fix _ hchanged.within]
    dsimp only
    rw [clash?_eq_none _ hchanged.arranged, h.arrange_filter, splice_filter_changes _ hline]
  -- the relocated spans of the statement are the landings of the arranged edits
  have hshift : ∀ pos, shift fixes pos = shift ((arrange edits).map fix) pos := by
    intro pos
    rw [shift_filter_changes (fun e he => hlength ▸ h.within e he)]
    exact shift_perm (hperm.symm.map fix) pos
  obtain ⟨hlandings, hnonneg⟩ := landings_eq_relocate (arrange edits) [] hline
    (fun e he => h.nonempty e (hperm.mem_iff.mp he)) (fun _ he => (nomatch he)) rfl
  have hmoved : ∀ e : Edit, e.span.relocate (([] ++ arrange edits).map fix) e.text
      = e.span.relocate fixes e.text := by
    intro e
    simp only [Span.relocate, hshift, List.nil_append]
  simp only [List.nil_append, ← hshift] at hnonneg
  simp only [hmoved] at hlandings
  obtain ⟨hout, hgaps, htexts⟩ := landings_spec (arrange edits) [] hline
  simp only [List.nil_append, List.length_nil, hlandings] at hout hgaps htexts
  refine ⟨String.ofList out, Fault.raise_eq_ok_iff.mpr happly,
    fun e he => hnonneg e (hperm.mem_iff.mpr he), ?_, ?_⟩
  · intro e he
    rw [List.forall₂_map_right_iff, List.forall₂_same] at htexts
    unfold Span.covered
    rw [String.toList_ofList, htexts e (hperm.mem_iff.mpr he), String.ofList_toList]
  · rw [outside_perm (hperm.symm.map _), outside_eq_gaps hout, hgaps,
      outside_perm (hperm.symm.map Edit.span)]
    rw [← outside_eq_gaps hline, String.ofList_toList]

end AttributeLint

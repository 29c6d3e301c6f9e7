/-!
# Sorted texts

Texts in ascending order by code point, which is the order of every sorted list in the output. A
set of texts is kept as its sorted list without repetitions, so equal sets are equal lists.
-/

namespace AttributeLint.Text

/-- Texts in ascending order, repetitions kept. -/
def sorted (texts : List String) : List String :=
  texts.mergeSort fun a b => decide (a ≤ b)

/-- Inserts a text into a sorted list without repetitions. -/
def insert (s : String) : List String → List String
  | [] => [s]
  | t :: rest => if s < t then s :: t :: rest else if s = t then t :: rest else t :: insert s rest

/-- The members of a list, sorted and without repetitions. -/
def distinct (texts : List String) : List String :=
  texts.foldr insert []

/-- Inserting adds one member. -/
theorem mem_insert {s t : String} (texts : List String) :
    t ∈ insert s texts ↔ t = s ∨ t ∈ texts := by
  induction texts with
  | nil => simp [insert]
  | cons u rest ih =>
    unfold insert
    split
    · simp
    · split
      · rename_i h
        simp [h]
      · simp only [List.mem_cons, ih]
        exact or_left_comm

/-- The step: a new member takes its place in the order, and a member is not added again. -/
theorem pairwise_insert (s : String) {texts : List String} (h : texts.Pairwise (· < ·)) :
    (insert s texts).Pairwise (· < ·) := by
  induction texts with
  | nil => exact List.pairwise_singleton _ s
  | cons t rest ih =>
    obtain ⟨ht, hrest⟩ := List.pairwise_cons.mp h
    unfold insert
    split
    · rename_i hbefore
      refine List.pairwise_cons.mpr ⟨fun u hu => ?_, h⟩
      rcases List.mem_cons.mp hu with rfl | hu
      · exact hbefore
      · exact String.lt_trans hbefore (ht u hu)
    · split
      · exact h
      · rename_i hbefore hsame
        refine List.pairwise_cons.mpr ⟨fun u hu => ?_, ih hrest⟩
        rcases (mem_insert rest).mp hu with rfl | hu
        · exact Std.lt_of_le_of_ne (String.not_lt.mp hbefore) (Ne.symm hsame)
        · exact ht u hu

/-- The run: a set is listed in ascending order, each member once. -/
theorem pairwise_distinct (texts : List String) : (distinct texts).Pairwise (· < ·) := by
  induction texts with
  | nil => exact .nil
  | cons s rest ih => exact pairwise_insert s ih

end AttributeLint.Text

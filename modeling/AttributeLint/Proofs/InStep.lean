import Mathlib.Data.List.Forall2

/-!
# Lists in step

A list that is worked through item by item, up to the first failure, is in step with the list of its
results. What holds of the lists as a whole is said of their members here.

* `exists_forall₂_iff`: a list has partners in step exactly if each of its members has one.
* `exists_of_mem_right`: what is a partner is the partner of a member.
* `mapM_eq_ok_iff`: the results of a traversal are in step with what it goes through.
* `forall_ok_or_first_error`, `mapM_of_first_error`: a traversal that does not go through ends with
  the fault of the first that fails.
-/

namespace AttributeLint

variable {α β ε : Type} {R : α → β → Prop}

/-- Every member has a partner exactly if the whole list has partners in order. -/
theorem exists_forall₂_iff :
    (xs : List α) → ((∃ ys, List.Forall₂ R xs ys) ↔ ∀ x ∈ xs, ∃ y, R x y)
  | [] => by simp
  | x :: rest => by
      rw [List.forall_mem_cons, ← exists_forall₂_iff rest]
      simp only [List.forall₂_cons_left_iff]
      constructor
      · rintro ⟨-, y, ys, hy, hys, rfl⟩
        exact ⟨⟨y, hy⟩, ys, hys⟩
      · rintro ⟨⟨y, hy⟩, ys, hys⟩
        exact ⟨_, y, ys, hy, hys, rfl⟩

/-- A partner is the partner of a member. -/
theorem exists_of_mem_right {xs : List α} {ys : List β} (h : List.Forall₂ R xs ys) {y : β}
    (hy : y ∈ ys) : ∃ x ∈ xs, R x y := by
  induction h with
  | nil => cases hy
  | cons hR _ ih =>
    rcases List.mem_cons.mp hy with rfl | hy
    · exact ⟨_, List.mem_cons_self, hR⟩
    · obtain ⟨x, hx, hxy⟩ := ih hy
      exact ⟨x, List.mem_cons_of_mem _ hx, hxy⟩

/-- A traversal succeeds with the results of its members, in order. -/
theorem mapM_eq_ok_iff {g : α → Except ε β} {xs : List α} {ys : List β} :
    xs.mapM g = .ok ys ↔ List.Forall₂ (fun x y => g x = .ok y) xs ys := by
  induction xs generalizing ys with
  | nil => simp [pure, Except.pure, eq_comm]
  | cons x rest ih =>
    rw [List.mapM_cons, List.forall₂_cons_left_iff]
    simp only [← ih]
    rcases g x with e | y
    · simp [bind, Except.bind]
    · rcases rest.mapM g with e | more
      · simp [bind, Except.bind]
      · simp [bind, Except.bind, pure, Except.pure, eq_comm]

/-- A traversal of which nothing fails has all results. -/
theorem mapM_of_forall_ok {g : α → Except ε β} {k : α → β} {xs : List α}
    (h : ∀ x ∈ xs, g x = .ok (k x)) : xs.mapM g = .ok (xs.map k) := by
  rw [mapM_eq_ok_iff, List.forall₂_map_right_iff, List.forall₂_same]
  exact h

/-- It ends with the fault of the first that fails. -/
theorem mapM_of_first_error {g : α → Except ε β} {front : List α} {x : α}
    {f : ε} (hfront : ∀ y ∈ front, ∃ b, g y = .ok b) (hx : g x = .error f) (back : List α) :
    (front ++ x :: back).mapM g = .error f := by
  induction front with
  | nil =>
      rw [List.nil_append, List.mapM_cons, hx]
      rfl
  | cons y rest ih =>
      rw [List.forall_mem_cons] at hfront
      obtain ⟨b, hy⟩ := hfront.1
      rw [List.cons_append, List.mapM_cons, hy, ih hfront.2]
      rfl

/-- Either everything succeeds, or something is the first that does not. -/
theorem forall_ok_or_first_error (g : α → Except ε β) (xs : List α) :
    (∀ x ∈ xs, ∃ b, g x = .ok b) ∨
      ∃ front x back f, xs = front ++ x :: back ∧ (∀ y ∈ front, ∃ b, g y = .ok b) ∧
        g x = .error f := by
  induction xs with
  | nil => exact .inl (by simp)
  | cons x rest ih =>
      rcases hx : g x with f | b
      · exact .inr ⟨[], x, rest, f, rfl, by simp, hx⟩
      · rcases ih with hall | ⟨front, y, back, f, rfl, hfront, hy⟩
        · exact .inl (List.forall_mem_cons.mpr ⟨⟨b, hx⟩, hall⟩)
        · exact .inr ⟨x :: front, y, back, f, rfl, List.forall_mem_cons.mpr ⟨⟨b, hx⟩, hfront⟩, hy⟩

/-- A traversal may change its results one by one or at the end. -/
theorem mapM_map {γ : Type} (g : α → Except ε β) (k : β → γ) (xs : List α) :
    xs.mapM (fun x => (g x).map k) = (xs.mapM g).map (List.map k) := by
  induction xs with
  | nil => rfl
  | cons x rest ih =>
      rw [List.mapM_cons, List.mapM_cons, ih]
      rcases g x with f | b
      · rfl
      · rcases rest.mapM g with f | bs <;> rfl

end AttributeLint

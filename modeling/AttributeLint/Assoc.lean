/-!
# Association lists in insertion order

Keyed data whose order shows in the output: the fields of an object, the entries of a vocabulary,
the statistics of a run. A key occurs once; writing it again keeps its place and replaces its
value. Reading is `List.lookup`. A list of names without values is kept in the same way.
-/

namespace AttributeLint.Assoc

variable {κ : Type} {α : Type} [BEq κ]

/-- Writes `v` under `k`: in place if the key is there, at the end otherwise. -/
def put (k : κ) (v : α) : List (κ × α) → List (κ × α)
  | [] => [(k, v)]
  | (k', v') :: rest => if k == k' then (k', v) :: rest else (k', v') :: put k v rest

/-- Writes the pairs of a list one after the other, so the last value of a key wins and its first
place stays. -/
def ofList (pairs : List (κ × α)) : List (κ × α) :=
  pairs.foldl (fun acc p => put p.1 p.2 acc) []

/-- A key that is not there comes at the end. -/
theorem put_of_not_mem [LawfulBEq κ] {k : κ} (v : α) {pairs : List (κ × α)}
    (h : k ∉ pairs.map Prod.fst) : put k v pairs = pairs ++ [(k, v)] := by
  induction pairs with
  | nil => rfl
  | cons q rest ih =>
    obtain ⟨hne, hrest⟩ : k ≠ q.1 ∧ k ∉ rest.map Prod.fst := by simpa using h
    unfold put
    rw [if_neg (by simpa using hne), ih hrest, List.cons_append]

/-- A key that is there keeps its place. -/
theorem keys_put_of_mem [LawfulBEq κ] {k : κ} (v : α) {pairs : List (κ × α)}
    (h : k ∈ pairs.map Prod.fst) : (put k v pairs).map Prod.fst = pairs.map Prod.fst := by
  induction pairs with
  | nil => cases h
  | cons q rest ih =>
    unfold put
    by_cases hk : k = q.1
    · rw [if_pos (by simpa using hk), List.map_cons, List.map_cons]
    · have hrest : k ∈ rest.map Prod.fst := by simpa [hk] using h
      rw [if_neg (by simpa using hk), List.map_cons, List.map_cons, ih hrest]

/-- After a write there is what was written and what was there. -/
theorem mem_put [LawfulBEq κ] {k : κ} {v : α} {pairs : List (κ × α)} {p : κ × α}
    (h : p ∈ put k v pairs) : p = (k, v) ∨ p ∈ pairs := by
  induction pairs with
  | nil => exact .inl (List.mem_singleton.mp h)
  | cons q rest ih =>
    unfold put at h
    split at h
    · rename_i hk
      obtain rfl : k = q.1 := by simpa using hk
      exact (List.mem_cons.mp h).imp_right (List.mem_cons_of_mem _)
    · rcases List.mem_cons.mp h with rfl | h
      · exact .inr List.mem_cons_self
      · exact (ih h).imp_right (List.mem_cons_of_mem _)

/-- Writing under a key does not make it occur twice. -/
theorem nodup_put [LawfulBEq κ] (k : κ) (v : α) {pairs : List (κ × α)}
    (h : (pairs.map Prod.fst).Nodup) : ((put k v pairs).map Prod.fst).Nodup := by
  by_cases hmem : k ∈ pairs.map Prod.fst
  · rwa [keys_put_of_mem v hmem]
  · rw [put_of_not_mem v hmem, List.map_append, List.map_singleton, List.nodup_append]
    refine ⟨h, by simp, ?_⟩
    intro a ha b hb heq
    have hb : b = k := List.mem_singleton.mp hb
    exact hmem (hb ▸ heq ▸ ha)

/-- Is the key present? -/
def has (k : κ) (pairs : List (κ × α)) : Bool :=
  pairs.any fun p => k == p.1

end AttributeLint.Assoc

namespace AttributeLint

/-- Adds a name at the end, unless it is there. -/
def nameOnce (names : List String) (name : String) : List String :=
  if names.contains name then names else names ++ [name]

/-- A name is added to those that are there. -/
theorem mem_nameOnce {names : List String} {name n : String} :
    n ∈ nameOnce names name ↔ n ∈ names ∨ n = name := by
  unfold nameOnce
  split
  · rename_i h
    have h : name ∈ names := List.contains_iff_mem.mp h
    constructor
    · exact Or.inl
    · rintro (hn | rfl)
      · exact hn
      · exact h
  · simp

/-- A name still occurs once. -/
theorem nodup_nameOnce {names : List String} (h : names.Nodup) (name : String) :
    (nameOnce names name).Nodup := by
  unfold nameOnce
  split
  · exact h
  · rename_i hnew
    rw [List.nodup_append]
    refine ⟨h, by simp, ?_⟩
    intro a ha b hb hab
    rw [List.mem_singleton.mp hb] at hab
    exact hnew (List.contains_iff_mem.mpr (hab ▸ ha))

end AttributeLint

import AttributeLint.Proofs.Merging
import Mathlib.Algebra.Ring.Nat

/-!
# Results by checker

Results hold their diagnostics twice, all together and by checker, and name the checkers besides.
Runs and merges write the three each in its own way. They stay in step as long as no checker runs
twice in one run, and a registry sees to that.

* `Registry.Sound`: each checker is registered once and under its own name, after any
  registrations.
* `Runner.map_passes`: the passes of a run without a fault are the reports of its checkers.
* `Results.Grouped`: the three say the same.
* `Results.Grouped.addPass`, `Results.Grouped.merge`: what one pass and what a merge keep.
* **Groups** (`gathered_grouped`): results that are gathered from runs of all registered checkers
  are grouped, and the findings in the lines of their summary add up to its total.
-/

namespace AttributeLint

/-! ## Registries -/

namespace Registry

/-- Each checker is registered once, under its own name. -/
structure Sound (r : Registry) : Prop where
  nodup : (r.map Prod.fst).Nodup
  named : ∀ p ∈ r, p.2.name = p.1

/-- Registering a checker keeps names distinct, as one of that name gives way. -/
theorem Sound.register {r : Registry} (h : r.Sound) (c : Checker) : (r.register c).Sound where
  nodup := by
    unfold Registry.register
    exact Assoc.nodup_put _ _ h.nodup
  named := by
    intro p hp
    rcases Assoc.mem_put hp with rfl | hp
    · rfl
    · exact h.named p hp

/-- Any registrations, one after the other. -/
theorem Sound.foldl_register (cs : List Checker) {r : Registry} (h : r.Sound) :
    (cs.foldl Registry.register r).Sound := by
  induction cs generalizing r with
  | nil => exact h
  | cons c rest ih => exact ih (h.register c)

/-- A registry made of any checkers is sound. -/
theorem sound_ofCheckers (cs : List Checker) : (ofCheckers cs).Sound :=
  Sound.foldl_register cs ⟨List.nodup_nil, fun _ hp => absurd hp List.not_mem_nil⟩

/-- The checkers of a sound registry have different names. -/
theorem Sound.nodup_names {r : Registry} (h : r.Sound) : (r.checkers.map Checker.name).Nodup := by
  have hnames : r.checkers.map Checker.name = r.map Prod.fst := by
    unfold checkers
    rw [List.map_map]
    exact List.map_congr_left h.named
  rw [hnames]
  exact h.nodup

end Registry

/-! ## Passes -/

/-- What a checker reports of what it is shown. -/
def Checker.reported (c : Checker) (scope : Scope) : List Diagnostic :=
  report scope (c.diagnose { evidence := (c.survey scope []).evidence })

/-- **What one pass can do**: fail as the survey does, or report. The counts that it starts from do
not show in the report. -/
theorem Checker.pass_cases (c : Checker) (scope : Scope) (counts : Counts) :
    (∃ f, (c.survey scope []).fault = some f ∧ c.pass scope counts = .error f) ∨
      ((c.survey scope []).fault = none ∧ ∃ p, c.pass scope counts = .ok p ∧ p.checker = c.name ∧
        p.diagnostics = c.reported scope) := by
  unfold pass collect
  dsimp only
  rw [c.survey_counts scope counts]
  rcases (c.survey scope []).fault with _ | f
  · exact .inr ⟨rfl, _, rfl, rfl, rfl⟩
  · exact .inl ⟨f, rfl, rfl⟩

/-- A run without a fault has a pass of each checker, in order, with its report. -/
theorem Runner.map_passes {scope : Scope} {clock : Clock} {counts : Counts} {cs : List Checker}
    {done : List Checker.Pass} (h : passes scope clock counts cs = (done, none)) :
    done.map (fun p => (p.checker, p.diagnostics))
      = cs.map fun c => (c.name, c.reported scope) := by
  induction cs generalizing clock counts done with
  | nil =>
    cases h
    rfl
  | cons c rest ih =>
    unfold passes at h
    rcases c.pass_cases scope counts with ⟨f, -, hpass⟩ | ⟨-, p, hpass, hname, hreported⟩
    · simp [hpass] at h
    · rcases hmore : passes scope (clock.advance 2) p.counts rest with ⟨more, fault⟩
      simp only [hpass, hmore, Prod.mk.injEq] at h
      obtain ⟨rfl, rfl⟩ := h
      rw [List.map_cons, List.map_cons, ih hmore, hname, hreported]

/-- If no checker faults, there is one pass for each, in order. -/
theorem Runner.map_checker_passes {scope : Scope} {clock : Clock} {counts : Counts}
    {cs : List Checker} {done : List Checker.Pass}
    (h : passes scope clock counts cs = (done, none)) :
    done.map Checker.Pass.checker = cs.map Checker.name := by
  simpa [Function.comp_def] using congrArg (List.map Prod.fst) (map_passes h)

/-! ## Groups -/

namespace Results

/-- The checkers are named once, each has its group and no other group is there, and the groups
together hold the diagnostics. -/
structure Grouped (r : Results) : Prop where
  nodup : r.checkers.Nodup
  keys : r.byChecker.map Prod.fst = r.checkers
  perm : r.diagnostics.Perm (r.byChecker.flatMap Prod.snd)

/-- Empty results are grouped. -/
theorem grouped_empty : ({} : Results).Grouped :=
  ⟨List.nodup_nil, rfl, .refl _⟩

/-- The pass of a checker that has not run yet adds a group at the end. -/
theorem Grouped.addPass {r : Results} (h : r.Grouped) {p : Checker.Pass}
    (hnew : p.checker ∉ r.checkers) : (r.addPass p).Grouped := by
  have hput : (r.addPass p).byChecker = r.byChecker ++ [(p.checker, p.diagnostics)] :=
    Assoc.put_of_not_mem p.diagnostics (h.keys.symm ▸ hnew)
  refine ⟨?_, ?_, ?_⟩
  · show (r.checkers ++ [p.checker]).Nodup
    simpa using h.nodup.concat hnew
  · rw [hput, List.map_append, h.keys]
    rfl
  · rw [hput, List.flatMap_append, List.flatMap_singleton]
    exact h.perm.append_right p.diagnostics

/-- Passes of checkers that are new keep results grouped. -/
theorem Grouped.foldl_addPass (done : List Checker.Pass) {r : Results} (h : r.Grouped)
    (hnew : (r.checkers ++ done.map Checker.Pass.checker).Nodup) :
    (done.foldl Results.addPass r).Grouped := by
  induction done generalizing r with
  | nil => exact h
  | cons p rest ih =>
    rw [List.map_cons, List.append_cons] at hnew
    have hfirst : p.checker ∉ r.checkers := by
      intro hmem
      have hdisjoint := (List.nodup_append.mp (List.nodup_append.mp hnew).1).2.2
      exact hdisjoint _ hmem _ (List.mem_singleton.mpr rfl) rfl
    exact ih (h.addPass hfirst) hnew

/-- Passes of checkers with different names, whatever they report. -/
theorem grouped_ofPasses {done : List Checker.Pass}
    (h : (done.map Checker.Pass.checker).Nodup) : (ofPasses done).Grouped :=
  grouped_empty.foldl_addPass done h

/-- A list under a key goes to the end of its group, or makes a group of its own. -/
theorem perm_accumulate {α : Type} (into : List (String × List α)) (p : String × List α) :
    ((accumulate (· ++ ·) into p).flatMap Prod.snd).Perm (into.flatMap Prod.snd ++ p.2) := by
  induction into with
  | nil => simp [accumulate]
  | cons q rest ih =>
    rw [accumulate_cons]
    by_cases hkey : p.1 = q.1
    · rw [if_pos hkey, List.flatMap_cons, List.flatMap_cons, List.append_assoc, List.append_assoc]
      exact List.perm_append_comm.append_left q.2
    · rw [if_neg hkey, List.flatMap_cons, List.flatMap_cons, List.append_assoc]
      exact ih.append_left q.2

/-- Groups that are put together have the members of both. -/
theorem perm_foldl_accumulate {α : Type} (pairs into : List (String × List α)) :
    ((pairs.foldl (accumulate (· ++ ·)) into).flatMap Prod.snd).Perm
      (into.flatMap Prod.snd ++ pairs.flatMap Prod.snd) := by
  induction pairs generalizing into with
  | nil => simp
  | cons p rest ih =>
    rw [List.foldl_cons, List.flatMap_cons, ← List.append_assoc]
    exact (ih _).trans ((perm_accumulate into p).append_right _)

/-- Merging keeps results grouped. -/
theorem Grouped.merge {a b : Results} (ha : a.Grouped) (hb : b.Grouped) : (a.merge b).Grouped where
  nodup := nodup_foldl_nameOnce b.checkers ha.nodup
  keys := by
    show (b.byChecker.foldl (accumulate (· ++ ·)) a.byChecker).map Prod.fst = _
    rw [keys_foldl_accumulate, ha.keys, hb.keys]
    rfl
  perm := (ha.perm.append hb.perm).trans (perm_foldl_accumulate b.byChecker a.byChecker).symm

/-! ## The summary -/

/-- The first line of a summary that speaks of so many diagnostics. -/
def headLine (r : Results) (total : Nat) : String :=
  "Checker run complete: " ++ toString total ++ " diagnostics (" ++ toString r.errorCount
    ++ " errors, " ++ toString r.warningCount ++ " warnings, " ++ toString r.fixableCount
    ++ " fixable)"

/-- The line of a checker with so many findings. -/
def findingsLine (r : Results) (name : String) (found : Nat) : String :=
  "  " ++ name ++ ": " ++ toString found ++ " findings ("
    ++ millis ((r.elapsed.lookup name).getD (Float.ofNat 0)) ++ ")"

/-- The line of a checker says how long its group is. -/
theorem Grouped.map_checkerLine {r : Results} (h : r.Grouped) :
    r.checkers.map r.checkerLine
      = List.zipWith r.findingsLine r.checkers (r.byChecker.map fun g => g.2.length) := by
  have hkeys : (r.byChecker.map Prod.fst).Nodup := h.keys.symm ▸ h.nodup
  rw [← h.keys, List.map_map, List.zipWith_map, List.zipWith_self]
  apply List.map_congr_left
  intro g hg
  show r.checkerLine g.1 = r.findingsLine g.1 g.2.length
  unfold checkerLine findingsLine
  rw [Assoc.lookup_of_mem hkeys hg]
  rfl

/-- The groups have as many members as there are diagnostics. -/
theorem Grouped.sum_length {r : Results} (h : r.Grouped) :
    (r.byChecker.map fun g => g.2.length).sum = r.total := by
  unfold total
  rw [h.perm.length_eq, List.length_flatMap]

/-- The summary tells the lengths of the groups and their sum. -/
theorem Grouped.summary_eq {r : Results} (h : r.Grouped) :
    r.summary = "\n".intercalate (r.headLine (r.byChecker.map fun g => g.2.length).sum ::
      List.zipWith r.findingsLine r.checkers (r.byChecker.map fun g => g.2.length)) := by
  rw [← h.map_checkerLine, h.sum_length]
  rfl

end Results

/-! ## Gathering -/

/-- Results that are merged, in any way, from empty ones and from runs of all the checkers of some
registry. Each run has a runner, a file and elements of its own. -/
inductive Gathered : Results → Prop where
  | empty : Gathered {}
  | run {cs : List Checker} {r : Runner} {elements : List Element} {file : String}
      {results : Results} (hreg : r.registry = .ofCheckers cs)
      (hrun : r.run ⟨elements, file, none⟩ = .ok results) : Gathered results
  | merge {a b : Results} (ha : Gathered a) (hb : Gathered b) : Gathered (a.merge b)

/-- The results of a run with all checkers are grouped. -/
theorem Runner.grouped_run {r : Runner} (hreg : r.registry.Sound) {elements : List Element}
    {file : String} {results : Results} (hrun : r.run ⟨elements, file, none⟩ = .ok results) :
    results.Grouped := by
  obtain ⟨done, hpasses, rfl⟩ := exists_passes_of_run hrun
  apply Results.grouped_ofPasses
  rw [map_checker_passes hpasses]
  exact hreg.nodup_names

/-- What is kept by each way of gathering. -/
theorem Gathered.grouped {r : Results} (h : Gathered r) : r.Grouped := by
  induction h with
  | empty => exact Results.grouped_empty
  | @run cs r _ _ _ hreg hrun =>
    have hsound : r.registry.Sound := hreg ▸ Registry.sound_ofCheckers cs
    exact r.grouped_run hsound hrun
  | merge _ _ ha hb => exact ha.merge hb

/-- **Groups.** Gather results, starting from empty ones, from any runs of all checkers of any
registries, however these were registered. Then no checker is named twice, the checkers named are
those that have a group, and the diagnostics are those of all groups. The summary has, behind its
first line, the line of each checker with the number of its findings, and these numbers add up to
the total in the first line. -/
theorem gathered_grouped {r : Results} (h : Gathered r) :
    r.checkers.Nodup ∧ r.byChecker.map Prod.fst = r.checkers ∧
      r.diagnostics.Perm (r.byChecker.flatMap Prod.snd) ∧
      ∃ found : List Nat, found = (r.byChecker.map fun g => g.2.length) ∧ found.sum = r.total ∧
        r.summary = "\n".intercalate
          (r.headLine found.sum :: List.zipWith r.findingsLine r.checkers found) := by
  have hgrouped := h.grouped
  exact ⟨hgrouped.nodup, hgrouped.keys, hgrouped.perm, _, rfl, hgrouped.sum_length,
    hgrouped.summary_eq⟩

/-- A registry in which the second checker called `a` takes the place of the first. -/
def twoNames : Registry :=
  .ofCheckers [.attributes "a" .error, .attributes "b" .error, .attributes "a" .warning]

/-- Runs over two registries, merged behind empty results: five findings of three checkers. -/
theorem gathered_grouped_two :
    ∃ v first second r, Declarations.few.build = .ok v ∧
      ({ registry := twoNames, vocabulary := v } : Runner).run ⟨[identified], "a.jsx", none⟩
        = .ok first ∧
      ({ vocabulary := v } : Runner).run ⟨[identified], "b.jsx", none⟩ = .ok second ∧
      r = ((({} : Results).merge first).merge second).merge first ∧
      r.checkers.Nodup ∧ r.checkers = ["a", "b", ruleName] ∧
      r.diagnostics.Perm (r.byChecker.flatMap Prod.snd) ∧
      r.summary = "\n".intercalate
        (r.headLine 5 :: List.zipWith r.findingsLine ["a", "b", ruleName] [2, 2, 1]) := by
  obtain ⟨v, first, second, hv, hfirst, hsecond, hnames, hfound⟩ :
      ∃ v first second, Declarations.few.build = .ok v ∧
        ({ registry := twoNames, vocabulary := v } : Runner).run ⟨[identified], "a.jsx", none⟩
          = .ok first ∧
        ({ vocabulary := v } : Runner).run ⟨[identified], "b.jsx", none⟩ = .ok second ∧
        (((({} : Results).merge first).merge second).merge first).checkers = ["a", "b", ruleName] ∧
        (((({} : Results).merge first).merge second).merge first).byChecker.map
          (fun g => g.2.length) = [2, 2, 1] :=
    ⟨_, _, _, rfl, rfl, rfl, rfl, rfl⟩
  obtain ⟨hnodup, -, hperm, _, rfl, -, hsummary⟩ := gathered_grouped
    (.merge (.merge (.merge .empty (.run rfl hfirst)) (.run rfl hsecond)) (.run rfl hfirst))
  rw [hfound, hnames] at hsummary
  exact ⟨v, first, second, _, hv, hfirst, hsecond, rfl, hnodup, hnames, hperm, hsummary⟩

end AttributeLint

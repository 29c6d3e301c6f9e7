import AttributeLint.Proofs.Grouping
import AttributeLint.Proofs.Pipeline
import Mathlib.Algebra.Order.BigOperators.Group.Finset

/-!
# Runs of selected checkers

A run takes a list of checker names. A name may be unknown, and it may be there more than once.
Every registered name in the list is one pass, and each pass adds its diagnostics to all
diagnostics, while it writes the group of its checker anew.

* `Checker.pass_cases`: what a checker reports depends on what it is shown alone, so two passes of
  one checker in a run report the same.
* `Runner.byChecker_run`, `Runner.diagnostics_run`: the groups of a run are the reports of the
  distinct names, and its diagnostics are the reports of all names, one after the other.
* **Selection** (`run_selected_total_iff`): there is one group for each distinct registered name.
  Each group counts in the total as often as its name is in the list, so the groups add up to the
  total exactly if every name that is repeated reports nothing.
-/

namespace AttributeLint

/-! ## Groups of repeated names -/

namespace Results

/-- A pass takes the place of an earlier one of the same checker. -/
theorem byChecker_foldl_addPass (done : List Checker.Pass) (r : Results) :
    (done.foldl addPass r).byChecker
      = (done.map fun p => (p.checker, p.diagnostics)).foldl
          (fun groups g => Assoc.put g.1 g.2 groups) r.byChecker := by
  induction done generalizing r with
  | nil => rfl
  | cons p rest ih => exact ih (r.addPass p)

/-- Writing under a key what is there already, or would be. -/
theorem put_map {α : Type} (f : String → α) (name : String) (seen : List String) :
    Assoc.put name (f name) (seen.map fun n => (n, f n))
      = (nameOnce seen name).map fun n => (n, f n) := by
  induction seen with
  | nil => rfl
  | cons first rest ih =>
    rw [List.map_cons]
    unfold Assoc.put
    by_cases hname : name = first
    · subst hname
      simp [nameOnce]
    · rw [if_neg (by simpa using hname), ih, nameOnce_cons hname, List.map_cons]

/-- Values that hang on their keys alone are written once for each key. -/
theorem foldl_put_map {α : Type} (f : String → α) (names seen : List String) :
    (names.map fun n => (n, f n)).foldl (fun groups g => Assoc.put g.1 g.2 groups)
        (seen.map fun n => (n, f n))
      = (names.foldl nameOnce seen).map fun n => (n, f n) := by
  induction names generalizing seen with
  | nil => rfl
  | cons name rest ih => rw [List.map_cons, List.foldl_cons, List.foldl_cons, put_map, ih]

/-- Lists of all names together, counted by distinct names. -/
theorem length_flatMap_nameOnce {α : Type} (names : List String) (f : String → List α) :
    (names.flatMap f).length
      = ((names.foldl nameOnce []).map fun n => names.count n * (f n).length).sum := by
  have hnodup : (names.foldl nameOnce []).Nodup := nodup_foldl_nameOnce names List.nodup_nil
  have hmembers : names.toFinset = (names.foldl nameOnce []).toFinset := by
    ext n
    simp [mem_foldl_nameOnce]
  rw [List.length_flatMap, Finset.sum_list_map_count, hmembers, List.sum_toFinset _ hnodup]
  simp only [Nat.nsmul_eq_mul]

end Results

/-! ## Selection by name -/

namespace Registry

/-- The names of a list that are registered. -/
def known (r : Registry) (names : List String) : List String :=
  names.filter fun n => (r.named? n).isSome

/-- What the checker with a name reports; nothing if there is none. -/
def reportedBy (r : Registry) (scope : Scope) (name : String) : List Diagnostic :=
  ((r.named? name).map fun c => c.reported scope).getD []

/-- A checker is found by a name exactly if that is registered. -/
theorem isSome_named?_iff (r : Registry) (name : String) :
    (r.named? name).isSome = true ↔ name ∈ r.map Prod.fst := by
  unfold named?
  rw [← Assoc.has_eq_isSome]
  unfold Assoc.has
  rw [List.any_eq_true, List.mem_map]
  exact exists_congr fun p => and_congr_right fun _ => by rw [beq_iff_eq, eq_comm]

/-- The known names are those that are listed and registered. -/
theorem mem_known {r : Registry} {names : List String} {name : String} :
    name ∈ r.known names ↔ name ∈ names ∧ name ∈ r.map Prod.fst := by
  unfold known
  rw [List.mem_filter, isSome_named?_iff]

/-- A known name is listed as often as it was. -/
theorem count_known {r : Registry} {names : List String} {name : String}
    (h : name ∈ r.known names) : (r.known names).count name = names.count name :=
  List.count_filter (List.mem_filter.mp h).2

/-- A checker that is found by a name has it. -/
theorem Sound.named?_name {r : Registry} (h : r.Sound) {name : String} {c : Checker}
    (hc : r.named? name = some c) : c.name = name :=
  h.named _ (Assoc.mem_of_lookup hc)

end Registry

namespace Runner

variable {r : Runner}

/-- The selected checkers are those of the known names, as often as these are listed. -/
theorem map_select (hsound : r.registry.Sound) (scope : Scope) (names : List String) :
    (r.select (some names)).map (fun c => (c.name, c.reported scope))
      = (r.registry.known names).map fun n => (n, r.registry.reportedBy scope n) := by
  show (names.filterMap r.registry.named?).map _ = _
  unfold Registry.known
  induction names with
  | nil => rfl
  | cons name rest ih =>
    rcases hname : r.registry.named? name with _ | c
    · rw [List.filterMap_cons_none hname, List.filter_cons_of_neg (by simp [hname])]
      exact ih
    · rw [List.filterMap_cons_some hname, List.filter_cons_of_pos (by simp [hname]), List.map_cons,
        List.map_cons, ih, hsound.named?_name hname]
      simp [Registry.reportedBy, hname]

/-- A run is without a fault exactly if all surveys are. -/
theorem passes_fault_iff (scope : Scope) (cs : List Checker) (clock : Clock) (counts : Counts) :
    (passes scope clock counts cs).2 = none ↔ ∀ c ∈ cs, (c.survey scope []).fault = none := by
  induction cs generalizing clock counts with
  | nil => simp [passes]
  | cons c rest ih =>
    unfold passes
    rw [List.forall_mem_cons]
    rcases c.pass_cases scope counts with ⟨f, hfault, hpass⟩ | ⟨hfault, p, hpass, -, -⟩
    · simp [hpass, hfault]
    · simp [hpass, hfault, ih (clock.advance 2) p.counts]

/-- A run has results exactly if no selected checker faults. -/
theorem exists_run_iff (r : Runner) (q : Request) :
    (∃ results, r.run q = .ok results) ↔
      ∀ c ∈ r.select q.checkers, (c.survey (r.scope q) []).fault = none := by
  rw [← passes_fault_iff (r.scope q) (r.select q.checkers) r.clock []]
  constructor
  · rintro ⟨results, h⟩
    obtain ⟨done, hpasses, -⟩ := exists_passes_of_run h
    exact congrArg Prod.snd hpasses
  · intro h
    exact ⟨_, run_of_passesOf (Prod.ext rfl h)⟩

section run

variable {elements : List Element} {file : String} {names : List String} {results : Results}

/-- The groups of a run: a repeated name writes the same report again. -/
theorem byChecker_run (hsound : r.registry.Sound)
    (h : r.run ⟨elements, file, some names⟩ = .ok results) :
    results.byChecker = ((r.registry.known names).foldl nameOnce []).map
      fun n => (n, r.registry.reportedBy (r.scope ⟨elements, file, some names⟩) n) := by
  obtain ⟨done, hpasses, rfl⟩ := exists_passes_of_run h
  show (done.foldl Results.addPass {}).byChecker = _
  rw [Results.byChecker_foldl_addPass, map_passes hpasses, map_select hsound]
  exact Results.foldl_put_map _ _ []

/-- The diagnostics of a run: a repeated name adds the same report again. -/
theorem diagnostics_run (hsound : r.registry.Sound)
    (h : r.run ⟨elements, file, some names⟩ = .ok results) :
    results.diagnostics = (r.registry.known names).flatMap
      (r.registry.reportedBy (r.scope ⟨elements, file, some names⟩)) := by
  obtain ⟨done, hpasses, rfl⟩ := exists_passes_of_run h
  have hpairs := (map_passes hpasses).trans (map_select hsound _ names)
  have hflat := congrArg (List.flatMap Prod.snd) hpairs
  rw [Results.diagnostics_ofPasses]
  simpa only [List.flatMap_map] using hflat

/-- The groups are those of the known names. -/
theorem mem_byChecker_run (hsound : r.registry.Sound)
    (h : r.run ⟨elements, file, some names⟩ = .ok results) (n : String) :
    n ∈ results.byChecker.map Prod.fst ↔ n ∈ names ∧ n ∈ r.registry.map Prod.fst := by
  rw [byChecker_run hsound h, ← Registry.mem_known]
  simp [Function.comp_def, Results.mem_foldl_nameOnce]

/-- Each of them has one group. -/
theorem nodup_byChecker_run (hsound : r.registry.Sound)
    (h : r.run ⟨elements, file, some names⟩ = .ok results) :
    (results.byChecker.map Prod.fst).Nodup := by
  have hnodup := Results.nodup_foldl_nameOnce (r.registry.known names) List.nodup_nil
  rw [byChecker_run hsound h, List.map_map]
  simpa [Function.comp_def] using hnodup

/-- Each group counts in the total as often as its name is given. -/
theorem total_run (hsound : r.registry.Sound)
    (h : r.run ⟨elements, file, some names⟩ = .ok results) :
    results.total = (results.byChecker.map fun g => names.count g.1 * g.2.length).sum := by
  unfold Results.total
  rw [diagnostics_run hsound h, Results.length_flatMap_nameOnce, byChecker_run hsound h,
    List.map_map]
  refine congrArg List.sum (List.map_congr_left fun n hn => ?_)
  have hknown : n ∈ r.registry.known names := by
    simpa using (Results.mem_foldl_nameOnce _ _).mp hn
  rw [Function.comp_apply, Registry.count_known hknown]

end run

end Runner

/-! ## The total -/

/-- Factors of at least one leave a sum as it is only if they are one wherever there is something to
multiply. -/
theorem sum_mul_eq_sum_iff {α : Type} (xs : List α) (times size : α → Nat)
    (hpos : ∀ x ∈ xs, 0 < times x) :
    (xs.map fun x => times x * size x).sum = (xs.map size).sum ↔
      ∀ x ∈ xs, 1 < times x → size x = 0 := by
  induction xs with
  | nil => simp
  | cons x rest ih =>
    obtain ⟨hx, hrest⟩ := List.forall_mem_cons.mp hpos
    have hle : size x ≤ times x * size x := Nat.le_mul_of_pos_left _ hx
    have hsum : (rest.map size).sum ≤ (rest.map fun y => times y * size y).sum :=
      List.sum_le_sum fun y hy => Nat.le_mul_of_pos_left _ (hrest y hy)
    have hterm : times x * size x = size x ↔ (1 < times x → size x = 0) := by
      rcases Nat.eq_zero_or_pos (size x) with hsize | hsize
      · simp [hsize]
      · rw [Nat.mul_eq_right hsize.ne']
        omega
    rw [List.forall_mem_cons, ← ih hrest, ← hterm, List.map_cons, List.map_cons, List.sum_cons,
      List.sum_cons]
    omega

/-- **Selection.** Let a runner have any registered checkers, and run those that a list names, with
unknown names and repetitions. There are results exactly if no survey of a selected checker ends
early. There is then one group for each distinct registered name of the list. Each group counts in
the total as often as its name is in the list. So the groups add up to the total exactly if the
checkers that are named more than once report nothing. -/
theorem run_selected_total_iff {cs : List Checker} {r : Runner} (hreg : r.registry = .ofCheckers cs)
    (names : List String) (elements : List Element) (file : String) :
    ((∃ results, r.run ⟨elements, file, some names⟩ = .ok results) ↔
      ∀ c ∈ r.select (some names),
        (c.survey (r.scope ⟨elements, file, some names⟩) []).fault = none) ∧
    ∀ results, r.run ⟨elements, file, some names⟩ = .ok results →
      (results.byChecker.map Prod.fst).Nodup ∧
      (∀ n, n ∈ results.byChecker.map Prod.fst ↔ n ∈ names ∧ n ∈ r.registry.map Prod.fst) ∧
      results.total = (results.byChecker.map fun g => names.count g.1 * g.2.length).sum ∧
      (results.total = (results.byChecker.map fun g => g.2.length).sum ↔
        ∀ g ∈ results.byChecker, 1 < names.count g.1 → g.2 = []) := by
  refine ⟨r.exists_run_iff ⟨elements, file, some names⟩, ?_⟩
  intro results hrun
  have hsound : r.registry.Sound := hreg ▸ Registry.sound_ofCheckers cs
  have hmem := Runner.mem_byChecker_run hsound hrun
  have htotal := Runner.total_run hsound hrun
  have hpos : ∀ g ∈ results.byChecker, 0 < names.count g.1 := by
    intro g hg
    exact List.count_pos_iff.mpr ((hmem g.1).mp (List.mem_map_of_mem hg)).1
  refine ⟨Runner.nodup_byChecker_run hsound hrun, hmem, htotal, ?_⟩
  rw [htotal, sum_mul_eq_sum_iff _ _ _ hpos]
  simp only [List.length_eq_zero_iff]

/-- Two checkers that find one thing each. One of them is named twice, and a third name is unknown:
three diagnostics, two of them in groups. With each name given once the groups add up. -/
theorem run_selected_total_iff_repeated :
    ∃ v repeated once, Declarations.few.build = .ok v ∧
      ({ registry := twoNames, vocabulary := v } : Runner).run
        ⟨[identified], "a.jsx", some ["a", "nope", "b", "a"]⟩ = .ok repeated ∧
      ({ registry := twoNames, vocabulary := v } : Runner).run
        ⟨[identified], "a.jsx", some ["b", "nope", "a"]⟩ = .ok once ∧
      repeated.byChecker.map Prod.fst = ["a", "b"] ∧ repeated.total = 3 ∧
      repeated.total ≠ (repeated.byChecker.map fun g => g.2.length).sum ∧
      once.total = (once.byChecker.map fun g => g.2.length).sum := by
  obtain ⟨v, repeated, once, hv, hrepeated, honce, hkeys, hcounted, hlengths, hkeys'⟩ :
      ∃ v repeated once, Declarations.few.build = .ok v ∧
        ({ registry := twoNames, vocabulary := v } : Runner).run
          ⟨[identified], "a.jsx", some ["a", "nope", "b", "a"]⟩ = .ok repeated ∧
        ({ registry := twoNames, vocabulary := v } : Runner).run
          ⟨[identified], "a.jsx", some ["b", "nope", "a"]⟩ = .ok once ∧
        repeated.byChecker.map Prod.fst = ["a", "b"] ∧
        repeated.byChecker.map (fun g => ["a", "nope", "b", "a"].count g.1 * g.2.length) = [2, 1] ∧
        repeated.byChecker.map (fun g => g.2.length) = [1, 1] ∧
        once.byChecker.map Prod.fst = ["b", "a"] :=
    ⟨_, _, _, rfl, rfl, rfl, rfl, rfl, rfl, rfl⟩
  obtain ⟨-, -, htotal, -⟩ := (run_selected_total_iff rfl _ _ _).2 repeated hrepeated
  obtain ⟨-, -, -, hiff⟩ := (run_selected_total_iff rfl _ _ _).2 once honce
  rw [hcounted] at htotal
  refine ⟨v, repeated, once, hv, hrepeated, honce, hkeys, htotal, ?_, hiff.mpr ?_⟩
  · rw [htotal, hlengths]
    decide
  · -- no name is given twice
    intro g hg hmany
    have hname : g.1 ∈ ["b", "a"] := hkeys' ▸ List.mem_map_of_mem hg
    have hall : ∀ n ∈ ["b", "a"], ["b", "nope", "a"].count n = 1 := by decide
    rw [hall g.1 hname] at hmany
    cases Nat.lt_irrefl 1 hmany

end AttributeLint

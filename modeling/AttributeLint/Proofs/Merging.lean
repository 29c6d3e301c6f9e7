import AttributeLint.Proofs.Survey

/-!
# Merging results

Results are merged field by field, and each field has its own way: lists are appended, the lists and
counts under a key are combined, a checker is named once. Elapsed times are doubles, whose sums hang
on the order of the summands, so results are compared with all times set to zero (`untimed`).

* `Results.merge_assoc`: merging is associative, as long as the results in the middle have every key
  once.
* `Runner.run_append`: a run over two lists of elements is the merge of two runs.
* `Runner.runFiles_append`: the same for files, whatever the checkers are.
* **Batches** (`merged_batches`): runs over consecutive parts, merged in any bracketing, give what
  one run over all of them gives. If a part has a fault, so has the whole, and it is the first one.
-/

namespace AttributeLint

open Declarations

namespace Results

/-! ## Naming once -/

/-- A name that is not the first is looked for in the rest. -/
theorem nameOnce_cons {name first : String} (h : name ≠ first) (names : List String) :
    nameOnce (first :: names) name = first :: nameOnce names name := by
  unfold nameOnce
  by_cases hname : name ∈ names
  · simp [hname]
  · simp [h, hname]

/-- The names are those that were there and those that were added. -/
theorem mem_foldl_nameOnce {n : String} (more names : List String) :
    n ∈ more.foldl nameOnce names ↔ n ∈ names ∨ n ∈ more := by
  induction more generalizing names with
  | nil => simp
  | cons name rest ih => rw [List.foldl_cons, ih, mem_nameOnce, List.mem_cons, or_assoc]

/-- Adding names leaves them distinct. -/
theorem nodup_foldl_nameOnce (more : List String) {names : List String} (h : names.Nodup) :
    (more.foldl nameOnce names).Nodup := by
  induction more generalizing names with
  | nil => exact h
  | cons name rest ih => exact ih (nodup_nameOnce h name)

/-- Adding one more name before or after the others is the same. -/
theorem foldl_nameOnce (into names : List String) (name : String) :
    (nameOnce names name).foldl nameOnce into = nameOnce (names.foldl nameOnce into) name := by
  by_cases h : name ∈ names
  · have hthere : name ∈ names.foldl nameOnce into := (mem_foldl_nameOnce names into).mpr (.inr h)
    simp [nameOnce, h, hthere]
  · have hnew : nameOnce names name = names ++ [name] := by simp [nameOnce, h]
    rw [hnew, List.foldl_append]
    rfl

/-- Adding names is associative. -/
theorem foldl_nameOnce_assoc (first second third : List String) :
    third.foldl nameOnce (second.foldl nameOnce first)
      = (third.foldl nameOnce second).foldl nameOnce first := by
  induction third generalizing second with
  | nil => rfl
  | cons name rest ih => rw [List.foldl_cons, List.foldl_cons, ← ih, foldl_nameOnce]

/-! ## Combining under keys -/

/-- Keys are named once, like checkers. -/
theorem keys_put {α : Type} (k : String) (v : α) (pairs : List (String × α)) :
    (Assoc.put k v pairs).map Prod.fst = nameOnce (pairs.map Prod.fst) k := by
  unfold nameOnce
  by_cases h : k ∈ pairs.map Prod.fst
  · rw [Assoc.keys_put_of_mem v h, if_pos (List.contains_iff_mem.mpr h)]
  · rw [Assoc.put_of_not_mem v h, if_neg (by rwa [List.contains_iff_mem]), List.map_append,
      List.map_singleton]

section accumulate

variable {α : Type} (combine : α → α → α)

/-- A pair is combined with the first entry of its key, or goes on to the rest. -/
theorem accumulate_cons (k : String) (v : α) (rest : List (String × α)) (p : String × α) :
    accumulate combine ((k, v) :: rest) p
      = if p.1 = k then (k, combine v p.2) :: rest else (k, v) :: accumulate combine rest p := by
  unfold accumulate
  rw [List.lookup_cons]
  by_cases h : p.1 = k
  · simp [h, Assoc.put]
  · rw [beq_false_of_ne h, if_neg h]
    cases rest.lookup p.1 <;> simp [Assoc.put, h]

/-- The keys are extended by that of the pair. -/
theorem keys_accumulate (into : List (String × α)) (p : String × α) :
    (accumulate combine into p).map Prod.fst = nameOnce (into.map Prod.fst) p.1 := by
  induction into with
  | nil => rfl
  | cons q rest ih =>
    rw [accumulate_cons]
    by_cases h : p.1 = q.1
    · simp [h, nameOnce]
    · rw [if_neg h, List.map_cons, ih, List.map_cons, nameOnce_cons h]

/-- The keys are extended by those of the pairs. -/
theorem keys_foldl_accumulate (pairs into : List (String × α)) :
    (pairs.foldl (accumulate combine) into).map Prod.fst
      = (pairs.map Prod.fst).foldl nameOnce (into.map Prod.fst) := by
  induction pairs generalizing into with
  | nil => rfl
  | cons p rest ih => rw [List.foldl_cons, ih, keys_accumulate, List.map_cons, List.foldl_cons]

variable {combine}

/-- Two values under one key, one after the other, are their combination. -/
theorem accumulate_accumulate (hassoc : ∀ x y z, combine (combine x y) z = combine x (combine y z))
    (into : List (String × α)) (k : String) (v v' : α) :
    accumulate combine (accumulate combine into (k, v)) (k, v')
      = accumulate combine into (k, combine v v') := by
  induction into with
  | nil => simp [accumulate, Assoc.put]
  | cons q rest ih =>
    obtain ⟨k₁, v₁⟩ := q
    by_cases h : k = k₁
    · subst h
      simp [accumulate_cons, hassoc]
    · simp [accumulate_cons, h, ih]

/-- A value under a key that is there can wait for one under another key. -/
theorem accumulate_comm {into : List (String × α)} {k k' : String} (hk : k ∈ into.map Prod.fst)
    (hne : k ≠ k') (v v' : α) :
    accumulate combine (accumulate combine into (k, v)) (k', v')
      = accumulate combine (accumulate combine into (k', v')) (k, v) := by
  induction into with
  | nil => simp at hk
  | cons q rest ih =>
    obtain ⟨k₁, v₁⟩ := q
    by_cases h : k = k₁
    · subst h
      simp [accumulate_cons, hne.symm]
    · have hrest : k ∈ rest.map Prod.fst := by simpa [h] using hk
      by_cases h' : k' = k₁
      · subst h'
        simp [accumulate_cons, hne]
      · simp [accumulate_cons, h, h', ih hrest]

/-- A pair whose key is there already may be added before or after pairs with other keys. -/
theorem foldl_accumulate_comm {k : String} (pairs : List (String × α))
    (hnew : k ∉ pairs.map Prod.fst) {into : List (String × α)} (hk : k ∈ into.map Prod.fst)
    (v : α) :
    pairs.foldl (accumulate combine) (accumulate combine into (k, v))
      = accumulate combine (pairs.foldl (accumulate combine) into) (k, v) := by
  induction pairs generalizing into with
  | nil => rfl
  | cons p rest ih =>
    obtain ⟨hne, hrest⟩ : k ≠ p.1 ∧ k ∉ rest.map Prod.fst := by simpa using hnew
    have hstays : k ∈ (accumulate combine into p).map Prod.fst := by
      rw [keys_accumulate, mem_nameOnce]
      exact .inl hk
    rw [List.foldl_cons, List.foldl_cons, accumulate_comm hk hne, ih hrest hstays]

/-- What is combined under its key first and then passed on could have been passed on at the end. -/
theorem foldl_accumulate (hassoc : ∀ x y z, combine (combine x y) z = combine x (combine y z))
    (into : List (String × α)) {pairs : List (String × α)} (h : (pairs.map Prod.fst).Nodup)
    (p : String × α) :
    (accumulate combine pairs p).foldl (accumulate combine) into
      = accumulate combine (pairs.foldl (accumulate combine) into) p := by
  induction pairs generalizing into with
  | nil => rfl
  | cons q rest ih =>
    obtain ⟨hq, hrest⟩ : q.1 ∉ rest.map Prod.fst ∧ (rest.map Prod.fst).Nodup := by
      simpa using h
    rw [accumulate_cons]
    by_cases hp : p.1 = q.1
    · -- the later value is behind the others in the list, and none of them has its key
      obtain ⟨k, v⟩ := p
      obtain rfl : k = q.1 := hp
      have hthere : q.1 ∈ (accumulate combine into q).map Prod.fst := by
        rw [keys_accumulate, mem_nameOnce]
        exact .inr rfl
      rw [if_pos rfl, List.foldl_cons, List.foldl_cons, ← foldl_accumulate_comm rest hq hthere,
        accumulate_accumulate hassoc]
    · rw [if_neg hp, List.foldl_cons, List.foldl_cons, ih _ hrest]

/-- Adding pairs is associative if combining is. -/
theorem foldl_accumulate_assoc (hassoc : ∀ x y z, combine (combine x y) z = combine x (combine y z))
    (first : List (String × α)) {second : List (String × α)} (h : (second.map Prod.fst).Nodup)
    (third : List (String × α)) :
    third.foldl (accumulate combine) (second.foldl (accumulate combine) first)
      = (third.foldl (accumulate combine) second).foldl (accumulate combine) first := by
  induction third generalizing second with
  | nil => rfl
  | cons p rest ih =>
    have hnext : ((accumulate combine second p).map Prod.fst).Nodup := by
      rw [keys_accumulate]
      exact nodup_nameOnce h p.1
    rw [List.foldl_cons, List.foldl_cons, ← ih hnext, foldl_accumulate hassoc first h]

end accumulate

/-! ## Results without times -/

/-- The results with every time set to zero. -/
def untimed (r : Results) : Results :=
  { r with elapsed := r.elapsed.map fun p => (p.1, Float.ofNat 0) }

/-- Results are the same up to times exactly if all else is the same. -/
theorem untimed_eq_iff {a b : Results} : a.untimed = b.untimed ↔
    a.diagnostics = b.diagnostics ∧ a.byChecker = b.byChecker ∧ a.counts = b.counts ∧
      a.elapsed.map Prod.fst = b.elapsed.map Prod.fst ∧ a.checkers = b.checkers := by
  have hkeys : (a.elapsed.map fun p => (p.1, Float.ofNat 0))
      = (b.elapsed.map fun p => (p.1, Float.ofNat 0)) ↔
      a.elapsed.map Prod.fst = b.elapsed.map Prod.fst := by
    constructor
    · intro h
      simpa [Function.comp_def] using congrArg (List.map Prod.fst) h
    · intro h
      simpa [Function.comp_def] using congrArg (List.map fun k => (k, Float.ofNat 0)) h
  simp only [untimed, Results.mk.injEq, hkeys]

/-- Merging respects sameness up to times. -/
theorem untimed_merge_congr {a a' b b' : Results} (ha : a.untimed = a'.untimed)
    (hb : b.untimed = b'.untimed) : (a.merge b).untimed = (a'.merge b').untimed := by
  obtain ⟨hdiagnostics, hbyChecker, hcounts, helapsed, hcheckers⟩ := untimed_eq_iff.mp ha
  obtain ⟨hdiagnostics', hbyChecker', hcounts', helapsed', hcheckers'⟩ := untimed_eq_iff.mp hb
  refine untimed_eq_iff.mpr ⟨?_, ?_, ?_, ?_, ?_⟩
  · simp only [merge, hdiagnostics, hdiagnostics']
  · simp only [merge, hbyChecker, hbyChecker']
  · simp only [merge, hcounts, hcounts']
  · simp only [merge, keys_foldl_accumulate, helapsed, helapsed']
  · simp only [merge, hcheckers, hcheckers']

/-- Every key stands for one list or count. -/
structure Keyed (r : Results) : Prop where
  byChecker : (r.byChecker.map Prod.fst).Nodup
  counts : (r.counts.map Prod.fst).Nodup

/-- Empty results name each checker once. -/
theorem keyed_empty : ({} : Results).Keyed :=
  ⟨List.nodup_nil, List.nodup_nil⟩

/-- Merging keeps it so. -/
theorem Keyed.merge {a : Results} (h : a.Keyed) (b : Results) : (a.merge b).Keyed where
  byChecker := by
    simpa only [Results.merge, keys_foldl_accumulate] using nodup_foldl_nameOnce _ h.byChecker
  counts := by
    simpa only [Results.merge, keys_foldl_accumulate] using nodup_foldl_nameOnce _ h.counts

/-- Merging empty results changes nothing. -/
theorem merge_empty (a : Results) : a.merge {} = a := by
  simp [merge]

/-- **Merging is associative.** -/
theorem merge_assoc (a : Results) {b : Results} (hb : b.Keyed) (c : Results) :
    ((a.merge b).merge c).untimed = (a.merge (b.merge c)).untimed := by
  refine untimed_eq_iff.mpr ⟨?_, ?_, ?_, ?_, ?_⟩
  · exact List.append_assoc _ _ _
  · exact foldl_accumulate_assoc List.append_assoc _ hb.byChecker _
  · exact foldl_accumulate_assoc Nat.add_assoc _ hb.counts _
  · simp only [merge, keys_foldl_accumulate]
    exact foldl_nameOnce_assoc _ _ _
  · exact foldl_nameOnce_assoc _ _ _

/-! ## Merging what runs give -/

/-- Merges what two runs give, in order; the first fault counts. -/
def mergeRuns (a b : Except Fault Results) : Except Fault Results := do
  return (← a).merge (← b)

/-- So does merging a run without results. -/
theorem mergeRuns_empty (a : Except Fault Results) : mergeRuns a (.ok {}) = a := by
  rcases a with f | a
  · rfl
  · exact congrArg Except.ok (merge_empty a)

/-- Two runs give the same, times aside: the same fault, or results that differ in times only. -/
def Agree (a b : Except Fault Results) : Prop :=
  a.map untimed = b.map untimed

/-- Two successful runs agree if their results are the same up to times. -/
theorem agree_ok_iff {a b : Results} :
    Agree (.ok a) (.ok b) ↔ a.untimed = b.untimed :=
  ⟨Except.ok.inj, congrArg _⟩

theorem Agree.refl (a : Except Fault Results) : Agree a a := rfl

theorem Agree.symm {a b : Except Fault Results} (h : Agree a b) : Agree b a := Eq.symm h

theorem Agree.trans {a b c : Except Fault Results} (h : Agree a b) (h' : Agree b c) : Agree a c :=
  Eq.trans h h'

/-- Merging respects agreement. -/
theorem Agree.mergeRuns {a a' b b' : Except Fault Results} (ha : Agree a a') (hb : Agree b b') :
    Agree (mergeRuns a b) (mergeRuns a' b') := by
  rcases a with f | x <;> rcases a' with f' | x' <;> try cases ha
  · rfl
  · rcases b with g | y <;> rcases b' with g' | y' <;> try cases hb
    · rfl
    · exact agree_ok_iff.mpr (untimed_merge_congr (agree_ok_iff.mp ha) (agree_ok_iff.mp hb))

/-- Merging runs is associative up to times. -/
theorem agree_mergeRuns_assoc {a b : Results} (hb : b.Keyed) (c : Except Fault Results) :
    Agree (mergeRuns (.ok (a.merge b)) c) (mergeRuns (.ok a) (mergeRuns (.ok b) c)) := by
  rcases c with f | c
  · rfl
  · exact agree_ok_iff.mpr (merge_assoc a hb c)

/-! ## The clock -/

/-- Passes that differ in times only add up to results that do. -/
theorem untimed_foldl_addPass {done done' : List Checker.Pass}
    (h : List.Forall₂ (fun p p' => p' = { p with elapsed := p'.elapsed }) done done')
    {r r' : Results} (hr : r.untimed = r'.untimed) :
    (done.foldl addPass r).untimed = (done'.foldl addPass r').untimed := by
  induction h generalizing r r' with
  | nil => exact hr
  | @cons p p' _ _ hp _ ih =>
    apply ih
    obtain ⟨hdiagnostics, hbyChecker, -, helapsed, hcheckers⟩ := untimed_eq_iff.mp hr
    rw [hp]
    refine untimed_eq_iff.mpr ⟨?_, ?_, rfl, ?_, ?_⟩
    · simp only [addPass, hdiagnostics]
    · simp only [addPass, hbyChecker]
    · simp only [addPass, keys_put, helapsed]
    · simp only [addPass, hcheckers]

end Results

namespace Runner

open Results

/-- A clock times the checkers and has no other effect on them. -/
theorem exists_passes_clock (scope : Scope) (cs : List Checker) (clock clock' : Clock)
    (counts : Counts) :
    ∃ done done' fault, passes scope clock counts cs = (done, fault) ∧
      passes scope clock' counts cs = (done', fault) ∧
      List.Forall₂ (fun p p' => p' = { p with elapsed := p'.elapsed }) done done' := by
  induction cs generalizing clock clock' counts with
  | nil => exact ⟨[], [], none, rfl, rfl, .nil⟩
  | cons c rest ih =>
    unfold passes
    rcases c.pass scope counts with f | p
    · exact ⟨[], [], some f, rfl, rfl, .nil⟩
    · obtain ⟨done, done', fault, hdone, hdone', hall⟩ :=
        ih (clock.advance 2) (clock'.advance 2) p.counts
      simp only [hdone, hdone']
      exact ⟨_, _, fault, rfl, rfl, .cons rfl hall⟩

/-- The clock has an influence on times only. -/
theorem run_clock (r : Runner) (clock : Clock) (q : Request) :
    Agree (({ r with clock := clock } : Runner).run q) (r.run q) := by
  obtain ⟨done, done', fault, hdone, hdone', hall⟩ :=
    exists_passes_clock (r.scope q) (r.select q.checkers) clock r.clock []
  have hrun : ({ r with clock := clock } : Runner).passesOf q = (done, fault) := hdone
  have hrun' : r.passesOf q = (done', fault) := hdone'
  unfold run
  rw [hrun, hrun']
  rcases fault with _ | f
  · exact agree_ok_iff.mpr (untimed_foldl_addPass hall rfl)
  · rfl

/-! ## Runs over files -/

/-- The first file is run, and the rest after it, merged into what was there. -/
theorem runFiles_cons (r : Runner) (checkers : Option (List String)) (c : Results) (f : FileDump)
    (rest : List FileDump) :
    r.runFiles checkers c (f :: rest) = (r.run (requestFor checkers f)).bind fun x =>
      (r.afterReadings (r.readings (requestFor checkers f))).runFiles checkers (c.merge x)
        rest := by
  rw [runFiles]
  rcases r.run (requestFor checkers f) with g | x <;> rfl

/-- A run over files respects sameness up to times, whatever the clock. -/
theorem runFiles_congr (checkers : Option (List String)) (files : List FileDump) (r : Runner)
    (clock : Clock) {c c' : Results} (hc : c.untimed = c'.untimed) :
    Agree (({ r with clock := clock } : Runner).runFiles checkers c files)
      (r.runFiles checkers c' files) := by
  induction files generalizing r clock c c' with
  | nil => exact agree_ok_iff.mpr hc
  | cons f rest ih =>
    have hrun := run_clock r clock (requestFor checkers f)
    rw [runFiles_cons, runFiles_cons]
    rcases hx : ({ r with clock := clock } : Runner).run (requestFor checkers f) with g | x <;>
      rcases hx' : r.run (requestFor checkers f) with g' | x' <;> rw [hx, hx'] at hrun
    · exact hrun
    · cases hrun
    · cases hrun
    · exact ih (r.afterReadings _) _ (untimed_merge_congr hc (agree_ok_iff.mp hrun))

/-- What came before is merged in front of what the files give by themselves. -/
theorem runFiles_eq_mergeRuns (checkers : Option (List String)) (files : List FileDump) (r : Runner)
    (c : Results) :
    Agree (r.runFiles checkers c files) (mergeRuns (.ok c) (r.runFiles checkers {} files)) := by
  induction files generalizing r c with
  | nil => exact agree_ok_iff.mpr (congrArg untimed (merge_empty c).symm)
  | cons f rest ih =>
    rw [runFiles_cons, runFiles_cons]
    rcases r.run (requestFor checkers f) with g | x
    · rfl
    · have hkeyed : (({} : Results).merge x).Keyed := keyed_empty.merge x
      -- `x` can be merged into what came before, or first into nothing
      have hfirst : (c.merge x).untimed = (c.merge (({} : Results).merge x)).untimed := by
        rw [← merge_assoc c keyed_empty x, merge_empty]
      refine (ih _ (c.merge x)).trans ?_
      refine ((agree_ok_iff.mpr hfirst).mergeRuns (.refl _)).trans ?_
      exact (agree_mergeRuns_assoc hkeyed _).trans ((Agree.refl _).mergeRuns (ih _ _).symm)

/-- **Files.** A run over two lists of files is the merge of two runs. -/
theorem runFiles_append (checkers : Option (List String)) (files more : List FileDump) (r : Runner)
    (c : Results) :
    Agree (r.runFiles checkers c (files ++ more))
      (mergeRuns (r.runFiles checkers c files) (r.runFiles checkers {} more)) := by
  induction files generalizing r c with
  | nil => exact runFiles_eq_mergeRuns checkers more r c
  | cons f rest ih =>
    rw [List.cons_append, runFiles_cons, runFiles_cons]
    rcases r.run (requestFor checkers f) with g | x
    · rfl
    · exact (ih _ _).trans ((Agree.refl _).mergeRuns (runFiles_congr checkers more r _ rfl))

end Runner

/-! ## Runs over elements -/

/-- A survey that goes on where another one ended, unless that one ended early. -/
def Survey.andThen (s t : Survey) : Survey :=
  match s.fault with
  | some _ => s
  | none => ⟨s.evidence ++ t.evidence, s.skipped + t.skipped, t.fault⟩

/-- A survey of two lists of elements is one after the other. -/
theorem surveyAttributes_append (o : Options) (v : Vocabulary) (elements more : List Element) :
    surveyAttributes o v (elements ++ more)
      = (surveyAttributes o v elements).andThen (surveyAttributes o v more) := by
  induction elements with
  | nil => simp [surveyAttributes, Survey.andThen]
  | cons e rest ih =>
    rw [List.cons_append, surveyAttributes, surveyAttributes, ih]
    rcases surveyAttributes o v rest with ⟨evidence, skipped, fault⟩
    split_ifs
    · -- a component is counted on either side of the cut
      rcases fault with _ | f
      · simp [Survey.andThen, Nat.add_right_comm]
      · rfl
    · rcases e.verdicts o v with f | judged
      · rfl
      · rcases fault with _ | f
        · simp [Survey.andThen]
        · rfl

namespace Runner

open Results

/-- What the standard checker reports of a survey. -/
def ofSurvey (r : Runner) (s : Survey) : Except Fault Results :=
  match s.fault with
  | some f => .error f
  | none =>
      let reported := r.suppressions.filter (s.evidence.filterMap Checker.standard.diagnosis)
      .ok { diagnostics := reported
            byChecker := [(ruleName, reported)]
            counts := standardCounts s.skipped s.evidence.length
            elapsed := [(ruleName, r.clock.lap)]
            checkers := [ruleName] }

/-- A run with the standard checkers is one survey. -/
theorem run_standard {r : Runner} (hreg : r.registry = .standard) (elements : List Element)
    (file : String) :
    r.run ⟨elements, file, none⟩
      = r.ofSurvey (surveyAttributes r.options r.vocabulary elements) := by
  have hselect : r.select none = [Checker.standard] := by
    unfold select
    rw [hreg]
    rfl
  have hsurvey : Checker.standard.survey (r.scope ⟨elements, file, none⟩) []
      = surveyAttributes r.options r.vocabulary elements := rfl
  unfold run passesOf
  rw [hselect]
  unfold passes Checker.pass Checker.collect
  rw [hsurvey]
  rcases surveyAttributes r.options r.vocabulary elements with ⟨evidence, skipped, fault⟩
  rcases fault with _ | f
  · have hcounts : Checker.setCounts [] (standardCounts skipped evidence.length)
        = standardCounts skipped evidence.length := by
      simp [Checker.setCounts, standardCounts, Assoc.put, ruleName]
    have hset : Checker.standard.counts (r.scope ⟨elements, file, none⟩) ⟨evidence, skipped, none⟩
        evidence.length = standardCounts skipped evidence.length := rfl
    simp only [List.nil_append, hset, hcounts]
    rfl
  · rfl

/-- The results of one survey after another are those of both, merged. -/
theorem ofSurvey_andThen (r : Runner) (s t : Survey) :
    Agree (r.ofSurvey (s.andThen t)) (mergeRuns (r.ofSurvey s) (r.ofSurvey t)) := by
  rcases s with ⟨evidence, skipped, fault⟩
  rcases t with ⟨evidence', skipped', fault'⟩
  rcases fault with _ | f
  · rcases fault' with _ | f'
    · refine agree_ok_iff.mpr (untimed_eq_iff.mpr ⟨?_, ?_, ?_, ?_, ?_⟩)
      · simp [Survey.andThen, Results.merge, Suppressions.filter]
      · simp [Survey.andThen, Results.merge, Suppressions.filter, accumulate, Assoc.put]
      · simp [Survey.andThen, Results.merge, standardCounts, accumulate, Assoc.put, ruleName,
          List.lookup_cons]
      · simp [Results.merge, accumulate, Assoc.put]
      · simp [Results.merge, nameOnce]
    · rfl
  · rfl

/-- **Elements.** A run over two lists of elements is the merge of two runs. -/
theorem run_append {r : Runner} (hreg : r.registry = .standard) (elements more : List Element)
    (file : String) :
    Agree (r.run ⟨elements ++ more, file, none⟩)
      (mergeRuns (r.run ⟨elements, file, none⟩) (r.run ⟨more, file, none⟩)) := by
  rw [run_standard hreg, run_standard hreg, run_standard hreg, surveyAttributes_append]
  exact r.ofSurvey_andThen _ _

/-- The standard checker leaves one list and two counts, so nothing is lost in front of it. -/
theorem mergeRuns_empty_run {r : Runner} (hreg : r.registry = .standard) (elements : List Element)
    (file : String) :
    Agree (mergeRuns (.ok {}) (r.run ⟨elements, file, none⟩)) (r.run ⟨elements, file, none⟩) := by
  rw [run_standard hreg]
  rcases surveyAttributes r.options r.vocabulary elements with ⟨evidence, skipped, fault⟩
  rcases fault with _ | f
  · refine agree_ok_iff.mpr (untimed_eq_iff.mpr ⟨rfl, rfl, ?_, rfl, rfl⟩)
    simp [Results.merge, standardCounts, accumulate, ruleName, List.lookup_cons]
  · rfl

end Runner

/-! ## Bracketings -/

/-- A way of bracketing parts, with empty results anywhere. -/
inductive Bracketing (α : Type) where
  | nothing
  | part (a : α)
  | join (first second : Bracketing α)

namespace Bracketing

variable {α : Type}

/-- The parts, in order. -/
def parts : Bracketing α → List α
  | nothing => []
  | part a => [a]
  | join first second => first.parts ++ second.parts

/-- Runs every part, in order, and merges what they give as bracketed. -/
def merged (run : α → Except Fault Results) : Bracketing α → Except Fault Results
  | nothing => .ok {}
  | part a => run a
  | join first second => Results.mergeRuns (first.merged run) (second.merged run)

/-- A run that takes parts in a row to the merge of their runs does not mind the bracketing. -/
theorem merged_agrees {run : α → Except Fault Results} (whole : List α → Except Fault Results)
    (hnil : Results.Agree (.ok {}) (whole [])) (hone : ∀ a, Results.Agree (run a) (whole [a]))
    (happend : ∀ xs ys, Results.Agree (whole (xs ++ ys)) (Results.mergeRuns (whole xs) (whole ys)))
    (t : Bracketing α) : Results.Agree (t.merged run) (whole t.parts) := by
  induction t with
  | nothing => exact hnil
  | part a => exact hone a
  | join first second ih ih' => exact (ih.mergeRuns ih').trans (happend _ _).symm

end Bracketing

namespace Runner

open Results

/-- One run over all batches; without a batch there is no run. -/
def runBatches (r : Runner) (file : String) :
    List (Clock × List Element) → Except Fault Results
  | [] => .ok {}
  | batches => r.run ⟨batches.flatMap Prod.snd, file, none⟩

/-- Batches in two parts may be run part by part. -/
theorem runBatches_append {r : Runner} (hreg : r.registry = .standard) (file : String)
    (xs ys : List (Clock × List Element)) :
    Agree (r.runBatches file (xs ++ ys))
      (mergeRuns (r.runBatches file xs) (r.runBatches file ys)) := by
  rcases xs with _ | ⟨x, xs⟩
  · rcases ys with _ | ⟨y, ys⟩
    · rfl
    · exact (mergeRuns_empty_run hreg _ file).symm
  · rcases ys with _ | ⟨y, ys⟩
    · rw [List.append_nil]
      exact congrArg _ (mergeRuns_empty _).symm
    · show Agree (r.run ⟨((x :: xs) ++ (y :: ys)).flatMap Prod.snd, file, none⟩) _
      rw [List.flatMap_append]
      exact run_append hreg _ _ file

end Runner

/-- **Batches.** With the standard checkers, and any options, suppressions and vocabulary, cut the
elements of a file into batches, run each on its own, at any time, and merge the results in order,
bracketed in any way and with empty results anywhere. That agrees with one run over all elements, on
the fault if there is one, and else on the diagnostics, by checker and all together, the counts and
the names of the checkers. With any checkers, the same holds of the files of a dump. -/
theorem merged_batches (r : Runner) :
    (r.registry = .standard →
      ∀ (file : String) (t : Bracketing (Clock × List Element)), t.parts ≠ [] →
        Results.Agree (t.merged fun b => ({ r with clock := b.1 } : Runner).run ⟨b.2, file, none⟩)
          (r.run ⟨t.parts.flatMap Prod.snd, file, none⟩)) ∧
    ∀ (checkers : Option (List String)) (t : Bracketing (Clock × List FileDump)),
      Results.Agree (t.merged fun b => ({ r with clock := b.1 } : Runner).runDump ⟨b.2⟩ checkers)
        (r.runDump ⟨t.parts.flatMap Prod.snd⟩ checkers) := by
  constructor
  · intro hreg file t hparts
    have hone : ∀ b : Clock × List Element,
        Results.Agree (({ r with clock := b.1 } : Runner).run ⟨b.2, file, none⟩)
          (r.runBatches file [b]) := by
      intro b
      simpa [Runner.runBatches] using r.run_clock b.1 ⟨b.2, file, none⟩
    have hall := Bracketing.merged_agrees (r.runBatches file) (.refl _) hone
      (Runner.runBatches_append hreg file) t
    rcases hbatches : t.parts with _ | ⟨b, rest⟩
    · exact absurd hbatches hparts
    · rw [hbatches] at hall
      exact hall
  · intro checkers t
    refine Bracketing.merged_agrees
      (fun batches : List (Clock × List FileDump) => r.runDump ⟨batches.flatMap Prod.snd⟩ checkers)
      (.refl _) (fun b => ?_) (fun xs ys => ?_) t
    · simpa [Runner.runDump] using r.runFiles_congr checkers b.2 b.1 (c := {}) rfl
    · rw [List.flatMap_append]
      exact r.runFiles_append checkers _ _ {}

/-- Two batches and an empty one between them, bracketed to the left behind empty results. -/
def cut : Bracketing (Clock × List Element) :=
  .join (.join (.join .nothing (.part (⟨3, 1⟩, [identified]))) (.part ({}, [])))
    (.part ({}, [identified]))

/-- Cut into batches or not, the two elements have two diagnostics. -/
theorem merged_batches_cut :
    ∃ v, few.build = .ok v ∧ cut.parts ≠ [] ∧ ∃ merged whole,
      (cut.merged fun b => ({ vocabulary := v, clock := b.1 } : Runner).run ⟨b.2, "a.jsx", none⟩)
        = .ok merged ∧
      ({ vocabulary := v } : Runner).run ⟨[identified, identified], "a.jsx", none⟩ = .ok whole ∧
      merged.untimed = whole.untimed ∧ merged.total = 2 := by
  obtain ⟨v, hv⟩ : ∃ v, few.build = .ok v := ⟨_, rfl⟩
  have hparts : cut.parts ≠ [] := by simp [cut, Bracketing.parts]
  have hwhole := Runner.run_of_build (r := { vocabulary := v }) rfl hv [identified, identified]
    "a.jsx"
  have hagree := (merged_batches { vocabulary := v }).1 rfl "a.jsx" cut hparts
  have hall : cut.parts.flatMap Prod.snd = [identified, identified] := rfl
  rw [hall, hwhole] at hagree
  rcases hmerged : cut.merged fun b =>
    ({ vocabulary := v, clock := b.1 } : Runner).run ⟨b.2, "a.jsx", none⟩ with f | merged
  · rw [hmerged] at hagree
    cases hagree
  · rw [hmerged] at hagree
    have hsame := Results.agree_ok_iff.mp hagree
    refine ⟨v, hv, hparts, merged, _, hmerged, hwhole, hsame, ?_⟩
    unfold Results.total
    rw [(Results.untimed_eq_iff.mp hsame).1]
    show (Suppressions.filter {} ([identified, identified].flatMap (few.findings {}))).length = 2
    decide

end AttributeLint

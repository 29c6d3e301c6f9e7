import AttributeLint.Proofs.FixedOutput
import AttributeLint.Proofs.JsonLines
import AttributeLint.Proofs.OptionValues
import AttributeLint.Proofs.PathPlacement
import Mathlib.Order.Bounds.Basic

/-!
# Runs over several dumps

A command that reports line by line does to several dumps what it does to each of them alone.

* `visible_runOn`: how such a command ends and what it writes, from what is found at each path.
* **Composition** (`run_paths`): if the command ends with an exit code on each path alone, then on
  all of them it ends with the largest of these codes. Below 2 it writes what it writes for each
  path, in order, and at 2 it writes nothing. The order of the paths does not matter to the code. A
  dump whose fault escapes breaks this: the first path that is not reported decides.
-/

namespace AttributeLint

namespace CommandLine

/-! ## What is seen of a run -/

/-- The line of a diagnostic, in one of the two formats that have lines. -/
def lineText (limits : Limits) (format : Format) (x : Diagnostic) : String :=
  (if format = .gcc then x.line limits else x.jsonLine limits).toOption.getD "" ++ "\n"

/-- What is seen of a run that finds diagnostics, or meets a fault. -/
def conclusion (limits : Limits) (format : Format) :
    Except Fault (List Diagnostic) → Ending × String
  | .error f => (faultEnding f, "")
  | .ok ds => (.exit (if ds.isEmpty then 0 else 1), String.join (ds.map (lineText limits format)))

/-- What is seen of a run over several things, from what is found in each. -/
def conclusions {α : Type} (limits : Limits) (format : Format)
    (g : α → Except Fault (List Diagnostic)) (xs : List α) : Ending × String :=
  conclusion limits format ((xs.mapM g).map List.flatten)

/-- The settings of a command that reports diagnostics line by line, and does nothing else. -/
structure Settings.Reports (s : Settings) (hidden : Suppressions) : Prop where
  format : s.output = .json ∨ s.output = .gcc
  unfixed : s.applyFixes = false
  undocumented : s.sarifOutput = none
  checking : s.listCheckers = false
  hidden : suppressions s = .ok hidden

/-! ## The output -/

/-- What is complete and can be written has its line. -/
theorem writeLines_of_exists {line : Diagnostic → Except Fault String} {ds : List Diagnostic}
    (h : ∀ x ∈ ds, ∃ text, line x = .ok text) :
    writeLines line ds
      = (String.join (ds.map fun x => (line x).toOption.getD "" ++ "\n"), none) := by
  refine writeLines_eq_none_iff.mpr ⟨ds.map fun x => (line x).toOption.getD "", ?_, ?_⟩
  · rw [List.forall₂_map_right_iff, List.forall₂_same]
    intro x hx
    obtain ⟨text, htext⟩ := h x hx
    rw [htext]
    rfl
  · rw [List.map_map]
    rfl

/-- Diagnostics that can all be written are written line by line. -/
theorem formattedText_of_complete {limits : Limits} {s : Settings}
    (hs : s.output = .json ∨ s.output = .gcc) {r : Results}
    (h : ∀ x ∈ r.diagnostics, x.Complete ∧ x.Writable limits) :
    formattedText limits s r
      = (String.join (r.diagnostics.map (lineText limits s.output)), none) := by
  unfold formattedText lineText
  rcases hs with hs | hs
  · rw [hs]
    exact writeLines_of_exists fun x hx => (h x hx).1.exists_jsonLine_iff.mpr (h x hx).2
  · rw [hs]
    exact writeLines_of_exists fun x hx =>
      (h x hx).1.exists_line_iff.mpr (Diagnostic.writable_iff.mp (h x hx).2).1

/-- Merged results have the diagnostics of all, in order. -/
theorem diagnostics_foldl_merge (checked : List (FileDump × Results)) (r : Results) :
    (checked.foldl (fun acc c => acc.merge c.2) r).diagnostics =
      r.diagnostics ++ (checked.map fun c => c.2.diagnostics).flatten := by
  induction checked generalizing r with
  | nil => simp
  | cons c rest ih =>
      rw [List.foldl_cons, ih, List.map_cons, List.flatten_cons, ← List.append_assoc]
      rfl

section reports

variable {s : Settings} {hidden : Suppressions} (hs : s.Reports hidden) (w : Surroundings)

include hs

/-- What is seen of a run in the end depends on the diagnostics only. -/
theorem visible_conclude (records : List Record) {checked : List (FileDump × Results)}
    {ds : List Diagnostic} (hds : (checked.map fun c => c.2.diagnostics).flatten = ds)
    (hall : ∀ x ∈ ds, x.Complete ∧ x.Writable w.limits) :
    (conclude s w records checked).visible = conclusion w.limits s.output (.ok ds) := by
  set results := checked.foldl (fun acc c => acc.merge c.2) ({} : Results) with hresults
  have hfound : results.diagnostics = ds := by
    rw [hresults, diagnostics_foldl_merge, hds]
    rfl
  have hshown : shown s w (checked.map Prod.fst) results =
      { text := String.join (ds.map (lineText w.limits s.output)) } := by
    have hformatted : shown s w (checked.map Prod.fst) results = formatted w.limits s results := by
      unfold shown
      rcases hs.format with hf | hf <;> rw [hf]
    rw [hformatted, formatted, formattedText_of_complete hs.format (hfound.symm ▸ hall), hfound]
    simp [besideOutput, hs.undocumented]
  unfold conclude
  rw [if_neg (by simp [hs.unfixed])]
  simp only [← hresults, hshown, Outcome.visible, conclusion, Results.total, hfound,
    List.isEmpty_iff, List.length_eq_zero_iff]

/-- The phases of a command that reports, together. -/
theorem visible_check (openFile : String → Dump.Opened) (o : Options) :
    (check s w openFile (.ofCommand o hidden w.clock)).visible =
      conclusion w.limits s.output ((s.dumps.mapM (loadAt w.limits openFile)).map fun dumps =>
        dumps.flatMap fun dump => dump.files.flatMap (reported o hidden)) := by
  have hmapM := loadAll_eq_mapM w.limits openFile s.dumps
  unfold check
  rw [← hmapM]
  rcases hloaded : loadAll w.limits openFile s.dumps with ⟨log, f | dumps⟩
  · exact visible_failure s log "" f
  · obtain ⟨records, checked, hrun, hchecked⟩ :=
      runAll_reported (r := .ofCommand o hidden w.clock) rfl
        (Runner.build_ofCommand o hidden w.clock) (dumps.flatMap Dump.files)
    have hds : (checked.map fun c => c.2.diagnostics).flatten =
        dumps.flatMap fun dump => dump.files.flatMap (reported o hidden) := by
      have hsnd := congrArg (fun l => (l.map Prod.snd).flatten) hchecked
      simpa [List.flatMap_def, List.map_flatten, List.flatten_flatten, Function.comp_def] using hsnd
    have hcomplete : ∀ x ∈ dumps.flatMap fun dump => dump.files.flatMap (reported o hidden),
        x.Complete ∧ x.Writable w.limits := by
      intro x hx
      obtain ⟨dump, hdump, hx⟩ := List.mem_flatMap.mp hx
      obtain ⟨f, hf, hx⟩ := List.mem_flatMap.mp hx
      rw [hloaded] at hmapM
      obtain ⟨path, -, hload⟩ := exists_of_mem_right (mapM_eq_ok_iff.mp hmapM.symm) hdump
      exact ⟨complete_of_mem_reported hx, writable_of_mem_reported hload hf hx⟩
    simp only [hrun]
    exact visible_conclude hs w (log ++ records) hds hcomplete

end reports

/-! ## What is found at a path -/

/-- What the command finds at a path, unless the options or the dump are at fault. -/
def found (limits : Limits) (s : Settings) (hidden : Suppressions)
    (openFile : String → Dump.Opened) (path : String) : Except Fault (List Diagnostic) :=
  match Options.ofIgnore limits (.arr (s.ignore.map .str)) with
  | .error f => .error f
  | .ok o => (loadAt limits openFile path).map fun dump => dump.files.flatMap (reported o hidden)

/-- What is seen of the command, from what is found at each of its paths. -/
theorem visible_execute {s : Settings} {hidden : Suppressions} (hs : s.Reports hidden)
    (hne : s.dumps ≠ []) (w : Surroundings) (openFile : String → Dump.Opened) :
    (execute s w openFile).visible =
      conclusions w.limits s.output (found w.limits s hidden openFile) s.dumps := by
  unfold execute
  rw [if_neg (by simp [hs.checking]), if_neg (by simpa using hne)]
  unfold conclusions found
  rcases hoptions : Options.ofIgnore w.limits (.arr (s.ignore.map .str)) with f | o
  · -- bad options are met before the first path
    obtain ⟨path, rest, hdumps⟩ := List.exists_cons_of_ne_nil hne
    rw [hdumps, List.mapM_cons]
    exact visible_failure s [] "" f
  · simp only [hs.hidden]
    refine (visible_check hs w openFile o).trans ?_
    rw [mapM_map]
    rcases s.dumps.mapM (loadAt w.limits openFile) with f | dumps
    · rfl
    · simp [Except.map, List.flatMap_def]

/-! ## Conclusions compose -/

section compose

variable {α : Type}

/-- The texts of all lists put together are the texts of each, put together. -/
theorem join_map_flatMap {β : Type} (text : β → String) (g : α → List β) (xs : List α) :
    String.join ((xs.flatMap g).map text) =
      String.join (xs.map fun x => String.join ((g x).map text)) := by
  induction xs with
  | nil => rfl
  | cons x rest ih =>
      rw [List.flatMap_cons, List.map_append, String.join_append, ih, List.map_cons,
        String.join_cons]

variable (limits : Limits) (format : Format)

/-- A run ends with a code of at most two, or a fault escapes from it. -/
theorem conclusion_ends (r : Except Fault (List Diagnostic)) :
    (∃ code ≤ 2, (conclusion limits format r).1 = .exit code) ∨
      ∃ f, (conclusion limits format r).1 = .failed f := by
  rcases r with f | ds
  · rcases faultEnding_cases f with ⟨hf, -⟩ | ⟨hf, -⟩
    · exact .inl ⟨2, le_rfl, hf⟩
    · exact .inr ⟨f, hf⟩
  · refine .inl ⟨_, ?_, rfl⟩
    split <;> omega

/-- A run reports, with findings or without, exactly if nothing is at fault. -/
theorem exit_conclusion_le_one_iff {r : Except Fault (List Diagnostic)} :
    (∃ code ≤ 1, (conclusion limits format r).1 = .exit code) ↔ ∃ ds, r = .ok ds := by
  rcases r with f | ds
  · rcases faultEnding_cases f with ⟨hf, -⟩ | ⟨hf, -⟩ <;> simp [conclusion, hf]
  · simp only [conclusion, Ending.exit.injEq, exists_eq_right']
    split <;> simp

/-- The fault escapes exactly if it is no problem that is reported. -/
theorem conclusion_failed_iff {r : Except Fault (List Diagnostic)} {f : Fault} :
    (conclusion limits format r).1 = .failed f ↔ r = .error f ∧ f.problem? = none := by
  rcases r with f' | ds
  · rcases faultEnding_cases f' with ⟨hf, hproblem⟩ | ⟨hf, hproblem⟩
    · simp only [conclusion, hf, Except.error.injEq, reduceCtorEq, false_iff, not_and]
      rintro rfl
      exact hproblem
    · simp only [conclusion, hf, Except.error.injEq, Ending.failed.injEq, iff_self_and]
      rintro rfl
      exact hproblem
  · simp [conclusion]

variable (g : α → Except Fault (List Diagnostic))

/-- If something is found for each, all of it is reported together. -/
theorem conclusions_of_forall_ok {ds : α → List Diagnostic} {xs : List α}
    (h : ∀ x ∈ xs, g x = .ok (ds x)) :
    conclusions limits format g xs = conclusion limits format (.ok (xs.flatMap ds)) := by
  rw [conclusions, mapM_of_forall_ok h, List.flatMap_def]
  rfl

/-- The first fault decides, and nothing is written. -/
theorem conclusions_of_first_error {front : List α} {x : α} {f : Fault}
    (hfront : ∀ y ∈ front, ∃ ds, g y = .ok ds) (hx : g x = .error f) (back : List α) :
    conclusions limits format g (front ++ x :: back) = (faultEnding f, "") := by
  rw [conclusions, mapM_of_first_error hfront hx back]
  rfl

/-- If each thing alone gives an exit code, all together give the largest. -/
theorem exists_isGreatest_exit {xs : List α} (hne : xs ≠ [])
    (hexit : ∀ x ∈ xs, ∃ code, (conclusion limits format (g x)).1 = .exit code) :
    ∃ code, (conclusions limits format g xs).1 = .exit code ∧
      IsGreatest {c | ∃ x ∈ xs, (conclusion limits format (g x)).1 = .exit c} code ∧
      (code ≤ 1 → (conclusions limits format g xs).2 =
        String.join (xs.map fun x => (conclusion limits format (g x)).2)) ∧
      (code = 2 → (conclusions limits format g xs).2 = "") := by
  rcases forall_ok_or_first_error g xs with hok | ⟨front, x, back, f, rfl, hfront, hx⟩
  · choose! ds hds using hok
    rw [conclusions_of_forall_ok limits format g hds]
    have hone : ∀ x ∈ xs, conclusion limits format (g x) = conclusion limits format (.ok (ds x)) :=
      fun x hx => by rw [hds x hx]
    refine ⟨_, rfl, ⟨?_, ?_⟩, fun _ => ?_, ?_⟩
    · -- some thing has findings if all together have them
      by_cases hall : ∀ x ∈ xs, ds x = []
      · obtain ⟨x, hx⟩ := List.exists_mem_of_ne_nil xs hne
        refine ⟨x, hx, ?_⟩
        rw [hone x hx]
        simp only [conclusion, hall x hx, List.flatMap_eq_nil_iff.mpr hall]
      · obtain ⟨x, hx, hsome⟩ : ∃ x ∈ xs, ds x ≠ [] := by simpa using hall
        refine ⟨x, hx, ?_⟩
        have hflat : xs.flatMap ds ≠ [] := fun hnil => hall (List.flatMap_eq_nil_iff.mp hnil)
        rw [hone x hx]
        simp [conclusion, hsome, hflat]
    · rintro code ⟨x, hx, hcode⟩
      rw [hone x hx] at hcode
      simp only [conclusion, Ending.exit.injEq] at hcode
      rw [← hcode]
      by_cases hnil : xs.flatMap ds = []
      · simp [List.flatMap_eq_nil_iff.mp hnil x hx]
      · simp only [List.isEmpty_iff, hnil]
        split <;> simp
    · rw [conclusion, join_map_flatMap]
      refine congrArg String.join (List.map_congr_left fun x hx => ?_)
      rw [hone x hx, conclusion]
    · intro h2
      split at h2 <;> omega
  · -- the fault is a problem, because there is a code
    have hmem : x ∈ front ++ x :: back := by simp
    have hcode : faultEnding f = .exit 2 := by
      obtain ⟨code, hcode⟩ := hexit x hmem
      rw [hx] at hcode
      rcases faultEnding_cases f with ⟨hf, -⟩ | ⟨hf, -⟩
      · exact hf
      · simp [conclusion, hf] at hcode
    rw [conclusions_of_first_error limits format g hfront hx, hcode]
    refine ⟨2, rfl, ⟨⟨x, hmem, ?_⟩, ?_⟩, fun h1 => ?_, fun _ => rfl⟩
    · rw [hx, conclusion, hcode]
    · rintro code ⟨y, -, hy⟩
      rcases conclusion_ends limits format (g y) with ⟨code', hle, hy'⟩ | ⟨f', hy'⟩
      · cases hy.symm.trans hy'
        exact hle
      · cases hy.symm.trans hy'
    · omega

end compose

/-! ## Paths one by one -/

/-- The command, on paths between options. -/
def runOn (before after : List String) (w : Surroundings) (openFile : String → Dump.Opened)
    (paths : List String) : Outcome :=
  run (before ++ paths ++ after) w openFile

section around

variable {before after : List String} {s : Settings} {hidden : Suppressions}
  (h : Around before after s) (hs : s.Reports hidden) (w : Surroundings)
  (openFile : String → Dump.Opened)

include h hs

/-- What is seen of a run over paths is decided by what is found for each path. -/
theorem visible_runOn {paths : List String} (hne : paths ≠ [])
    (hp : ∀ path ∈ paths, path.toList.head? ≠ some '-') :
    (runOn before after w openFile paths).visible =
      conclusions w.limits s.output (found w.limits s hidden openFile) paths := by
  unfold runOn run
  rw [h.parse_insert hp]
  have hreports : (s.withDumps paths).Reports hidden :=
    ⟨hs.format, hs.unfixed, hs.undocumented, hs.checking, hs.hidden⟩
  exact visible_execute hreports hne w openFile

/-- For a single path it is decided by what is found for it. -/
theorem visible_runOn_singleton {path : String} (hp : path.toList.head? ≠ some '-') :
    (runOn before after w openFile [path]).visible =
      conclusion w.limits s.output (found w.limits s hidden openFile path) := by
  rw [visible_runOn h hs w openFile (by simp) (by simpa using hp), conclusions, List.mapM_cons]
  rcases found w.limits s hidden openFile path with f | ds
  · rfl
  · simp [Except.map, bind, Except.bind, pure, Except.pure]

/-- So is how the run ends. -/
theorem ending_runOn_singleton {path : String} (hp : path.toList.head? ≠ some '-') :
    (runOn before after w openFile [path]).ending =
      (conclusion w.limits s.output (found w.limits s hidden openFile path)).1 :=
  congrArg Prod.fst (visible_runOn_singleton h hs w openFile hp)

/-- If each path alone ends with a code, the run over all ends with the greatest of the codes. At
codes of at most one it writes what the paths alone write, in order, else nothing. -/
theorem exists_isGreatest_runOn {paths : List String} (hne : paths ≠ [])
    (hp : ∀ path ∈ paths, path.toList.head? ≠ some '-')
    (hexit : ∀ path ∈ paths, ∃ code, (runOn before after w openFile [path]).ending = .exit code) :
    ∃ code, (runOn before after w openFile paths).ending = .exit code ∧
      IsGreatest
        {c | ∃ path ∈ paths, (runOn before after w openFile [path]).ending = .exit c} code ∧
      (code ≤ 1 → (runOn before after w openFile paths).out =
        String.join (paths.map fun path => (runOn before after w openFile [path]).out)) ∧
      (code = 2 → (runOn before after w openFile paths).out = "") := by
  have hend : ∀ path ∈ paths, (runOn before after w openFile [path]).ending =
      (conclusion w.limits s.output (found w.limits s hidden openFile path)).1 :=
    fun path hmem => ending_runOn_singleton h hs w openFile (hp path hmem)
  have hwhole := visible_runOn h hs w openFile hne hp
  obtain ⟨code, hcode, hgreatest, hout, hnothing⟩ :=
    exists_isGreatest_exit w.limits s.output (found w.limits s hidden openFile) hne
      fun path hmem => hend path hmem ▸ hexit path hmem
  rw [← hwhole] at hcode hout hnothing
  have hcodes : {c | ∃ path ∈ paths, (runOn before after w openFile [path]).ending = .exit c} =
      {c | ∃ path ∈ paths,
        (conclusion w.limits s.output (found w.limits s hidden openFile path)).1 = .exit c} :=
    Set.ext fun c => exists_congr fun path => and_congr_right fun hmem => by rw [hend path hmem]
  have hlines : (paths.map fun path => (runOn before after w openFile [path]).out) =
      paths.map fun path =>
        (conclusion w.limits s.output (found w.limits s hidden openFile path)).2 :=
    List.map_congr_left fun path hmem =>
      congrArg Prod.snd (visible_runOn_singleton h hs w openFile (hp path hmem))
  exact ⟨code, hcode, hcodes ▸ hgreatest, fun h1 => hlines ▸ hout h1, hnothing⟩

end around

/-- Names that are refused are a problem: a message can show them. -/
theorem problem?_ofIgnore {limits : Limits} {names : List String} {f : Fault}
    (h : Options.ofIgnore limits (.arr (names.map .str)) = .error f) : f.problem? ≠ none := by
  obtain ⟨cause, hcause, rfl⟩ := Fault.raise_eq_error_iff.mp h
  rw [ne_eq, Fault.problem?_eq_none_iff]
  cases (Options.readIgnore_reads _).refused cause hcause with
  | @entry entries bad list first fault =>
    obtain ⟨front, rest, hentries, -, -⟩ := first
    have hbad : bad ∈ names.map Json.str := by
      rw [Json.arr.inj list, hentries]
      simp
    obtain ⟨name, -, rfl⟩ := List.mem_map.mp hbad
    have hworded : cause.excess? limits = none := by
      rw [fault]
      exact Limits.ofLevel?_zero
    rw [Fault.raised_of_excess? hworded, fault]
    simp [Fault.family?]
  | plain family worded => simp [Fault.raised_of_excess? (worded limits), family]
  | itemless item _ => simp [Options.Itemless] at item

/-- A fault escapes for a path exactly if the options are accepted and the fault escapes from
loading. -/
theorem found_escapes_iff {limits : Limits} {s : Settings} {hidden : Suppressions}
    {openFile : String → Dump.Opened} {path : String} {f : Fault} :
    found limits s hidden openFile path = .error f ∧ f.problem? = none ↔
      (∃ o, Options.ofIgnore limits (.arr (s.ignore.map .str)) = .ok o) ∧
        Dump.Escapes limits (Path.clean path) (openFile (Path.clean path)) f := by
  rw [Dump.escapes_iff]
  unfold found
  rcases hoptions : Options.ofIgnore limits (.arr (s.ignore.map .str)) with f' | o
  · simp only [Except.error.injEq, reduceCtorEq, exists_false, false_and, iff_false, not_and]
    rintro rfl
    exact problem?_ofIgnore hoptions
  · rcases hload : loadAt limits openFile path with f' | dump <;> unfold loadAt at hload <;>
      simp [hload, Except.map]

/-- **Composition.** Let options around paths ask for a report line by line, of paths that do not
look like options. If the command ends with an exit code on each path alone, it ends on all of them
with the largest of these codes. Up to 1 it writes what it writes for each path, in order; at 2 it
writes nothing. The order of the paths does not matter to the code.

What a path alone gives besides the codes up to 2 are faults of loading that escape. They break the
rule: the first path that is not reported decides how the command ends, with nothing written, be it
by a code or by a fault. -/
theorem run_paths {before after : List String} {s : Settings} {hidden : Suppressions}
    (h : Around before after s) (hs : s.Reports hidden) (w : Surroundings)
    (openFile : String → Dump.Opened) (paths : List String) (hne : paths ≠ [])
    (hp : ∀ path ∈ paths, path.toList.head? ≠ some '-') :
    ((∀ path ∈ paths, ∃ code, (runOn before after w openFile [path]).ending = .exit code) →
      (∃ code, (runOn before after w openFile paths).ending = .exit code ∧
        IsGreatest
          {c | ∃ path ∈ paths, (runOn before after w openFile [path]).ending = .exit c} code ∧
        (code ≤ 1 → (runOn before after w openFile paths).out =
          String.join (paths.map fun path => (runOn before after w openFile [path]).out)) ∧
        (code = 2 → (runOn before after w openFile paths).out = "")) ∧
      ∀ others : List String, others.Perm paths →
        (runOn before after w openFile others).ending =
          (runOn before after w openFile paths).ending) ∧
    (∀ path ∈ paths,
      ((∃ code ≤ 2, (runOn before after w openFile [path]).ending = .exit code) ∨
        ∃ f, (runOn before after w openFile [path]).ending = .failed f) ∧
      ∀ f, (runOn before after w openFile [path]).ending = .failed f ↔
        (∃ o, Options.ofIgnore w.limits (.arr (s.ignore.map .str)) = .ok o) ∧
          Dump.Escapes w.limits (Path.clean path) (openFile (Path.clean path)) f) ∧
    ∀ front path back, paths = front ++ path :: back →
      (∀ p ∈ front, ∃ code ≤ 1, (runOn before after w openFile [p]).ending = .exit code) →
      (¬ ∃ code ≤ 1, (runOn before after w openFile [path]).ending = .exit code) →
      (runOn before after w openFile paths).ending =
          (runOn before after w openFile [path]).ending ∧
        (runOn before after w openFile paths).out = "" := by
  refine ⟨fun hexit => ⟨exists_isGreatest_runOn h hs w openFile hne hp hexit, ?_⟩,
    fun path hmem => ?_, ?_⟩
  · intro others hperm
    have hmem : ∀ path, path ∈ others ↔ path ∈ paths := fun path => hperm.mem_iff
    have hne' : others ≠ [] := by
      rintro rfl
      exact hne hperm.nil_eq.symm
    obtain ⟨code, hcode, hgreatest, -⟩ := exists_isGreatest_runOn h hs w openFile hne hp hexit
    obtain ⟨code', hcode', hgreatest', -⟩ := exists_isGreatest_runOn h hs w openFile hne'
      (fun path hm => hp path ((hmem path).mp hm)) fun path hm => hexit path ((hmem path).mp hm)
    simp only [hmem] at hgreatest'
    rw [hcode, hcode', hgreatest'.unique hgreatest]
  · have hend := ending_runOn_singleton h hs w openFile (hp path hmem)
    refine ⟨?_, fun f => ?_⟩
    · rw [hend]
      exact conclusion_ends w.limits s.output _
    · rw [hend, conclusion_failed_iff, found_escapes_iff]
  · rintro front path back rfl hfront hpath
    have hpath' : path.toList.head? ≠ some '-' := hp path (by simp)
    have hfront' : ∀ p ∈ front, ∃ ds, found w.limits s hidden openFile p = .ok ds := by
      intro p hmem
      have hreported := hfront p hmem
      rwa [ending_runOn_singleton h hs w openFile (hp p (by simp [hmem])),
        exit_conclusion_le_one_iff] at hreported
    rw [ending_runOn_singleton h hs w openFile hpath'] at hpath ⊢
    rw [exit_conclusion_le_one_iff] at hpath
    rcases hfault : found w.limits s hidden openFile path with f | ds
    · have hwhole := visible_runOn h hs w openFile hne hp
      rw [conclusions_of_first_error w.limits s.output _ hfront' hfault] at hwhole
      exact ⟨congrArg Prod.fst hwhole, congrArg Prod.snd hwhole⟩
    · exact absurd ⟨ds, hfault⟩ hpath

/-- A disk with two dumps, one without files and one with an attribute to be renamed. -/
def shelf (path : String) : Dump.Opened :=
  if path = "a" then .ok [91, 93] else if path = "c" then diskOf renamableText path
  else .error .notFound

/-- The command on the disk, with an option on either side of the paths. -/
def runOnShelf (paths : List String) : Outcome :=
  runOn ["--ignore", "x"] ["--output", "gcc"] {} shelf paths

/-- The run over the shelf is a run over paths between arguments. -/
theorem runOnShelf_eq (paths : List String) :
    runOnShelf paths = runOn ["--ignore", "x"] ["--output", "gcc"] {} shelf paths :=
  rfl

/-- The arguments around the paths are accepted and settle the run. -/
theorem around_shelf :
    Around ["--ignore", "x"] ["--output", "gcc"] { ignore := ["x"], output := .gcc } :=
  ⟨⟨{ ignore := ["x"] }, by decide⟩, by decide, rfl, by decide⟩

/-- The run is one that reports. -/
theorem reports_shelf : Settings.Reports { ignore := ["x"], output := .gcc } {} :=
  ⟨.inr rfl, rfl, rfl, rfl, rfl⟩

/-- Nothing is found in the first dump. -/
theorem visible_shelf_empty : (runOnShelf ["a"]).visible = (.exit 0, "") := by
  have hload : loadAt {} shelf "a" = .ok ⟨[]⟩ := Dump.ofText_nil
  have hfound : found {} { ignore := ["x"], output := .gcc } {} shelf "a" = .ok [] := by
    unfold found
    rw [hload]
    rfl
  rw [runOnShelf_eq, visible_runOn_singleton around_shelf reports_shelf {} shelf (by decide),
    hfound]
  rfl

/-- The line of what is reported of the attribute. -/
def renameLine : String :=
  ":0: warning: Unknown property 'class' found, use 'className' instead "
    ++ "[unknownPropWithStandardName]\n"

/-- One thing is found in the other. -/
theorem visible_shelf_renamable : (runOnShelf ["c"]).visible = (.exit 1, renameLine) := by
  have htext : Dump.textOf "c" (shelf "c") = .ok renamableText := rfl
  have hload : loadAt {} shelf "c" = .ok ⟨[renamable]⟩ := by
    change Dump.load {} "c" (shelf "c") = _
    rw [Dump.load, htext]
    exact ofText_renamable
  have hoptions : Options.ofIgnore {} (.arr (["x"].map .str)) = .ok (.ofNames ["x"]) := rfl
  have hfound : found {} { ignore := ["x"], output := .gcc } {} shelf "c" = .ok [renameClass] := by
    have hreported : reported (.ofNames ["x"]) {} renamable = [renameClass] :=
      reported_renamable (by decide)
    simp only [found, hoptions, hload, Except.map, List.flatMap_cons, List.flatMap_nil, hreported,
      List.append_nil]
  have hline : lineText {} .gcc renameClass = renameLine := by decide
  rw [runOnShelf_eq, visible_runOn_singleton around_shelf reports_shelf {} shelf (by decide),
    hfound]
  simp only [conclusion, List.map_cons, List.map_nil, hline, String.join_cons, String.join_nil,
    String.append_empty]
  rfl

/-- The dump with a finding and the one without give the larger code, and their texts together. With
a path without a file nothing is written, in either order. A path that cannot be handed to the
system decides if it comes first, and only then. -/
theorem run_paths_shelf :
    ((runOnShelf ["a"]).ending = .exit 0 ∧ (runOnShelf ["c"]).ending = .exit 1 ∧
      (runOnShelf ["c", "a", "c"]).ending = .exit 1 ∧
      (runOnShelf ["c", "a", "c"]).out = renameLine ++ renameLine) ∧
    ((runOnShelf ["b"]).ending = .exit 2 ∧
      (runOnShelf ["c", "b"]).ending = .exit 2 ∧ (runOnShelf ["c", "b"]).out = "" ∧
      (runOnShelf ["b", "c"]).ending = .exit 2) ∧
    (runOnShelf ["\x00"]).ending = .failed .nullInPath ∧
    (runOnShelf ["\x00", "b"]).ending = .failed .nullInPath ∧
    (runOnShelf ["b", "\x00"]).ending = .exit 2 := by
  obtain ⟨ha, houtA⟩ := Outcome.visible_eq_iff.mp visible_shelf_empty
  obtain ⟨hc, houtC⟩ := Outcome.visible_eq_iff.mp visible_shelf_renamable
  have hb : (runOnShelf ["b"]).ending = .exit 2 := rfl
  have hnull : (runOnShelf ["\x00"]).ending = .failed .nullInPath := rfl
  have hrun := run_paths around_shelf reports_shelf {} shelf
  -- by a rewrite: unifying the two would carry the command out
  simp only [← runOnShelf_eq] at hrun
  -- The two dumps.
  obtain ⟨hcodes, -, -⟩ := hrun ["c", "a", "c"] (by simp) (by decide)
  obtain ⟨⟨code, hcode, hgreatest, htexts, -⟩, -⟩ := hcodes (by
    simp only [List.forall_mem_cons, List.not_mem_nil, false_imp_iff, implies_true, and_true]
    exact ⟨⟨1, hc⟩, ⟨0, ha⟩, 1, hc⟩)
  have hone : code = 1 := by
    have hle : 1 ≤ code := hgreatest.2 ⟨"c", by simp, hc⟩
    obtain ⟨path, hmem, hpath⟩ := hgreatest.1
    simp only [List.mem_cons, List.not_mem_nil, or_false] at hmem
    rcases hmem with rfl | rfl | rfl
    · cases hc.symm.trans hpath
      rfl
    · cases ha.symm.trans hpath
      omega
    · cases hc.symm.trans hpath
      rfl
  subst hone
  have htext : (runOnShelf ["c", "a", "c"]).out = renameLine ++ renameLine := by
    refine (htexts (by omega)).trans ?_
    simp only [List.map_cons, List.map_nil, houtA, houtC, String.join_cons, String.join_nil,
      String.empty_append, String.append_empty]
  -- A dump and the path without a file.
  obtain ⟨hcodes, -, -⟩ := hrun ["c", "b"] (by simp) (by decide)
  obtain ⟨⟨code, hcode', hgreatest', -, hnothing⟩, horder⟩ := hcodes (by
    rintro path hmem
    rcases List.mem_pair.mp hmem with rfl | rfl
    · exact ⟨1, hc⟩
    · exact ⟨2, hb⟩)
  have htwo : code = 2 := by
    have hle : 2 ≤ code := hgreatest'.2 ⟨"b", by simp, hb⟩
    obtain ⟨path, hmem, hpath⟩ := hgreatest'.1
    rcases List.mem_pair.mp hmem with rfl | rfl
    · cases hc.symm.trans hpath
      omega
    · cases hb.symm.trans hpath
      rfl
  subst htwo
  have hswapped := (horder ["b", "c"] (List.Perm.swap "c" "b" [])).trans hcode'
  -- The path with a null character, in front and behind.
  obtain ⟨-, -, hfront⟩ := hrun ["\x00", "b"] (by simp) (by decide)
  obtain ⟨-, -, hbehind⟩ := hrun ["b", "\x00"] (by simp) (by decide)
  refine ⟨⟨ha, hc, hcode, htext⟩, ⟨hb, hcode', hnothing rfl, hswapped⟩, hnull, ?_, ?_⟩
  · refine (hfront [] "\x00" ["b"] rfl (by simp) ?_).1.trans hnull
    rintro ⟨code, -, hcode⟩
    cases hnull.symm.trans hcode
  · refine (hbehind [] "b" ["\x00"] rfl (by simp) ?_).1.trans hb
    rintro ⟨code, hle, hcode⟩
    cases hb.symm.trans hcode
    omega

end CommandLine

end AttributeLint

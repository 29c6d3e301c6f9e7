import AttributeLint.CommandLine.Arguments

/-!
# Paths between options

The paths of the dumps may stand before, between or behind the options, as long as they stand
together. `Configures` says what options alone do to settings, without the bookkeeping of
consumption.

* `consume_append`: consumption goes on where it stopped.
* `configures_of_consume` and `Configures.consume`: arguments that leave neither a path nor
  something unrecognised are options alone, and options alone are consumed in any state.
* **Placement** (`Around.parse_insert`): paths that are put between options are the dumps, and the
  other settings are what the options say.
-/

namespace AttributeLint.CommandLine

/-! ## Classification -/

/-- An argument that looks like no option is not the separator. -/
theorem classifyStray_ne_separator (cs : List Char) : classifyStray cs ≠ .separator := by
  unfold classifyStray
  split <;> simp

/-- Nor is one with a hyphen in front. -/
theorem classifyHyphened_ne_separator (arg : String) :
    classifyHyphened arg ≠ .ok .separator := by
  unfold classifyHyphened
  dsimp only
  split
  · simp
  · split
    · simpa using classifyStray_ne_separator arg.toList
    · simp
    · simp

/-- Only two hyphens are read as the separator, and `classify` never sees them. -/
theorem classify_ne_separator (arg : String) : classify arg ≠ .ok .separator := by
  unfold classify
  split
  · simp
  · split
    · simp
    · split
      · simp
      · exact classifyHyphened_ne_separator arg

/-- An argument that is no separator is classified on its own, ahead of the others. -/
theorem classifyAll_cons_eq_ok {arg : String} {rest : List String} (hs : arg ≠ "--")
    {readings : List (String × Reading)} (h : classifyAll (arg :: rest) = .ok readings) :
    ∃ reading more, classify arg = .ok reading ∧ classifyAll rest = .ok more ∧
      readings = (arg, reading) :: more := by
  rw [classifyAll, if_neg hs] at h
  rcases hc : classify arg with e | reading
  · simp [hc] at h
  · rcases hr : classifyAll rest with e | more
    · simp [hc, hr] at h
    · simp only [hc, hr, Except.ok.injEq] at h
      exact ⟨reading, more, rfl, rfl, h.symm⟩

/-- Only `--` itself is read as the separator. -/
theorem classifyAll_ne_separator {args : List String} (hs : "--" ∉ args)
    {readings : List (String × Reading)} (h : classifyAll args = .ok readings) :
    ∀ r ∈ readings, r.2 ≠ .separator := by
  induction args generalizing readings with
  | nil =>
      rw [classifyAll] at h
      cases h
      simp
  | cons arg rest ih =>
      rw [List.mem_cons, not_or] at hs
      obtain ⟨reading, more, hc, hr, rfl⟩ := classifyAll_cons_eq_ok (Ne.symm hs.1) h
      intro r hmem
      rcases List.mem_cons.1 hmem with rfl | hmem
      · rintro rfl
        exact classify_ne_separator arg hc
      · exact ih hs.2 hr r hmem

/-- Classification is argument by argument, as long as no separator comes first. -/
theorem classifyAll_append {xs : List String} (hs : "--" ∉ xs)
    {readings : List (String × Reading)} (h : classifyAll xs = .ok readings) (ys : List String) :
    classifyAll (xs ++ ys) = (classifyAll ys).map (readings ++ ·) := by
  induction xs generalizing readings with
  | nil =>
      rw [classifyAll] at h
      cases h
      rcases hy : classifyAll ys with e | more <;> simp [hy, Except.map]
  | cons arg rest ih =>
      rw [List.mem_cons, not_or] at hs
      obtain ⟨reading, more, hc, hr, rfl⟩ := classifyAll_cons_eq_ok (Ne.symm hs.1) h
      rw [List.cons_append, classifyAll, if_neg (Ne.symm hs.1), hc, ih hs.2 hr]
      rcases classifyAll ys with e | later <;> simp [Except.map]

/-- Texts without a hyphen in front are positional arguments. -/
theorem classifyAll_paths {paths : List String}
    (hp : ∀ path ∈ paths, path.toList.head? ≠ some '-') :
    classifyAll paths = .ok (paths.map fun path => (path, .positional)) := by
  induction paths with
  | nil => rfl
  | cons path rest ih =>
      rw [List.forall_mem_cons] at hp
      have hne : path ≠ "--" := by
        rintro rfl
        exact hp.1 rfl
      have hc : classify path = .ok .positional := by
        rw [classify, if_pos hp.1]
      rw [classifyAll, if_neg hne, hc, ih hp.2]
      rfl

/-! ## Consumption -/

section options

variable {p : Progress} {flag : Flag} {next : Settings} (arg spelling : String)

/-- An option takes the value that is attached to it. -/
theorem consume_attached (hv : flag.takesValue = true) {value : String}
    (ha : applyValue p.settings flag value = .ok next) (rest : List (String × Reading)) :
    consume p ((arg, .option flag spelling (some value)) :: rest) =
      consume { p.interrupt with settings := next } rest := by
  simp [consume, hv, ha]

/-- An option takes the argument behind it as its value. -/
theorem consume_separate (hv : flag.takesValue = true) {value : String}
    (ha : applyValue p.settings flag value = .ok next) (rest : List (String × Reading)) :
    consume p ((arg, .option flag spelling none) :: (value, .positional) :: rest) =
      consume { p.interrupt with settings := next } rest := by
  simp [consume, hv, ha]

/-- Options without values are set one after the other. -/
theorem consume_flags (hv : ¬ flag.takesValue = true) {value : Option String} {flags : List Flag}
    (he : expand flag spelling value = .ok flags) (ha : applyFlags p.settings flags = .ok next)
    (rest : List (String × Reading)) :
    consume p ((arg, .option flag spelling value) :: rest) =
      consume { p.interrupt with settings := next } rest := by
  rw [consume.eq_def]
  simp [hv, he, ha]

end options

/-- Consumption goes on where it stopped. -/
theorem consume_append {p q : Progress} {xs : List (String × Reading)} (h : consume p xs = .ok q)
    (ys : List (String × Reading)) : consume p (xs ++ ys) = consume q ys := by
  fun_induction consume p xs with
  | case1 p =>
      cases h
      rfl
  | case2 p arg rest ih => exact ih h
  | case3 p arg rest ih => exact ih h
  | case4 p arg rest ih => exact ih h
  | case6 p arg flag spelling rest hv value next ha ih =>
      exact (consume_attached arg spelling hv ha (rest ++ ys)).trans (ih h)
  | case8 p arg flag spelling hv value more next ha ih =>
      exact (consume_separate arg spelling hv ha (more ++ ys)).trans (ih h)
  | case12 p arg flag spelling value rest hv flags he next ha ih =>
      exact (consume_flags arg spelling hv he ha (rest ++ ys)).trans (ih h)
  | _ => cases h

/-- Positional arguments become dumps, unless a run of them has ended before. -/
theorem consume_paths (p : Progress) (paths : List String) (hp : p.run ≠ .past) :
    consume p (paths.map fun path => (path, .positional)) =
      .ok { p with
        settings := { p.settings with dumps := p.settings.dumps ++ paths }
        run := if paths = [] then p.run else .inside } := by
  induction paths generalizing p with
  | nil => simp [consume]
  | cons path rest ih =>
      have hone : p.positional path =
          { p with
            run := .inside
            settings := { p.settings with dumps := p.settings.dumps ++ [path] } } := by
        unfold Progress.positional
        split
        · contradiction
        · rfl
      rw [List.map_cons, consume, hone, ih _ (by simp)]
      simp

/-! ## Options alone -/

/-- The arguments are options with their values, and carrying them out turns `s` into `t`. -/
inductive Configures : Settings → List (String × Reading) → Settings → Prop where
  | nothing (s : Settings) : Configures s [] s
  | attached {s next t : Settings} {flag : Flag} {value : String} {rest : List (String × Reading)}
      (arg spelling : String) (hv : flag.takesValue = true)
      (ha : applyValue s flag value = .ok next) (hr : Configures next rest t) :
      Configures s ((arg, .option flag spelling (some value)) :: rest) t
  | separate {s next t : Settings} {flag : Flag} {value : String} {rest : List (String × Reading)}
      (arg spelling : String) (hv : flag.takesValue = true)
      (ha : applyValue s flag value = .ok next) (hr : Configures next rest t) :
      Configures s ((arg, .option flag spelling none) :: (value, .positional) :: rest) t
  | flags {s next t : Settings} {flag : Flag} {value : Option String} {flags : List Flag}
      {rest : List (String × Reading)} (arg spelling : String) (hv : ¬ flag.takesValue = true)
      (he : expand flag spelling value = .ok flags) (ha : applyFlags s flags = .ok next)
      (hr : Configures next rest t) :
      Configures s ((arg, .option flag spelling value) :: rest) t

/-- The same settings with other dumps. -/
def Settings.withDumps (s : Settings) (paths : List String) : Settings :=
  { s with dumps := paths }

/-- An option with a value says nothing about the paths. -/
theorem applyValue_withDumps (s : Settings) (flag : Flag) (value : String) (paths : List String) :
    applyValue (s.withDumps paths) flag value =
      (applyValue s flag value).map (Settings.withDumps · paths) := by
  cases flag with
  | output =>
      unfold applyValue
      rcases formats.lookup value with _ | f <;> rfl
  | _ => rfl

/-- Nor do options without values. -/
theorem applyFlags_withDumps (s : Settings) (flags : List Flag) (paths : List String) :
    applyFlags (s.withDumps paths) flags =
      (applyFlags s flags).map (Settings.withDumps · paths) := by
  induction flags generalizing s with
  | nil => rfl
  | cons flag rest ih =>
      have hone : applyFlag (s.withDumps paths) flag =
          (applyFlag s flag).map (Settings.withDumps · paths) := by
        cases flag <;> rfl
      rw [applyFlags, applyFlags, hone]
      rcases applyFlag s flag with e | next
      · rfl
      · exact ih next

namespace Configures

variable {s t : Settings} {xs : List (String × Reading)}

/-- Options take no notice of the dumps. -/
theorem withDumps (h : Configures s xs t) (paths : List String) :
    Configures (s.withDumps paths) xs (t.withDumps paths) := by
  induction h with
  | nothing s => exact .nothing _
  | attached arg spelling hv ha _ ih =>
      exact .attached arg spelling hv (by rw [applyValue_withDumps, ha]; rfl) ih
  | separate arg spelling hv ha _ ih =>
      exact .separate arg spelling hv (by rw [applyValue_withDumps, ha]; rfl) ih
  | flags arg spelling hv he ha _ ih =>
      exact .flags arg spelling hv he (by rw [applyFlags_withDumps, ha]; rfl) ih

/-- Options alone are consumed in any state, and leave a run of paths ahead where it is. -/
theorem consume (h : Configures s xs t) (run : Run) (extras : List String) :
    ∃ run', (run = .ahead → run' = .ahead) ∧
      CommandLine.consume ⟨s, run, extras⟩ xs = .ok ⟨t, run', extras⟩ := by
  have hahead : ∀ r : Run, r = .ahead → (if r = .inside then .past else r) = .ahead := by
    rintro r rfl
    rfl
  induction h generalizing run with
  | nothing s => exact ⟨run, id, rfl⟩
  | attached arg spelling hv ha _ ih =>
      obtain ⟨run', hrun, hc⟩ := ih (if run = .inside then .past else run)
      exact ⟨run', hrun ∘ hahead run, (consume_attached arg spelling hv ha _).trans hc⟩
  | separate arg spelling hv ha _ ih =>
      obtain ⟨run', hrun, hc⟩ := ih (if run = .inside then .past else run)
      exact ⟨run', hrun ∘ hahead run, (consume_separate arg spelling hv ha _).trans hc⟩
  | flags arg spelling hv he ha _ ih =>
      obtain ⟨run', hrun, hc⟩ := ih (if run = .inside then .past else run)
      exact ⟨run', hrun ∘ hahead run, (consume_flags arg spelling hv he ha _).trans hc⟩

end Configures

/-- What takes no notice of the dumps does not change them. -/
theorem dumps_of_map_withDumps {ε : Type} {s t : Settings} {result : Except ε Settings}
    (hsame : result = result.map (Settings.withDumps · s.dumps)) (h : result = .ok t) :
    t.dumps = s.dumps := by
  subst h
  have ht : t = t.withDumps s.dumps := Except.ok.inj hsame
  rw [ht]
  rfl

/-- So the paths stay what they were. -/
theorem dumps_applyValue {s t : Settings} {flag : Flag} {value : String}
    (h : applyValue s flag value = .ok t) : t.dumps = s.dumps :=
  dumps_of_map_withDumps (applyValue_withDumps s flag value s.dumps) h

/-- They stay so for options without values as well. -/
theorem dumps_applyFlags {s t : Settings} {flags : List Flag} (h : applyFlags s flags = .ok t) :
    t.dumps = s.dumps :=
  dumps_of_map_withDumps (applyFlags_withDumps s flags s.dumps) h

/-- What has been taken is never given back: neither a path nor an argument not recognised. -/
theorem consume_keeps {p q : Progress} {xs : List (String × Reading)} (h : consume p xs = .ok q) :
    p.settings.dumps <+: q.settings.dumps ∧ p.extras <+: q.extras := by
  fun_induction consume p xs with
  | case1 p =>
      cases h
      exact ⟨List.prefix_rfl, List.prefix_rfl⟩
  | case2 p arg rest ih =>
      have hrest := ih h
      unfold Progress.positional at hrest
      split at hrest
      · exact ⟨hrest.1, (List.prefix_append _ _).trans hrest.2⟩
      · exact ⟨(List.prefix_append _ _).trans hrest.1, hrest.2⟩
  | case3 p arg rest ih =>
      have hrest := ih h
      unfold Progress.separator at hrest
      split at hrest
      · exact ⟨hrest.1, (List.prefix_append _ _).trans hrest.2⟩
      · exact hrest
  | case4 p arg rest ih => exact ⟨(ih h).1, (List.prefix_append _ _).trans (ih h).2⟩
  | case6 p arg flag spelling rest hv value next ha ih =>
      rw [← dumps_applyValue ha]
      exact ih h
  | case8 p arg flag spelling hv value more next ha ih =>
      rw [← dumps_applyValue ha]
      exact ih h
  | case12 p arg flag spelling value rest hv flags he next ha ih =>
      rw [← dumps_applyFlags ha]
      exact ih h
  | _ => cases h

/-- Arguments that leave neither a path nor anything unrecognised, and have no separator, are
options alone. -/
theorem configures_of_consume {p q : Progress} {xs : List (String × Reading)}
    (h : consume p xs = .ok q) (hd : q.settings.dumps = []) (he : q.extras = [])
    (hs : ∀ x ∈ xs, x.2 ≠ .separator) : Configures p.settings xs q.settings := by
  fun_induction consume p xs with
  | case1 p =>
      cases h
      exact .nothing _
  | case2 p arg rest ih =>
      -- The argument would have been kept, as a path or as one that is not recognised.
      have hkept := consume_keeps h
      rw [hd, he, List.prefix_nil, List.prefix_nil] at hkept
      unfold Progress.positional at hkept
      split at hkept
      · exact absurd hkept.2 (by simp)
      · exact absurd hkept.1 (by simp)
  | case3 p arg rest ih => exact absurd rfl (hs _ List.mem_cons_self)
  | case4 p arg rest ih =>
      have hkept := (consume_keeps h).2
      rw [he, List.prefix_nil] at hkept
      exact absurd hkept (by simp)
  | case6 p arg flag spelling rest hv value next ha ih =>
      exact .attached arg spelling hv ha (ih h fun x hx => hs x (by simp [hx]))
  | case8 p arg flag spelling hv value more next ha ih =>
      exact .separate arg spelling hv ha (ih h fun x hx => hs x (by simp [hx]))
  | case12 p arg flag spelling value rest hv flags hf next ha ih =>
      exact .flags arg spelling hv hf ha (ih h fun x hx => hs x (by simp [hx]))
  | _ => cases h

/-! ## Placement -/

/-- Arguments are accepted exactly if all can be read, all are used up, and nothing is left over. -/
theorem parse_eq_ok_iff {args : List String} {s : Settings} :
    parse args = .ok s ↔
      ∃ readings q, classifyAll args = .ok readings ∧ consume {} readings = .ok q ∧
        q.extras = [] ∧ q.settings = s := by
  constructor
  · intro h
    rw [parse] at h
    rcases hr : classifyAll args with e | readings
    · simp [hr] at h
    · rcases hq : consume {} readings with e | q
      · simp [hr, hq] at h
      · simp only [hr, hq, List.isEmpty_iff] at h
        split at h
        case isTrue hx => exact ⟨readings, q, rfl, hq, hx, Except.ok.inj h⟩
        case isFalse hx => cases h
  · rintro ⟨readings, q, hr, hq, hx, rfl⟩
    simp [parse, hr, hq, hx]

/-- Options alone, which are read as `s`, with room for paths behind those in `before`. -/
structure Around (before after : List String) (s : Settings) : Prop where
  opening : ∃ t, parse before = .ok t
  reading : parse (before ++ after) = .ok s
  pathless : s.dumps = []
  unseparated : "--" ∉ before ++ after

/-- Paths between options are the dumps, and change nothing else that is read. -/
theorem Around.parse_insert {before after : List String} {s : Settings} (h : Around before after s)
    {paths : List String} (hp : ∀ path ∈ paths, path.toList.head? ≠ some '-') :
    parse (before ++ paths ++ after) = .ok (s.withDumps paths) := by
  obtain ⟨hsb, hsa⟩ : "--" ∉ before ∧ "--" ∉ after := by simpa using h.unseparated
  have hsp : "--" ∉ paths := fun hmem => hp _ hmem rfl
  -- The options before and after, each classified and consumed on its own.
  obtain ⟨front, q, hfront, hq, -, -⟩ := parse_eq_ok_iff.1 h.opening.choose_spec
  obtain ⟨all, r, hall, hr, hrx, rfl⟩ := parse_eq_ok_iff.1 h.reading
  obtain ⟨back, hback, rfl⟩ : ∃ back, classifyAll after = .ok back ∧ front ++ back = all := by
    rw [classifyAll_append hsb hfront] at hall
    rcases hb : classifyAll after with e | back
    · simp [hb, Except.map] at hall
    · exact ⟨back, rfl, by simpa [hb, Except.map] using hall⟩
  rw [consume_append hq] at hr
  obtain ⟨hqd, hqx⟩ : q.settings.dumps = [] ∧ q.extras = [] := by
    have hkept := consume_keeps hr
    rwa [h.pathless, hrx, List.prefix_nil, List.prefix_nil] at hkept
  have hopen : Configures {} front q.settings :=
    configures_of_consume hq hqd hqx (classifyAll_ne_separator hsb hfront)
  have hclose : Configures q.settings back r.settings :=
    configures_of_consume hr h.pathless hrx (classifyAll_ne_separator hsa hback)
  -- With paths in between, the options before leave the run of paths ahead, and those after find
  -- the paths as dumps.
  have hclassified : classifyAll (before ++ paths ++ after) =
      .ok (front ++ (paths.map fun path => (path, .positional)) ++ back) := by
    rw [List.append_assoc, classifyAll_append hsb hfront,
      classifyAll_append hsp (classifyAll_paths hp), hback]
    simp [Except.map]
  obtain ⟨run, hrun, hfirst⟩ := hopen.consume .ahead []
  obtain ⟨run', -, hlast⟩ :=
    (hclose.withDumps paths).consume (if paths = [] then run else .inside) []
  refine parse_eq_ok_iff.2 ⟨_, ⟨r.settings.withDumps paths, run', []⟩, hclassified, ?_, rfl, rfl⟩
  have hpaths := consume_paths ⟨q.settings, run, []⟩ paths (by rw [hrun rfl]; simp)
  rw [hqd, List.nil_append] at hpaths
  rw [List.append_assoc, consume_append hfirst, consume_append hpaths]
  exact hlast

end AttributeLint.CommandLine

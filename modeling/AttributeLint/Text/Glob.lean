/-!
# File name patterns

`*` matches any characters, `?` matches one, and a bracketed set matches one of its members, or one
that is not a member if the set starts with `!`. No character is special to these three: slashes and
line breaks match like others. A set extends to the next `]` behind its first place; if there is
none, the bracket stands for itself. Inside a set two characters around a hyphen span a range; a
range in descending order is empty, and so is a set of nothing else. The whole name must match.
-/

namespace AttributeLint.Text.Glob

/-- A set of characters: those listed and those in a range, or all others. -/
structure CharSet where
  negated : Bool
  members : List Char
  ranges : List (Char × Char)
  deriving DecidableEq, Repr

/-- Membership in a set. -/
def CharSet.contains (s : CharSet) (c : Char) : Bool :=
  s.negated != (s.members.contains c || s.ranges.any fun r => decide (r.1 ≤ c ∧ c ≤ r.2))

/-- A part of a pattern. -/
inductive Part where
  /-- Any run of characters. -/
  | run
  /-- One character of a set. -/
  | one (set : CharSet)
  deriving DecidableEq, Repr

/-- The set of all characters. -/
def anyChar : CharSet := ⟨true, [], []⟩

/-- The set of one character. -/
def onlyChar (c : Char) : CharSet := ⟨false, [c], []⟩

/-! ## Sets -/

/-- Cuts a set's text at the hyphens that may span a range: the next one that leaves at least
`skip` characters before it, and then again behind it. -/
def cutRanges (skip : Nat) (cs : List Char) : List (List Char) :=
  match h : (cs.drop skip).findIdx? (· == '-') with
  | none => [cs]
  | some k => cs.take (skip + k) :: cutRanges 2 (cs.drop (skip + k + 1))
termination_by cs.length
decreasing_by
  have := (List.findIdx?_eq_some_iff_getElem.mp h).1
  simp only [List.length_drop] at this ⊢
  omega

/-- A hyphen at the end of a set stands for itself. -/
def keepFinalHyphen : List (List Char) → List (List Char)
  | [] => []
  | [chunk] => [chunk]
  | [chunk, []] => [chunk ++ ['-']]
  | chunk :: rest => chunk :: keepFinalHyphen rest

/-- Removes the ranges between chunks that are in descending order, from the right. -/
def dropEmptyRanges : List (List Char) → List (List Char)
  | [] => []
  | chunk :: rest =>
      match dropEmptyRanges rest with
      | [] => [chunk]
      | next :: more =>
          match chunk.getLast?, next.head? with
          | some a, some b =>
              if b < a then (chunk.dropLast ++ next.tail) :: more else chunk :: next :: more
          | _, _ => chunk :: next :: more

/-- The ranges between neighbouring chunks. -/
def rangesBetween : List (List Char) → List (Char × Char)
  | chunk :: next :: more =>
      match chunk.getLast?, next.head? with
      | some a, some b => (a, b) :: rangesBetween (next :: more)
      | _, _ => rangesBetween (next :: more)
  | _ => []

/-- The set written between brackets. -/
def charSet (body : List Char) : CharSet :=
  let skip := if body.head? = some '!' then 2 else 1
  match dropEmptyRanges (keepFinalHyphen (cutRanges skip body)) with
  | ('!' :: first) :: more =>
      if first.isEmpty && !more.isEmpty then ⟨true, '-' :: more.flatten, rangesBetween more⟩
      else ⟨true, first ++ more.flatten, rangesBetween (first :: more)⟩
  | chunks => ⟨false, chunks.flatten, rangesBetween chunks⟩

/-! ## Patterns -/

/-- The body of a set behind its opening bracket, and the text behind its closing one. -/
def setBody? (cs : List Char) : Option (List Char × List Char) :=
  let bang := cs.takeWhile (· == '!') |>.take 1
  let afterBang := cs.drop bang.length
  let bracket := afterBang.takeWhile (· == ']') |>.take 1
  let afterBracket := afterBang.drop bracket.length
  match afterBracket.dropWhile (· != ']') with
  | [] => none
  | _ :: rest => some (bang ++ bracket ++ afterBracket.takeWhile (· != ']'), rest)

/-- The body of a set is followed by less than there was. -/
theorem setBody?_length {cs body rest : List Char} (h : setBody? cs = some (body, rest)) :
    rest.length < cs.length := by
  unfold setBody? at h
  dsimp only at h
  split at h
  · simp at h
  · rename_i c more hd
    simp only [Option.some.injEq, Prod.mk.injEq] at h
    have hle := (List.dropWhile_suffix (fun x : Char => x != ']') (l := List.drop
      (List.take 1 (List.takeWhile (fun x => x == ']')
        (List.drop (List.take 1 (List.takeWhile (fun x => x == '!') cs)).length cs))).length
      (List.drop (List.take 1 (List.takeWhile (fun x => x == '!') cs)).length cs))).length_le
    rw [hd] at hle
    simp only [List.length_cons, List.length_drop] at hle
    rw [← h.2]
    omega

/-- The parts of a pattern. -/
def parts : List Char → List Part
  | [] => []
  | c :: rest =>
      if c = '*' then .run :: parts rest
      else if c = '?' then .one anyChar :: parts rest
      else if c = '[' then
        match _h : setBody? rest with
        | some (body, after) => .one (charSet body) :: parts after
        | none => .one (onlyChar c) :: parts rest
      else .one (onlyChar c) :: parts rest
termination_by cs => cs.length
decreasing_by
  all_goals simp_wf
  have := setBody?_length _h
  omega

/-! ## Matching

A run takes any characters, so what follows it may start anywhere later. It is enough to look for
the first place where the characters up to the next run fit: a match with a later place is a match
with the first one, whose rest the next run can take. So no choice is ever taken back. -/

/-- A pattern cut at its runs: the characters before the first run, and those after each run. -/
structure Stretches where
  first : List CharSet
  later : List (List CharSet)
  deriving DecidableEq, Repr

/-- Cuts a pattern at its runs. -/
def stretches : List Part → Stretches
  | [] => ⟨[], []⟩
  | .run :: more => ⟨[], (stretches more).first :: (stretches more).later⟩
  | .one set :: more => ⟨set :: (stretches more).first, (stretches more).later⟩

/-- The text behind a stretch that it starts with. -/
def behind? : List CharSet → List Char → Option (List Char)
  | [], cs => some cs
  | _ :: _, [] => none
  | set :: more, c :: cs => if set.contains c then behind? more cs else none

/-- The text behind the first place where a stretch fits. -/
def behindFirst? (stretch : List CharSet) : List Char → Option (List Char)
  | [] => behind? stretch []
  | c :: cs =>
      match behind? stretch (c :: cs) with
      | some rest => some rest
      | none => behindFirst? stretch cs

/-- Does a stretch fit the end of a text? -/
def fitsEnd (stretch : List CharSet) (cs : List Char) : Bool :=
  decide (stretch.length ≤ cs.length)
    && (behind? stretch (cs.drop (cs.length - stretch.length))).isSome

/-- Do stretches, each after a run, match the whole text? Without a run nothing may be left. -/
def matchLater : List (List CharSet) → List Char → Bool
  | [], cs => cs.isEmpty
  | [last], cs => fitsEnd last cs
  | stretch :: next :: more, cs =>
      match behindFirst? stretch cs with
      | some rest => matchLater (next :: more) rest
      | none => false

/-- Does a pattern match the whole text? -/
def Stretches.matches (s : Stretches) (cs : List Char) : Bool :=
  match behind? s.first cs with
  | some rest => matchLater s.later rest
  | none => false

/-- Does the pattern match the whole name? -/
def matchesName (pattern name : String) : Bool :=
  (stretches (parts pattern.toList)).matches name.toList

/-! ## What it means to match -/

/-- The parts of a pattern match a whole text. -/
inductive Matches : List Part → List Char → Prop where
  | nil : Matches [] []
  | one {set : CharSet} {c : Char} {ps : List Part} {cs : List Char} :
      set.contains c = true → Matches ps cs → Matches (.one set :: ps) (c :: cs)
  /-- A run ends. -/
  | stop {ps : List Part} {cs : List Char} : Matches ps cs → Matches (.run :: ps) cs
  /-- A run takes a character. -/
  | take {c : Char} {ps : List Part} {cs : List Char} :
      Matches (.run :: ps) cs → Matches (.run :: ps) (c :: cs)

/-- The parts that stretches after runs stand for. -/
def laterParts : List (List CharSet) → List Part
  | [] => []
  | stretch :: more => .run :: (stretch.map .one ++ laterParts more)

/-- The stretches of a pattern put together are the pattern. -/
theorem stretches_parts (ps : List Part) :
    (stretches ps).first.map .one ++ laterParts (stretches ps).later = ps := by
  induction ps with
  | nil => rfl
  | cons p more ih => cases p <;> simp [stretches, laterParts, ih]

/-- The empty pattern matches the empty text only. -/
theorem matches_nil_iff {cs : List Char} : Matches [] cs ↔ cs = [] :=
  ⟨fun h => by cases h; rfl, fun h => h ▸ .nil⟩

/-- A run leaves some end of the text to the parts after it. -/
theorem matches_run_iff {ps : List Part} {cs : List Char} :
    Matches (.run :: ps) cs ↔ ∃ t, t <:+ cs ∧ Matches ps t := by
  constructor
  · intro h
    generalize hq : Part.run :: ps = qs at h
    induction h with
    | nil => cases hq
    | one => cases hq
    | stop h =>
      cases hq
      exact ⟨_, List.suffix_refl _, h⟩
    | take _ ih =>
      obtain ⟨t, ht, hm⟩ := ih hq
      exact ⟨t, ht.trans (List.suffix_cons _ _), hm⟩
  · rintro ⟨t, ⟨front, rfl⟩, hm⟩
    induction front with
    | nil => exact .stop hm
    | cons c front ih => exact .take ih

/-- What a run matches it also matches behind more characters. -/
theorem Matches.run_of_suffix {ps : List Part} {cs ds : List Char} (h : Matches (.run :: ps) cs)
    (hs : cs <:+ ds) : Matches (.run :: ps) ds := by
  obtain ⟨t, ht, hm⟩ := matches_run_iff.1 h
  exact matches_run_iff.2 ⟨t, ht.trans hs, hm⟩

/-- A stretch at the start takes its characters and leaves the rest to the parts after it. -/
theorem matches_stretch_iff {stretch : List CharSet} {ps : List Part} {cs : List Char} :
    Matches (stretch.map .one ++ ps) cs ↔
      ∃ rest, behind? stretch cs = some rest ∧ Matches ps rest := by
  induction stretch generalizing cs with
  | nil => simp [behind?]
  | cons set more ih =>
    cases cs with
    | nil =>
      simp only [behind?]
      exact ⟨fun h => (nomatch h), fun ⟨_, h, _⟩ => (nomatch h)⟩
    | cons c cs =>
      simp only [behind?]
      constructor
      · intro h
        cases h with
        | one hc h => simpa [hc] using ih.1 h
      · rintro ⟨rest, h, hm⟩
        split at h
        · exact .one ‹_› (ih.2 ⟨rest, h, hm⟩)
        · cases h

/-- A stretch takes one character for each of its sets. -/
theorem behind?_length {stretch : List CharSet} {cs rest : List Char}
    (h : behind? stretch cs = some rest) : cs.length = stretch.length + rest.length := by
  fun_induction behind? stretch cs with
  | case1 cs => cases h; simp
  | case2 => cases h
  | case3 set more c cs _ ih => simp only [List.length_cons, ih h]; omega
  | case4 => cases h

/-- What is behind a stretch is an end of the text. -/
theorem behind?_suffix {stretch : List CharSet} {cs rest : List Char}
    (h : behind? stretch cs = some rest) : rest <:+ cs := by
  fun_induction behind? stretch cs with
  | case1 cs => cases h; exact List.suffix_refl _
  | case2 => cases h
  | case3 set more c cs _ ih => exact (ih h).trans (List.suffix_cons _ _)
  | case4 => cases h

/-- The first place where a stretch fits is a place of the text. -/
theorem behindFirst?_eq_some {stretch : List CharSet} {cs rest : List Char}
    (h : behindFirst? stretch cs = some rest) : ∃ t, t <:+ cs ∧ behind? stretch t = some rest := by
  fun_induction behindFirst? stretch cs with
  | case1 => exact ⟨[], List.suffix_refl _, h⟩
  | case2 c cs r hr => exact ⟨c :: cs, List.suffix_refl _, hr.trans h⟩
  | case3 c cs _ ih =>
    obtain ⟨t, ht, hb⟩ := ih h
    exact ⟨t, ht.trans (List.suffix_cons _ _), hb⟩

/-- If a stretch fits somewhere, the first place where it fits leaves at least as much text. -/
theorem behindFirst?_of_suffix {stretch : List CharSet} {cs t rest : List Char} (ht : t <:+ cs)
    (h : behind? stretch t = some rest) :
    ∃ longer, behindFirst? stretch cs = some longer ∧ rest <:+ longer := by
  fun_induction behindFirst? stretch cs with
  | case1 =>
    rw [List.suffix_nil.1 ht] at h
    exact ⟨rest, h, List.suffix_refl _⟩
  | case2 c cs r hr =>
    refine ⟨r, rfl,
      List.suffix_of_suffix_length_le ((behind?_suffix h).trans ht) (behind?_suffix hr) ?_⟩
    have h1 := behind?_length h
    have h2 := behind?_length hr
    have h3 := ht.length_le
    omega
  | case3 c cs hn ih =>
    rcases List.suffix_cons_iff.1 ht with rfl | ht
    · rw [hn] at h
      cases h
    · exact ih ht

/-- A stretch fits the end exactly if it fits some end of the text and leaves nothing. -/
theorem fitsEnd_iff {stretch : List CharSet} {cs : List Char} :
    fitsEnd stretch cs = true ↔ ∃ t, t <:+ cs ∧ behind? stretch t = some [] := by
  simp only [fitsEnd, Bool.and_eq_true, decide_eq_true_eq, Option.isSome_iff_exists]
  constructor
  · rintro ⟨hle, rest, h⟩
    have hlen := behind?_length h
    rw [List.length_drop] at hlen
    have : rest = [] := List.eq_nil_of_length_eq_zero (by omega)
    exact ⟨_, List.drop_suffix _ _, this ▸ h⟩
  · rintro ⟨t, ht, h⟩
    have hlen := behind?_length h
    have hle := ht.length_le
    rw [List.length_nil] at hlen
    have hdrop := List.suffix_iff_eq_drop.1 ht
    rw [hlen, Nat.add_zero] at hdrop
    exact ⟨by omega, [], hdrop ▸ h⟩

/-- The search for the later stretches, each at the first place where it fits, decides the match
with the parts that they stand for. -/
theorem matchLater_iff {later : List (List CharSet)} {cs : List Char} :
    matchLater later cs = true ↔ Matches (laterParts later) cs := by
  fun_induction matchLater later cs with
  | case1 cs => simp [laterParts, matches_nil_iff]
  | case2 last cs =>
    simp only [laterParts, matches_run_iff, matches_stretch_iff, matches_nil_iff, fitsEnd_iff,
      exists_eq_right]
  | case3 stretch next more cs rest hr ih =>
    rw [ih]
    constructor
    · intro hm
      obtain ⟨t, ht, hb⟩ := behindFirst?_eq_some hr
      exact matches_run_iff.2 ⟨t, ht, matches_stretch_iff.2 ⟨rest, hb, hm⟩⟩
    · intro hm
      obtain ⟨t, ht, hm⟩ := matches_run_iff.1 hm
      obtain ⟨r, hb, hm⟩ := matches_stretch_iff.1 hm
      obtain ⟨longer, hl, hs⟩ := behindFirst?_of_suffix ht hb
      rw [hr, Option.some.injEq] at hl
      exact hm.run_of_suffix (hl ▸ hs)
  | case4 stretch next more cs hn =>
    simp only [Bool.false_eq_true, false_iff]
    intro hm
    obtain ⟨t, ht, hm⟩ := matches_run_iff.1 hm
    obtain ⟨r, hb, -⟩ := matches_stretch_iff.1 hm
    obtain ⟨longer, hl, -⟩ := behindFirst?_of_suffix ht hb
    rw [hn] at hl
    cases hl

/-- Matching from left to right, without taking a choice back, finds every match. -/
theorem matchesName_iff {pattern name : String} :
    matchesName pattern name = true ↔ Matches (parts pattern.toList) name.toList := by
  rw [← stretches_parts (parts pattern.toList), matches_stretch_iff, matchesName, Stretches.matches]
  split
  · rename_i rest h
    simp [h, matchLater_iff]
  · rename_i h
    simp [h]

end AttributeLint.Text.Glob

import AttributeLint.Element
import AttributeLint.Options
import AttributeLint.Vocabulary.Standard

/-!
# Verdicts

The judgement of one attribute. The first rule that applies decides:

1. an ignored name is accepted;
2. a custom data name is accepted;
3. a name that starts with `aria-` is accepted if it is one of the accessibility names, and unknown
   otherwise;
4. `class` is accepted on a customized built-in element;
5. a name whose lookup key leads nowhere is unknown, and one that is not an accepted spelling of
   the attribute its key leads to is to be renamed;
6. an accepted spelling is misplaced on a tag that the attribute is not valid on.

A rename is suggested before the tag is looked at, so the tag is judged once the name is right.
-/

namespace AttributeLint

/-- The judgement of an attribute. -/
inductive Verdict where
  | ok
  /-- No attribute is meant. -/
  | unknown
  /-- The attribute `name` is meant and spelled otherwise. -/
  | rename (name : String)
  /-- The attribute `name` is valid on `tags` only. -/
  | misplaced (name : String) (tags : List String)
  deriving DecidableEq, Repr

namespace Verdict

/-- Is there nothing to complain about? -/
def isOk : Verdict → Bool
  | .ok => true
  | _ => false

/-- The name to use instead. -/
def suggestion? : Verdict → Option String
  | .rename name => some name
  | _ => none

/-- A misplaced attribute must be valid somewhere. -/
def misplacedOn (name : String) (tags : List String) : Except Fault Verdict :=
  if tags.isEmpty then .error (.noAllowedTag name) else .ok (.misplaced name tags)

/-- The judgement of a spelling by the entry that its key leads to. -/
def ofEntry (e : Entry) (tag : Option String) (name : String) : Except Fault Verdict :=
  if !e.accepts name then .ok (.rename e.name)
  else if e.allows tag then .ok .ok
  else misplacedOn e.name e.tagOrder

end Verdict

/-- The spelling that customized built-in elements may keep. -/
def classSpelling : String := "class"

/-- The judgement of a name by lookup. -/
def judgeByKey (v : Vocabulary) (tag : Option String) (name : String) : Except Fault Verdict := do
  let key ← Name.key? name
  match ← v.find key with
  | none => return .unknown
  | some e => Verdict.ofEntry e tag name

/-- The judgement of a name on an intrinsic element. -/
def judgeName (o : Options) (v : Vocabulary) (c : Context) (name : String) : Except Fault Verdict :=
  if o.ignores name then .ok .ok
  else if Name.isData name then .ok .ok
  else if Name.isAria name then .ok (if v.hasAria name then .ok else .unknown)
  else if c.marker && name == classSpelling then .ok .ok
  else judgeByKey v c.tag name

/-- The judgement of an occurrence. Spreads and the attributes of components are not judged. -/
def judge (o : Options) (v : Vocabulary) (c : Context) (occ : Occurrence) : Except Fault Verdict :=
  match occ with
  | .spread location => .error (.spreadJudged location)
  | .named a => if c.component then .error (.componentJudged c.tag) else judgeName o v c a.name

/-- The judgements of attributes in one context, in order; the first fault counts. -/
def judgeAll (o : Options) (v : Vocabulary) (c : Context) :
    List Attribute → Except Fault (List (Attribute × Verdict))
  | [] => .ok []
  | a :: rest => do
      let verdict ← judge o v c (.named a)
      return (a, verdict) :: (← judgeAll o v c rest)

/-- The judgements of an element's named attributes; none on a component. -/
def Element.verdicts (o : Options) (v : Vocabulary) (e : Element) :
    Except Fault (List (Attribute × Verdict)) :=
  if e.context.component then .ok [] else judgeAll o v e.context e.attributes

end AttributeLint

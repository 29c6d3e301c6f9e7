import AttributeLint.Fault

/-!
# Elements

What a host hands over: the opening of an element with its attributes in source order. An
attribute is named, or it is a spread whose names are not known. Only intrinsic elements are
checked. A tag is intrinsic when it starts with a lowercase letter and has no dot and no hyphen;
every other element, and one whose tag is not known, is a component.
-/

namespace AttributeLint

/-- A named attribute. -/
structure Attribute where
  /-- The name as written. -/
  name : String
  /-- A name has at least one character. -/
  name_ne : name ≠ ""
  /-- The value the host recorded; it is carried along and never looked at. -/
  value : Json := .null
  /-- The characters of the name in the source. -/
  span : Option Span := none
  location : Location := {}

/-- One attribute position of an element. -/
inductive Occurrence where
  | named (a : Attribute)
  | spread (location : Location)

/-- The opening of an element. -/
structure Element where
  tag : Option String
  occurrences : List Occurrence := []
  location : Location := {}

/-- How an element's attributes are to be treated. -/
structure Context where
  tag : Option String
  component : Bool
  /-- The element names a customized built-in by an `is` attribute. -/
  marker : Bool := false
  deriving DecidableEq, Repr

/-- An attribute from a recorded name, which must be a text with at least one character. -/
def Attribute.ofRecord (name value : Json) (span : Option Span) (location : Location) :
    Except Fault Attribute :=
  match name with
  | .str s =>
      if h : s = "" then .error (.unnamed name location) else .ok ⟨s, h, value, span, location⟩
  | _ => .error (.unnamed name location)

/-- The attribute, unless it is a spread. -/
def Occurrence.attribute? : Occurrence → Option Attribute
  | .named a => some a
  | .spread _ => none

/-- The named attributes, in source order. -/
def Element.attributes (e : Element) : List Attribute :=
  e.occurrences.filterMap Occurrence.attribute?

/-- A lowercase ASCII letter, then no dot and no hyphen. -/
def isIntrinsicTag (tag : String) : Bool :=
  match tag.toList with
  | [] => false
  | c :: rest => c.isLower && rest.all fun d => d != '.' && d != '-'

/-- The attribute that marks a customized built-in element. -/
def markerName : String := "is"

/-- Classification by tag and occurrences. -/
def Context.classify (tag : Option String) (occurrences : List Occurrence) : Context :=
  if tag.any isIntrinsicTag then
    { tag := tag
      component := false
      marker := (occurrences.filterMap Occurrence.attribute?).any fun a => a.name == markerName }
  else { tag := tag, component := true }

/-- The context of an element. -/
def Element.context (e : Element) : Context :=
  Context.classify e.tag e.occurrences

end AttributeLint

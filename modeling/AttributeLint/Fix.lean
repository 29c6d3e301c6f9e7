import AttributeLint.Fault

/-!
# Fixes

A fix proposes a text for a span of the source; a fix without a span is a proposal that cannot be
carried out. `applyFixes` carries out a set of fixes at once. It refuses fixes without a span, spans
beyond the end of the source and neighbours that overlap, in that order, and otherwise copies the
source with each span replaced. Fixes that start at one place keep the order in which they came.
-/

namespace AttributeLint

/-- Put `text` in the place of `span`. -/
structure Fix where
  text : String
  span : Option Span := none
  deriving DecidableEq, Repr

/-- A fix as JSON. -/
def Fix.json (f : Fix) : Json :=
  .obj [("range", match f.span with
    | some s => s.json
    | none => .null), ("text", .str f.text)]

/-- A replacement that can be carried out. -/
structure Edit where
  span : Span
  text : String
  deriving DecidableEq, Repr

namespace Edit

/-- A fix as an edit of a source with `length` characters. -/
def ofFix (length : Nat) (f : Fix) : Except Fault Edit :=
  match f.span with
  | none => .error (.unrangedFix f.text)
  | some s => if length < s.stop then .error (.fixBeyondEnd s length) else .ok ⟨s, f.text⟩

/-- Fixes as edits, in order; the first one that is none counts. -/
def ofFixes (length : Nat) : List Fix → Except Fault (List Edit)
  | [] => .ok []
  | f :: rest =>
      match ofFix length f with
      | .error e => .error e
      | .ok edit =>
          match ofFixes length rest with
          | .error e => .error e
          | .ok edits => .ok (edit :: edits)

/-- Edits in ascending order of their starts; the order of equal starts stays. -/
def arrange (edits : List Edit) : List Edit :=
  edits.mergeSort fun a b => decide (a.span.start ≤ b.span.start)

/-- The first two neighbours that overlap. -/
def clash? : List Edit → Option (Edit × Edit)
  | a :: b :: rest => if a.span.overlaps b.span then some (a, b) else clash? (b :: rest)
  | _ => none

/-- Copies a source from position `pos` on, with edits carried out in the given order. Behind an
edit the copy goes on at the end of its span. -/
def splice (source : List Char) (pos : Nat) : List Edit → List Char
  | [] => source.drop pos
  | e :: rest =>
      (source.take e.span.start).drop pos ++ e.text.toList ++ splice source e.span.stop rest

end Edit

/-- The source with every fix carried out. -/
def carryOut (source : String) (fixes : List Fix) : Except Fault String :=
  match Edit.ofFixes source.length fixes with
  | .error e => .error e
  | .ok edits =>
      match Edit.clash? (Edit.arrange edits) with
      | some (a, b) => .error (.overlappingFixes a.span b.span)
      | none => .ok (String.ofList (Edit.splice source.toList 0 (Edit.arrange edits)))

/-- The source with every fix carried out, for a host. -/
def applyFixes (limits : Limits) (source : String) (fixes : List Fix) : Except Fault String :=
  Fault.raise limits (carryOut source fixes)

end AttributeLint

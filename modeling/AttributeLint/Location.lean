import AttributeLint.Limits

/-!
# Places in source text

A location says where something starts, for messages; a span says which characters it covers, for
edits. Lines and columns come from a host and are not interpreted. Spans are half-open ranges of
character offsets.
-/

namespace AttributeLint

/-- A point of a source file. Column zero means that no column is known. -/
structure Location where
  file : String := ""
  line : Int := 0
  column : Int := 0
  deriving DecidableEq, Repr, Inhabited

/-- `file:line:column`, without the column if none is known. -/
def Location.text (l : Location) : String :=
  if l.column = 0 then l.file ++ ":" ++ toString l.line
  else l.file ++ ":" ++ toString l.line ++ ":" ++ toString l.column

/-- The limit that writing a location passes. -/
def Location.excess? (limits : Limits) (l : Location) : Option Excess :=
  (limits.ofInt? l.line).or (if l.column = 0 then none else limits.ofInt? l.column)

/-- The characters from offset `start` up to, and not including, offset `stop`. -/
structure Span where
  start : Nat
  stop : Nat
  start_le_stop : start ≤ stop
  deriving DecidableEq, Repr

namespace Span

/-- The span between two integers, if they are in order and not negative. -/
def ofInts? (start stop : Int) : Option Span :=
  if h : 0 ≤ start ∧ start ≤ stop then some ⟨start.toNat, stop.toNat, by omega⟩ else none

/-- The number of characters covered. -/
def length (s : Span) : Nat :=
  s.stop - s.start

/-- Each of the two starts before the other ends. An empty span overlaps what strictly contains
its place, and nothing else. -/
def overlaps (a b : Span) : Bool :=
  decide (a.start < b.stop ∧ b.start < a.stop)

end Span

end AttributeLint

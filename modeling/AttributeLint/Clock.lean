/-!
# Clocks

A clock counts ticks of 1/1024 second and moves by the same number of ticks whenever it is read.
What it shows and the time between two readings are doubles, so the times of a clock that has moved
far are as coarse as doubles of that size are.
-/

namespace AttributeLint

/-- A clock that moves when it is read. -/
structure Clock where
  /-- The ticks that the next reading shows. -/
  now : Int := 0
  /-- The ticks between two readings. -/
  step : Int := 0
  deriving DecidableEq, Repr

namespace Clock

/-- The seconds that the next reading shows. -/
def seconds (c : Clock) : Float :=
  Float.ofInt c.now / Float.ofNat 1024

/-- The clock after a number of readings. -/
def advance (c : Clock) (readings : Nat) : Clock :=
  { c with now := c.now + readings * c.step }

/-- The milliseconds between the next reading and the one after it. -/
def lap (c : Clock) : Float :=
  ((c.advance 1).seconds - c.seconds) * Float.ofNat 1000

end Clock

end AttributeLint

/-!
# Durations

A duration is a number of nanoseconds. It is shown in the largest unit that leaves a whole part, with as
many decimal places as it needs.
-/

namespace BuildRound

/-- A length of time in nanoseconds. -/
abbrev Nanos := Nat

namespace Nanos

def ofSeconds (n : Nat) : Nanos := n * 1000000000

def ofMillis (n : Nat) : Nanos := n * 1000000

def seconds (d : Nanos) : Nat := d / 1000000000

/-- The decimal places of `part / 10 ^ width`, without trailing zeros. -/
def places (width part : Nat) : String :=
  let digits := (Nat.toDigits 10 part)
  let padded := List.replicate (width - digits.length) '0' ++ digits
  let kept := (padded.reverse.dropWhile (· = '0')).reverse
  if kept.isEmpty then "" else "." ++ String.ofList kept

/-- `d` in a unit of `10 ^ width` nanoseconds. -/
def inUnit (width : Nat) (unit : String) (d : Nanos) : String :=
  toString (d / Nat.pow 10 width) ++ places width (d % Nat.pow 10 width) ++ unit

/-- The text of a duration, such as `1.5s`, `20ms` or `999ns`. -/
def text (d : Nanos) : String :=
  if d ≥ 1000000000 then inUnit 9 "s" d
  else if d ≥ 1000000 then inUnit 6 "ms" d
  else if d ≥ 1000 then inUnit 3 "µs" d
  else inUnit 0 "ns" d

end Nanos

end BuildRound

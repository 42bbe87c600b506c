/-!
# Time spans

A span is a number of seconds and nanoseconds.  It is shown in the largest unit of
which it holds at least one, with only as many decimal places as it needs.
-/

namespace AudioCatalog

/-- A length of time. -/
structure Span where
  seconds : Nat
  nanos : Nat
  nanos_lt : nanos < 1000000000

namespace Span

/-- The span of some seconds and nanoseconds; whole seconds among the nanoseconds are
carried over. -/
def ofParts (seconds nanos : Nat) : Span :=
  ⟨seconds + nanos / 1000000000, nanos % 1000000000, Nat.mod_lt _ (by decide)⟩

/-- The span of some milliseconds. -/
def ofMillis (millis : Nat) : Span :=
  ofParts (millis / 1000) (millis % 1000 * 1000000)

/-- Whether the span has no length. -/
def isZero (span : Span) : Bool :=
  span.seconds = 0 && span.nanos = 0

/-- A whole number with a fraction of `places` decimal places, without zeros at its
end. -/
def decimal (whole fraction places : Nat) : String :=
  let digits := Nat.toDigits 10 fraction
  let padded := List.replicate (places - digits.length) '0' ++ digits
  let kept := (padded.reverse.dropWhile (· = '0')).reverse
  if kept.isEmpty then toString whole
  else toString whole ++ "." ++ String.ofList kept

/-- The text of a span. -/
def text (span : Span) : String :=
  if 0 < span.seconds then decimal span.seconds span.nanos 9 ++ "s"
  else if 1000000 ≤ span.nanos then
    decimal (span.nanos / 1000000) (span.nanos % 1000000) 6 ++ "ms"
  else if 1000 ≤ span.nanos then decimal (span.nanos / 1000) (span.nanos % 1000) 3 ++ "µs"
  else toString span.nanos ++ "ns"

end Span

end AudioCatalog

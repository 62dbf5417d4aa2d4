import BuildPlan.Text

/-! # Spans of time

Spans are counted in nanoseconds, with whole seconds in 64 bits. They are shown in the largest unit
that leaves something before the decimal point.
-/
namespace BuildPlan

structure Span where
  seconds : Nat
  nanos : Nat
  seconds_lt : seconds < UInt64.size
  nanos_lt : nanos < 1_000_000_000
deriving DecidableEq

namespace Span

/-- A span of some seconds and nanoseconds, where a billion nanoseconds make another second. There
is none when the seconds no longer fit. -/
def ofParts? (seconds nanos : Nat) : Option Span :=
  if h : seconds + nanos / 1_000_000_000 < UInt64.size then
    some ⟨seconds + nanos / 1_000_000_000, nanos % 1_000_000_000, h, Nat.mod_lt _ (by decide)⟩
  else none

def ofSeconds (seconds : UInt64) : Span :=
  ⟨seconds.toNat, 0, seconds.toNat_lt_size, by decide⟩

def ofMillis (millis : UInt64) : Span where
  seconds := millis.toNat / 1000
  nanos := millis.toNat % 1000 * 1_000_000
  seconds_lt := Nat.lt_of_le_of_lt (Nat.div_le_self _ _) millis.toNat_lt_size
  nanos_lt := by have := Nat.mod_lt millis.toNat (show 1000 > 0 by decide); omega

def toNanos (s : Span) : Nat := s.seconds * 1_000_000_000 + s.nanos

private def decimal (whole places fraction : Nat) (unit : String) : String :=
  if fraction = 0 then toString whole ++ unit
  else toString whole ++ "." ++ Text.fractionDigits places fraction ++ unit

/-- The span with its unit: `1.5s`, `100ms`, `1µs`, `0ns`. -/
def text (s : Span) : String :=
  if 0 < s.seconds then decimal s.seconds 9 s.nanos "s"
  else if 1_000_000 ≤ s.nanos then decimal (s.nanos / 1_000_000) 6 (s.nanos % 1_000_000) "ms"
  else if 1000 ≤ s.nanos then decimal (s.nanos / 1000) 3 (s.nanos % 1000) "µs"
  else decimal s.nanos 0 0 "ns"

end Span

end BuildPlan

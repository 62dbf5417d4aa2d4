import BuildPlan.Text
import BuildPlan.Time.Date

/-! # Timestamps

A moment is a date and a time of day in UTC, to the nanosecond; a minute may have a leap second.
Moments are written as RFC 3339 has it. They are read with some freedom: numbers may lack leading
zeros, blanks may stand around them, a space may stand for the `T`, and the time is moved to UTC.
-/
namespace BuildPlan

/-- A moment in UTC. Its nanoseconds stay below `10 ^ 9`: a greater fraction of second 59 is part of
the leap second 60, and a greater one of any other second has no form in RFC 3339, so that no text
means it. -/
structure Timestamp where
  date : Date
  hour : Nat
  minute : Nat
  second : Nat
  nano : Nat
  hour_lt : hour < 24
  minute_lt : minute < 60
  second_le : second ≤ 60
  nano_le : nano ≤ 999_999_999
deriving DecidableEq

namespace Timestamp

/-- The parts of a moment, from the coarsest to the finest. -/
def parts (t : Timestamp) : List Int :=
  [t.date.year, t.date.month, t.date.day, t.hour, t.minute, t.second, t.nano]

instance : Ord Timestamp := ⟨compareOn parts⟩

instance : Std.TransOrd Timestamp := inferInstanceAs (Std.TransCmp (compareOn parts))

def ofParts? (date : Date) (hour minute second nano : Nat) : Option Timestamp :=
  if h : hour < 24 ∧ minute < 60 ∧ second ≤ 60 ∧ nano ≤ 999_999_999 then
    some ⟨date, hour, minute, second, nano, h.1, h.2.1, h.2.2.1, h.2.2.2⟩
  else none

def epoch : Timestamp :=
  ⟨.epoch, 0, 0, 0, 0, by decide, by decide, by decide, by decide⟩

def ofSeconds? (seconds : Nat) : Option Timestamp := do
  let date ← Date.epoch.addDays? (seconds / 86400)
  ofParts? date (seconds / 3600 % 24) (seconds / 60 % 60) (seconds % 60) 0

/-- The fraction of a second with the fewest of 0, 3, 6 or 9 digits that lose nothing. -/
def fractionText (nano : Nat) : String :=
  if nano = 0 then ""
  else if nano % 1_000_000 = 0 then "." ++ Text.padded 3 (nano / 1_000_000)
  else if nano % 1000 = 0 then "." ++ Text.padded 6 (nano / 1000)
  else "." ++ Text.padded 9 nano

/-- `YYYY-MM-DDTHH:MM:SS[.fraction]Z` -/
def text (t : Timestamp) : String :=
  t.date.text ++ "T" ++ Text.padded 2 t.hour ++ ":" ++ Text.padded 2 t.minute ++ ":" ++
    Text.padded 2 t.second ++ fractionText t.nano ++ "Z"

/-- The same moment in UTC, given the time of day at an offset of some minutes. -/
def toUtc? (t : Timestamp) (minutes : Int) : Option Timestamp := do
  guard (minutes.natAbs < 24 * 60)
  let total := t.hour * 60 + t.minute - minutes
  let date ←
    if total < 0 then t.date.previous?
    else if 24 * 60 ≤ total then t.date.next?
    else some t.date
  let ofDay := (total % (24 * 60)).toNat
  ofParts? date (ofDay / 60) (ofDay % 60) t.second t.nano

end Timestamp

/-! ### Reading -/

namespace Timestamp.Reader

def skipBlanks (cs : List Char) : List Char := cs.dropWhile Text.isBlank

/-- A number of at least one and at most `width` digits, after any blanks. -/
def number (width : Nat) (cs : List Char) : Option (Nat × List Char) :=
  let cs := skipBlanks cs
  let digits := (cs.take width).takeWhile Char.isDigit
  if digits.isEmpty then none else some (Text.decimalValue digits, cs.drop digits.length)

def literal (c : Char) (cs : List Char) : Option (List Char) :=
  match cs with
  | d :: rest => if d = c then some rest else none
  | [] => none

/-- A year has up to four digits, or a sign and any number of them. -/
def year (cs : List Char) : Option (Int × List Char) :=
  match skipBlanks cs with
  | '-' :: rest =>
    if rest.head?.any Char.isDigit then (number rest.length rest).map fun (n, r) => (-(n : Int), r)
    else none
  | '+' :: rest =>
    if rest.head?.any Char.isDigit then (number rest.length rest).map fun (n, r) => ((n : Int), r)
    else none
  | cs => (number 4 cs).map fun (n, r) => ((n : Int), r)

def date (cs : List Char) : Option (Date × List Char) := do
  let (y, cs) ← year cs
  let (m, cs) ← number 2 (← literal '-' (skipBlanks cs))
  let (d, cs) ← number 2 (← literal '-' (skipBlanks cs))
  return (← Date.ofParts? y m d, cs)

/-- The fraction of a second in nanoseconds; digits after the ninth are dropped. -/
def fraction (cs : List Char) : Option (Nat × List Char) :=
  match cs with
  | '.' :: rest =>
    let digits := rest.takeWhile Char.isDigit
    let kept := digits.take 9
    if digits.isEmpty then none
    else some (Text.decimalValue kept * Nat.pow 10 (9 - kept.length), rest.drop digits.length)
  | cs => some (0, cs)

/-- The offset from UTC in minutes. -/
def offset (cs : List Char) : Option (Int × List Char) :=
  match cs with
  | 'Z' :: rest | 'z' :: rest => some (0, rest)
  | c :: rest =>
    if (c :: rest).take 3 |>.map Char.toUpper |> (· == ['U', 'T', 'C']) then some (0, rest.drop 2)
    else if c = '+' || c = '-' || c = '−' then do
      let hours := rest.take 2
      let rest := (rest.drop 2).dropWhile fun c => c == ':' || Text.isBlank c
      let minutes := rest.take 2
      if hours.length = 2 && minutes.length = 2 && (hours ++ minutes).all Char.isDigit &&
          Text.decimalValue minutes < 60 then
        let total : Int := Text.decimalValue hours * 60 + Text.decimalValue minutes
        some (if c = '+' then total else -total, rest.drop 2)
      else none
    else none
  | [] => none

def moment (cs : List Char) : Option Timestamp := do
  let (d, cs) ← date cs
  let cs ← match cs with
    | 'T' :: rest | 't' :: rest | ' ' :: rest => some rest
    | _ => none
  let (hour, cs) ← number 2 cs
  let (minute, cs) ← number 2 (← literal ':' (skipBlanks cs))
  let (second, cs) ← number 2 (← literal ':' (skipBlanks cs))
  let (nano, cs) ← fraction cs
  let (minutes, cs) ← offset (skipBlanks cs)
  guard (skipBlanks cs).isEmpty
  (← ofParts? d hour minute second nano).toUtc? minutes

end Timestamp.Reader

def Timestamp.ofText? (s : String) : Option Timestamp := Timestamp.Reader.moment s.toList

end BuildPlan

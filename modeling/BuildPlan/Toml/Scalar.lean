import BuildPlan.Time.Timestamp
import BuildPlan.Toml.Basic

/-! # Unquoted TOML values

Truth values, integers in four bases, floating-point numbers, dates and times. Between two digits
of a number may stand one underscore.
-/
namespace BuildPlan.Toml.Scalar

/-- The digits of a row in which single underscores stand between digits. -/
def grouped? (isDigit : Char → Bool) : List Char → Option (List Char)
  | [] => none
  | [c] => if isDigit c then some [c] else none
  | c :: '_' :: rest => if isDigit c then (grouped? isDigit rest).map (c :: ·) else none
  | c :: rest => if isDigit c then (grouped? isDigit rest).map (c :: ·) else none

def wholeDigits? (cs : List Char) : Option (List Char) := do
  let digits ← grouped? Char.isDigit cs
  guard (digits.length = 1 || digits.head? != some '0')
  return digits

def withoutSign : List Char → Bool × List Char
  | '-' :: rest => (true, rest)
  | '+' :: rest => (false, rest)
  | cs => (false, cs)

def radix? : Char → Option Nat
  | 'x' => some 16
  | 'o' => some 8
  | 'b' => some 2
  | _ => none

/-- A number in another base than ten, without a sign. -/
def radixInteger? : List Char → Option Int
  | '0' :: r :: rest => do
    let radix ← radix? r
    let digits ← grouped? (fun c => (Text.hexValue? c).any (· < radix)) rest
    return ((digits.filterMap Text.hexValue?).foldl (fun n d => radix * n + d) 0 : Nat)
  | _ => none

def decimalInteger? (cs : List Char) : Option Int := do
  let (negative, unsigned) := withoutSign cs
  let value : Int := Text.decimalValue (← wholeDigits? unsigned)
  return if negative then -value else value

def integer? (cs : List Char) : Option Toml := do
  let value ← radixInteger? cs <|> decimalInteger? cs
  guard (Int64.minValue.toInt ≤ value ∧ value ≤ Int64.maxValue.toInt)
  return .integer value

def isGroupedChar (c : Char) : Bool := c.isDigit || c == '_'

/-- Whether `digits * 10 ^ exponent` is too great for a double, which holds what rounds to less than
`2 ^ 1024`. -/
def overflows (digits : List Char) (exponent : Int) : Bool :=
  let significant := digits.dropWhile (· == '0')
  let places := significant.length + exponent
  let bound := Nat.pow 2 1024 - Nat.pow 2 970
  if significant.isEmpty || places < 300 then false
  else if 310 < places then true
  else if 0 ≤ exponent then bound ≤ Text.decimalValue significant * Nat.pow 10 exponent.toNat
  else bound * Nat.pow 10 exponent.natAbs ≤ Text.decimalValue significant

def fraction? : List Char → Option (List Char × List Char)
  | '.' :: cs => do
    return (← grouped? Char.isDigit (cs.takeWhile isGroupedChar), cs.dropWhile isGroupedChar)
  | cs => some ([], cs)

def exponent? : List Char → Option Int
  | [] => some 0
  | e :: cs => do
    guard (e = 'e' || e = 'E')
    let (negative, unsigned) := withoutSign cs
    let value : Int := Text.decimalValue (← grouped? Char.isDigit unsigned)
    return if negative then -value else value

/-- A number with a fraction, an exponent or both; only negative ones may be too great. -/
def float? (cs : List Char) : Option Toml := do
  let (negative, unsigned) := withoutSign cs
  let float := Toml.float (String.ofList cs)
  if unsigned = "inf".toList || unsigned = "nan".toList then return float
  let whole ← wholeDigits? (unsigned.takeWhile isGroupedChar)
  let rest := unsigned.dropWhile isGroupedChar
  guard !rest.isEmpty
  let (fraction, rest) ← fraction? rest
  let exponent ← exponent? rest
  guard (negative || !overflows (whole ++ fraction) (exponent - fraction.length))
  return float

def digits? (width : Nat) (cs : List Char) : Option (Nat × List Char) :=
  let digits := cs.take width
  if digits.length = width && digits.all Char.isDigit then
    some (Text.decimalValue digits, cs.drop width)
  else none

open Timestamp.Reader (literal)

def afterDate? (cs : List Char) : Option (List Char) := do
  let (year, cs) ← digits? 4 cs
  let (month, cs) ← digits? 2 (← literal '-' cs)
  let (day, cs) ← digits? 2 (← literal '-' cs)
  let _ ← Date.ofParts? year month day
  return cs

def afterTime? (cs : List Char) : Option (List Char) := do
  let (hour, cs) ← digits? 2 cs
  let (minute, cs) ← digits? 2 (← literal ':' cs)
  let (second, cs) ← digits? 2 (← literal ':' cs)
  guard (hour < 24 ∧ minute < 60 ∧ second ≤ 60)
  match cs with
  | '.' :: rest => do
    guard (rest.head?.any Char.isDigit)
    return rest.dropWhile Char.isDigit
  | cs => return cs

def isOffset : List Char → Bool
  | ['Z'] | ['z'] => true
  | sign :: cs =>
    (sign == '+' || sign == '-') &&
      match digits? 2 cs with
      | some (hour, ':' :: cs) =>
        hour < 24 && ((digits? 2 cs).any fun (minute, rest) => minute < 60 && rest.isEmpty)
      | _ => false
  | [] => false

/-- Whether a text is a date, a time of day, or a date and a time with or without an offset. -/
def isMoment (cs : List Char) : Bool :=
  match afterDate? cs with
  | some [] => true
  | some (t :: cs) =>
    (t == 'T' || t == 't' || t == ' ') &&
      ((afterTime? cs).any fun rest => rest.isEmpty || isOffset rest)
  | none => afterTime? cs == some []

def moment? (cs : List Char) : Option Toml :=
  if isMoment cs then some (.moment (String.ofList cs)) else none

def ofLexeme? (cs : List Char) : Option Toml :=
  match String.ofList cs with
  | "true" => some (.bool true)
  | "false" => some (.bool false)
  | _ => integer? cs <|> float? cs <|> moment? cs

end BuildPlan.Toml.Scalar

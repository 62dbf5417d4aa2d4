import BuildPlan.Json.Basic
import BuildPlan.Text

/-! # The tokens of JSON

A text is cut into tokens one character at a time. Between tokens stand only spaces, tabs and line
ends; a string may not hold control characters.
-/
namespace BuildPlan.Json

inductive Token where
  | openBrace
  | closeBrace
  | openBracket
  | closeBracket
  | colon
  | comma
  | scalar (value : Json)

namespace Lexer

/-- The part of a string token that has been read: its characters backwards, the first half of a
surrogate pair that waits for the second, and whether every half has found the other. -/
structure Quoted where
  back : List Char
  high : Option Nat
  whole : Bool

inductive Mode where
  | between
  | quoted (q : Quoted)
  | escape (q : Quoted)
  /-- In a `\u` escape, with the digits read so far and their value. -/
  | unicode (q : Quoted) (digits value : Nat)
  | number (back : List Char)
  | word (back : List Char)

namespace Quoted

def empty : Quoted := ⟨[], none, true⟩

/-- Gives up a first half that no second half follows. -/
def settle (q : Quoted) : Quoted :=
  if q.high.isSome then ⟨q.back, none, false⟩ else q

def push (q : Quoted) (c : Char) : Quoted :=
  let q := q.settle
  ⟨c :: q.back, none, q.whole⟩

/-- Adds a UTF-16 code unit, joining the halves of a pair. -/
def pushUnit (q : Quoted) (unit : Nat) : Quoted :=
  if 0xD800 ≤ unit && unit < 0xDC00 then
    let q := q.settle
    ⟨q.back, some unit, q.whole⟩
  else if 0xDC00 ≤ unit && unit < 0xE000 then
    match q.high with
    | some high =>
      let code := 0x10000 + (high - 0xD800) * 0x400 + (unit - 0xDC00)
      ⟨Char.ofNat code :: q.back, none, q.whole⟩
    | none => ⟨q.back, none, false⟩
  else q.push (Char.ofNat unit)

def toJson (q : Quoted) : Json :=
  let q := q.settle
  .string (if q.whole then some (String.ofList q.back.reverse) else none)

end Quoted

def escaped? : Char → Option Char
  | '"' => some '"'
  | '\\' => some '\\'
  | '/' => some '/'
  | 'b' => some '\x08'
  | 'f' => some '\x0c'
  | 'n' => some '\n'
  | 'r' => some '\r'
  | 't' => some '\t'
  | _ => none

def isSpace (c : Char) : Bool := c == ' ' || c == '\t' || c == '\n' || c == '\r'

def isNumberChar (c : Char) : Bool :=
  c.isDigit || c == '-' || c == '+' || c == '.' || c == 'e' || c == 'E'

def afterExponent? (cs : List Char) : Option (List Char) :=
  match cs with
  | 'e' :: rest | 'E' :: rest =>
    let digits := match rest with
      | '+' :: r | '-' :: r => r
      | r => r
    match digits with
    | d :: r => if d.isDigit then some (r.dropWhile Char.isDigit) else none
    | [] => none
  | cs => some cs

def afterFraction? (cs : List Char) : Option (List Char) :=
  match cs with
  | '.' :: d :: rest => if d.isDigit then some (rest.dropWhile Char.isDigit) else none
  | ['.'] => none
  | cs => some cs

/-- The number that a text spells: digits without a needless zero in front, and perhaps a sign, a
fraction and an exponent. -/
def number? (lexeme : List Char) : Option Json :=
  let (negative, unsigned) := match lexeme with
    | '-' :: rest => (true, rest)
    | cs => (false, cs)
  let digits := unsigned.takeWhile Char.isDigit
  let rest := unsigned.dropWhile Char.isDigit
  if digits.isEmpty || (digits.head? == some '0' && 1 < digits.length) then none
  else if rest.isEmpty then
    some (.integer negative (Text.decimalValue digits))
  else
    match (afterFraction? rest).bind afterExponent? with
    | some [] => some (.decimal (String.ofList lexeme))
    | _ => none

def word? (lexeme : List Char) : Option Json :=
  match String.ofList lexeme with
  | "null" => some .null
  | "true" => some (.bool true)
  | "false" => some (.bool false)
  | _ => none

def mark? : Char → Option Token
  | '\x7b' => some .openBrace
  | '\x7d' => some .closeBrace
  | '[' => some .openBracket
  | ']' => some .closeBracket
  | ':' => some .colon
  | ',' => some .comma
  | _ => none

/-- Reads the first character of a token, or one between tokens. -/
def start (c : Char) : Option (Mode × List Token) :=
  if isSpace c then some (.between, [])
  else if c = '"' then some (.quoted .empty, [])
  else if c.isDigit || c = '-' then some (.number [c], [])
  else if c.isAlpha then some (.word [c], [])
  else (mark? c).map fun token => (.between, [token])

/-- Ends a token that the next character does not belong to. -/
def finish : Mode → Option (List Token)
  | .between => some []
  | .number back => (number? back.reverse).map fun j => [.scalar j]
  | .word back => (word? back.reverse).map fun j => [.scalar j]
  | _ => none

def restart (mode : Mode) (c : Char) : Option (Mode × List Token) := do
  let done ← finish mode
  let (mode, tokens) ← start c
  return (mode, done ++ tokens)

def step : Mode → Char → Option (Mode × List Token)
  | .between, c => start c
  | .quoted q, c =>
    if c = '"' then some (.between, [.scalar q.toJson])
    else if c = '\\' then some (.escape q, [])
    else if c.toNat < 0x20 then none
    else some (.quoted (q.push c), [])
  | .escape q, c =>
    if c = 'u' then some (.unicode q 0 0, [])
    else (escaped? c).map fun d => (.quoted (q.push d), [])
  | .unicode q digits value, c => do
    let value := 16 * value + (← Text.hexValue? c)
    if digits < 3 then return (.unicode q (digits + 1) value, [])
    else return (.quoted (q.pushUnit value), [])
  | .number back, c =>
    if isNumberChar c then some (.number (c :: back), []) else restart (.number back) c
  | .word back, c =>
    if c.isAlpha then some (.word (c :: back), []) else restart (.word back) c

/-- Reads on in some mode, with the tokens read before in `back`, the last one first. -/
def scan (mode : Mode) (back : List Token) : List Char → Option (List Token)
  | [] => (finish mode).map fun tokens => back.reverse ++ tokens
  | c :: rest =>
    match step mode c with
    | some (mode, tokens) => scan mode (tokens.reverse ++ back) rest
    | none => none

end Lexer

def tokens? (s : String) : Option (List Token) := Lexer.scan .between [] s.toList

end BuildPlan.Json

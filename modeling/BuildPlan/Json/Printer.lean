import BuildPlan.Json.Basic

/-! # Writing JSON

A value is written on one line, or laid out with each item and field on a line of its own, indented
by two spaces for every array or object around it.
-/
namespace BuildPlan.Json

namespace Printer

def hexDigit (n : Nat) : Char := (Nat.digitChar (n % 16))

/-- The characters that stand for one character inside a string. -/
def escape (c : Char) : List Char :=
  match c with
  | '"' => ['\\', '"']
  | '\\' => ['\\', '\\']
  | '\x08' => ['\\', 'b']
  | '\x0c' => ['\\', 'f']
  | '\n' => ['\\', 'n']
  | '\r' => ['\\', 'r']
  | '\t' => ['\\', 't']
  | c =>
    if c.toNat < 0x20 then ['\\', 'u', '0', '0', hexDigit (c.toNat / 16), hexDigit c.toNat]
    else [c]

def quote (s : String) : String :=
  "\"" ++ String.ofList (s.toList.flatMap escape) ++ "\""

/-- A string without a text is written as half a surrogate pair. -/
def string (text : Option String) : String :=
  match text with
  | some s => quote s
  | none => "\"\\ud800\""

def integer (negative : Bool) (magnitude : Nat) : String :=
  (if negative then "-" else "") ++ toString magnitude

def newline (depth : Nat) : String := "\n" ++ String.ofList (List.replicate (2 * depth) ' ')

mutual

def compact : Json → String
  | .null => "null"
  | .bool b => if b then "true" else "false"
  | .integer negative magnitude => integer negative magnitude
  | .decimal lexeme => lexeme
  | .string text => string text
  | .array items => "[" ++ compactItems items ++ "]"
  | .object fields => "\x7b" ++ compactFields fields ++ "\x7d"

def compactItems : List Json → String
  | [] => ""
  | [j] => compact j
  | j :: rest => compact j ++ "," ++ compactItems rest

def compactFields : List (Option String × Json) → String
  | [] => ""
  | [(key, j)] => string key ++ ":" ++ compact j
  | (key, j) :: rest => string key ++ ":" ++ compact j ++ "," ++ compactFields rest

end

mutual

def pretty (depth : Nat) : Json → String
  | .null => "null"
  | .bool b => if b then "true" else "false"
  | .integer negative magnitude => integer negative magnitude
  | .decimal lexeme => lexeme
  | .string text => string text
  | .array [] => "[]"
  | .array items => "[" ++ prettyItems (depth + 1) items ++ newline depth ++ "]"
  | .object [] => "\x7b\x7d"
  | .object fields => "\x7b" ++ prettyFields (depth + 1) fields ++ newline depth ++ "\x7d"

def prettyItems (depth : Nat) : List Json → String
  | [] => ""
  | [j] => newline depth ++ pretty depth j
  | j :: rest => newline depth ++ pretty depth j ++ "," ++ prettyItems depth rest

def prettyFields (depth : Nat) : List (Option String × Json) → String
  | [] => ""
  | [(key, j)] => newline depth ++ string key ++ ": " ++ pretty depth j
  | (key, j) :: rest =>
    newline depth ++ string key ++ ": " ++ pretty depth j ++ "," ++ prettyFields depth rest

end

end Printer

def compact (j : Json) : String := Printer.compact j

def pretty (j : Json) : String := Printer.pretty 0 j

end BuildPlan.Json

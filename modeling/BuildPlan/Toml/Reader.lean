import BuildPlan.Toml.Lexer
import BuildPlan.Toml.Scalar
import BuildPlan.Toml.Table

/-! # Reading TOML

The tokens of a text are put together by a machine with a stack. The stack holds what has begun on
the line, the innermost first: the key of the line, arrays, and tables in braces.
-/
namespace BuildPlan.Toml

namespace Reader

/-- Keys are not longer, and values not nested deeper, than this. -/
def limit : Nat := 80

/-- A part of a dotted key. -/
inductive Piece where
  | name (text : String)
  | dot

def isKeyChar (c : Char) : Bool := c.isAlphanum || c == '_' || c == '-'

/-- The name whose characters were read last, backwards. -/
def lastPiece (back : List Char) : List Piece :=
  if back.isEmpty then [] else [.name (String.ofList back.reverse)]

/-- Cuts an unquoted text at its dots, with the characters since the last one in `back`. -/
def cut (back : List Char) : List Char → List Piece
  | [] => lastPiece back
  | '.' :: rest => lastPiece back ++ .dot :: cut [] rest
  | c :: rest => cut (c :: back) rest

def pieces? : Token → Option (List Piece)
  | .bare lexeme =>
    if lexeme.all fun c => isKeyChar c || c == '.' then some (cut [] lexeme) else none
  | .quoted text false => some [.name text]
  | _ => none

def names? : List Piece → Option (List String)
  | [.name text] => some [text]
  | .name text :: .dot :: rest => (names? rest).map (text :: ·)
  | _ => none

def path? (pieces : List Piece) : Option (List String) := do
  let path ← names? pieces
  guard (path.length < limit)
  return path

inductive Frame where
  | line (path : List String)
  | array (back : List Toml)
  /-- The fields read so far, and the key of the value that comes next. -/
  | inline (fields : Fields) (path : List String)

inductive State where
  | lineStart
  | lineEnd
  | header (many : Bool) (pieces : List Piece)
  /-- After the first of the two brackets that end the header of one of several tables. -/
  | headerEnd (path : List String)
  /-- In the key of a line. -/
  | key (pieces : List Piece)
  /-- In a key inside braces; without pieces, at its start. -/
  | innerKey (stack : List Frame) (fields : Fields) (pieces : List Piece)
  /-- After the brace that opens a table. -/
  | firstKey (stack : List Frame)
  | value (stack : List Frame)
  /-- In an array, where an item may stand or the array may end. -/
  | item (stack : List Frame) (back : List Toml)
  /-- After a complete value. -/
  | after (stack : List Frame) (value : Toml)

/-- What has been read: all tables, and the path of the one that lines add to. -/
structure Document where
  root : Fields
  place : List String

namespace Document

def openTable? (d : Document) (path : List String) : Option Document := do
  return ⟨← within (openTable (← path.getLast?)) path.dropLast d.root, path⟩

def openAnother? (d : Document) (path : List String) : Option Document := do
  return ⟨← within (openAnother (← path.getLast?)) path.dropLast d.root, path⟩

def assign? (d : Document) (path : List String) (value : Toml) : Option Document := do
  return { d with root := ← within (assign value path) d.place d.root }

end Document

def begin (stack : List Frame) : Token → Option State
  | .bare lexeme => (Scalar.ofLexeme? lexeme).map fun value => .after stack value
  | .quoted text _ => some (.after stack (.string text))
  | .openBracket _ => if stack.length < limit then some (.item stack []) else none
  | .openBrace => if stack.length < limit then some (.firstKey stack) else none
  | _ => none

/-- Goes on after a value inside an array or a table in braces. -/
def proceed (stack : List Frame) (value : Toml) (token : Token) : Option State :=
  match stack, token with
  | .array back :: stack, .newline => some (.after (.array back :: stack) value)
  | .array back :: stack, .comma => some (.item stack (value :: back))
  | .array back :: stack, .closeBracket _ => some (.after stack (.array (value :: back).reverse))
  | .inline fields path :: stack, .comma => do
    return .innerKey stack (← assign value path fields) []
  | .inline fields path :: stack, .closeBrace => do
    return .after stack (.table .inline (← assign value path fields))
  | _, _ => none

def move : State → Token → Option State
  | .lineStart, .newline => some .lineStart
  | .lineStart, .openBracket _ => some (.header false [])
  | .lineStart, token => (pieces? token).map .key
  | .lineEnd, .newline => some .lineStart
  | .header false [], .openBracket true => some (.header true [])
  | .header true pieces, .closeBracket _ => (path? pieces).map .headerEnd
  | .header many pieces, token => (pieces? token).map fun more => .header many (pieces ++ more)
  | .key pieces, .equals => (path? pieces).map fun path => .value [.line path]
  | .key pieces, token => (pieces? token).map fun more => .key (pieces ++ more)
  | .innerKey stack fields pieces, .equals =>
    (path? pieces).map fun path => .value (.inline fields path :: stack)
  | .innerKey stack fields pieces, token =>
    (pieces? token).map fun more => .innerKey stack fields (pieces ++ more)
  | .firstKey stack, .closeBrace => some (.after stack (.table .inline []))
  | .firstKey stack, token => (pieces? token).map fun more => .innerKey stack [] more
  | .value stack, token => begin stack token
  | .item stack back, .newline => some (.item stack back)
  | .item stack back, .closeBracket _ => some (.after stack (.array back.reverse))
  | .item stack back, token => begin (.array back :: stack) token
  | .after stack value, token => proceed stack value token
  | _, _ => none

def step : Document × State → Token → Option (Document × State)
  | (d, .header false pieces), .closeBracket _ => do
    return (← d.openTable? (← path? pieces), .lineEnd)
  | (d, .headerEnd path), .closeBracket true => do return (← d.openAnother? path, .lineEnd)
  | (d, .after [.line path] value), .newline => do return (← d.assign? path value, .lineStart)
  | (d, state), token => (move state token).map fun state => (d, state)

end Reader

open Reader in
/-- The fields that a whole text spells. The text ends its last line. -/
def parse? (s : String) : Option Fields := do
  match ← ((← tokens? s) ++ [Token.newline]).foldlM step (⟨[], []⟩, State.lineStart) with
  | (d, .lineStart) => some d.root
  | _ => none

end BuildPlan.Toml

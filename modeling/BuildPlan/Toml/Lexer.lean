import BuildPlan.Text

/-! # The tokens of TOML

A text is cut into tokens one character at a time, with lines ended by a single line feed. Control
characters other than tabs stand nowhere. What is not quoted is kept whole, dots included: whether
it is a key or a value shows later.
-/
namespace BuildPlan.Toml

inductive Token where
  | bare (lexeme : List Char)
  | quoted (text : String) (multiline : Bool)
  /-- A bracket is glued when the same bracket stands right before it. -/
  | openBracket (glued : Bool)
  | closeBracket (glued : Bool)
  | openBrace
  | closeBrace
  | equals
  | comma
  | newline

namespace Lexer

/-- How a string is quoted. Only double quotes allow escapes. -/
structure Quoting where
  quote : Char
  multiline : Bool

inductive Mode where
  /-- Between tokens, perhaps right after a bracket. -/
  | between (bracket : Option Char)
  | comment
  | bare (back : List Char)
  /-- At the space after a date, which belongs to it when a time of day follows. -/
  | afterDate (back : List Char)
  | opened (quote : Char) (twice : Bool)
  /-- After the three quotes that begin a string of several lines; a line end here is dropped. -/
  | openedLines (quote : Char)
  | quoted (q : Quoting) (back : List Char) (quotes : Nat)
  | escape (q : Quoting) (back : List Char)
  /-- In an escape that names a code point, with the number of digits to come. -/
  | codePoint (q : Quoting) (back : List Char) (digits value : Nat)
  /-- After a backslash at the end of a line; blanks and line ends are passed over. -/
  | folded (q : Quoting) (back : List Char) (ended : Bool)

def isBareChar (c : Char) : Bool :=
  c.isAlphanum || c == '_' || c == '-' || c == '+' || c == '.' || c == ':'

def isBlank (c : Char) : Bool := c == ' ' || c == '\t'

def isPlain (c : Char) : Bool := c == '\t' || (0x20 ≤ c.toNat && c.toNat != 0x7F)

def isDateShaped (cs : List Char) : Bool :=
  match cs with
  | [a, b, c, d, '-', e, f, '-', g, h] => [a, b, c, d, e, f, g, h].all Char.isDigit
  | _ => false

def mark? (bracket : Option Char) : Char → Option Token
  | '[' => some (.openBracket (bracket == some '['))
  | ']' => some (.closeBracket (bracket == some ']'))
  | '\x7b' => some .openBrace
  | '\x7d' => some .closeBrace
  | '=' => some .equals
  | ',' => some .comma
  | '\n' => some .newline
  | _ => none

def start (bracket : Option Char) (c : Char) : Option (Mode × List Token) :=
  if isBlank c then some (.between none, [])
  else if c = '#' then some (.comment, [])
  else if c = '"' || c = '\'' then some (.opened c false, [])
  else if isBareChar c then some (.bare [c], [])
  else (mark? bracket c).map fun token => (.between (some c), [token])

/-- Ends a token that the next character does not belong to. -/
def restart (token : Token) (c : Char) : Option (Mode × List Token) :=
  (start none c).map fun (mode, tokens) => (mode, token :: tokens)

def stringToken (q : Quoting) (back : List Char) : Token :=
  .quoted (String.ofList back.reverse) q.multiline

/-- The string of several lines that ends with some quotes, the last three of which close it. -/
def closed (q : Quoting) (back : List Char) (quotes : Nat) : Token :=
  stringToken q (List.replicate (quotes - 3) q.quote ++ back)

def inString (q : Quoting) (back : List Char) (quotes : Nat) (c : Char) :
    Option (Mode × List Token) :=
  if c = q.quote then
    if !q.multiline then some (.between none, [stringToken q back])
    else if quotes = 4 then some (.between none, [closed q back 5])
    else some (.quoted q back (quotes + 1), [])
  else if 3 ≤ quotes then restart (closed q back quotes) c
  else
    let back := List.replicate quotes q.quote ++ back
    if c = '\\' && q.quote = '"' then some (.escape q back, [])
    else if isPlain c || (c = '\n' && q.multiline) then some (.quoted q (c :: back) 0, [])
    else none

def escaped? : Char → Option Char
  | '"' => some '"'
  | '\\' => some '\\'
  | 'b' => some '\x08'
  | 'f' => some '\x0c'
  | 'n' => some '\n'
  | 'r' => some '\r'
  | 't' => some '\t'
  | _ => none

def inFold (q : Quoting) (back : List Char) (ended : Bool) (c : Char) :
    Option (Mode × List Token) :=
  if isBlank c then some (.folded q back ended, [])
  else if c = '\n' then some (.folded q back true, [])
  else if ended then inString q back 0 c
  else none

def inEscape (q : Quoting) (back : List Char) (c : Char) : Option (Mode × List Token) :=
  if c = 'u' then some (.codePoint q back 4 0, [])
  else if c = 'U' then some (.codePoint q back 8 0, [])
  else
    match escaped? c with
    | some d => some (.quoted q (d :: back) 0, [])
    | none => if q.multiline then inFold q back false c else none

def step : Mode → Char → Option (Mode × List Token)
  | .between bracket, c => start bracket c
  | .comment, c =>
    if isPlain c then some (.comment, []) else if c = '\n' then start none c else none
  | .bare back, c =>
    if isBareChar c then some (.bare (c :: back), [])
    else if c = ' ' && isDateShaped back.reverse then some (.afterDate back, [])
    else restart (.bare back.reverse) c
  | .afterDate back, c =>
    if c.isDigit then some (.bare (c :: ' ' :: back), []) else restart (.bare back.reverse) c
  | .opened quote twice, c =>
    if c = quote then some (if twice then .openedLines quote else .opened quote true, [])
    else if twice then restart (.quoted "" false) c
    else inString ⟨quote, false⟩ [] 0 c
  | .openedLines quote, c =>
    if c = '\n' then some (.quoted ⟨quote, true⟩ [] 0, []) else inString ⟨quote, true⟩ [] 0 c
  | .quoted q back quotes, c => inString q back quotes c
  | .escape q back, c => inEscape q back c
  | .codePoint q back digits value, c => do
    let value := 16 * value + (← Text.hexValue? c)
    if 1 < digits then return (.codePoint q back (digits - 1) value, [])
    else if value.isValidChar then return (.quoted q (Char.ofNat value :: back) 0, [])
    else none
  | .folded q back ended, c => inFold q back ended c

def finish : Mode → Option (List Token)
  | .between _ | .comment => some []
  | .bare back | .afterDate back => some [.bare back.reverse]
  | .opened _ true => some [.quoted "" false]
  | .quoted q back quotes => if 3 ≤ quotes then some [closed q back quotes] else none
  | _ => none

/-- Reads on in some mode, with the tokens read before in `back`, the last one first. -/
def scan (mode : Mode) (back : List Token) : List Char → Option (List Token)
  | [] => (finish mode).map fun tokens => back.reverse ++ tokens
  | c :: rest =>
    match step mode c with
    | some (mode, tokens) => scan mode (tokens.reverse ++ back) rest
    | none => none

def unifyLineEnds : List Char → List Char
  | '\r' :: '\n' :: rest => '\n' :: unifyLineEnds rest
  | c :: rest => c :: unifyLineEnds rest
  | [] => []

/-- The text without the mark that tells its byte order. -/
def withoutMark : List Char → List Char
  | '\uFEFF' :: rest => rest
  | cs => cs

end Lexer

def tokens? (s : String) : Option (List Token) :=
  Lexer.scan (.between none) [] (Lexer.unifyLineEnds (Lexer.withoutMark s.toList))

end BuildPlan.Toml

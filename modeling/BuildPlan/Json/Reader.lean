import BuildPlan.Json.Lexer

/-! # Reading JSON

The tokens of a text are put together by a machine with a stack. The stack holds the arrays and
objects that have begun, the innermost first.
-/
namespace BuildPlan.Json

namespace Reader

inductive Frame where
  /-- The items read so far, backwards. -/
  | array (back : List Json)
  /-- The fields read so far, backwards, and the key of the value that comes next. -/
  | object (back : List (Option String × Json)) (key : Option String)

inductive State where
  | value (stack : List Frame)
  | firstItem (stack : List Frame)
  /-- In an object, where a key stands; only a first one may be missing. -/
  | key (stack : List Frame) (back : List (Option String × Json)) (first : Bool)
  | colon (stack : List Frame) (back : List (Option String × Json)) (key : Option String)
  | after (stack : List Frame) (value : Json)

def begin (stack : List Frame) : Token → Option State
  | .scalar j => some (.after stack j)
  | .openBracket => some (.firstItem stack)
  | .openBrace => some (.key stack [] true)
  | _ => none

def step : State → Token → Option State
  | .value stack, token => begin stack token
  | .firstItem stack, .closeBracket => some (.after stack (.array []))
  | .firstItem stack, token => begin (.array [] :: stack) token
  | .key stack back true, .closeBrace => some (.after stack (.object back.reverse))
  | .key stack back _, .scalar (.string key) => some (.colon stack back key)
  | .colon stack back key, .colon => some (.value (.object back key :: stack))
  | .after (.array back :: stack) j, .comma => some (.value (.array (j :: back) :: stack))
  | .after (.array back :: stack) j, .closeBracket =>
    some (.after stack (.array (j :: back).reverse))
  | .after (.object back key :: stack) j, .comma =>
    some (.key stack ((key, j) :: back) false)
  | .after (.object back key :: stack) j, .closeBrace =>
    some (.after stack (.object ((key, j) :: back).reverse))
  | _, _ => none

end Reader

open Reader in
/-- The value that a whole text spells. -/
def parse? (s : String) : Option Json := do
  match ← (← tokens? s).foldlM step (.value []) with
  | .after [] j => some j
  | _ => none

end BuildPlan.Json

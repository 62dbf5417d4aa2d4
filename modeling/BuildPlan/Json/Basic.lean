/-! # JSON values

Values keep what a text writes: the fields of an object stay in their order, with repetitions, and
a number remembers whether it was written as an integer.
-/
namespace BuildPlan

inductive Json where
  | null
  | bool (value : Bool)
  | integer (negative : Bool) (magnitude : Nat)
  | decimal (lexeme : String)
  /-- A string has no text when it names half of a surrogate pair without the other half. -/
  | string (text : Option String)
  | array (items : List Json)
  | object (fields : List (Option String × Json))
deriving Inhabited

namespace Json

def ofString (s : String) : Json := .string (some s)

def ofNat (n : Nat) : Json := .integer false n

def ofFields (fields : List (String × Json)) : Json :=
  .object (fields.map fun (key, value) => (some key, value))

def string? : Json → Option String
  | .string text => text
  | _ => none

def bool? : Json → Option Bool
  | .bool value => some value
  | _ => none

/-- An integer below `bound`, written without a sign. -/
def natBelow? (bound : Nat) : Json → Option Nat
  | .integer false n => if n < bound then some n else none
  | _ => none

def uint64? (j : Json) : Option UInt64 := (j.natBelow? UInt64.size).map UInt64.ofNat

def uint32? (j : Json) : Option UInt32 := (j.natBelow? UInt32.size).map UInt32.ofNat

def list? {α : Type} (item : Json → Option α) : Json → Option (List α)
  | .array items => items.mapM item
  | _ => none

def fields? : Json → Option (List (String × Json))
  | .object fields => fields.mapM fun (key, value) => key.map fun k => (k, value)
  | _ => none

/-- The name of an alternative that holds nothing else: a text, or a field of that name with a null
value. -/
def variant? : Json → Option String
  | .string text => text
  | .object [(key, .null)] => key
  | _ => none

/-- The last field with a key. -/
def field? (key : String) : Json → Option Json
  | .object fields => (fields.reverse.find? fun field => field.1 == some key).map Prod.snd
  | _ => none

end Json

end BuildPlan

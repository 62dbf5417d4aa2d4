/-! # TOML values

A table remembers how it came about, because that decides what may still be added to it.
-/
namespace BuildPlan

namespace Toml

inductive TableOrigin where
  /-- Written in braces; it is complete. -/
  | inline
  /-- Opened by a header of its own. -/
  | header
  /-- Named on the way by the header of a table inside it. -/
  | implied
  /-- Named on the way by a dotted key. -/
  | dotted
deriving DecidableEq

end Toml

inductive Toml where
  | string (text : String)
  | integer (value : Int)
  | float (lexeme : String)
  | bool (value : Bool)
  | moment (lexeme : String)
  | array (items : List Toml)
  | table (origin : Toml.TableOrigin) (fields : List (String × Toml))
  /-- Tables opened one after the other by headers in double brackets. -/
  | tables (items : List (List (String × Toml)))
deriving Inhabited

namespace Toml

abbrev Fields := List (String × Toml)

def bool? : Toml → Option Bool
  | bool value => some value
  | _ => none

/-- An integer that is not negative and lies below `bound`. -/
def natBelow? (bound : Nat) : Toml → Option Nat
  | integer (.ofNat n) => if n < bound then some n else none
  | _ => none

def uint64? (t : Toml) : Option UInt64 := (t.natBelow? UInt64.size).map UInt64.ofNat

def uint32? (t : Toml) : Option UInt32 := (t.natBelow? UInt32.size).map UInt32.ofNat

def list? {α : Type} (item : Toml → Option α) : Toml → Option (List α)
  | array items => items.mapM item
  | tables items => items.mapM fun fields => item (table .header fields)
  | _ => none

def fields? : Toml → Option Fields
  | table _ fields => some fields
  | _ => none

/-- The name of an alternative that holds nothing else: a text, or a field of that name with an
empty table. -/
def variant? : Toml → Option String
  | string text => some text
  | table _ [(key, table _ [])] => some key
  | _ => none

end Toml

end BuildPlan

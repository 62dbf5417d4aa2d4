import Std.Data.ExtTreeMap
import Std.Data.ExtTreeSet

/-! # Multimaps

A list of pairs, made ready for looking up all the values that stand with a key. A second kind of
map has a set of values for each key, and only keys whose set is not empty.
-/
namespace BuildPlan

variable {κ α : Type} [Ord κ] [Std.TransOrd κ]

/-- The values of each key, in their order. -/
abbrev Multimap (κ α : Type) [Ord κ] := Std.ExtTreeMap κ (List α)

namespace Multimap

def values (m : Multimap κ α) (k : κ) : List α := m[k]?.getD []

def ofPairs (pairs : List (κ × α)) : Multimap κ α :=
  pairs.foldr (fun (k, a) m => m.insert k (a :: m.values k)) ∅

end Multimap

variable [Ord α] [Std.TransOrd α]

/-- A set of values for each of some keys. -/
abbrev SetMap (κ α : Type) [Ord κ] [Ord α] := Std.ExtTreeMap κ (Std.ExtTreeSet α)

namespace SetMap

def values (m : SetMap κ α) (k : κ) : Std.ExtTreeSet α := m[k]?.getD ∅

/-- The map of the keys to their sets, those with an empty set left out. -/
def tabulate (keys : Std.ExtTreeSet κ) (f : κ → Std.ExtTreeSet α) : SetMap κ α :=
  .ofList (keys.toList.filterMap fun k => if (f k).isEmpty then none else some (k, f k))

def range (m : SetMap κ α) : Std.ExtTreeSet α := m.toList.foldl (fun s (_, t) => s ∪ t) ∅

/-- The map with the values of both at each key. -/
def merge (m₁ m₂ : SetMap κ α) : SetMap κ α :=
  m₂.toList.foldl (fun m (k, s) => m.insert k (m.values k ∪ s)) m₁

end SetMap

end BuildPlan

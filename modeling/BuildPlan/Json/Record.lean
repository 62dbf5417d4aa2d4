import Std.Data.ExtTreeMap
import BuildPlan.Json.Basic

/-! # Records in JSON

A record is written as an object with a field for each of its parts. Fields that the record does not
know are passed over, and a known field may stand only once. The parts may also be written as an
array, in the order in which they are declared.
-/
namespace BuildPlan.Json

/-- The value written for each of the named parts. -/
def parts? (names : List String) : Json → Option (List (Option Json))
  | .object fields => do
    let fields ← (Json.object fields).fields?
    names.mapM fun name =>
      match fields.filter (·.1 == name) with
      | [] => some none
      | [(_, value)] => some (some value)
      | _ => none
  | .array items =>
    if items.length ≤ names.length then
      some (items.map some ++ List.replicate (names.length - items.length) none)
    else none
  | _ => none

def required? {α : Type} (read : Json → Option α) (part : Option Json) : Option α :=
  part.bind read

def default? {α : Type} (value : α) (read : Json → Option α) : Option Json → Option α
  | none => some value
  | some j => read j

/-- A part that may be left out or null. -/
def optional? {α : Type} (read : Json → Option α) : Option Json → Option (Option α)
  | none | some .null => some none
  | some j => (read j).map some

/-- A map from names to values, where a repeated name keeps its last value. -/
def map? {κ β : Type} [Ord κ] [Std.TransOrd κ] (key : String → κ) (read : Json → Option β)
    (j : Json) : Option (Std.ExtTreeMap κ β) := do
  let entries ← (← j.fields?).mapM fun (k, value) => (read value).map fun b => (key k, b)
  return .ofList entries

def ofList {α : Type} (item : α → Json) (items : List α) : Json := .array (items.map item)

def ofOption {α : Type} (item : α → Json) : Option α → Json
  | none => .null
  | some a => item a

end BuildPlan.Json

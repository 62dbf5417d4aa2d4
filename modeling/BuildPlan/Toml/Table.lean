import BuildPlan.Toml.Basic

/-! # Filling TOML tables

No key is written twice. Dotted keys add to tables that dotted keys have made, and headers to any
table that is not written in braces.
-/
namespace BuildPlan.Toml

def replace (key : String) (value : Toml) (fields : Fields) : Fields :=
  fields.map fun (k, v) => if k == key then (k, value) else (k, v)

def changeLast (change : Fields → Option Fields) (items : List Fields) : Option Toml :=
  match items.reverse with
  | last :: before => (change last).map fun last => .tables (before.reverse ++ [last])
  | [] => none

/-- Changes the table that a header path leads to, making the tables on the way. Of an array of
tables, the last one is meant. -/
def within (change : Fields → Option Fields) : List String → Fields → Option Fields
  | [], fields => change fields
  | key :: path, fields =>
    match fields.lookup key with
    | none => do return fields ++ [(key, .table .implied (← within change path []))]
    | some (.table .inline _) => none
    | some (.table origin sub) => do
      return replace key (.table origin (← within change path sub)) fields
    | some (.tables items) => do
      return replace key (← changeLast (within change path) items) fields
    | some _ => none

/-- Opens a table by its header, which may come after the headers of tables inside it. -/
def openTable (key : String) (fields : Fields) : Option Fields :=
  match fields.lookup key with
  | none => some (fields ++ [(key, .table .header [])])
  | some (.table .implied sub) => some (replace key (.table .header sub) fields)
  | some _ => none

def openAnother (key : String) (fields : Fields) : Option Fields :=
  match fields.lookup key with
  | none => some (fields ++ [(key, .tables [[]])])
  | some (.tables items) => some (replace key (.tables (items ++ [[]])) fields)
  | some _ => none

/-- Gives a value to a dotted key. The last table on the way has to come from dotted keys, too. -/
def assign (value : Toml) : List String → Fields → Option Fields
  | [], _ => none
  | [key], fields =>
    if (fields.lookup key).isSome then none else some (fields ++ [(key, value)])
  | key :: next :: path, fields =>
    match fields.lookup key with
    | none => do return fields ++ [(key, .table .dotted (← assign value (next :: path) []))]
    | some (.table .dotted sub) => do
      return replace key (.table .dotted (← assign value (next :: path) sub)) fields
    | some (.table .implied sub) => do
      guard !path.isEmpty
      return replace key (.table .implied (← assign value (next :: path) sub)) fields
    | some (.tables items) => do
      guard !path.isEmpty
      return replace key (← changeLast (assign value (next :: path)) items) fields
    | some _ => none

end BuildPlan.Toml

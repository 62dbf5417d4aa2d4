import BuildPlan.Config
import BuildPlan.Snapshot.Record
import BuildPlan.Toml.Reader

/-! # Configurations as JSON and TOML

A part that is left out keeps its usual value. Given defaults for branches take the place of all the
usual ones.
-/
namespace BuildPlan

open Json

namespace Arch

def ofToml? (t : Toml) : Option Arch := t.variant?.bind ofName?

end Arch

namespace Config

def ofJson? (j : Json) : Option Config := do
  let [maxDepth, accessorTimeoutSecs, defaultArchs, fallbackArchs, skipDebuginfo,
      aclConcurrency] ←
    j.parts? ["max_depth", "accessor_timeout_secs", "default_archs", "fallback_archs",
      "skip_debuginfo", "acl_concurrency"] | none
  return {
    maxDepth := ← default? Config.default.maxDepth uint32? maxDepth
    accessorTimeoutSecs :=
      ← default? Config.default.accessorTimeoutSecs uint64? accessorTimeoutSecs
    defaultArchs :=
      ← default? Config.default.defaultArchs (map? id (list? Arch.ofJson?)) defaultArchs
    fallbackArchs := ← default? Config.default.fallbackArchs (list? Arch.ofJson?) fallbackArchs
    skipDebuginfo := ← default? Config.default.skipDebuginfo bool? skipDebuginfo
    aclConcurrency := ← default? Config.default.aclConcurrency uint64? aclConcurrency }

def toJson (c : Config) : Json :=
  .ofFields [("max_depth", .ofNat c.maxDepth.toNat),
    ("accessor_timeout_secs", .ofNat c.accessorTimeoutSecs.toNat),
    ("default_archs", .ofFields (c.defaultArchs.toList.map fun (branch, archs) =>
      (branch, .ofList Arch.toJson archs))),
    ("fallback_archs", .ofList Arch.toJson c.fallbackArchs),
    ("skip_debuginfo", .bool c.skipDebuginfo),
    ("acl_concurrency", .ofNat c.aclConcurrency.toNat)]

def ofToml? (fields : Toml.Fields) : Option Config :=
  let part {α : Type} (key : String) (usual : α) (read : Toml → Option α) : Option α :=
    match fields.lookup key with
    | none => some usual
    | some value => read value
  let archs := Toml.list? Arch.ofToml?
  let branches (t : Toml) : Option (Std.ExtTreeMap String (List Arch)) := do
    let entries ← (← t.fields?).mapM fun (branch, value) => (archs value).map fun l => (branch, l)
    return .ofList entries
  return {
    maxDepth := ← part "max_depth" default.maxDepth Toml.uint32?
    accessorTimeoutSecs := ← part "accessor_timeout_secs" default.accessorTimeoutSecs Toml.uint64?
    defaultArchs := ← part "default_archs" default.defaultArchs branches
    fallbackArchs := ← part "fallback_archs" default.fallbackArchs archs
    skipDebuginfo := ← part "skip_debuginfo" default.skipDebuginfo Toml.bool?
    aclConcurrency := ← part "acl_concurrency" default.aclConcurrency Toml.uint64? }

def ofText? (text : String) : Option Config := (Toml.parse? text).bind ofToml?

end Config

end BuildPlan

import BuildPlan.Json.Printer
import BuildPlan.Report.Table
import BuildPlan.Resolution
import BuildPlan.Snapshot.Record

/-! # Reports

How a result is shown: as a table with a row for each package, in build order, or as JSON.
-/
namespace BuildPlan

open Json

namespace ResolvedPackage

variable (p : ResolvedPackage)

def evr : String := evrText p.epoch p.version p.release

private def listed (items : List String) : String := ", ".intercalate items

def cells (position : Nat) : List String :=
  [toString position, p.name.text, p.evr, toString p.depth, listed (p.archs.toList.map Arch.name),
    p.buildTime.date.text, listed (p.requires.map (·.text)), listed (p.cycle.map (·.text)),
    listed p.acl]

def toJson : Json :=
  .ofFields [("name", p.name.toJson), ("version", .ofString p.version),
    ("release", .ofString p.release), ("epoch", .ofNat p.epoch.toNat),
    ("serial", .ofNat p.serial.toNat), ("source_rpm", .ofString p.sourceRpm),
    ("branch", .ofString p.branch), ("archs", .ofList Arch.toJson p.archs.toList),
    ("build_time", p.buildTime.toJson), ("cycle", .ofList PackageName.toJson p.cycle),
    ("requires", .ofList PackageName.toJson p.requires), ("acl", .ofList Json.ofString p.acl),
    ("depth", .ofNat p.depth)]

end ResolvedPackage

namespace Resolution

variable (r : Resolution)

def table : Table where
  header := ["#", "Package", "Version", "Depth", "Archs", "Built", "Requires", "Cycle", "ACL"]
  rows := r.packages.zipIdx.map fun (p, i) => p.cells (i + 1)

def toJson : Json :=
  .ofFields [("branch", .ofString r.branch),
    ("packages", .ofList ResolvedPackage.toJson r.packages)]

/-- The result as it is printed. -/
def report (json : Bool) : String :=
  if json then r.toJson.pretty ++ "\n"
  else if r.isEmpty then "No packages resolved in " ++ r.branch ++ ".\n"
  else
    r.table.text ++ "\n" ++ toString r.size ++ " package(s) in " ++ r.branch ++ "\n"

end Resolution

end BuildPlan

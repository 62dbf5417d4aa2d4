import BuildPlan.Json.Reader
import BuildPlan.Json.Record
import BuildPlan.Snapshot

/-! # Snapshots as JSON

The records in which packages, dependencies and snapshots are stored. Names are taken as they are
written, blanks included.
-/
namespace BuildPlan

open Json

namespace Arch

def ofJson? (j : Json) : Option Arch := j.variant?.bind ofName?

def toJson (a : Arch) : Json := .ofString a.name

end Arch

namespace PackageName

def ofJson? (j : Json) : Option PackageName := j.string?.map mk

def toJson (n : PackageName) : Json := .ofString n.text

end PackageName

namespace Capability

def ofJson? (j : Json) : Option Capability := j.string?.map mk

def toJson (c : Capability) : Json := .ofString c.text

end Capability

namespace PackageHash

def ofJson? (j : Json) : Option PackageHash := j.uint64?.map mk

def toJson (h : PackageHash) : Json := .ofNat h.word.toNat

end PackageHash

namespace Timestamp

def ofJson? (j : Json) : Option Timestamp := j.string?.bind ofText?

def toJson (t : Timestamp) : Json := .ofString t.text

end Timestamp

namespace Package

def ofJson? (j : Json) : Option Package := do
  let [hash, name, version, release, epoch, serial, arch, isSource, sourceRpm, buildTime] ←
    j.parts? ["hash", "name", "version", "release", "epoch", "serial", "arch", "is_source",
      "source_rpm", "build_time"] | none
  return {
    hash := ← required? PackageHash.ofJson? hash
    name := ← required? PackageName.ofJson? name
    version := ← required? string? version
    release := ← required? string? release
    epoch := ← default? 0 uint32? epoch
    serial := ← default? 0 uint32? serial
    arch := ← required? Arch.ofJson? arch
    isSource := ← required? bool? isSource
    sourceRpm := ← required? string? sourceRpm
    buildTime := ← required? Timestamp.ofJson? buildTime }

def toJson (p : Package) : Json :=
  .ofFields [("hash", p.hash.toJson), ("name", p.name.toJson), ("version", .ofString p.version),
    ("release", .ofString p.release), ("epoch", .ofNat p.epoch.toNat),
    ("serial", .ofNat p.serial.toNat), ("arch", p.arch.toJson), ("is_source", .bool p.isSource),
    ("source_rpm", .ofString p.sourceRpm), ("build_time", p.buildTime.toJson)]

end Package

namespace DependencyKind

def ofJson? (j : Json) : Option DependencyKind := j.variant?.bind ofName?

def toJson (k : DependencyKind) : Json := .ofString k.name

end DependencyKind

namespace Dependency

def ofJson? (j : Json) : Option Dependency := do
  let [subject, name, version, flags, kind] ←
    j.parts? ["subject", "name", "version", "flags", "kind"] | none
  return {
    subject := ← required? PackageHash.ofJson? subject
    name := ← required? Capability.ofJson? name
    version := ← default? "" string? version
    flags := ← default? 0 uint32? flags
    kind := ← required? DependencyKind.ofJson? kind }

def toJson (d : Dependency) : Json :=
  .ofFields [("subject", d.subject.toJson), ("name", d.name.toJson),
    ("version", .ofString d.version), ("flags", .ofNat d.flags.toNat), ("kind", d.kind.toJson)]

end Dependency

namespace BranchSnapshot

def ofJson? (j : Json) : Option BranchSnapshot := do
  let [name, archs, packages, dependencies, acl] ←
    j.parts? ["name", "archs", "packages", "dependencies", "acl"] | none
  return {
    name := ← required? string? name
    archs := ← default? [] (list? Arch.ofJson?) archs
    packages := ← required? (list? Package.ofJson?) packages
    dependencies := ← default? [] (list? Dependency.ofJson?) dependencies
    acl := ← default? ∅ (map? PackageName.mk (list? string?)) acl }

def toJson (b : BranchSnapshot) : Json :=
  .ofFields [("name", .ofString b.name), ("archs", .ofList Arch.toJson b.archs),
    ("packages", .ofList Package.toJson b.packages),
    ("dependencies", .ofList Dependency.toJson b.dependencies),
    ("acl", .ofFields (b.acl.toList.map fun (name, members) =>
      (name.text, .ofList Json.ofString members)))]

end BranchSnapshot

namespace Snapshot

def ofJson? (j : Json) : Option Snapshot := do
  let [branches] ← j.parts? ["branches"] | none
  return ⟨← required? (list? BranchSnapshot.ofJson?) branches⟩

def toJson (s : Snapshot) : Json :=
  .ofFields [("branches", .ofList BranchSnapshot.toJson s.branches)]

def ofText? (text : String) : Option Snapshot := (Json.parse? text).bind ofJson?

end Snapshot

end BuildPlan

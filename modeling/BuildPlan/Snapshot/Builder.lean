import BuildPlan.Universe

/-! # Building snapshots by hand

Small universes are put together call by call. Hashes are given out in turn, across all branches,
and a package built later has a later build time.
-/
namespace BuildPlan

/-- The branch under construction, the ones before it with the nearest first, and how many packages
there are. -/
structure SnapshotBuilder where
  earlier : List BranchSnapshot
  current : BranchSnapshot
  count : Nat

namespace SnapshotBuilder

def start (branch : String) : SnapshotBuilder := ⟨[], .empty branch, 0⟩

def branch (b : SnapshotBuilder) (name : String) : SnapshotBuilder :=
  { b with earlier := b.current :: b.earlier, current := .empty name }

/-- Declares the architectures of the branch. -/
def archs (b : SnapshotBuilder) (archs : List Arch) : SnapshotBuilder :=
  { b with current := { b.current with archs := archs } }

/-- The archive name of the source that a text names. -/
def archive (source : String) : String := source ++ "-1.0-alt1.src.rpm"

def dependency (subject : PackageHash) (kind : DependencyKind) (name : String) :
    Dependency :=
  ⟨subject, .ofText name, "", 0, kind⟩

/-- Adds a package with a fresh hash. -/
def add (b : SnapshotBuilder) (name : String) (arch : Arch) (isSource : Bool) (sourceRpm : String)
    (requires provides : List String) : SnapshotBuilder :=
  let hash : PackageHash := ⟨UInt64.ofNat (b.count + 1)⟩
  let package : Package :=
    { hash, name := .ofText name, version := "1.0", release := "alt1", epoch := 0, serial := 0,
      arch, isSource, sourceRpm
      buildTime := (Timestamp.ofSeconds? (b.count + 1)).getD .epoch }
  { b with
    current :=
      { b.current with
        packages := b.current.packages ++ [package]
        dependencies := b.current.dependencies ++ requires.map (dependency hash .require) ++
          provides.map (dependency hash .provide) }
    count := b.count + 1 }

def source (b : SnapshotBuilder) (name : String) (requires : List String) : SnapshotBuilder :=
  b.add name .src true (archive name) requires []

def binary (b : SnapshotBuilder) (source name : String) (arch : Arch)
    (requires provides : List String) : SnapshotBuilder :=
  b.add name arch false (archive source) requires provides

/-- A source package with one `x86_64` binary of its name. -/
def package (b : SnapshotBuilder) (name : String) (requires : List String) : SnapshotBuilder :=
  (b.source name requires).binary name name .x86_64 [] []

/-- Who may build a source package of the branch; said again, it replaces what was said before. -/
def acl (b : SnapshotBuilder) (name : String) (members : List String) : SnapshotBuilder :=
  { b with current := { b.current with acl := b.current.acl.insert (.ofText name) members } }

def snapshot (b : SnapshotBuilder) : Snapshot := ⟨(b.current :: b.earlier).reverse⟩

/-- The universe of the snapshot, binaries with debug symbols left out. -/
def build (b : SnapshotBuilder) : Except UniverseError Universe :=
  Universe.ofSnapshot true b.snapshot

end SnapshotBuilder

end BuildPlan

import BuildPlan.Snapshot.Record
import BuildPlan.Proofs.Json.Record
import BuildPlan.Proofs.Time.Timestamp

/-! # Stored records

A snapshot is written with all its fields, or without some of those that have their usual value:
each record may leave out its own. `Written` says which values stand for a record, and whichever of
them is chosen, the record is read back from it.
-/
namespace BuildPlan

open Json

/-! ### Scalars -/

theorem Arch.ofJson?_toJson (a : Arch) : Arch.ofJson? a.toJson = some a := by
  cases a <;> rfl

theorem DependencyKind.ofJson?_toJson (k : DependencyKind) :
    DependencyKind.ofJson? k.toJson = some k := by
  cases k <;> rfl

theorem PackageName.ofJson?_toJson (n : PackageName) : PackageName.ofJson? n.toJson = some n := rfl

theorem Capability.ofJson?_toJson (c : Capability) : Capability.ofJson? c.toJson = some c := rfl

theorem PackageHash.ofJson?_toJson (h : PackageHash) : PackageHash.ofJson? h.toJson = some h := by
  rw [ofJson?, toJson, uint64?_ofNat]
  rfl

theorem Timestamp.ofJson?_toJson (t : Timestamp) : Timestamp.ofJson? t.toJson = some t := by
  simp [ofJson?, toJson, ofString, string?, t.ofText?_text]

/-! ### Packages -/

namespace Package

/-- The fields that a package may be written without. -/
def MayOmit (p : Package) (name : String) : Prop :=
  name = "epoch" ∧ p.epoch = 0 ∨ name = "serial" ∧ p.serial = 0

def Written (p : Package) (j : Json) : Prop :=
  ∃ omitted : List String, (∀ name ∈ omitted, p.MayOmit name) ∧ j = p.toJson.without omitted

theorem ofJson?_of_written {p : Package} {j : Json} (h : p.Written j) : ofJson? j = some p := by
  obtain ⟨omitted, h, rfl⟩ := h
  have hkept : ∀ name, ¬p.MayOmit name → name ∉ omitted := fun name => mt (h name)
  have hepoch : default? 0 uint32? (part omitted "epoch" (ofNat p.epoch.toNat)) = some p.epoch :=
    default?_part (uint32?_ofNat p.epoch) fun hmem => by simpa [MayOmit] using h _ hmem
  have hserial : default? 0 uint32? (part omitted "serial" (ofNat p.serial.toNat)) =
      some p.serial :=
    default?_part (uint32?_ofNat p.serial) fun hmem => by simpa [MayOmit] using h _ hmem
  rw [ofJson?, toJson, parts?_without (by simp)]
  simp [List.lookup_cons, required?_part, hkept, MayOmit, hepoch, hserial,
    PackageHash.ofJson?_toJson, PackageName.ofJson?_toJson, Arch.ofJson?_toJson,
    Timestamp.ofJson?_toJson, ofString, string?, bool?]

theorem isExact_of_written {p : Package} {j : Json} (h : p.Written j) : IsExact j := by
  obtain ⟨omitted, -, rfl⟩ := h
  refine IsExact.without (isExact_ofFields ?_) omitted
  simp [PackageHash.toJson, PackageName.toJson, Arch.toJson, Timestamp.toJson]

end Package

/-! ### Dependencies -/

namespace Dependency

def MayOmit (d : Dependency) (name : String) : Prop :=
  name = "version" ∧ d.version = "" ∨ name = "flags" ∧ d.flags = 0

def Written (d : Dependency) (j : Json) : Prop :=
  ∃ omitted : List String, (∀ name ∈ omitted, d.MayOmit name) ∧ j = d.toJson.without omitted

theorem ofJson?_of_written {d : Dependency} {j : Json} (h : d.Written j) : ofJson? j = some d := by
  obtain ⟨omitted, h, rfl⟩ := h
  have hkept : ∀ name, ¬d.MayOmit name → name ∉ omitted := fun name => mt (h name)
  have hversion : default? "" string? (part omitted "version" (ofString d.version)) =
      some d.version :=
    default?_part rfl fun hmem => by simpa [MayOmit] using h _ hmem
  have hflags : default? 0 uint32? (part omitted "flags" (ofNat d.flags.toNat)) = some d.flags :=
    default?_part (uint32?_ofNat d.flags) fun hmem => by simpa [MayOmit] using h _ hmem
  rw [ofJson?, toJson, parts?_without (by simp)]
  simp [List.lookup_cons, required?_part, hkept, MayOmit, hversion, hflags,
    PackageHash.ofJson?_toJson, Capability.ofJson?_toJson, DependencyKind.ofJson?_toJson]

theorem isExact_of_written {d : Dependency} {j : Json} (h : d.Written j) : IsExact j := by
  obtain ⟨omitted, -, rfl⟩ := h
  refine IsExact.without (isExact_ofFields ?_) omitted
  simp [PackageHash.toJson, Capability.toJson, DependencyKind.toJson]

end Dependency

/-! ### Branches -/

namespace BranchSnapshot

/-- A branch with all its fields; its packages and its dependencies are written in some way. -/
def record (b : BranchSnapshot) (packages dependencies : List Json) : Json :=
  .ofFields [("name", .ofString b.name), ("archs", .ofList Arch.toJson b.archs),
    ("packages", .array packages), ("dependencies", .array dependencies),
    ("acl", .ofFields (b.acl.toList.map fun (name, members) =>
      (name.text, .ofList Json.ofString members)))]

def MayOmit (b : BranchSnapshot) (name : String) : Prop :=
  name = "archs" ∧ b.archs = [] ∨ name = "dependencies" ∧ b.dependencies = [] ∨
    name = "acl" ∧ b.acl = ∅

def Written (b : BranchSnapshot) (j : Json) : Prop :=
  ∃ (packages dependencies : List Json) (omitted : List String),
    List.Forall₂ Package.Written b.packages packages ∧
    List.Forall₂ Dependency.Written b.dependencies dependencies ∧
    (∀ name ∈ omitted, b.MayOmit name) ∧
    j = (b.record packages dependencies).without omitted

theorem ofJson?_of_written {b : BranchSnapshot} {j : Json} (h : b.Written j) :
    ofJson? j = some b := by
  obtain ⟨packages, dependencies, omitted, hpackages, hdependencies, h, rfl⟩ := h
  have hkept : ∀ name, ¬b.MayOmit name → name ∉ omitted := fun name => mt (h name)
  have hpackages' : list? Package.ofJson? (.array packages) = some b.packages :=
    list?_array (hpackages.imp fun _ _ => Package.ofJson?_of_written)
  have hdependencies' : default? [] (list? Dependency.ofJson?)
      (part omitted "dependencies" (.array dependencies)) = some b.dependencies :=
    default?_part (list?_array (hdependencies.imp fun _ _ => Dependency.ofJson?_of_written))
      fun hmem => by simpa [MayOmit] using h _ hmem
  have harchs : default? [] (list? Arch.ofJson?)
      (part omitted "archs" (.ofList Arch.toJson b.archs)) = some b.archs :=
    default?_part (list?_ofList Arch.ofJson?_toJson b.archs)
      fun hmem => by simpa [MayOmit] using h _ hmem
  have hmembers : ∀ members, list? string? (.ofList Json.ofString members) = some members :=
    list?_ofList fun _ => rfl
  have hacl : default? ∅ (map? PackageName.mk (list? string?))
      (part omitted "acl" (.ofFields (b.acl.toList.map fun (name, members) =>
        (name.text, .ofList Json.ofString members)))) = some b.acl :=
    default?_part (map?_ofFields (fun _ => rfl) hmembers b.acl)
      fun hmem => by simpa [MayOmit] using h _ hmem
  rw [ofJson?, record, parts?_without (by simp)]
  simp [List.lookup_cons, required?_part, hkept, MayOmit, hpackages', hdependencies', harchs, hacl,
    ofString, string?]

theorem isExact_of_written {b : BranchSnapshot} {j : Json} (h : b.Written j) : IsExact j := by
  obtain ⟨packages, dependencies, omitted, hpackages, hdependencies, -, rfl⟩ := h
  have harch : ∀ a, IsExact (Arch.toJson a) := fun a => isExact_ofString a.name
  have harchs : IsExact (.ofList Arch.toJson b.archs) := isExact_ofList harch b.archs
  have hacl : IsExact (.ofFields (b.acl.toList.map fun (name, members) =>
      (name.text, .ofList Json.ofString members))) := by
    refine isExact_ofFields fun field hfield => ?_
    obtain ⟨⟨name, members⟩, -, rfl⟩ := List.mem_map.1 hfield
    exact isExact_ofList isExact_ofString members
  refine IsExact.without (isExact_ofFields ?_) omitted
  simp [harchs, hacl, isExact_array (hpackages.imp fun _ _ => Package.isExact_of_written),
    isExact_array (hdependencies.imp fun _ _ => Dependency.isExact_of_written)]

end BranchSnapshot

/-! ### Snapshots -/

namespace Snapshot

def Written (s : Snapshot) (j : Json) : Prop :=
  ∃ branches : List Json, List.Forall₂ BranchSnapshot.Written s.branches branches ∧
    j = .ofFields [("branches", .array branches)]

theorem ofJson?_of_written {s : Snapshot} {j : Json} (h : s.Written j) : ofJson? j = some s := by
  obtain ⟨branches, h, rfl⟩ := h
  have hbranches : list? BranchSnapshot.ofJson? (.array branches) = some s.branches :=
    list?_array (h.imp fun _ _ => BranchSnapshot.ofJson?_of_written)
  rw [ofJson?, parts?_ofFields (by simp)]
  simp [List.lookup_cons, required?, hbranches]

theorem isExact_of_written {s : Snapshot} {j : Json} (h : s.Written j) : IsExact j := by
  obtain ⟨branches, h, rfl⟩ := h
  refine isExact_ofFields ?_
  simp [isExact_array (h.imp fun _ _ => BranchSnapshot.isExact_of_written)]

end Snapshot

end BuildPlan

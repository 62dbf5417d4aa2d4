import BuildPlan.Files
import BuildPlan.Proofs.Json.Reader
import BuildPlan.Proofs.Snapshot.Record

/-! # Snapshots read back from their files

A snapshot is loaded as it was from a file that holds it as JSON, on one line or laid out, with all
its fields or without those that have their usual value.
-/
namespace BuildPlan

theorem Json.without_nil (j : Json) : j.without [] = j := by
  cases j <;> simp [without]

namespace FileContent

theorem text?_toUTF8 (s : String) : (bytes s.toUTF8).text? = some s :=
  dif_pos s.isValidUTF8

end FileContent

/-! ### Records with all their fields -/

theorem Package.written_toJson (p : Package) : p.Written p.toJson :=
  ⟨[], by simp, (Json.without_nil _).symm⟩

theorem Dependency.written_toJson (d : Dependency) : d.Written d.toJson :=
  ⟨[], by simp, (Json.without_nil _).symm⟩

theorem BranchSnapshot.written_toJson (b : BranchSnapshot) : b.Written b.toJson := by
  refine ⟨b.packages.map Package.toJson, b.dependencies.map Dependency.toJson, [], ?_, ?_, by simp,
    (Json.without_nil _).symm⟩
  · exact List.forall₂_map_right_iff.2 (List.forall₂_same.2 fun p _ => p.written_toJson)
  · exact List.forall₂_map_right_iff.2 (List.forall₂_same.2 fun d _ => d.written_toJson)

namespace Snapshot

theorem written_toJson (s : Snapshot) : s.Written s.toJson :=
  ⟨s.branches.map BranchSnapshot.toJson,
    List.forall₂_map_right_iff.2 (List.forall₂_same.2 fun b _ => b.written_toJson), rfl⟩

theorem load_of_parse? {text : String} {j : Json} {s : Snapshot}
    (hparse : Json.parse? text = some j) (h : s.Written j) : load (.bytes text.toUTF8) = .ok s := by
  have htext : ofText? text = some s := by
    rw [ofText?, hparse]
    exact ofJson?_of_written h
  rw [load, FileContent.text?_toUTF8]
  simp only [htext]
  rfl

/-- A snapshot is loaded as it was stored, whatever its names, its numbers and its times, and
whichever of the fields with a usual value have been left out. -/
theorem load_written (s : Snapshot) :
    s.Written s.toJson ∧
      ∀ j, s.Written j → ∀ text ∈ [j.compact, j.pretty], load (.bytes text.toUTF8) = .ok s := by
  refine ⟨s.written_toJson, fun j h text htext => ?_⟩
  have hexact := isExact_of_written h
  simp only [List.mem_cons, List.not_mem_nil, or_false] at htext
  obtain rfl | rfl := htext
  · exact load_of_parse? (Json.parse?_compact hexact) h
  · exact load_of_parse? (Json.parse?_pretty hexact) h

theorem load_written_brief :
    let leapSecond : Timestamp :=
      ⟨⟨2016, 12, 31, by decide, by decide, by decide⟩, 23, 59, 60, 123_456_000,
        by decide, by decide, by decide, by decide⟩
    let hash : PackageHash := ⟨18446744073709551615⟩
    let s : Snapshot := ⟨[
      ⟨"p11", [.x86_64_i586],
        [⟨hash, ⟨" \"é\" "⟩, "1\\2", "alt\n", 0, 7, .x86_64_i586, false, "é.src.rpm", leapSecond⟩],
        [⟨hash, ⟨"libc\x00 "⟩, "", 0, .require⟩], ∅⟩,
      ⟨"empty", [], [], [], ∅⟩]⟩
    let package : Json := .ofFields [("hash", .ofNat 18446744073709551615),
      ("name", .ofString " \"é\" "), ("version", .ofString "1\\2"),
      ("release", .ofString "alt\n"), ("serial", .ofNat 7), ("arch", .ofString "x86_64-i586"),
      ("is_source", .bool false), ("source_rpm", .ofString "é.src.rpm"),
      ("build_time", .ofString "2016-12-31T23:59:60.123456Z")]
    let dependency : Json := .ofFields [("subject", .ofNat 18446744073709551615),
      ("name", .ofString "libc\x00 "), ("kind", .ofString "require")]
    let j : Json := .ofFields [("branches", .array [
      .ofFields [("name", .ofString "p11"), ("archs", .array [.ofString "x86_64-i586"]),
        ("packages", .array [package]), ("dependencies", .array [dependency])],
      .ofFields [("name", .ofString "empty"), ("packages", .array [])]])]
    s.Written j ∧ load (.bytes j.compact.toUTF8) = .ok s := by
  intro leapSecond hash s package dependency j
  have h : s.Written j := by
    refine ⟨_, .cons ⟨[package], [dependency], ["acl"], .cons ⟨["epoch"], ?_, ?_⟩ .nil,
      .cons ⟨["version", "flags"], ?_, ?_⟩ .nil, ?_, ?_⟩
      (.cons ⟨[], [], ["archs", "dependencies", "acl"], .nil, .nil, ?_, ?_⟩ .nil), rfl⟩
    · simp [Package.MayOmit]
    · cbv
    · simp [Dependency.MayOmit]
    · cbv
    · simp [BranchSnapshot.MayOmit]
    · simp [BranchSnapshot.record, Json.without_ofFields]
      rfl
    · simp [BranchSnapshot.MayOmit]
    · simp [BranchSnapshot.record, Json.without_ofFields]
  exact ⟨h, (load_written s).2 j h _ List.mem_cons_self⟩

end Snapshot

end BuildPlan

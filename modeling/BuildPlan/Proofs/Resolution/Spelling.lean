import BuildPlan.Request.Record
import BuildPlan.Proofs.Resolution.Request
import BuildPlan.Proofs.Snapshot.RoundTrip
import BuildPlan.Proofs.Text.Trim
import BuildPlan.Proofs.Universe.Scan

/-! # Spellings of names

A name that is spelled out has no blanks at its ends, and whoever spells it may add some. A name
that is stored is taken as it is written, and names meet only where they are written alike: blanks
do not count as long as the stored names are trimmed, and a name that is not trimmed is met by no
seed. In the same way the architectures of a scope that is put together are binary ones with
`noarch` among them, and those of a stored scope are what is written.
-/
namespace BuildPlan

open Json

/-! ### Names that are spelled -/

theorem Text.isTrimmed_iff_exists_trim {s : String} : IsTrimmed s.toList ↔ ∃ t, s = trim t := by
  constructor
  · exact fun h => ⟨s, (trim_eq_self_iff.2 h).symm⟩
  · rintro ⟨t, rfl⟩
    exact isTrimmed_trim t

def Text.Pads (t s : String) : Prop :=
  ∃ before after : List Char, (∀ c ∈ before, isBlank c = true) ∧ (∀ c ∈ after, isBlank c = true) ∧
    t.toList = before ++ s.toList ++ after

theorem Text.Pads.trim_eq {t s : String} (h : Pads t s) : trim t = trim s := by
  obtain ⟨before, after, hbefore, hafter, ht⟩ := h
  rw [trim, ht, trimChars_append hbefore hafter, trim]

namespace PackageName

theorem text_inj {m n : PackageName} : m.text = n.text ↔ m = n := by
  cases m
  cases n
  simp

def IsTrimmed (n : PackageName) : Prop := Text.IsTrimmed n.text.toList

instance {n : PackageName} : Decidable n.IsTrimmed :=
  inferInstanceAs (Decidable (Text.IsTrimmed n.text.toList))

theorem ofText_eq_iff {t : String} {n : PackageName} : ofText t = n ↔ n.text = Text.trim t := by
  rw [← text_inj, ofText, eq_comm]

theorem isTrimmed_iff {n : PackageName} : n.IsTrimmed ↔ ∃ t, ofText t = n := by
  simp only [ofText_eq_iff, IsTrimmed, Text.isTrimmed_iff_exists_trim]

theorem ofJson?_eq_some_iff {j : Json} {n : PackageName} : ofJson? j = some n ↔ j = n.toJson := by
  constructor
  · intro h
    obtain ⟨s, hs, rfl⟩ := Option.map_eq_some_iff.1 h
    exact string?_eq_some_iff.1 hs
  · rintro rfl
    exact ofJson?_toJson n

end PackageName

namespace Capability

theorem text_inj {a c : Capability} : a.text = c.text ↔ a = c := by
  cases a
  cases c
  simp

def IsTrimmed (c : Capability) : Prop := Text.IsTrimmed c.text.toList

instance {c : Capability} : Decidable c.IsTrimmed :=
  inferInstanceAs (Decidable (Text.IsTrimmed c.text.toList))

theorem ofText_eq_iff {t : String} {c : Capability} : ofText t = c ↔ c.text = Text.trim t := by
  rw [← text_inj, ofText, eq_comm]

theorem isTrimmed_iff {c : Capability} : c.IsTrimmed ↔ ∃ t, ofText t = c := by
  simp only [ofText_eq_iff, IsTrimmed, Text.isTrimmed_iff_exists_trim]

theorem ofJson?_eq_some_iff {j : Json} {c : Capability} : ofJson? j = some c ↔ j = c.toJson := by
  constructor
  · intro h
    obtain ⟨s, hs, rfl⟩ := Option.map_eq_some_iff.1 h
    exact string?_eq_some_iff.1 hs
  · rintro rfl
    exact ofJson?_toJson c

end Capability

/-! ### Names that are stored -/

theorem Package.name_of_ofJson? {j : Json} {p : Package} (h : ofJson? j = some p) :
    ∃ parts, j.parts? ["hash", "name", "version", "release", "epoch", "serial", "arch",
      "is_source", "source_rpm", "build_time"] = some parts ∧
      parts[1]? = some (some p.name.toJson) := by
  obtain ⟨parts, hparts, h⟩ := Option.bind_eq_some_iff.1 h
  refine ⟨parts, hparts, ?_⟩
  split at h
  · simp only [Option.bind_eq_bind, Option.bind_eq_some_iff] at h
    obtain ⟨_, -, n, hn, _, -, _, -, _, -, _, -, _, -, _, -, _, -, _, -, h⟩ := h
    obtain rfl := Option.some.inj h
    obtain ⟨j, rfl, hj⟩ := required?_eq_some_iff.1 hn
    rw [PackageName.ofJson?_eq_some_iff.1 hj]
    rfl
  · cases h

theorem Dependency.name_of_ofJson? {j : Json} {d : Dependency} (h : ofJson? j = some d) :
    ∃ parts, j.parts? ["subject", "name", "version", "flags", "kind"] = some parts ∧
      parts[1]? = some (some d.name.toJson) := by
  obtain ⟨parts, hparts, h⟩ := Option.bind_eq_some_iff.1 h
  refine ⟨parts, hparts, ?_⟩
  split at h
  · simp only [Option.bind_eq_bind, Option.bind_eq_some_iff] at h
    obtain ⟨_, -, c, hc, _, -, _, -, _, -, h⟩ := h
    obtain rfl := Option.some.inj h
    obtain ⟨j, rfl, hj⟩ := required?_eq_some_iff.1 hc
    rw [Capability.ofJson?_eq_some_iff.1 hj]
    rfl
  · cases h

theorem map_fst_of_mapM {β : Type} {read : Json → Option β} {fields : List (String × Json)}
    {entries : List (PackageName × β)}
    (h : fields.mapM (fun (k, j) => (read j).map fun b => (PackageName.mk k, b)) = some entries) :
    entries.map Prod.fst = fields.map fun field => ⟨field.1⟩ := by
  induction fields generalizing entries with
  | nil =>
    obtain rfl := Option.some.inj h
    rfl
  | cons field rest ih =>
    rw [List.mapM_cons] at h
    obtain ⟨entry, hentry, h⟩ := Option.bind_eq_some_iff.1 h
    obtain ⟨entries', hrest, h⟩ := Option.bind_eq_some_iff.1 h
    obtain ⟨_, -, rfl⟩ := Option.map_eq_some_iff.1 hentry
    obtain rfl := Option.some.inj h
    rw [List.map_cons, List.map_cons, ih hrest]

theorem mem_of_map?_eq_some {β : Type} {read : Json → Option β} {j : Json}
    {m : Std.ExtTreeMap PackageName β} (h : map? PackageName.mk read j = some m) :
    ∃ fields, j.fields? = some fields ∧
      ∀ n : PackageName, n ∈ m ↔ n.text ∈ fields.map Prod.fst := by
  obtain ⟨fields, hfields, h⟩ := Option.bind_eq_some_iff.1 h
  obtain ⟨entries, hentries, h⟩ := Option.bind_eq_some_iff.1 h
  obtain rfl := Option.some.inj h
  refine ⟨fields, hfields, fun n => ?_⟩
  rw [Std.ExtTreeMap.mem_ofList, map_fst_of_mapM hentries, List.contains_iff_mem, List.mem_map,
    List.mem_map]
  simp only [← PackageName.text_inj]

/-! ### Names that meet -/

/-- Names of the universe meet where their texts are alike: a seed and the packages of its name, a
requirement and its providers, a package and those who may build it. -/
structure Universe.Meets (u : Universe) (alike : String → String → Prop) (skipDebuginfo : Bool)
    (scope : Scope) (b : BranchSnapshot) : Prop where
  seed : ∀ t asSource, ∃ descriptions,
    u.describe (.ofList [PackageName.ofText t]) scope asSource = .ok descriptions ∧
    (PackageName.ofText t ∈ descriptions ↔ ∃ p ∈ b.packages, p.IsShown skipDebuginfo ∧
      (if asSource then p.isSource = true else p.IsBinaryIn b.packages scope) ∧
      alike p.name.text (Text.trim t))
  provider : ∀ d ∈ b.dependencies, ∀ asSource, ∃ providers,
    u.providersOf (.ofList [d.name]) scope asSource = .ok providers ∧
    ∀ m, m ∈ SetMap.values providers d.name ↔ ∃ p ∈ b.packages, p.IsShown skipDebuginfo ∧
      p.IsBinaryIn b.packages scope ∧
      (alike p.name.text d.name.text ∨ ∃ e ∈ b.dependencies, e.kind = .provide ∧
        e.subject = p.hash ∧ alike e.name.text d.name.text) ∧
      if asSource then p.BuiltFrom b.packages m else p.name = m
  member : ∀ p ∈ b.packages, ∃ members, u.aclOf p.name scope.branch = .ok members ∧
    ∀ who, who ∈ members ↔ ∃ (n : PackageName) (stored : List String),
      b.acl[n]? = some stored ∧ alike n.text p.name.text ∧ who ∈ stored

/-- All names that are stored are trimmed. -/
structure BranchSnapshot.IsTrimmed (b : BranchSnapshot) : Prop where
  packages : ∀ p ∈ b.packages, p.name.IsTrimmed
  dependencies : ∀ d ∈ b.dependencies, d.name.IsTrimmed
  acl : ∀ n ∈ b.acl, n.IsTrimmed

theorem Package.isSome_newest?_iff {packages : List Package} :
    (newest? packages).isSome = true ↔ ∃ p, p ∈ packages := by
  rw [Option.isSome_iff_ne_none, ne_eq, newest?_eq_none_iff]
  cases packages <;> simp

theorem BranchIndex.Represents.isSome_describeName?_iff {b : BranchSnapshot} {skipDebuginfo : Bool}
    {index : BranchIndex} (h : index.Represents (keptPackages skipDebuginfo b) b) {scope : Scope}
    {asSource : Bool} {n : PackageName} :
    (index.describeName? scope asSource n).isSome = true ↔
      ∃ p ∈ b.packages, p.IsShown skipDebuginfo ∧
        (if asSource then p.isSource = true else p.IsBinaryIn b.packages scope) ∧ p.name = n := by
  cases asSource with
  | true =>
    simp only [describeName?, if_true, Option.isSome_map, Package.isSome_newest?_iff,
      List.mem_filter, h.mem_named, mem_keptPackages]
    grind
  | false =>
    simp only [describeName?, Bool.false_eq_true, if_false, Option.isSome_map,
      Package.isSome_newest?_iff, List.mem_filter, h.mem_named, mem_keptPackages,
      Package.isBinaryIn_iff, Bool.and_eq_true, Bool.not_eq_true']
    grind

namespace Universe

variable {skipDebuginfo : Bool} {s : Snapshot} {u : Universe} {scope : Scope} {b : BranchSnapshot}

theorem exists_providersOf (hu : ofSnapshot skipDebuginfo s = .ok u)
    (hb : s.branch? scope.branch = some b) (capabilities : CapabilitySet) (asSource : Bool) :
    ∃ providers, u.providersOf capabilities scope asSource = .ok providers ∧
      providers.Tabulates capabilities (b.ProvidedBy skipDebuginfo scope asSource) := by
  obtain ⟨index, hindex, hrepresents⟩ := exists_represents hu hb
  refine ⟨_, providersOf_eq hindex capabilities asSource, ?_⟩
  exact SetMap.tabulates_tabulate fun a n => hrepresents.mem_providersOfCapability_iff

theorem meets_eq (hu : ofSnapshot skipDebuginfo s = .ok u)
    (hb : s.branch? scope.branch = some b) : u.Meets Eq skipDebuginfo scope b := by
  obtain ⟨index, hindex, hrepresents⟩ := exists_represents hu hb
  constructor
  · intro t asSource
    refine ⟨_, describe_eq hindex _ asSource, ?_⟩
    have hmem : PackageName.ofText t ∈ (.ofList [PackageName.ofText t] : PackageSet) := by simp
    rw [BranchIndex.mem_describe, and_iff_right hmem, hrepresents.isSome_describeName?_iff]
    simp only [← PackageName.ofText_eq_iff, eq_comm]
  · intro d _ asSource
    obtain ⟨providers, hproviders, htabulates⟩ :=
      exists_providersOf hu hb (.ofList [d.name]) asSource
    refine ⟨providers, hproviders, fun m => ?_⟩
    have hmem : d.name ∈ (.ofList [d.name] : CapabilitySet) := by simp
    rw [htabulates.mem_values_iff, and_iff_right hmem]
    simp only [BranchSnapshot.ProvidedBy, BranchSnapshot.Provides, BranchSnapshot.States,
      ← Capability.text_inj, Capability.ofPackage]
  · intro p _
    refine ⟨_, aclOf_eq hindex p.name, fun who => ?_⟩
    rw [hrepresents.acl_eq]
    simp only [PackageName.text_inj]
    cases hstored : b.acl[p.name]? <;> simp [hstored]

theorem Meets.trim (h : u.Meets Eq skipDebuginfo scope b) (hb : b.IsTrimmed) :
    u.Meets (fun s t => Text.trim s = Text.trim t) skipDebuginfo scope b := by
  have halike : ∀ {s t : String}, Text.IsTrimmed s.toList → Text.IsTrimmed t.toList →
      (s = t ↔ Text.trim s = Text.trim t) := by
    intro s t hs ht
    rw [Text.trim_eq_self_iff.2 hs, Text.trim_eq_self_iff.2 ht]
  constructor
  · intro t asSource
    obtain ⟨descriptions, hdescriptions, hmem⟩ := h.seed t asSource
    refine ⟨descriptions, hdescriptions, hmem.trans ?_⟩
    refine exists_congr fun p => and_congr_right fun hp => ?_
    rw [halike (hb.packages p hp) (Text.isTrimmed_trim t)]
  · intro d hd asSource
    obtain ⟨providers, hproviders, hmem⟩ := h.provider d hd asSource
    refine ⟨providers, hproviders, fun m => (hmem m).trans ?_⟩
    refine exists_congr fun p => and_congr_right fun hp => ?_
    have hstated : (∃ e ∈ b.dependencies, e.kind = .provide ∧ e.subject = p.hash ∧
        e.name.text = d.name.text) ↔ ∃ e ∈ b.dependencies, e.kind = .provide ∧
          e.subject = p.hash ∧ Text.trim e.name.text = Text.trim d.name.text := by
      refine exists_congr fun e => and_congr_right fun he => ?_
      rw [halike (hb.dependencies e he) (hb.dependencies d hd)]
    rw [halike (hb.packages p hp) (hb.dependencies d hd), hstated]
  · intro p hp
    obtain ⟨members, hmembers, hmem⟩ := h.member p hp
    refine ⟨members, hmembers, fun who => (hmem who).trans ?_⟩
    refine exists_congr fun n => exists_congr fun stored => and_congr_right fun hn => ?_
    have hacl : n ∈ b.acl := Std.ExtTreeMap.mem_iff_isSome_getElem?.2 (by simp [hn])
    rw [halike (hb.acl n hacl) (hb.packages p hp)]

end Universe

/-! ### Architectures of scopes -/

namespace Scope

/-- All architectures are binary, and `noarch` is one of them. -/
def IsBinary (scope : Scope) : Prop := .noarch ∈ scope.archs ∧ .src ∉ scope.archs

theorem isBinary_ofArchs (branch : String) (archs : List Arch) (t : DependencyType) :
    (ofArchs branch archs t).IsBinary := by
  simp [IsBinary, ofArchs, Arch.isBinary]

theorem ofJson?_toJson (scope : Scope) : ofJson? scope.toJson = some scope := by
  have harchs : list? Arch.ofJson? (.ofList Arch.toJson scope.archs.toList) =
      some scope.archs.toList := list?_ofList Arch.ofJson?_toJson _
  have hset : Std.ExtTreeSet.ofList scope.archs.toList = scope.archs :=
    Std.ExtTreeSet.ext_mem fun a => by simp
  have htype : DependencyType.ofJson? scope.dependencyType.toJson = some scope.dependencyType := by
    cases scope.dependencyType <;> rfl
  rw [ofJson?, toJson, parts?_ofFields (by simp)]
  simp [List.lookup_cons, required?, harchs, hset, htype, string?, ofString]

theorem archs_of_ofJson? {j : Json} {scope : Scope} (h : ofJson? j = some scope) :
    ∃ parts part archs, j.parts? ["branch", "archs", "package_type"] = some parts ∧
      parts[1]? = some (some part) ∧ list? Arch.ofJson? part = some archs ∧
      ∀ a, a ∈ scope.archs ↔ a ∈ archs := by
  obtain ⟨parts, hparts, h⟩ := Option.bind_eq_some_iff.1 h
  split at h
  · simp only [Option.bind_eq_bind, Option.bind_eq_some_iff] at h
    obtain ⟨_, -, archs, harchs, _, -, h⟩ := h
    obtain rfl := Option.some.inj h
    obtain ⟨part, rfl, hpart⟩ := required?_eq_some_iff.1 harchs
    exact ⟨_, part, archs, hparts, rfl, hpart, fun a => by simp⟩
  · cases h

end Scope

/-! ### Main statement -/

/-- The names that texts spell are the trimmed ones, and blanks around a text do not count. A record
can hold any name, and its name is what is written. In a universe names meet if they are written
alike, and so trimmed names meet if they differ in blanks at their ends only. A scope that is put
together sees binary architectures and `noarch`, and one that is read those that are written. -/
theorem spelled_trimmed_stored_verbatim {skipDebuginfo : Bool} {s : Snapshot} {u : Universe}
    (hu : Universe.ofSnapshot skipDebuginfo s = .ok u) {scope : Scope} {b : BranchSnapshot}
    (hb : s.branch? scope.branch = some b) :
    ((∀ n : PackageName, n.IsTrimmed ↔ ∃ t, .ofText t = n) ∧
      (∀ c : Capability, c.IsTrimmed ↔ ∃ t, .ofText t = c) ∧
      (∀ n, (Capability.ofPackage n).IsTrimmed ↔ n.IsTrimmed) ∧
      ∀ s t, Text.Pads t s →
        PackageName.ofText t = .ofText s ∧ Capability.ofText t = .ofText s) ∧
    ((∀ p, Package.ofJson? p.toJson = some p) ∧ (∀ d, Dependency.ofJson? d.toJson = some d) ∧
      ∀ b, BranchSnapshot.ofJson? b.toJson = some b) ∧
    ((∀ j p, Package.ofJson? j = some p → ∃ parts,
        j.parts? ["hash", "name", "version", "release", "epoch", "serial", "arch", "is_source",
          "source_rpm", "build_time"] = some parts ∧
        parts[1]? = some (some (.ofString p.name.text))) ∧
      (∀ j d, Dependency.ofJson? j = some d → ∃ parts,
        j.parts? ["subject", "name", "version", "flags", "kind"] = some parts ∧
        parts[1]? = some (some (.ofString d.name.text))) ∧
      ∀ j acl, map? PackageName.mk (list? string?) j = some acl → ∃ fields,
        j.fields? = some fields ∧ ∀ n : PackageName, n ∈ acl ↔ n.text ∈ fields.map Prod.fst) ∧
    (u.Meets Eq skipDebuginfo scope b ∧
      (b.IsTrimmed → u.Meets (fun s t => Text.trim s = Text.trim t) skipDebuginfo scope b)) ∧
    (∀ branch archs t, (Scope.ofArchs branch archs t).IsBinary) ∧
    (∀ t, (scope.withDependencyType t).IsBinary ↔ scope.IsBinary) ∧
    Scope.ofJson? scope.toJson = some scope ∧
    ∀ j, Scope.ofJson? j = some scope → ∃ parts part archs,
      j.parts? ["branch", "archs", "package_type"] = some parts ∧
      parts[1]? = some (some part) ∧ list? Arch.ofJson? part = some archs ∧
      ∀ a, a ∈ scope.archs ↔ a ∈ archs := by
  have hmeets := Universe.meets_eq hu hb
  refine ⟨⟨fun n => n.isTrimmed_iff, fun c => c.isTrimmed_iff, fun n => Iff.rfl, ?_⟩,
    ⟨fun p => Package.ofJson?_of_written p.written_toJson,
      fun d => Dependency.ofJson?_of_written d.written_toJson,
      fun b => BranchSnapshot.ofJson?_of_written b.written_toJson⟩,
    ⟨fun _ _ => Package.name_of_ofJson?, fun _ _ => Dependency.name_of_ofJson?,
      fun _ _ => mem_of_map?_eq_some⟩, ⟨hmeets, hmeets.trim⟩, Scope.isBinary_ofArchs,
    fun _ => Iff.rfl, scope.ofJson?_toJson, fun _ => Scope.archs_of_ofJson?⟩
  intro s t h
  simp only [PackageName.ofText, Capability.ofText, h.trim_eq, and_self]

/-- A requirement whose name is written with a blank at its end. -/
def paddedEdge : Json :=
  .ofFields [("subject", .ofNat 1), ("name", .ofString "b "), ("kind", .ofString "require")]

/-- A scope that is written without any binary architecture. -/
def sourceScope : Json :=
  .ofFields [("branch", .ofString "sisyphus"), ("archs", .array [.ofString "src"]),
    ("package_type", .ofString "both")]

theorem trimmed_cycleBranch : cycleBranch.IsTrimmed where
  packages := by decide +kernel
  dependencies := by decide +kernel
  acl n hn := absurd hn Std.ExtTreeMap.not_mem_empty

theorem spelled_trimmed_stored_verbatim_cycle :
    let package : Package := ⟨⟨1⟩, ⟨" a"⟩, "1.0", "alt1", 0, 0, .src, true, "a.src.rpm", .epoch⟩
    let acl : Json := .ofFields [("a ", .array [.ofString "alice"])]
    let fields := ["hash", "name", "version", "release", "epoch", "serial", "arch", "is_source",
      "source_rpm", "build_time"]
    let source : Scope := ⟨"sisyphus", Std.ExtTreeSet.ofList [Arch.src], .both⟩
    Universe.ofSnapshot true ⟨[cycleBranch]⟩ = .ok cycleUniverse ∧
      Snapshot.branch? ⟨[cycleBranch]⟩ source.branch = some cycleBranch ∧
      Text.Pads "\t a " "a" ∧ PackageName.ofText "\t a " = .ofText "a" ∧
      (∃ parts, package.toJson.parts? fields = some parts ∧
        parts[1]? = some (some (.ofString " a"))) ∧
      (∃ d parts, Dependency.ofJson? paddedEdge = some d ∧
        paddedEdge.parts? ["subject", "name", "version", "flags", "kind"] = some parts ∧
        parts[1]? = some (some (.ofString d.name.text))) ∧
      (∃ m fields, map? PackageName.mk (list? string?) acl = some m ∧ acl.fields? = some fields ∧
        ∀ n : PackageName, n ∈ m ↔ n.text ∈ fields.map Prod.fst) ∧
      cycleBranch.IsTrimmed ∧
      cycleUniverse.Meets (fun s t => Text.trim s = Text.trim t) true source cycleBranch ∧
      Scope.ofJson? sourceScope = some source ∧ ∃ parts part archs,
        sourceScope.parts? ["branch", "archs", "package_type"] = some parts ∧
        parts[1]? = some (some part) ∧ list? Arch.ofJson? part = some archs ∧
        ∀ a, a ∈ source.archs ↔ a ∈ archs := by
  intro package acl fields source
  have hb : Snapshot.branch? ⟨[cycleBranch]⟩ source.branch = some cycleBranch :=
    Snapshot.branch?_singleton (by decide +kernel)
  obtain ⟨⟨-, -, -, hpads⟩, ⟨hpackage, -, -⟩, ⟨hname, hedge, hacl⟩, ⟨-, hmeets⟩, -, -, -, hscope⟩ :=
    spelled_trimmed_stored_verbatim ofSnapshot_cycleBranch hb
  have hpadded : Text.Pads "\t a " "a" :=
    ⟨['\t', ' '], [' '], List.all_eq_true.1 rfl, List.all_eq_true.1 rfl, rfl⟩
  have hd : Dependency.ofJson? paddedEdge = some ⟨⟨1⟩, ⟨"b "⟩, "", 0, .require⟩ := by
    decide +kernel
  obtain ⟨parts, hparts, hpart⟩ := hedge paddedEdge _ hd
  have hm : map? PackageName.mk (list? string?) acl =
      some (Std.ExtTreeMap.ofList [(PackageName.mk "a ", ["alice"])]) := rfl
  obtain ⟨names, hnames, hmem⟩ := hacl acl _ hm
  exact ⟨ofSnapshot_cycleBranch, hb, hpadded, (hpads _ _ hpadded).1, hname _ _ (hpackage package),
    ⟨_, parts, hd, hparts, hpart⟩, ⟨_, names, hm, hnames, hmem⟩, trimmed_cycleBranch,
    hmeets trimmed_cycleBranch, rfl, hscope sourceScope rfl⟩

/-! ### Names that do not meet -/

/-- A source that requires `b`, written with a blank at the end, and the packages of `b`. -/
def paddedBranch : BranchSnapshot :=
  { (SnapshotBuilder.start "sisyphus" |>.source "a" [] |>.package "b" []).current with
    dependencies := [⟨⟨1⟩, ⟨"b "⟩, "", 0, .require⟩] }

/-- The requirement is read with its blank and meets nobody, though `b` is there, and the scope is
read without `noarch` and with `src`. -/
theorem padded_requirement_meets_nobody :
    let names : CapabilitySet := .ofList (["b ", "b"].map Capability.mk)
    (∃ d, Dependency.ofJson? paddedEdge = some d ∧ ¬d.name.IsTrimmed ∧
      paddedBranch.dependencies = [d]) ∧
    (∃ u providers, Universe.ofSnapshot true ⟨[paddedBranch]⟩ = .ok u ∧
      u.providersOf names cycleScope true = .ok providers ∧
      ⟨"b"⟩ ∈ SetMap.values providers ⟨"b"⟩ ∧ ∀ m, m ∉ SetMap.values providers ⟨"b "⟩) ∧
    ∃ scope, Scope.ofJson? sourceScope = some scope ∧ .noarch ∉ scope.archs ∧
      .src ∈ scope.archs := by
  intro names
  refine ⟨⟨⟨⟨1⟩, ⟨"b "⟩, "", 0, .require⟩, by decide +kernel, by decide +kernel, rfl⟩, ?_,
    ⟨"sisyphus", Std.ExtTreeSet.ofList [Arch.src], .both⟩, rfl, by decide +kernel,
    by decide +kernel⟩
  have hu : Universe.ofSnapshot true ⟨[paddedBranch]⟩ = .ok _ :=
    Universe.ofSnapshot_singleton (by decide +kernel) rfl
  have hb : Snapshot.branch? ⟨[paddedBranch]⟩ cycleScope.branch = some paddedBranch :=
    Snapshot.branch?_singleton (by decide +kernel)
  obtain ⟨providers, hproviders, htabulates⟩ := Universe.exists_providersOf hu hb names true
  refine ⟨_, providers, hu, hproviders, ?_, fun m hm => ?_⟩
  · rw [htabulates.mem_values_iff]
    decide +kernel
  · obtain ⟨-, p, hp, -, -, hprovides, -⟩ := htabulates.mem_values_iff.1 hm
    have hnobody : ∀ p ∈ paddedBranch.packages, ¬paddedBranch.Provides p ⟨"b "⟩ := by decide +kernel
    exact hnobody p hp hprovides

end BuildPlan

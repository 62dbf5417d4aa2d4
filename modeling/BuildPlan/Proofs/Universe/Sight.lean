import BuildPlan.Proofs.Universe.Answers
import BuildPlan.Proofs.Universe.Records

/-! # What a scope sees

A scope sees the source packages of its branch and the binaries that it admits, with what the branch
says about them. An index answers a call about the scope by this alone. Neither the order in which
its tables were filled counts, nor what they hold about other packages.
-/
namespace BuildPlan

/-! ### The newest package -/

namespace Package

/-- The order from the package built first to the one built last. -/
def byAge : Package → Package → Ordering := compareLex (compareOn buildTime) (compareOn hash)

instance : Std.TransCmp byAge :=
  inferInstanceAs (Std.TransCmp (compareLex (compareOn buildTime) (compareOn hash)))

variable {p q : Package} {packages packages' : List Package}

theorem isNewerThan_iff : p.isNewerThan q = true ↔ byAge p q = .gt := beq_iff_eq

theorem hash_eq_of_byAge (h : byAge p q = .eq) : p.hash = q.hash := by
  obtain ⟨-, hhash⟩ := Ordering.then_eq_eq.1 h
  exact Std.LawfulEqOrd.eq_of_compare hhash

theorem isLE_of_newest? (h : newest? packages = some p) (hq : q ∈ packages) :
    (byAge q p).isLE = true := by
  induction packages generalizing p q with
  | nil => cases h
  | cons r rest ih =>
    unfold newest? at h
    cases hrest : newest? rest with
    | none =>
      rw [hrest] at h
      obtain rfl := Option.some.inj h
      obtain rfl := newest?_eq_none_iff.1 hrest
      obtain rfl := List.mem_singleton.1 hq
      exact Std.ReflCmp.isLE_rfl
    | some newest =>
      rw [hrest] at h
      obtain rfl := Option.some.inj h
      split
      · next hnewer =>
        rcases List.mem_cons.1 hq with rfl | hq
        · exact Ordering.isLE_of_eq_lt (Std.OrientedCmp.lt_of_gt (isNewerThan_iff.1 hnewer))
        · exact ih hrest hq
      · next hnewer =>
        rcases List.mem_cons.1 hq with rfl | hq
        · exact Std.ReflCmp.isLE_rfl
        · exact Std.TransCmp.isLE_trans (ih hrest hq)
            (Ordering.isLE_iff_ne_gt.2 (mt isNewerThan_iff.2 hnewer))

theorem newest?_congr (hmem : ∀ p, p ∈ packages ↔ p ∈ packages')
    (hhash : ∀ p ∈ packages, ∀ q ∈ packages, p.hash = q.hash → p = q) :
    newest? packages = newest? packages' := by
  cases h : newest? packages with
  | none =>
    obtain rfl := newest?_eq_none_iff.1 h
    have hnil : packages' = [] := List.eq_nil_iff_forall_not_mem.2 fun p hp => by
      cases (hmem p).2 hp
    rw [hnil, newest?]
  | some p =>
    cases h' : newest? packages' with
    | none =>
      obtain rfl := newest?_eq_none_iff.1 h'
      cases (hmem p).1 (mem_of_newest? h)
    | some q =>
      have hp := mem_of_newest? h
      have hq := (hmem q).2 (mem_of_newest? h')
      have hage : byAge p q = .eq := Std.OrientedCmp.isLE_antisymm
        (isLE_of_newest? h' ((hmem p).1 hp)) (isLE_of_newest? h hq)
      rw [hhash p hp q hq (hash_eq_of_byAge hage)]

end Package

/-! ### Indexes of a branch -/

namespace BranchIndex

/-- An index that tells of packages with different hashes what their branch says, in whatever order
its tables are filled. -/
structure Represents (index : BranchIndex) (packages : List Package) (b : BranchSnapshot) :
    Prop where
  nodup_hash : (packages.map (·.hash)).Nodup
  packages_eq : index.packages = packages
  mem_declaredArchs : ∀ a, a ∈ index.declaredArchs ↔ a ∈ b.archs
  mem_named : ∀ p n, p ∈ index.named.values n ↔ p ∈ packages ∧ p.name = n
  mem_requirementsOfPackage : ∀ p ∈ packages, ∀ a,
    a ∈ index.requirementsOfPackage p ↔ b.States .require p a
  mem_providing : ∀ p a,
    p ∈ index.providing.values a ↔ p ∈ packages ∧ p.isSource = false ∧ b.Provides p a
  mem_builtFrom : ∀ p n, p ∈ index.builtFrom.values n ↔
    p ∈ packages ∧ p.isSource = false ∧ (p.source? packages).map (·.name) = some n
  owner?_eq : ∀ p, index.owner? p = (p.source? packages).map (·.name)
  acl_eq : index.acl = b.acl

variable {packages : List Package} {b : BranchSnapshot}

theorem represents_ofPackages (hhash : (packages.map (·.hash)).Nodup) :
    (ofPackages packages b).Represents packages b where
  nodup_hash := hhash
  packages_eq := rfl
  mem_declaredArchs a := by simp [ofPackages]
  mem_named _ _ := BranchIndex.mem_named
  mem_requirementsOfPackage _ hp _ := BranchIndex.mem_requirementsOfPackage hhash hp
  mem_providing _ _ := BranchIndex.mem_providing hhash
  mem_builtFrom _ _ := BranchIndex.mem_builtFrom
  owner?_eq := owner?_eq_map_source?
  acl_eq := rfl

end BranchIndex

/-! ### Branches that look alike -/

/-- A scope sees all source packages, and the binaries for its architectures. -/
def Package.SeenIn (scope : Scope) (p : Package) : Prop :=
  p.isSource = true ∨ scope.admits p.arch = true

/-- Two branches, each with those of its packages that an index knows, of which a scope sees the
same. -/
structure BranchSnapshot.Alike (scope : Scope) (packages packages' : List Package)
    (b b' : BranchSnapshot) : Prop where
  mem_archs : ∀ a, a ∈ b.archs ↔ a ∈ b'.archs
  acl_eq : b.acl = b'.acl
  mem_packages : ∀ p : Package, p.SeenIn scope → (p ∈ packages ↔ p ∈ packages')
  source?_eq : ∀ p : Package, p.source? packages = p.source? packages'
  requires_iff : ∀ p ∈ packages, p.SeenIn scope →
    ∀ a, b.States .require p a ↔ b'.States .require p a
  provides_iff : ∀ p ∈ packages, p.isSource = false → scope.admits p.arch = true →
    ∀ a, b.States .provide p a ↔ b'.States .provide p a

/-- Two indexes that answer alike about a scope. -/
structure BranchIndex.AgreesOn (scope : Scope) (index index' : BranchIndex) : Prop where
  declaredArchs_eq : index.declaredArchs = index'.declaredArchs
  requirementsOfName_eq : ∀ reading n,
    index.requirementsOfName reading scope n = index'.requirementsOfName reading scope n
  providersOfCapability_eq : ∀ asSource a,
    index.providersOfCapability scope asSource a = index'.providersOfCapability scope asSource a
  binariesOf_eq : ∀ sources, index.binariesOf sources scope = index'.binariesOf sources scope
  describeName?_eq : ∀ asSource n,
    index.describeName? scope asSource n = index'.describeName? scope asSource n
  acl_eq : index.acl = index'.acl

namespace BranchIndex.Represents

variable {scope : Scope} {index : BranchIndex} {packages : List Package} {b : BranchSnapshot}
  {reading : NameReading} {asSource : Bool} {n m : PackageName} {a : Capability} {p : Package}
  (h : index.Represents packages b)
include h

theorem mem_binariesFrom : p ∈ index.binariesFrom n scope ↔ p ∈ packages ∧
    p.isSource = false ∧ (p.source? packages).map (·.name) = some n ∧
      scope.admits p.arch = true := by
  rw [binariesFrom, List.mem_filter, h.mem_builtFrom, and_assoc, and_assoc]

theorem mem_requirementsOfName : a ∈ index.requirementsOfName reading scope n ↔
    ∃ p ∈ packages, p.SeenIn scope ∧ b.States .require p a ∧
      (p.name = n ∧ contributes reading scope p = true ∨
        (reading.coversSource && scope.dependencyType.includesBinary) = true ∧
          p.isSource = false ∧ (p.source? packages).map (·.name) = some n ∧
            scope.admits p.arch = true) := by
  have hseen : ∀ p, contributes reading scope p = true → p.SeenIn scope := by
    intro p hp
    unfold contributes at hp
    split at hp
    · next hsource => exact Or.inl hsource
    · exact Or.inr (Bool.and_eq_true_iff.1 hp).2
  have hbuilt : ∀ p, p ∈ (if reading.coversSource && scope.dependencyType.includesBinary then
      index.binariesFrom n scope else []) ↔
        (reading.coversSource && scope.dependencyType.includesBinary) = true ∧
          p ∈ index.binariesFrom n scope := by
    intro p
    split <;> simp [*]
  simp only [requirementsOfName, Std.ExtTreeSet.mem_ofList, List.contains_iff_mem,
    List.mem_flatMap, List.mem_append, List.mem_filter, h.mem_named, hbuilt, h.mem_binariesFrom]
  constructor
  · rintro ⟨p, ⟨⟨hp, hname⟩, hcontributes⟩ | ⟨hcovers, hp, hrest⟩, ha⟩
    · exact ⟨p, hp, hseen p hcontributes, (h.mem_requirementsOfPackage p hp a).1 ha,
        Or.inl ⟨hname, hcontributes⟩⟩
    · exact ⟨p, hp, Or.inr hrest.2.2, (h.mem_requirementsOfPackage p hp a).1 ha,
        Or.inr ⟨hcovers, hrest⟩⟩
  · rintro ⟨p, hp, -, ha, ⟨hname, hcontributes⟩ | ⟨hcovers, hrest⟩⟩
    · exact ⟨p, Or.inl ⟨⟨hp, hname⟩, hcontributes⟩, (h.mem_requirementsOfPackage p hp a).2 ha⟩
    · exact ⟨p, Or.inr ⟨hcovers, hp, hrest⟩, (h.mem_requirementsOfPackage p hp a).2 ha⟩

theorem mem_providersOfCapability : m ∈ index.providersOfCapability scope asSource a ↔
    ∃ p ∈ packages, p.SeenIn scope ∧ p.isSource = false ∧ scope.admits p.arch = true ∧
      b.Provides p a ∧
        (if asSource then (p.source? packages).map (·.name) else some p.name) = some m := by
  simp only [BranchIndex.mem_providersOfCapability, h.mem_providing, h.owner?_eq]
  constructor
  · rintro ⟨p, ⟨hp, hbinary, hprovides⟩, hadmits, hm⟩
    exact ⟨p, hp, Or.inr hadmits, hbinary, hadmits, hprovides, hm⟩
  · rintro ⟨p, hp, -, hbinary, hadmits, hprovides, hm⟩
    exact ⟨p, ⟨hp, hbinary, hprovides⟩, hadmits, hm⟩

end BranchIndex.Represents

namespace BranchSnapshot.Alike

variable {scope : Scope} {packages packages' : List Package} {b b' : BranchSnapshot}
  (h : b.Alike scope packages packages' b')
include h

theorem exists_seen_congr {P P' : Package → Prop}
    (hP : ∀ p ∈ packages, p.SeenIn scope → (P p ↔ P' p)) :
    (∃ p ∈ packages, p.SeenIn scope ∧ P p) ↔ ∃ p ∈ packages', p.SeenIn scope ∧ P' p := by
  constructor
  · rintro ⟨p, hp, hseen, hPp⟩
    exact ⟨p, (h.mem_packages p hseen).1 hp, hseen, (hP p hp hseen).1 hPp⟩
  · rintro ⟨p, hp', hseen, hPp⟩
    have hp := (h.mem_packages p hseen).2 hp'
    exact ⟨p, hp, hseen, (hP p hp hseen).2 hPp⟩

variable {index index' : BranchIndex} (hindex : index.Represents packages b)
  (hindex' : index'.Represents packages' b')
include hindex hindex'

theorem mem_binariesFrom_congr {p : Package} {n : PackageName} :
    p ∈ index.binariesFrom n scope ↔ p ∈ index'.binariesFrom n scope := by
  rw [hindex.mem_binariesFrom, hindex'.mem_binariesFrom, h.source?_eq]
  refine and_congr_left fun ⟨_, _, hadmits⟩ => ?_
  exact h.mem_packages p (Or.inr hadmits)

theorem mem_filter_named_congr {f : Package → Bool} (hf : ∀ p, f p = true → p.SeenIn scope)
    {p : Package} {n : PackageName} :
    p ∈ (index.named.values n).filter f ↔ p ∈ (index'.named.values n).filter f := by
  rw [List.mem_filter, List.mem_filter, hindex.mem_named, hindex'.mem_named]
  refine and_congr_left fun hp => and_congr_left fun _ => ?_
  exact h.mem_packages p (hf p hp)

theorem newest?_filter_named_congr {f : Package → Bool}
    (hf : ∀ p, f p = true → p.SeenIn scope) (n : PackageName) :
    Package.newest? ((index.named.values n).filter f) =
      Package.newest? ((index'.named.values n).filter f) := by
  apply Package.newest?_congr
  · exact fun p => h.mem_filter_named_congr hindex hindex' hf
  · intro p hp q hq
    obtain ⟨hp, -⟩ := (hindex.mem_named p n).1 (List.mem_of_mem_filter hp)
    obtain ⟨hq, -⟩ := (hindex.mem_named q n).1 (List.mem_of_mem_filter hq)
    exact List.inj_on_of_nodup_map hindex.nodup_hash hp hq

theorem describeName?_congr (asSource : Bool) (n : PackageName) :
    index.describeName? scope asSource n = index'.describeName? scope asSource n := by
  have harchs : ∀ l l' : List Package, (∀ p, p ∈ l ↔ p ∈ l') →
      (.ofList (l.map (·.arch)) : ArchSet) = .ofList (l'.map (·.arch)) := by
    intro l l' hl
    apply Std.ExtTreeSet.ext_mem
    intro a
    simp only [Std.ExtTreeSet.mem_ofList, List.contains_iff_mem, List.mem_map, hl]
  unfold BranchIndex.describeName?
  dsimp only
  split
  · rw [h.newest?_filter_named_congr hindex hindex' (fun _ => Or.inl) n,
      harchs _ _ fun p => h.mem_binariesFrom_congr hindex hindex']
  · have hseen : ∀ p : Package, (!p.isSource && scope.admits p.arch) = true → p.SeenIn scope :=
      fun p hp => Or.inr (Bool.and_eq_true_iff.1 hp).2
    rw [h.newest?_filter_named_congr hindex hindex' hseen n,
      harchs _ _ fun p => h.mem_filter_named_congr hindex hindex' hseen]

/-- An index shows what the scope sees of the branch, and nothing else. -/
theorem agreesOn : BranchIndex.AgreesOn scope index index' where
  declaredArchs_eq := by
    apply Std.ExtTreeSet.ext_mem
    intro a
    rw [hindex.mem_declaredArchs, hindex'.mem_declaredArchs, h.mem_archs]
  requirementsOfName_eq reading n := by
    apply Std.ExtTreeSet.ext_mem
    intro a
    rw [hindex.mem_requirementsOfName, hindex'.mem_requirementsOfName]
    apply h.exists_seen_congr
    intro p hp hseen
    rw [h.requires_iff p hp hseen, h.source?_eq]
  providersOfCapability_eq asSource a := by
    apply Std.ExtTreeSet.ext_mem
    intro m
    rw [hindex.mem_providersOfCapability, hindex'.mem_providersOfCapability]
    apply h.exists_seen_congr
    intro p hp _
    rw [h.source?_eq]
    refine and_congr_right fun hbinary => and_congr_right fun hadmits => and_congr_left' ?_
    exact or_congr_right (h.provides_iff p hp hbinary hadmits a)
  binariesOf_eq sources := by
    apply Std.ExtTreeSet.ext_mem
    intro m
    simp only [BranchIndex.binariesOf, Std.ExtTreeSet.mem_ofList, List.contains_iff_mem,
      List.mem_map, List.mem_flatMap, h.mem_binariesFrom_congr hindex hindex']
  describeName?_eq := h.describeName?_congr hindex hindex'
  acl_eq := by rw [hindex.acl_eq, hindex'.acl_eq, h.acl_eq]

end BranchSnapshot.Alike

/-! ### Calls about a scope -/

namespace BranchIndex.AgreesOn

variable {scope : Scope} {index index' : BranchIndex} (h : AgreesOn scope index index')
include h

theorem missingArch?_eq : index.missingArch? scope = index'.missingArch? scope := by
  rw [missingArch?, missingArch?, h.declaredArchs_eq]

theorem requirementsOf_eq (names : PackageSet) (reading : NameReading) :
    index.requirementsOf names reading scope = index'.requirementsOf names reading scope := by
  rw [requirementsOf, requirementsOf, funext fun n => h.requirementsOfName_eq reading n]

theorem providersOf_eq (capabilities : CapabilitySet) (asSource : Bool) :
    index.providersOf capabilities scope asSource =
      index'.providersOf capabilities scope asSource := by
  rw [providersOf, providersOf, funext fun a => h.providersOfCapability_eq asSource a]

theorem describe_eq (names : PackageSet) (asSource : Bool) :
    index.describe names scope asSource = index'.describe names scope asSource := by
  rw [describe, describe, funext fun n => h.describeName?_eq asSource n]

end BranchIndex.AgreesOn

/-- A call whose answer depends on nothing but what a scope sees. -/
def Call.About (scope : Scope) : Call → Prop
  | checkScope s | requirementsOf _ _ s | providersOf _ s _ | binariesOf _ s | describe _ s _ =>
    s = scope
  | aclOf _ branch => branch = scope.branch

theorem Call.exists_about (c : Call) : ∃ scope, c.About scope := by
  cases c with
  | aclOf _ branch => exact ⟨⟨branch, ∅, .both⟩, rfl⟩
  | _ => exact ⟨_, rfl⟩

namespace Universe

variable {skipDebuginfo : Bool} {s s' : Snapshot} {u u' : Universe} {scope : Scope}

theorem answer_eq_of_agreesOn (h : Option.Rel (BranchIndex.AgreesOn scope)
    u.branches[scope.branch]? u'.branches[scope.branch]?) {c : Call} (hc : c.About scope) :
    u.answer c = u'.answer c := by
  unfold Call.About at hc
  generalize hindex : u.branches[scope.branch]? = o at h
  generalize hindex' : u'.branches[scope.branch]? = o' at h
  cases h with
  | none =>
    have hbranch : u.branch scope.branch = u'.branch scope.branch := by
      rw [branch, branch, hindex, hindex']
    cases c <;> subst hc <;> simp only [answer, checkScope, requirementsOf, providersOf,
      binariesOf, describe, aclOf, hbranch]
  | some hagrees =>
    have hbranch := branch_eq_ok_iff.2 hindex
    have hbranch' := branch_eq_ok_iff.2 hindex'
    cases c <;> subst hc <;> rw [answer, answer]
    case checkScope =>
      rw [checkScope, checkScope, hbranch, hbranch', ok_bind, ok_bind, hagrees.missingArch?_eq]
    case requirementsOf =>
      rw [requirementsOf_eq hbranch, requirementsOf_eq hbranch', hagrees.requirementsOf_eq]
    case providersOf =>
      rw [providersOf_eq hbranch, providersOf_eq hbranch', hagrees.providersOf_eq]
    case binariesOf => rw [binariesOf_eq hbranch, binariesOf_eq hbranch', hagrees.binariesOf_eq]
    case describe => rw [describe_eq hbranch, describe_eq hbranch', hagrees.describe_eq]
    case aclOf => rw [aclOf_eq hbranch, aclOf_eq hbranch', hagrees.acl_eq]

/-- Each branch of the universe is an index of the branch of the snapshot that goes by its name. -/
def Represents (skipDebuginfo : Bool) (u : Universe) (s : Snapshot) : Prop :=
  ∀ name, Option.Rel (fun index b => index.Represents (BranchIndex.keptPackages skipDebuginfo b) b)
    u.branches[name]? (s.branch? name)

theorem represents_of_ofSnapshot (h : ofSnapshot skipDebuginfo s = .ok u) :
    u.Represents skipDebuginfo s := by
  intro name
  rw [getElem?_branches h]
  cases hb : s.branch? name with
  | none => exact .none
  | some b => exact .some (BranchIndex.represents_ofPackages (nodup_hash_of_branch? h hb))

theorem Represents.mem_packageNames (h : u.Represents skipDebuginfo s) {n : PackageName} :
    n ∈ u.packageNames ↔ ∃ name b, s.branch? name = some b ∧
      ∃ p ∈ BranchIndex.keptPackages skipDebuginfo b, p.name = n := by
  rw [Universe.mem_packageNames]
  constructor
  · rintro ⟨name, index, hindex, p, hp, hname⟩
    obtain ⟨b, hb, hrepresents⟩ := exists_of_rel_left (h name) hindex
    exact ⟨name, b, hb, p, hrepresents.packages_eq ▸ hp, hname⟩
  · rintro ⟨name, b, hb, p, hp, hname⟩
    obtain ⟨index, hindex, hrepresents⟩ := exists_of_rel_right (h name) hb
    exact ⟨name, index, hindex, p, hrepresents.packages_eq ▸ hp, hname⟩

/-- What universes answer about a scope depends on what the scope sees of the snapshot. -/
theorem Represents.answer_eq (h : u.Represents skipDebuginfo s)
    (h' : u'.Represents skipDebuginfo s')
    (halike : Option.Rel (fun b b' => b.Alike scope (BranchIndex.keptPackages skipDebuginfo b)
      (BranchIndex.keptPackages skipDebuginfo b') b') (s.branch? scope.branch)
      (s'.branch? scope.branch)) {c : Call} (hc : c.About scope) : u.answer c = u'.answer c := by
  apply answer_eq_of_agreesOn _ hc
  have hindex := h scope.branch
  have hindex' := h' scope.branch
  generalize s.branch? scope.branch = o at halike hindex
  generalize s'.branch? scope.branch = o' at halike hindex'
  generalize u.branches[scope.branch]? = i at hindex ⊢
  generalize u'.branches[scope.branch]? = i' at hindex' ⊢
  cases halike with
  | none =>
    cases hindex
    cases hindex'
    exact .none
  | some halike =>
    cases hindex with
    | some hindex =>
      cases hindex' with
      | some hindex' => exact .some (halike.agreesOn hindex hindex')

end Universe

end BuildPlan

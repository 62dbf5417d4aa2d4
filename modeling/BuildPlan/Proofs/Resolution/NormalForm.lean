import BuildPlan.Proofs.Resolution.Outcome
import BuildPlan.Proofs.Text.LowerCase

/-! # Normal forms of requests

A request can be spelled in many ways: with blanks around names, with names that are blank or given
twice, in any order, with a branch in upper case, with other names of architectures or with none.
The normal form spells it in one. It stands for the same checked request, so that nothing that is
asked about it comes out differently, and it is the normal form of itself.
-/
namespace BuildPlan

/-! ### Names of architectures -/

/-- Below the first letter whose case matters beyond ASCII, only `A` to `Z` are in upper case. -/
theorem Text.isLower_of_ascii {c : Char}
    (h : c.toNat < 0x41 ∨ 0x5A < c.toNat ∧ c.toNat < 0xC0) : Text.IsLower c := by
  have hruns : Text.lowerRuns.all (fun s => Nat.blt 0x40 s.first &&
      (Nat.blt s.last 0x5B || Nat.blt 0xBF s.first)) = true := by decide +kernel
  refine ⟨Text.lowerChar_eq_self fun s hs => ?_, ?_, ?_⟩
  · have hrun := List.all_eq_true.1 hruns s hs
    simp only [Bool.and_eq_true, Bool.or_eq_true, Nat.blt_eq] at hrun
    rw [← Bool.not_eq_true]
    simp only [Text.CaseRun.covers, Bool.and_eq_true, decide_eq_true_eq]
    omega
  · rintro rfl
    exact absurd h (by decide)
  · rintro rfl
    exact absurd h (by decide)

theorem Arch.lowerCase_name (a : Arch) : Text.lowerCase a.name = a.name := by
  have hall : a.name.toList.all
      (fun c => c.toNat < 0x41 ∨ 0x5A < c.toNat ∧ c.toNat < 0xC0) = true := by
    cases a <;> decide
  have hascii : ∀ c ∈ a.name.toList, c.toNat < 0x41 ∨ 0x5A < c.toNat ∧ c.toNat < 0xC0 :=
    fun c hc => of_decide_eq_true (List.all_eq_true.1 hall c hc)
  exact Text.lowerCase_eq_self fun c hc => Text.isLower_of_ascii (hascii c hc)

@[simp] theorem Arch.ofText?_name (a : Arch) : Arch.ofText? a.name = some a := by
  rw [ofText?, lowerCase_name]
  cases a <;> rfl

/-! ### Lists of names -/

/-- Texts trimmed and in order, each once and none blank. -/
def Text.tidy (texts : List String) : List String :=
  (Std.ExtTreeSet.ofList (texts.filterMap Text.nonBlank?) : Std.ExtTreeSet String).toList

theorem Text.mem_tidy {texts : List String} {t : String} :
    t ∈ Text.tidy texts ↔ ∃ s ∈ texts, Text.nonBlank? s = some t := by
  simp [tidy]

theorem Text.tidy_tidy (texts : List String) : Text.tidy (Text.tidy texts) = Text.tidy texts := by
  refine congrArg Std.ExtTreeSet.toList (Std.ExtTreeSet.ext_mem fun t => ?_)
  rw [← Std.ExtTreeSet.mem_toList, ← Std.ExtTreeSet.mem_toList]
  change t ∈ Text.tidy (Text.tidy texts) ↔ t ∈ Text.tidy texts
  rw [mem_tidy]
  constructor
  · rintro ⟨s, hs, hst⟩
    obtain ⟨_, -, hself⟩ := mem_tidy.1 hs
    obtain rfl : s = t := by simpa [Text.nonBlank?_eq_self hself] using hst
    exact hs
  · intro ht
    obtain ⟨_, -, hself⟩ := mem_tidy.1 ht
    exact ⟨t, ht, Text.nonBlank?_eq_self hself⟩

theorem PackageName.ofText?_of_nonBlank? {s t : String} (h : Text.nonBlank? s = some t) :
    PackageName.ofText? t = PackageName.ofText? s := by
  rw [ofText?, ofText?, h, Text.nonBlank?_eq_self h]

theorem PackageName.ofList_tidy (texts : List String) :
    (.ofList ((Text.tidy texts).filterMap ofText?) : PackageSet) =
      .ofList (texts.filterMap ofText?) := by
  refine Std.ExtTreeSet.ext_mem fun n => ?_
  simp only [Std.ExtTreeSet.mem_ofList, List.contains_iff_mem, List.mem_filterMap]
  constructor
  · rintro ⟨t, ht, hn⟩
    obtain ⟨s, hs, hst⟩ := Text.mem_tidy.1 ht
    exact ⟨s, hs, ofText?_of_nonBlank? hst ▸ hn⟩
  · rintro ⟨s, hs, hn⟩
    obtain ⟨t, hst, -⟩ := Option.map_eq_some_iff.1 hn
    exact ⟨t, Text.mem_tidy.2 ⟨s, hs, hst⟩, (ofText?_of_nonBlank? hst).trans hn⟩

theorem Text.bind_nonBlank?_bind {α : Type} {f : String → Option α}
    (hnone : ∀ {s}, nonBlank? s = none → f s = none)
    (hsome : ∀ {s t}, nonBlank? s = some t → f t = f s) (o : Option String) :
    (o.bind nonBlank?).bind f = o.bind f := by
  cases o with
  | none => rfl
  | some s =>
    cases h : nonBlank? s with
    | none => simp [h, hnone h]
    | some t => simp [h, hsome h]

theorem PackageName.bind_ofText?_nonBlank? (o : Option String) :
    (o.bind Text.nonBlank?).bind ofText? = o.bind ofText? :=
  Text.bind_nonBlank?_bind (fun h => by simp [ofText?, h]) ofText?_of_nonBlank? o

theorem Text.bind_nonBlank?_nonBlank? (o : Option String) :
    (o.bind nonBlank?).bind nonBlank? = o.bind nonBlank? :=
  bind_nonBlank?_bind id (fun h => (nonBlank?_eq_self h).trans h.symm) o

/-! ### Requests -/

/-- The filters with each name trimmed; a blank name is left out. -/
def FilterRequest.normalForm (f : FilterRequest) : FilterRequest where
  leaf := f.leaf.bind Text.nonBlank?
  finitePackage := f.finitePackage
  filterByPackage := Text.tidy f.filterByPackage
  filterBySource := f.filterBySource.bind Text.nonBlank?

theorem FilterRequest.normalForm_normalForm (f : FilterRequest) :
    f.normalForm.normalForm = f.normalForm := by
  simp only [normalForm, Text.tidy_tidy, Text.bind_nonBlank?_nonBlank?]

theorem FilterRequest.validate_normalForm (f : FilterRequest) :
    f.normalForm.validate = f.validate := by
  simp only [validate, normalForm, PackageName.ofList_tidy, PackageName.bind_ofText?_nonBlank?]

/-- The request as its scope, once it is known, would have it spelled. -/
def Request.normalForm (r : Request) (scope : Scope) : Request where
  goal := r.goal
  seeds := Text.tidy r.seeds
  scope := ⟨scope.branch, scope.archs.toList.map Arch.name, scope.dependencyType⟩
  deadline := r.deadline
  filters := r.filters.normalForm

theorem Config.mapM_parseArch_names {archs : List Arch} (h : .src ∉ archs) :
    (archs.map Arch.name).mapM parseArch = .ok archs := by
  rw [mapM_eq_ok_iff, List.forall₂_map_left_iff, List.forall₂_same]
  intro a ha
  exact parseArch_eq_ok_iff.2 ⟨Arch.ofText?_name a, fun hsrc => h (hsrc ▸ ha)⟩

theorem Config.resolveScope_names {config : Config} {branch : String} {archs : List String}
    {dependencyType : DependencyType} {scope : Scope}
    (h : config.resolveScope branch archs dependencyType = .ok scope) :
    config.resolveScope scope.branch (scope.archs.toList.map Arch.name) scope.dependencyType =
      .ok scope := by
  have hbranch := branch_of_resolveScope h
  have hmem := fun a => mem_archs_of_resolveScope (a := a) h
  have hnoarch : Arch.noarch ∈ scope.archs := (hmem _).2 (Or.inl rfl)
  have hsrc : Arch.src ∉ scope.archs := by simp [hmem]
  have hne : Text.lowerCase (Text.trim branch) ≠ "" := by
    rw [ne_eq, Text.lowerCase_eq_empty_iff]
    exact ((exists_resolveScope_iff ..).1 ⟨_, h⟩).1
  have hnames : (scope.archs.toList.map Arch.name).mapM parseArch = .ok scope.archs.toList :=
    mapM_parseArch_names (by simpa using hsrc)
  have hnonempty : scope.archs.toList.isEmpty = false := by
    rw [List.isEmpty_eq_false_iff_exists_mem]
    exact ⟨_, Std.ExtTreeSet.mem_toList.2 hnoarch⟩
  have harchs : (Scope.ofArchs scope.branch scope.archs.toList scope.dependencyType) = scope := by
    have hset : (Scope.ofArchs scope.branch scope.archs.toList scope.dependencyType).archs =
        scope.archs := by
      refine Std.ExtTreeSet.ext_mem fun a => ?_
      simp only [Scope.ofArchs, Std.ExtTreeSet.mem_ofList, List.contains_iff_mem, List.mem_cons,
        List.mem_filter, Std.ExtTreeSet.mem_toList, Arch.isBinary, bne_iff_ne]
      grind
    exact Scope.mk.injEq .. ▸ ⟨rfl, hset, rfl⟩
  unfold resolveScope
  dsimp only
  rw [hbranch, Text.trim_lowerCase_trim, Text.lowerCase_lowerCase,
    if_neg (by simpa [String.isEmpty_iff] using hne), hnames, ok_bind, hnonempty, ← hbranch]
  exact congrArg Except.ok harchs

theorem Request.seedSet_normalForm (r : Request) (scope : Scope) :
    (r.normalForm scope).seedSet = r.seedSet :=
  PackageName.ofList_tidy r.seeds

theorem Request.check_normalForm {config : Config} {r : Request} {checked : CheckedRequest}
    (h : r.check config = .ok checked) :
    (r.normalForm checked.scope).check config = .ok checked := by
  obtain ⟨hgoal, hseeds, filters, scope, hfilters, hscope, rfl⟩ := check_eq_ok_iff.1 h
  refine check_eq_ok_iff.2 ⟨hgoal, ?_, filters, scope, ?_, Config.resolveScope_names hscope, ?_⟩
  · rw [seedSet_normalForm]
    exact hseeds
  · exact (FilterRequest.validate_normalForm _).trans hfilters
  · rw [seedSet_normalForm]
    rfl

/-- The normal form of a request passes the same checks with the same result, is answered in the
same way in every world, and is its own normal form. -/
theorem Request.resolve_normalForm {config : Config} {r : Request} {checked : CheckedRequest}
    (h : r.check config = .ok checked) :
    let n := r.normalForm checked.scope
    n.check config = .ok checked ∧
    Arch.noarch ∈ checked.scope.archs ∧ Arch.src ∉ checked.scope.archs ∧
    (∀ resolver : Resolver, resolver.config = config → ∀ world p,
      resolver.resolve world n p = resolver.resolve world r p) ∧
    n.normalForm checked.scope = n := by
  intro n
  have hn : n.check config = .ok checked := check_normalForm h
  have hscope : config.resolveScope r.scope.branch r.scope.archs r.scope.dependencyType =
      .ok checked.scope := by
    obtain ⟨-, -, _, _, -, hscope, rfl⟩ := check_eq_ok_iff.1 h
    exact hscope
  refine ⟨hn, (Config.mem_archs_of_resolveScope hscope).2 (Or.inl rfl), ?_, ?_, ?_⟩
  · rw [Config.mem_archs_of_resolveScope hscope]
    simp
  · rintro resolver rfl world p
    rw [Resolver.resolve, Resolver.resolve, h, hn]
    rfl
  · simp only [n, normalForm, Text.tidy_tidy, FilterRequest.normalForm_normalForm]

/-- Blanks, repetitions, upper case, a sigma at the end of a word and other names of architectures
go. -/
def untidyRequest : Request where
  goal := .full
  seeds := [" b", "", "a ", "b"]
  scope := ⟨" ΟΔΟΣ ", ["AMD64", "x86_64"], .both⟩
  deadline := none
  filters := ⟨some " ", true, ["c ", "\t", "c"], some " "⟩

theorem Request.resolve_normalForm_untidy :
    let scope : Scope := .ofArchs "οδος" [.x86_64] .both
    let n := untidyRequest.normalForm scope
    n = ⟨.full, ["a", "b"], ⟨"οδος", ["noarch", "x86_64"], .both⟩, none,
      ⟨none, true, ["c"], none⟩⟩ ∧
    ∃ checked, untidyRequest.check .default = .ok checked ∧ n.check .default = .ok checked ∧
      ∀ world p, (Resolver.ofUniverse cycleUniverse .default true).resolve world n p =
        (Resolver.ofUniverse cycleUniverse .default true).resolve world untidyRequest p := by
  intro scope n
  have hseeds : untidyRequest.seedSet.isEmpty = false := by decide +kernel
  have hfilters : untidyRequest.filters.validate =
      .ok ⟨none, true, some (.packages (.ofList [PackageName.mk "c"]))⟩ := by decide +kernel
  have hscope : Config.default.resolveScope " ΟΔΟΣ " ["AMD64", "x86_64"] .both = .ok scope := by
    decide +kernel
  have hcheck := check_eq_ok_iff.2 ⟨rfl, hseeds, _, _, hfilters, hscope, rfl⟩
  obtain ⟨hn, -, -, hresolve, -⟩ := resolve_normalForm hcheck
  exact ⟨by decide +kernel, _, hcheck, hn, hresolve _ rfl⟩

end BuildPlan

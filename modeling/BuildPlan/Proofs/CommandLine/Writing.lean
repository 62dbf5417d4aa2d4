import BuildPlan.Proofs.CommandLine.Arrangement

/-! # Writing a request

A request is written plainly by giving its command, then each named argument with all of its values
one by one, and the seeds after two dashes.
-/
namespace BuildPlan

open Saying

namespace Query

variable (q : Query)

def sayings (arg : NamedArg) : List Saying :=
  (q.texts arg).map (.value arg) ++ if q.sets arg then [.flag arg] else []

def arrangement : Arrangement where
  before := []
  after := q.request.goal.level.named.flatMap q.sayings
  trailing := some q.request.seeds

variable (arg other : NamedArg) {args : List NamedArg}

theorem textsOf_sayings :
    textsOf arg (q.sayings other) = if other = arg then q.texts arg else [] := by
  have hflag : textsOf arg (if q.sets other then [.flag other] else []) = [] := by
    split <;> rfl
  rw [sayings, textsOf_append, hflag, List.append_nil]
  by_cases heq : other = arg
  · simp [textsOf, List.filterMap_map, Function.comp_def, value?, heq]
  · simp [textsOf, List.filterMap_map, Function.comp_def, value?, heq]

theorem count_sayings :
    (q.sayings other).count (.flag arg) = if other = arg ∧ q.sets arg then 1 else 0 := by
  have hvalue : ((q.texts other).map (Saying.value other)).count (.flag arg) = 0 := by
    simp [List.count_eq_zero]
  rw [sayings, List.count_append, hvalue, Nat.zero_add]
  by_cases heq : other = arg
  · subst heq
    cases q.sets other <;> simp
  · cases q.sets other <;> simp [heq]

theorem wordsOf_sayings : wordsOf (q.sayings arg) = [] := by
  have hvalue : wordsOf ((q.texts arg).map (.value arg)) = [] := by
    simp [wordsOf, word?]
  rw [sayings, wordsOf_append, hvalue]
  split <;> rfl

theorem wordsOf_flatMap_sayings : wordsOf (args.flatMap q.sayings) = [] := by
  induction args with
  | nil => rfl
  | cons arg args ih =>
    rw [List.flatMap_cons, wordsOf_append, wordsOf_sayings, ih]
    rfl

theorem textsOf_flatMap_sayings (hnodup : args.Nodup) :
    textsOf arg (args.flatMap q.sayings) = if arg ∈ args then q.texts arg else [] := by
  induction args with
  | nil => rfl
  | cons other args ih =>
    obtain ⟨hnot, hnodup⟩ := List.nodup_cons.1 hnodup
    rw [List.flatMap_cons, textsOf_append, textsOf_sayings, ih hnodup]
    by_cases heq : other = arg
    · subst heq
      simp [hnot]
    · simp [heq, Ne.symm heq]

theorem count_flatMap_sayings (hnodup : args.Nodup) :
    (args.flatMap q.sayings).count (.flag arg) = if arg ∈ args ∧ q.sets arg then 1 else 0 := by
  induction args with
  | nil => rfl
  | cons other args ih =>
    obtain ⟨hnot, hnodup⟩ := List.nodup_cons.1 hnodup
    rw [List.flatMap_cons, List.count_append, count_sayings, ih hnodup]
    by_cases heq : other = arg
    · subst heq
      simp [hnot]
    · simp [heq, Ne.symm heq]

variable {arg} in
theorem texts_eq_nil (h : arg ∉ q.request.goal.level.named) : q.texts arg = [] := by
  cases arg with
  | depth =>
    cases hgoal : q.request.goal with
    | build => simp [hgoal, Goal.level, Level.named] at h
    | full => simp only [texts, hgoal]
  | json | halfStep | finite | help | version => rfl
  | _ => cases hgoal : q.request.goal <;> simp [hgoal, Goal.level, Level.named] at h

theorem gives_texts : q.Gives arg (q.texts arg) := by
  cases arg with
  | arch | filterByPackage => exact Joins.refl _
  | dependencyType => exact Or.inr ⟨_, rfl, DependencyType.isNamedBy_name _⟩
  | depth =>
    cases hgoal : q.request.goal with
    | build depth halfStep =>
      simp only [Gives, texts, hgoal]
      exact Or.inr ⟨_, rfl, 0, Or.inl rfl⟩
    | full => simp only [Gives, texts, hgoal]
  | _ => rfl

theorem arrangement_conveys : q.arrangement.Conveys q := by
  have hnodup : q.request.goal.level.named.Nodup := by
    rcases q.request.goal.level_eq with hlevel | hlevel <;> rw [hlevel] <;> decide
  have hsaid : q.arrangement.said = q.request.goal.level.named.flatMap q.sayings := rfl
  refine ⟨List.forall_mem_nil _, ?_, fun arg => ?_, fun arg => ?_⟩
  · have hwords : wordsOf q.arrangement.after = [] := q.wordsOf_flatMap_sayings
    rw [hwords]
    rfl
  · have htexts : textsOf arg q.arrangement.said = q.texts arg := by
      rw [hsaid, textsOf_flatMap_sayings q arg hnodup, ite_eq_left_iff]
      exact fun hmem => (q.texts_eq_nil hmem).symm
    rw [htexts]
    exact q.gives_texts arg
  · rw [hsaid, count_flatMap_sayings q arg hnodup]
    by_cases hset : q.sets arg = true
    · simp [hset, mem_named_of_sets hset]
    · simp [hset]

theorem exists_spells_of_mem_sayings (hne : ∀ arg, "" ∉ q.texts arg) {saying : Saying}
    (hmem : saying ∈ q.sayings arg) : ∃ args, saying.Spells args := by
  rw [sayings, List.mem_append, List.mem_map] at hmem
  rcases hmem with ⟨text, hmem, rfl⟩ | hmem
  · exact ⟨_, .longAttached arg fun heq => hne arg (heq ▸ hmem)⟩
  · split at hmem
    · rw [List.mem_singleton] at hmem
      exact ⟨_, hmem ▸ Spells.flag arg⟩
    · cases hmem

theorem exists_spells (hne : ∀ arg, "" ∉ q.texts arg) :
    ∃ args, q.arrangement.Spells q.request.goal.commandName args := by
  have hsaid : ∀ saying ∈ q.arrangement.after, ∃ args, saying.Spells args := by
    intro saying hmem
    obtain ⟨arg, -, hmem⟩ := List.mem_flatMap.1 hmem
    exact q.exists_spells_of_mem_sayings arg hne hmem
  obtain ⟨inner, hinner⟩ := exists_spellsAll hsaid
  exact ⟨_, [], inner, .nil, hinner, rfl⟩

end Query

/-- Every request can be written on a command line, and every command line that says what the
request asks for, in any order and any spelling, is understood as the request. -/
theorem Invocation.ofArgs_of_arrangement (q : Query) (hq : q.IsSayable) :
    (∃ (a : Arrangement) (args : List String),
      a.Conveys q ∧ a.Spells q.request.goal.commandName args) ∧
    ∀ (a : Arrangement) (args : List String),
      a.Conveys q → a.Spells q.request.goal.commandName args → ofArgs args = .ok q.invocation := by
  constructor
  · obtain ⟨args, hspells⟩ := q.exists_spells hq.texts
    exact ⟨q.arrangement, args, q.arrangement_conveys, hspells⟩
  · intro a args hconveys hspells
    exact hconveys.ofArgs_eq hq hspells

def Query.thorough : Query where
  snapshot := some "build-deps"
  config := some "etc/bdep.toml"
  json := true
  request :=
    { goal := .build 3 true
      seeds := ["help", "gcc", "python3"]
      scope := ⟨"sisyphus", ["x86_64", "i586", "noarch"], .source⟩
      deadline := none
      filters := ⟨some "glibc-core", true, ["libffi.so.8", "zlib"], some "a,b"⟩ }

/-- The arguments of the query mixed, with a path that looks like a command. -/
def Arrangement.mixed : Arrangement where
  before := [.value .snapshot "build-deps", .flag .json]
  after := [.word "help", .value .branch "sisyphus", .value .arch "x86_64,i586", .word "gcc",
    .flag .halfStep, .value .arch "noarch", .value .dependencyType "SRC", .value .depth "+03",
    .value .leaf "glibc-core", .flag .finite, .value .filterByPackage "libffi.so.8",
    .value .config "etc/bdep.toml", .value .filterByPackage "zlib", .value .filterBySource "a,b"]
  trailing := some ["python3"]

theorem Arrangement.mixed_conveys : Arrangement.mixed.Conveys Query.thorough where
  before := by simp [Arrangement.mixed, Saying.IsOf, Level.named]
  words := by rfl
  texts arg := by
    cases arg with
    | arch => exact ⟨[["x86_64", "i586"], ["noarch"]], by decide, by rfl, by decide⟩
    | filterByPackage => exact ⟨[["libffi.so.8"], ["zlib"]], by decide, by rfl, by decide⟩
    | dependencyType =>
      have hname : DependencyType.source.IsNamedBy "SRC" := by
        unfold DependencyType.IsNamedBy
        decide
      exact Or.inr ⟨"SRC", rfl, hname⟩
    | depth => exact Or.inr ⟨"+03", rfl, 2, Or.inr (by decide)⟩
    | _ => rfl
  flags arg := by cases arg <;> decide

theorem Arrangement.mixed_spells : Arrangement.mixed.Spells "build-deps"
    ["--universe", "build-deps", "--json", "build-deps", "help", "-b=sisyphus", "--arch",
      "x86_64,i586", "gcc", "--half-step", "-anoarch", "--dptype", "SRC", "-d", "+03",
      "--leaf=glibc-core", "--finite", "--filter-by-package", "libffi.so.8", "--config",
      "etc/bdep.toml", "--filter-by-package=zlib", "--filter-by-source", "a,b", "--",
      "python3"] :=
  ⟨_, _, .cons (.long .snapshot (by decide)) (.cons (.flag .json) .nil),
    .cons (.word (by decide)) (.cons (.shortEquals rfl (by decide))
      (.cons (.long .arch (by decide)) (.cons (.word (by decide)) (.cons (.flag .halfStep)
      (.cons (.shortAttached rfl (by decide) (by decide))
      (.cons (.long .dependencyType (by decide)) (.cons (.short rfl (by decide))
      (.cons (.longAttached .leaf (by decide)) (.cons (.flag .finite)
      (.cons (.long .filterByPackage (by decide)) (.cons (.long .config (by decide))
      (.cons (.longAttached .filterByPackage (by decide))
      (.cons (.long .filterBySource (by decide)) .nil))))))))))))),
    by decide⟩

theorem Invocation.ofArgs_of_arrangement_mixed :
    Query.thorough.IsSayable ∧ Arrangement.mixed.Conveys Query.thorough ∧
    Invocation.ofArgs
      ["--universe", "build-deps", "--json", "build-deps", "help", "-b=sisyphus", "--arch",
        "x86_64,i586", "gcc", "--half-step", "-anoarch", "--dptype", "SRC", "-d", "+03",
        "--leaf=glibc-core", "--finite", "--filter-by-package", "libffi.so.8", "--config",
        "etc/bdep.toml", "--filter-by-package=zlib", "--filter-by-source", "a,b", "--",
        "python3"] = .ok Query.thorough.invocation := by
  have hq : Query.thorough.IsSayable :=
    ⟨rfl, by decide, fun arg => by cases arg <;> decide, by decide⟩
  refine ⟨hq, Arrangement.mixed_conveys, ?_⟩
  exact (Invocation.ofArgs_of_arrangement Query.thorough hq).2 Arrangement.mixed _
    Arrangement.mixed_conveys Arrangement.mixed_spells

end BuildPlan

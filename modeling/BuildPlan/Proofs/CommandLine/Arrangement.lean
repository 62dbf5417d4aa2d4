import BuildPlan.Proofs.CommandLine.Reading
import BuildPlan.Proofs.CommandLine.Values

/-! # Arrangements of a request

A request says what each named argument of its command has to be given, and which flags have to be
set. Whatever the order in which a command line says so, in whatever spelling, the command line
means the request.
-/
namespace BuildPlan

open Saying Settings

namespace Goal

def commandName : Goal → String
  | build .. => "build-deps"
  | full => "full-deps"

def level : Goal → Level
  | build .. => .build
  | full => .full

theorem ofCommand?_commandName (goal : Goal) :
    Level.ofCommand? goal.commandName = some goal.level := by
  cases goal <;> rfl

theorem level_eq (goal : Goal) : goal.level = .build ∨ goal.level = .full := by
  cases goal with
  | build => exact Or.inl rfl
  | full => exact Or.inr rfl

end Goal

/-- What a command line is to mean that resolves a request. -/
structure Query where
  snapshot : Option String
  config : Option String
  json : Bool
  request : Request
deriving DecidableEq

namespace Query

variable (q : Query)

def invocation : Invocation := ⟨q.snapshot, q.config, q.json, .resolve q.request⟩

/-- The flags to be set. -/
def sets : NamedArg → Bool
  | .json => q.json
  | .halfStep =>
    match q.request.goal with
    | .build _ halfStep => halfStep
    | .full => false
  | .finite => q.request.filters.finitePackage
  | _ => false

def texts : NamedArg → List String
  | .snapshot => q.snapshot.toList
  | .config => q.config.toList
  | .branch => [q.request.scope.branch]
  | .arch => q.request.scope.archs
  | .dependencyType => [q.request.scope.dependencyType.name]
  | .depth =>
    match q.request.goal with
    | .build depth _ => [Text.padded 0 depth.toNat]
    | .full => []
  | .leaf => q.request.filters.leaf.toList
  | .filterByPackage => q.request.filters.filterByPackage
  | .filterBySource => q.request.filters.filterBySource.toList
  | _ => []

/-- There is a way to say all that the query asks for: seeds cannot be left out, a deadline cannot
be given, no value can be empty, and what stands in a list cannot contain a comma. -/
structure IsSayable : Prop where
  deadline : q.request.deadline = none
  seeds : q.request.seeds ≠ []
  texts : ∀ arg, "" ∉ q.texts arg
  noComma : ∀ entry ∈ q.request.scope.archs ++ q.request.filters.filterByPackage,
    ',' ∉ entry.toList

/-- The texts give a named argument its values. The usual depth and the usual dependency type may be
left unsaid. -/
def Gives (arg : NamedArg) (given : List String) : Prop :=
  match arg with
  | .arch | .filterByPackage => Joins given (q.texts arg)
  | .dependencyType =>
    Mentions DependencyType.IsNamedBy .both q.request.scope.dependencyType given
  | .depth =>
    match q.request.goal with
    | .build depth _ => Mentions IsNumeral 1 depth given
    | .full => given = []
  | _ => given = q.texts arg

end Query

/-- What is said before the command, after it, and after two dashes at the end if there are any. -/
structure Arrangement where
  before : List Saying
  after : List Saying
  trailing : Option (List String)

namespace Arrangement

variable (a : Arrangement) (q : Query)

def said : List Saying := a.before ++ a.after

def settings : Settings :=
  { ofSayings a.after with words := wordsOf a.after ++ a.trailing.getD [] }

/-- All that the query asks for is said, and nothing else. -/
structure Conveys : Prop where
  before : ∀ saying ∈ a.before, saying.IsOf .program
  words : wordsOf a.after ++ a.trailing.getD [] = q.request.seeds
  texts : ∀ arg, q.Gives arg (textsOf arg a.said)
  flags : ∀ arg, a.said.count (.flag arg) = if q.sets arg then 1 else 0

def Spells (command : String) (args : List String) : Prop :=
  ∃ outer inner, SpellsAll a.before outer ∧ SpellsAll a.after inner ∧
    args = outer ++ command :: (inner ++ a.trailing.elim [] ("--" :: ·))

end Arrangement

namespace Query

variable {q : Query} {arg : NamedArg} {given : List String}

theorem flag_of_sets (h : q.sets arg = true) : arg ∈ [NamedArg.json, .halfStep, .finite] := by
  cases arg with
  | json | halfStep | finite => decide
  | _ => cases h

theorem mem_named_of_sets (h : q.sets arg = true) : arg ∈ q.request.goal.level.named := by
  cases arg with
  | json | finite => cases q.request.goal <;> simp [Goal.level, Level.named]
  | halfStep =>
    cases hgoal : q.request.goal with
    | build => simp [Goal.level, Level.named]
    | full => simp [sets, hgoal] at h
  | _ => cases h

theorem Gives.mem_named (h : q.Gives arg given) (hne : given ≠ []) :
    arg ∈ q.request.goal.level.named := by
  cases arg with
  | depth =>
    cases hgoal : q.request.goal with
    | build => simp [Goal.level, Level.named]
    | full =>
      simp only [Gives, hgoal] at h
      exact absurd h hne
  | json | halfStep | finite | help | version => exact absurd h hne
  | _ => cases q.request.goal <;> simp [Goal.level, Level.named]

theorem Gives.length_le (h : q.Gives arg given) (hlist : arg.isList = false) :
    given.length ≤ 1 := by
  cases arg with
  | arch | filterByPackage => cases hlist
  | dependencyType => exact Mentions.length_le h
  | depth =>
    cases hgoal : q.request.goal with
    | build =>
      simp only [Gives, hgoal] at h
      exact h.length_le
    | full =>
      simp only [Gives, hgoal] at h
      simp [h]
  | snapshot | config | leaf | filterBySource => rw [h]; exact Option.length_toList_le
  | _ => rw [h]; simp [texts]

theorem Gives.accepts (h : q.Gives arg given) (hne : "" ∉ q.texts arg) {text : String}
    (hmem : text ∈ given) : Accepts (.value arg text) := by
  cases arg with
  | snapshot =>
    have htext : text ≠ "" := fun heq => hne (heq ▸ h ▸ hmem)
    exact ⟨{ snapshot := some text }, by simp [give, once, readPath_of_ne htext]⟩
  | config =>
    have htext : text ≠ "" := fun heq => hne (heq ▸ h ▸ hmem)
    exact ⟨{ config := some text }, by simp [give, once, readPath_of_ne htext]⟩
  | dependencyType =>
    have hread := readDependencyType_of_isNamedBy (Mentions.of_mem h hmem)
    exact ⟨{ dependencyType := some q.request.scope.dependencyType }, by simp [give, once, hread]⟩
  | depth =>
    cases hgoal : q.request.goal with
    | build depth halfStep =>
      simp only [Gives, hgoal] at h
      have hread := readDepth_of_isNumeral (h.of_mem hmem)
      exact ⟨{ depth := some depth }, by simp [give, once, hread]⟩
    | full =>
      simp only [Gives, hgoal] at h
      rw [h] at hmem
      cases hmem
  | branch | arch | leaf | filterByPackage | filterBySource => exact ⟨_, rfl⟩
  | json | halfStep | finite | help | version =>
    rw [h] at hmem
    cases hmem

end Query

namespace Arrangement

/-- The path may be given on either side of the command. -/
theorem first?_readPath {a : Arrangement} {arg : NamedArg} {o : Option String}
    (htexts : textsOf arg a.said = o.toList) (hne : "" ∉ o.toList) :
    (first? readPath arg a.after <|> first? readPath arg a.before) = o := by
  rw [first?_append (by rw [← said, htexts]; exact Option.length_toList_le)]
  refine first?_of_toList htexts fun text hmem => readPath_of_ne ?_
  rintro rfl
  exact hne (Option.mem_toList.2 hmem)

end Arrangement

namespace Arrangement.Conveys

variable {a : Arrangement} {q : Query} (h : a.Conveys q)
include h

theorem flag_mem_iff (arg : NamedArg) : .flag arg ∈ a.said ↔ q.sets arg = true := by
  rw [← List.one_le_count_iff, h.flags arg]
  split
  · next hset => simp [hset]
  · next hset => simp [hset]

theorem acceptsAll (hq : q.IsSayable) : AcceptsAll a.said where
  each saying hmem := by
    cases saying with
    | word text => trivial
    | flag arg => exact Query.flag_of_sets ((h.flag_mem_iff arg).1 hmem)
    | value arg text => exact (h.texts arg).accepts (hq.texts arg) (mem_textsOf.2 hmem)
  flags arg := by
    rw [h.flags arg]
    split <;> decide
  texts arg hlist := (h.texts arg).length_le hlist

theorem isOf_after : ∀ saying ∈ a.after, saying.IsOf q.request.goal.level := by
  intro saying hmem
  have hsaid : saying ∈ a.said := List.mem_append_right _ hmem
  cases saying with
  | word text => exact q.request.goal.level_eq
  | flag arg => exact Query.mem_named_of_sets ((h.flag_mem_iff arg).1 hsaid)
  | value arg text => exact (h.texts arg).mem_named (List.ne_nil_of_mem (mem_textsOf.2 hsaid))

theorem texts_after (arg : NamedArg) (harg : arg ∉ Level.program.named) :
    q.Gives arg (textsOf arg a.after) := by
  have hbefore : textsOf arg a.before = [] := by
    rw [List.eq_nil_iff_forall_not_mem]
    exact fun text hmem => harg (h.before _ (mem_textsOf.1 hmem))
  have hsaid := h.texts arg
  rwa [said, textsOf_append, hbefore, List.nil_append] at hsaid

theorem flag_after (arg : NamedArg) (harg : arg ∉ Level.program.named) :
    decide (.flag arg ∈ a.after) = q.sets arg := by
  have hbefore : .flag arg ∉ a.before := fun hmem => harg (h.before (.flag arg) hmem)
  have hsaid := h.flag_mem_iff arg
  rw [said, List.mem_append, or_iff_right hbefore] at hsaid
  simp [hsaid]

theorem branch_settings : a.settings.branch = some q.request.scope.branch :=
  first?_of_toList (h.texts_after .branch (by decide)) fun _ _ => rfl

theorem scopeRequest_settings (hcomma : ∀ entry ∈ q.request.scope.archs, ',' ∉ entry.toList) :
    a.settings.scopeRequest q.request.scope.branch = q.request.scope := by
  have harchs : a.settings.archs = q.request.scope.archs :=
    flatMap_items (h.texts_after .arch (by decide)) hcomma
  have htype : a.settings.dependencyType.getD .both = q.request.scope.dependencyType :=
    getD_first?_of_mentions (h.texts_after .dependencyType (by decide))
      readDependencyType_of_isNamedBy
  rw [scopeRequest, harchs, htype]

theorem filterRequest_settings
    (hcomma : ∀ entry ∈ q.request.filters.filterByPackage, ',' ∉ entry.toList) :
    a.settings.filterRequest = q.request.filters := by
  have hleaf : a.settings.leaf = q.request.filters.leaf :=
    first?_of_toList (h.texts_after .leaf (by decide)) fun _ _ => rfl
  have hfinite : a.settings.finite = q.request.filters.finitePackage :=
    h.flag_after .finite (by decide)
  have hpackages : a.settings.filterByPackage = q.request.filters.filterByPackage :=
    flatMap_items (h.texts_after .filterByPackage (by decide)) hcomma
  have hsource : a.settings.filterBySource = q.request.filters.filterBySource :=
    first?_of_toList (h.texts_after .filterBySource (by decide)) fun _ _ => rfl
  rw [filterRequest, hleaf, hfinite, hpackages, hsource]

theorem request_settings (hq : q.IsSayable) :
    a.settings.request q.request.goal = .ok q.request := by
  obtain ⟨hcommaArchs, hcommaPackages⟩ := List.forall_mem_append.1 hq.noComma
  obtain ⟨seed, rest, hcons⟩ := List.exists_cons_of_ne_nil hq.seeds
  have hwords : a.settings.words = seed :: rest := h.words.trans hcons
  rw [Settings.request, hwords, h.branch_settings]
  simp only [h.scopeRequest_settings hcommaArchs, h.filterRequest_settings hcommaPackages]
  rw [← hcons, ← hq.deadline, pure_eq_ok]

theorem command_settings (hq : q.IsSayable) :
    a.settings.command q.request.goal.level = .ok (.resolve q.request) := by
  have hrequest := h.request_settings hq
  cases hgoal : q.request.goal with
  | build depth halfStep =>
    have hgiven := h.texts_after .depth (by decide)
    have hflag := h.flag_after .halfStep (by decide)
    simp only [Query.Gives, Query.sets, hgoal] at hgiven hflag
    have hdepth : a.settings.depth.getD 1 = depth :=
      getD_first?_of_mentions hgiven readDepth_of_isNumeral
    have hhalfStep : a.settings.halfStep = halfStep := hflag
    rw [hgoal] at hrequest
    rw [Goal.level, Settings.command, hdepth, hhalfStep, hrequest]
    rfl
  | full =>
    rw [hgoal] at hrequest
    rw [Goal.level, Settings.command, hrequest]
    rfl

theorem ofSettings_settings (hq : q.IsSayable) (command : Command) :
    Invocation.ofSettings (ofSayings a.before) a.settings command =
      ⟨q.snapshot, q.config, q.json, command⟩ := by
  have hsnapshot := first?_readPath (h.texts .snapshot) (hq.texts .snapshot)
  have hconfig := first?_readPath (h.texts .config) (hq.texts .config)
  have hjson : (decide (.flag .json ∈ a.after) || decide (.flag .json ∈ a.before)) = q.json := by
    have hflag := h.flag_mem_iff .json
    rw [said, List.mem_append, or_comm] at hflag
    rw [Bool.eq_iff_iff, Bool.or_eq_true, decide_eq_true_iff, decide_eq_true_iff]
    exact hflag
  simp only [Invocation.ofSettings, settings, ofSayings, hsnapshot, hconfig, hjson]

/-- The command line is understood as the query. -/
theorem ofArgs_eq (hq : q.IsSayable) {args : List String}
    (hspells : a.Spells q.request.goal.commandName args) :
    Invocation.ofArgs args = .ok q.invocation := by
  obtain ⟨outer, inner, houter, hinner, rfl⟩ := hspells
  have haccepts := h.acceptsAll hq
  have hbefore := foldlM_take (haccepts.of_sublist (List.sublist_append_left a.before a.after))
  have hafter := foldlM_take (haccepts.of_sublist (List.sublist_append_right a.before a.after))
  obtain ⟨r, hread, hlevel, hsettle⟩ :=
    Reading.exists_foldlM_read (r := .start .program) rfl h.before hbefore houter
  obtain ⟨r', hread', hlevel', hsettle'⟩ :=
    Reading.exists_foldlM_read (r := .start q.request.goal.level) rfl h.isOf_after hafter hinner
  have hall : (Reading.start q.request.goal.level).readAll
      (inner ++ a.trailing.elim [] ("--" :: ·)) = .ok a.settings := by
    rw [Reading.readAll_append hread',
      Reading.readAll_trailing hsettle' (hlevel' ▸ q.request.goal.level_eq)]
    rfl
  unfold Invocation.ofArgs
  rw [Reading.readToCommand_append rfl hread,
    Reading.readToCommand_command hsettle q.request.goal.ofCommand?_commandName, ok_bind]
  simp only [q.request.goal.ofCommand?_commandName]
  rw [hall, ok_bind, h.command_settings hq, ok_bind, hsettle, ok_bind,
    h.ofSettings_settings hq, pure_eq_ok]
  rfl

end Arrangement.Conveys

end BuildPlan

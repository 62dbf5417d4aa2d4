import BuildPlan.CommandLine.Settings
import BuildPlan.Proofs.Session.Evaluation
import Mathlib.Data.List.Induction

/-! # What arguments say

However they are spelled, the arguments of a level say one thing after another: a word, a flag or
the value of a named argument. Taken in one by one, they give the settings that can be read off all
of them, the words and each named argument by itself, so that only the order of what concerns one
setting matters.
-/
namespace BuildPlan

inductive Saying where
  | word (text : String)
  | flag (arg : NamedArg)
  | value (arg : NamedArg) (text : String)
deriving DecidableEq

namespace Saying

def word? : Saying → Option String
  | word text => some text
  | _ => none

def value? (arg : NamedArg) : Saying → Option String
  | value other text => if other = arg then some text else none
  | _ => none

def wordsOf (said : List Saying) : List String := said.filterMap word?

def textsOf (arg : NamedArg) (said : List Saying) : List String := said.filterMap (value? arg)

section Projections

variable (arg other : NamedArg) (text : String) (said more : List Saying)

@[simp] theorem wordsOf_append : wordsOf (said ++ more) = wordsOf said ++ wordsOf more :=
  List.filterMap_append

@[simp] theorem wordsOf_word : wordsOf [word text] = [text] := rfl

@[simp] theorem wordsOf_flag : wordsOf [flag arg] = [] := rfl

@[simp] theorem wordsOf_value : wordsOf [value arg text] = [] := rfl

@[simp] theorem textsOf_append :
    textsOf arg (said ++ more) = textsOf arg said ++ textsOf arg more :=
  List.filterMap_append

@[simp] theorem textsOf_word : textsOf arg [word text] = [] := rfl

@[simp] theorem textsOf_flag : textsOf arg [flag other] = [] := rfl

@[simp] theorem textsOf_value :
    textsOf arg [value other text] = if other = arg then [text] else [] := by
  by_cases h : other = arg
  · simp [textsOf, value?, h]
  · simp [textsOf, value?, h]

variable {arg text said} in
theorem mem_textsOf : text ∈ textsOf arg said ↔ value arg text ∈ said := by
  simp only [textsOf, List.mem_filterMap]
  constructor
  · rintro ⟨saying, hmem, hvalue⟩
    cases saying with
    | value other text' =>
      simp only [value?, Option.ite_none_right_eq_some, Option.some.injEq] at hvalue
      obtain ⟨rfl, rfl⟩ := hvalue
      exact hmem
    | _ => cases hvalue
  · exact fun hmem => ⟨_, hmem, by simp [value?]⟩

end Projections

end Saying

open Saying

namespace NamedArg

def isList : NamedArg → Bool
  | arch | filterByPackage => true
  | _ => false

end NamedArg

namespace Settings

/-- Takes in one thing that is said. -/
def take (s : Settings) : Saying → Except Refusal Settings
  | .word text => return { s with words := s.words ++ [text] }
  | .flag arg => s.mark arg
  | .value arg text => s.give text arg

def first? {α : Type} (read : String → Except Refusal α) (arg : NamedArg) (said : List Saying) :
    Option α :=
  (textsOf arg said).head?.bind fun text => (read text).toOption

/-- The settings that can be read off all that is said. -/
def ofSayings (said : List Saying) : Settings where
  snapshot := first? readPath .snapshot said
  config := first? readPath .config said
  json := .flag .json ∈ said
  words := wordsOf said
  branch := first? pure .branch said
  archs := (textsOf .arch said).flatMap items
  dependencyType := first? readDependencyType .dependencyType said
  depth := first? readDepth .depth said
  halfStep := .flag .halfStep ∈ said
  leaf := first? pure .leaf said
  finite := .flag .finite ∈ said
  filterByPackage := (textsOf .filterByPackage said).flatMap items
  filterBySource := first? pure .filterBySource said

/-- What is said is acceptable by itself: flags are for the settings that are on or off, and values
can be read as what they should be. -/
def Accepts : Saying → Prop
  | .word _ => True
  | .flag arg => arg ∈ [.json, .halfStep, .finite]
  | .value arg text => ∃ s, give {} text arg = .ok s

/-- All that is said can be taken in. -/
structure AcceptsAll (said : List Saying) : Prop where
  each : ∀ saying ∈ said, Accepts saying
  flags : ∀ arg, said.count (.flag arg) ≤ 1
  texts : ∀ arg : NamedArg, arg.isList = false → (textsOf arg said).length ≤ 1

variable {said more : List Saying} {arg : NamedArg} {text : String}

theorem AcceptsAll.of_sublist (h : AcceptsAll more) (hsub : said.Sublist more) :
    AcceptsAll said where
  each saying hmem := h.each saying (hsub.subset hmem)
  flags arg := Nat.le_trans (hsub.count_le _) (h.flags arg)
  texts arg hlist := Nat.le_trans (hsub.filterMap _).length_le (h.texts arg hlist)

theorem AcceptsAll.flag_notMem (h : AcceptsAll (said ++ [.flag arg])) : .flag arg ∉ said := by
  have hcount := h.flags arg
  rw [List.count_append, List.count_singleton_self] at hcount
  exact List.count_eq_zero.1 (by omega)

theorem AcceptsAll.textsOf_eq_nil (h : AcceptsAll (said ++ [.value arg text]))
    (hlist : arg.isList = false) : textsOf arg said = [] := by
  have hlength := h.texts arg hlist
  simp only [textsOf_append, textsOf_value, if_true, List.length_append, List.length_singleton]
    at hlength
  exact List.eq_nil_of_length_eq_zero (by omega)

section First

variable {α : Type} {read : String → Except Refusal α}

theorem exists_ok_of_once {set : Option α → Settings} {s : Settings}
    (h : (once none read text >>= fun v => pure (set v)) = .ok s) : ∃ v, read text = .ok v := by
  cases hread : read text with
  | error e => simp [once, hread] at h
  | ok v => exact ⟨v, rfl⟩

theorem once_first? (hnil : textsOf arg said = []) {v : α} (hread : read text = .ok v)
    (set : Option α → Settings) :
    (once (first? read arg said) read text >>= fun v => pure (set v)) =
      .ok (set (first? read arg (said ++ [.value arg text]))) := by
  simp [once, first?, hnil, hread, Except.toOption]

theorem first?_append (h : (textsOf arg (said ++ more)).length ≤ 1) :
    (first? read arg more <|> first? read arg said) = first? read arg (said ++ more) := by
  unfold first?
  rw [textsOf_append] at h ⊢
  cases hsaid : textsOf arg said with
  | nil => simp
  | cons text rest =>
    rw [hsaid, List.length_append, List.length_cons] at h
    have hmore : textsOf arg more = [] := List.eq_nil_of_length_eq_zero (by omega)
    simp [hmore]

theorem first?_of_toList {o : Option String} {read : String → Except Refusal String}
    (h : textsOf arg said = o.toList) (hread : ∀ text ∈ o, read text = .ok text) :
    first? read arg said = o := by
  cases o with
  | none => simp [first?, h]
  | some text => simp [first?, h, hread text rfl, Except.toOption]

end First

theorem take_ofSayings {saying : Saying} (h : AcceptsAll (said ++ [saying])) :
    (ofSayings said).take saying = .ok (ofSayings (said ++ [saying])) := by
  cases saying with
  | word text => simp [take, ofSayings, first?]
  | flag arg =>
    have hflag := h.each (.flag arg) (by simp)
    have hnot := h.flag_notMem
    simp only [Accepts, List.mem_cons, List.not_mem_nil, or_false] at hflag
    rcases hflag with rfl | rfl | rfl <;> simp [take, ofSayings, first?, mark, hnot]
  | value arg text =>
    have hvalue := h.each (.value arg text) (by simp)
    have hnil := h.textsOf_eq_nil
    cases arg with
    | snapshot | config | branch | dependencyType | depth | leaf | filterBySource =>
      obtain ⟨v, hread⟩ := exists_ok_of_once hvalue.choose_spec
      refine (once_first? (hnil rfl) hread _).trans ?_
      simp [ofSayings, first?]
    | arch | filterByPackage => simp [take, give, ofSayings, first?]
    | json | halfStep | finite | help | version =>
      obtain ⟨s, hs⟩ := hvalue
      simp [give] at hs

/-- Taken in one by one, all that is said gives the settings that can be read off it. -/
theorem foldlM_take (h : AcceptsAll said) : said.foldlM take {} = .ok (ofSayings said) := by
  induction said using List.reverseRecOn with
  | nil => rfl
  | append_singleton said saying ih =>
    rw [List.foldlM_append, ih (h.of_sublist (List.sublist_append_left ..)), ok_bind,
      List.foldlM_cons, take_ofSayings h, ok_bind, List.foldlM_nil, pure_eq_ok]

end Settings
end BuildPlan

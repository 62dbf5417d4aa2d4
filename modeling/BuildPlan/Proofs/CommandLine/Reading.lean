import BuildPlan.CommandLine.Reader
import BuildPlan.Proofs.CommandLine.Sayings
import Mathlib.Data.List.TakeWhile

/-! # Reading what is spelled out

What is said can be spelled in several ways: a named value in two arguments or in one, by the long
or by the short name. The reader holds an argument back until it has recognized the next one, so
that its settings alone do not tell what has been said; those that it would settle into do.
-/
namespace BuildPlan

/-- A text that is seen for a word or a value wherever it stands. -/
def IsPlain (text : String) : Prop := text ≠ "" ∧ text.toList.head? ≠ some '-'

instance (text : String) : Decidable (IsPlain text) := inferInstanceAs (Decidable (_ ∧ _))

namespace Saying

/-- What can be said at a level, where any number of words can be said after the commands that
resolve requests. -/
def IsOf (level : Level) : Saying → Prop
  | .word _ => level = .build ∨ level = .full
  | .flag arg => arg ∈ level.named
  | .value arg _ => arg ∈ level.named

/-- The arguments that spell what is said. -/
inductive Spells : Saying → List String → Prop where
  | word {text : String} (hplain : IsPlain text) : Spells (.word text) [text]
  | flag (arg : NamedArg) : Spells (.flag arg) ["--" ++ arg.long]
  | long (arg : NamedArg) {text : String} (hplain : IsPlain text) :
    Spells (.value arg text) ["--" ++ arg.long, text]
  | longAttached (arg : NamedArg) {text : String} (hne : text ≠ "") :
    Spells (.value arg text) ["--" ++ arg.long ++ "=" ++ text]
  | short {arg : NamedArg} {c : Char} {text : String} (hshort : arg.short? = some c)
    (hplain : IsPlain text) : Spells (.value arg text) ["-" ++ String.singleton c, text]
  | shortAttached {arg : NamedArg} {c : Char} {text : String} (hshort : arg.short? = some c)
    (hne : text ≠ "") (hequals : text.toList.head? ≠ some '=') :
    Spells (.value arg text) ["-" ++ String.singleton c ++ text]
  | shortEquals {arg : NamedArg} {c : Char} {text : String} (hshort : arg.short? = some c)
    (hne : text ≠ "") :
    Spells (.value arg text) ["-" ++ String.singleton c ++ "=" ++ text]

inductive SpellsAll : List Saying → List String → Prop where
  | nil : SpellsAll [] []
  | cons {saying : Saying} {said : List Saying} {piece args : List String}
    (hspells : saying.Spells piece) (h : SpellsAll said args) :
    SpellsAll (saying :: said) (piece ++ args)

theorem exists_spellsAll {said : List Saying} (h : ∀ saying ∈ said, ∃ args, saying.Spells args) :
    ∃ args, SpellsAll said args := by
  induction said with
  | nil => exact ⟨[], .nil⟩
  | cons saying said ih =>
    obtain ⟨⟨piece, hpiece⟩, hsaid⟩ := List.forall_mem_cons.1 h
    obtain ⟨args, hargs⟩ := ih hsaid
    exact ⟨piece ++ args, .cons hpiece hargs⟩

end Saying

open Saying

theorem IsPlain.exists_cons {text : String} (h : IsPlain text) :
    ∃ c cs, text.toList = c :: cs ∧ c ≠ '-' := by
  obtain ⟨hne, hhead⟩ := h
  cases hchars : text.toList with
  | nil => exact absurd (String.toList_eq_nil_iff.1 hchars) hne
  | cons c cs =>
    rw [hchars, List.head?_cons] at hhead
    exact ⟨c, cs, rfl, fun h => hhead (congrArg some h)⟩

/-! ### Names -/

namespace NamedArg

theorem long_bne_equals (arg : NamedArg) : ∀ c ∈ arg.long.toList, (c != '=') = true := by
  have hall : arg.long.toList.all (· != '=') = true := by
    cases arg <;> decide
  exact List.all_eq_true.1 hall

theorem short_ne_dash {arg : NamedArg} {c : Char} (h : arg.short? = some c) : c ≠ '-' := by
  rintro rfl
  revert h
  cases arg <;> decide

end NamedArg

namespace Level

variable {level : Level} {arg : NamedArg}

theorem ofLong?_long (h : arg ∈ level.named) : level.ofLong? arg.long.toList = some arg := by
  have hall : ∀ arg ∈ level.named, level.ofLong? arg.long.toList = some arg := by
    cases level <;> decide
  exact hall arg h

theorem ofShort?_short {c : Char} (h : arg ∈ level.named) (hshort : arg.short? = some c) :
    level.ofShort? c = some arg := by
  have hall :
      level.named.all (fun arg => arg.short?.all (level.ofShort? · == some arg)) = true := by
    cases level <;> decide
  have hfound := List.all_eq_true.1 hall arg h
  rwa [hshort, Option.all_some, beq_iff_eq] at hfound

end Level

namespace Settings

variable {s s' : Settings} {arg : NamedArg} {text : String}

theorem takesValue_of_give (h : s.give text arg = .ok s') : arg.takesValue = true := by
  cases arg with
  | json | halfStep | finite | help | version => cases h
  | _ => rfl

theorem takesValue_of_mark (h : s.mark arg = .ok s') : arg.takesValue = false := by
  cases arg with
  | json | halfStep | finite | help | version => rfl
  | _ => cases h

end Settings

/-! ### One argument -/

namespace Reading

variable {r r' : Reading} {s s' : Settings} {arg : NamedArg} {text : String}

theorem hold_of_settle (h : r.settle = .ok s) (held : Held) :
    r.hold held = .ok ⟨r.level, s, held⟩ := by
  rw [hold, h, ok_bind, pure_eq_ok]

theorem giveAttached_of_settle (h : r.settle = .ok s) (hgive : s.give text arg = .ok s') :
    r.giveAttached arg text = .ok ⟨r.level, s', .nothing⟩ := by
  rw [giveAttached, h, ok_bind, hgive, ok_bind, pure_eq_ok]

theorem markArg_of_settle (h : r.settle = .ok s) (hmark : s.mark arg = .ok s') :
    r.markArg arg = .ok ⟨r.level, s', .nothing⟩ := by
  rw [markArg, h, ok_bind, hmark, ok_bind, pure_eq_ok]

theorem held_ne_awaiting (h : r.settle = .ok s) : r.held ≠ .awaiting arg := by
  intro hheld
  rw [settle, hheld] at h
  cases h

theorem isAwaiting_of_settle (h : r.settle = .ok s) : r.isAwaiting = false := by
  unfold isAwaiting
  split
  · next hheld => exact absurd hheld (held_ne_awaiting h)
  · rfl

theorem readLong_long (h : arg ∈ r.level.named) : r.readLong arg.long.toList =
    if arg.takesValue then r.hold (.awaiting arg) else r.markArg arg := by
  rw [readLong, List.takeWhile_eq_self_iff.2 arg.long_bne_equals,
    List.dropWhile_eq_nil_iff.2 arg.long_bne_equals,
    Level.ofLong?_long h]

theorem readLong_attached (h : arg ∈ r.level.named) (ht : arg.takesValue = true)
    (value : List Char) :
    r.readLong (arg.long.toList ++ '=' :: value) = r.giveAttached arg (String.ofList value) := by
  rw [readLong, List.takeWhile_append_of_pos arg.long_bne_equals,
    List.dropWhile_append_of_pos arg.long_bne_equals]
  simp [Level.ofLong?_long h, ht]

theorem readShort_short {c : Char} (h : arg ∈ r.level.named) (hshort : arg.short? = some c)
    (ht : arg.takesValue = true) (rest : List Char) : r.readShort (c :: rest) =
      match rest with
      | [] => r.hold (.awaiting arg)
      | '=' :: cs => r.giveAttached arg (String.ofList cs)
      | cs => r.giveAttached arg (String.ofList cs) := by
  rw [readShort, Level.ofShort?_short h hshort]
  exact if_pos ht

theorem read_dashes (name : String) : r.read ("--" ++ name) = r.readLong name.toList := by
  simp [read, String.toList_append]

theorem read_dash {c : Char} (hc : c ≠ '-') (text : String) :
    r.read ("-" ++ String.singleton c ++ text) = r.readShort (c :: text.toList) := by
  simp [read, String.toList_append]

theorem read_plain (hplain : IsPlain text) : r.read text =
    match r.held with
    | .awaiting arg => .ok { r with held := .value arg text }
    | _ => r.readWord false text := by
  obtain ⟨c, cs, hchars, hc⟩ := hplain.exists_cons
  rw [read, hchars]
  cases r.held <;> simp [hc]

/-! ### One thing that is said -/

theorem readWord_of_settle (h : r.settle = .ok s) (hlevel : r.level = .build ∨ r.level = .full)
    (trailing : Bool) (text : String) :
    r.readWord trailing text = .ok ⟨r.level, s, .word text⟩ := by
  have hroom : r.hasRoom = true := by
    unfold hasRoom
    rcases hlevel with hlevel | hlevel <;> rw [hlevel]
  rw [readWord, if_pos hroom, hold_of_settle h]

theorem settle_word {level : Level} (hlevel : level = .build ∨ level = .full) (s : Settings)
    (text : String) : settle ⟨level, s, .word text⟩ = s.take (.word text) := by
  have hne : level ≠ .completions := by
    rcases hlevel with rfl | rfl <;> decide
  simp [settle, acceptWord, hne, Settings.take]

theorem read_word (h : r.settle = .ok s) (hlevel : r.level = .build ∨ r.level = .full)
    (hplain : IsPlain text) : r.read text = .ok ⟨r.level, s, .word text⟩ := by
  rw [read_plain hplain]
  split
  · next hheld => exact absurd hheld (held_ne_awaiting h)
  · exact readWord_of_settle h hlevel false text

theorem read_long (h : r.settle = .ok s) (harg : arg ∈ r.level.named)
    (ht : arg.takesValue = true) :
    r.read ("--" ++ arg.long) = .ok ⟨r.level, s, .awaiting arg⟩ := by
  rw [read_dashes, readLong_long harg, if_pos ht, hold_of_settle h]

theorem read_flag (h : r.settle = .ok s) (harg : arg ∈ r.level.named)
    (hmark : s.mark arg = .ok s') :
    r.read ("--" ++ arg.long) = .ok ⟨r.level, s', .nothing⟩ := by
  have ht := Settings.takesValue_of_mark hmark
  rw [read_dashes, readLong_long harg, ht, if_neg Bool.false_ne_true, markArg_of_settle h hmark]

theorem read_longAttached (h : r.settle = .ok s) (harg : arg ∈ r.level.named)
    (hgive : s.give text arg = .ok s') :
    r.read ("--" ++ arg.long ++ "=" ++ text) = .ok ⟨r.level, s', .nothing⟩ := by
  have ht := Settings.takesValue_of_give hgive
  have hread := read_dashes (r := r) (arg.long ++ "=" ++ text)
  simp only [String.append_assoc, String.toList_append] at hread ⊢
  rw [hread]
  exact (readLong_attached harg ht text.toList).trans
    (by rw [String.ofList_toList, giveAttached_of_settle h hgive])

theorem read_awaited (level : Level) (s : Settings) (arg : NamedArg) (hplain : IsPlain text) :
    read ⟨level, s, .awaiting arg⟩ text = .ok ⟨level, s, .value arg text⟩ :=
  read_plain hplain

theorem read_short (h : r.settle = .ok s) {c : Char} (hshort : arg.short? = some c)
    (harg : arg ∈ r.level.named) (ht : arg.takesValue = true) :
    r.read ("-" ++ String.singleton c) = .ok ⟨r.level, s, .awaiting arg⟩ := by
  have hread := read_dash (r := r) (NamedArg.short_ne_dash hshort) ""
  rw [String.append_empty, String.toList_empty, readShort_short harg hshort ht] at hread
  exact hread.trans (hold_of_settle h _)

theorem read_shortAttached (h : r.settle = .ok s) {c : Char} (hshort : arg.short? = some c)
    (harg : arg ∈ r.level.named) (hgive : s.give text arg = .ok s') (hne : text ≠ "")
    (hequals : text.toList.head? ≠ some '=') :
    r.read ("-" ++ String.singleton c ++ text) = .ok ⟨r.level, s', .nothing⟩ := by
  have ht := Settings.takesValue_of_give hgive
  rw [read_dash (NamedArg.short_ne_dash hshort), readShort_short harg hshort ht]
  split
  · next hnil => exact absurd (String.toList_eq_nil_iff.1 hnil) hne
  · next hchars => simp [hchars] at hequals
  · rw [String.ofList_toList, giveAttached_of_settle h hgive]

theorem read_shortEquals (h : r.settle = .ok s) {c : Char} (hshort : arg.short? = some c)
    (harg : arg ∈ r.level.named) (hgive : s.give text arg = .ok s') :
    r.read ("-" ++ String.singleton c ++ "=" ++ text) = .ok ⟨r.level, s', .nothing⟩ := by
  have ht := Settings.takesValue_of_give hgive
  have hread := read_dash (r := r) (NamedArg.short_ne_dash hshort) ("=" ++ text)
  rw [← String.append_assoc, String.toList_append] at hread
  rw [hread]
  refine (readShort_short harg hshort ht ('=' :: text.toList)).trans ?_
  simp only [String.ofList_toList]
  exact giveAttached_of_settle h hgive

variable {saying : Saying} {said : List Saying} {args : List String}

theorem foldlM_read_one (h : r.read text = .ok r') : [text].foldlM read r = .ok r' := by
  rw [List.foldlM_cons, h, ok_bind, List.foldlM_nil, pure_eq_ok]

theorem foldlM_read_two {next : String} {r₁ : Reading} (h : r.read text = .ok r₁)
    (h₁ : r₁.read next = .ok r') : [text, next].foldlM read r = .ok r' := by
  rw [List.foldlM_cons, h, ok_bind, foldlM_read_one h₁]

/-- Where nothing is awaited, the arguments that spell what is said have its effect, which is seen
at the latest when what they hold back is settled. -/
theorem exists_read_of_spells (h : r.settle = .ok s) (hof : saying.IsOf r.level)
    (htake : s.take saying = .ok s') (hspells : saying.Spells args) :
    ∃ r', args.foldlM read r = .ok r' ∧ r'.level = r.level ∧ r'.settle = .ok s' := by
  cases hspells with
  | @word text hplain =>
    refine ⟨⟨r.level, s, .word text⟩, foldlM_read_one (read_word h hof hplain), rfl, ?_⟩
    rw [settle_word hof, htake]
  | flag arg => exact ⟨_, foldlM_read_one (read_flag h hof htake), rfl, rfl⟩
  | @long arg text hplain =>
    have hname := read_long h hof (Settings.takesValue_of_give htake)
    exact ⟨_, foldlM_read_two hname (read_awaited _ s arg hplain), rfl, htake⟩
  | longAttached arg hne => exact ⟨_, foldlM_read_one (read_longAttached h hof htake), rfl, rfl⟩
  | @short arg c text hshort hplain =>
    have hname := read_short h hshort hof (Settings.takesValue_of_give htake)
    exact ⟨_, foldlM_read_two hname (read_awaited _ s arg hplain), rfl, htake⟩
  | shortAttached hshort hne hequals =>
    exact ⟨_, foldlM_read_one (read_shortAttached h hshort hof htake hne hequals), rfl, rfl⟩
  | shortEquals hshort hne =>
    exact ⟨_, foldlM_read_one (read_shortEquals h hshort hof htake), rfl, rfl⟩

/-! ### All that is said -/

/-- Whatever is spelled at a level, reading it settles into what taking it in one by one gives. -/
theorem exists_foldlM_read (h : r.settle = .ok s) (hof : ∀ saying ∈ said, saying.IsOf r.level)
    (htake : said.foldlM Settings.take s = .ok s') (hspells : SpellsAll said args) :
    ∃ r', args.foldlM read r = .ok r' ∧ r'.level = r.level ∧ r'.settle = .ok s' := by
  induction hspells generalizing r s with
  | nil => exact ⟨r, rfl, rfl, h.trans htake⟩
  | cons hspells _ ih =>
    obtain ⟨s₁, htake₁, htake⟩ := bind_eq_ok_iff.1 htake
    obtain ⟨hhead, htail⟩ := List.forall_mem_cons.1 hof
    obtain ⟨r₁, hread₁, hlevel₁, hsettle₁⟩ := exists_read_of_spells h hhead htake₁ hspells
    obtain ⟨r', hread, hlevel, hsettle⟩ := ih hsettle₁ (hlevel₁ ▸ htail) htake
    refine ⟨r', ?_, hlevel.trans hlevel₁, hsettle⟩
    rw [List.foldlM_append, hread₁, ok_bind, hread]

theorem exists_foldlM_readWord (h : r.settle = .ok s) (hlevel : r.level = .build ∨ r.level = .full)
    (words : List String) :
    ∃ r', words.foldlM (fun r text => r.readWord true text) r = .ok r' ∧
      r'.settle = .ok { s with words := s.words ++ words } := by
  induction words generalizing r s with
  | nil => exact ⟨r, rfl, by simpa using h⟩
  | cons text words ih =>
    obtain ⟨r', hread, hsettle⟩ := ih (settle_word hlevel s text) hlevel
    refine ⟨r', ?_, by simpa using hsettle⟩
    rw [List.foldlM_cons, readWord_of_settle h hlevel, ok_bind, hread]

/-! ### Before the command and after it -/

theorem level_hold {held : Held} (h : r.hold held = .ok r') : r'.level = r.level := by
  obtain ⟨s, -, h⟩ := bind_eq_ok_iff.1 h
  cases h
  rfl

theorem level_giveAttached (h : r.giveAttached arg text = .ok r') : r'.level = r.level := by
  obtain ⟨s, -, h⟩ := bind_eq_ok_iff.1 h
  obtain ⟨s', -, h⟩ := bind_eq_ok_iff.1 h
  cases h
  rfl

theorem level_markArg (h : r.markArg arg = .ok r') : r'.level = r.level := by
  obtain ⟨s, -, h⟩ := bind_eq_ok_iff.1 h
  obtain ⟨s', -, h⟩ := bind_eq_ok_iff.1 h
  cases h
  rfl

theorem level_readWord {trailing : Bool} (h : r.readWord trailing text = .ok r') :
    r'.level = r.level := by
  unfold readWord at h
  dsimp only at h
  split_ifs at h
  exact level_hold h

theorem level_readLong {name : List Char} (h : r.readLong name = .ok r') :
    r'.level = r.level := by
  unfold readLong at h
  split at h
  · cases h
  · split at h
    · split_ifs at h
      exact level_giveAttached h
    · split_ifs at h
      · exact level_hold h
      · exact level_markArg h

theorem level_readShort {cs : List Char} (h : r.readShort cs = .ok r') : r'.level = r.level := by
  induction cs generalizing r with
  | nil => cases h; rfl
  | cons c cs ih =>
    rw [readShort] at h
    split at h
    · cases h
    · split_ifs at h
      · split at h
        · exact level_hold h
        · exact level_giveAttached h
        · exact level_giveAttached h
      · obtain ⟨r₁, hmark, h⟩ := bind_eq_ok_iff.1 h
        exact (ih h).trans (level_markArg hmark)

theorem level_read (h : r.read text = .ok r') : r'.level = r.level := by
  unfold read at h
  split at h
  · exact level_readLong h
  · exact level_readShort h
  · cases h
    rfl
  · exact level_readWord h

theorem ne_dashes_of_read (h : r.read text = .ok r') : text ≠ "--" := by
  rintro rfl
  have hnone : r.level.ofLong? [] = none := by
    cases r.level <;> decide
  simp [read, readLong, hnone] at h

theorem readAll_append (h : args.foldlM read r = .ok r') (rest : List String) :
    r.readAll (args ++ rest) = r'.readAll rest := by
  induction args generalizing r with
  | nil =>
    cases h
    rfl
  | cons text args ih =>
    obtain ⟨r₁, hread, h⟩ := bind_eq_ok_iff.1 h
    rw [List.cons_append, readAll, hread, ok_bind, ih h]
    exact ne_dashes_of_read hread

theorem readAll_trailing (h : r.settle = .ok s) (hlevel : r.level = .build ∨ r.level = .full)
    (trailing : Option (List String)) : r.readAll (trailing.elim [] ("--" :: ·)) =
      .ok { s with words := s.words ++ trailing.getD [] } := by
  cases trailing with
  | none => simp [readAll, h]
  | some words =>
    obtain ⟨r', hread, hsettle⟩ := exists_foldlM_readWord h hlevel words
    simp [readAll, hread, hsettle]

theorem isAwaiting_of_read (hlevel : r.level = .program) (h : r.read text = .ok r')
    (hname : (text == "help" || (Level.ofCommand? text).isSome) = true) :
    r.isAwaiting = true := by
  have hplain : IsPlain text := by
    rw [Bool.or_eq_true, beq_iff_eq] at hname
    unfold Level.ofCommand? at hname
    rcases hname with rfl | hname
    · decide
    · split at hname
      · decide
      · decide
      · decide
      · cases hname
  rw [read_plain hplain] at h
  cases hheld : r.held with
  | awaiting arg => simp [isAwaiting, hheld]
  | _ => simp [hheld, readWord, hasRoom, hlevel] at h

theorem readToCommand_append (hlevel : r.level = .program) (h : args.foldlM read r = .ok r')
    (rest : List String) : r.readToCommand (args ++ rest) = r'.readToCommand rest := by
  induction args generalizing r with
  | nil =>
    cases h
    rfl
  | cons text args ih =>
    obtain ⟨r₁, hread, h⟩ := bind_eq_ok_iff.1 h
    have hskip : (!r.isAwaiting && (text == "help" || (Level.ofCommand? text).isSome)) = false := by
      by_contra hname
      rw [Bool.not_eq_false, Bool.and_eq_true] at hname
      simp [isAwaiting_of_read hlevel hread hname.2] at hname
    rw [List.cons_append, readToCommand, hskip, if_neg Bool.false_ne_true, hread, ok_bind,
      ih ((level_read hread).trans hlevel) h]
    exact ne_dashes_of_read hread

theorem readToCommand_command (h : r.settle = .ok s) {level : Level} {name : String}
    (hname : Level.ofCommand? name = some level) (rest : List String) :
    r.readToCommand (name :: rest) = .ok (r, name :: rest) := by
  have hne : name ≠ "--" := by
    rintro rfl
    cases hname
  rw [readToCommand, isAwaiting_of_settle h, hname]
  · simp
  · exact hne

end Reading
end BuildPlan

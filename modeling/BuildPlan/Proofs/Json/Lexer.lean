import BuildPlan.Json.Lexer
import BuildPlan.Json.Printer
import BuildPlan.Proofs.Text.ReadBack
import Mathlib.Data.List.TakeWhile

/-! # The tokens of written JSON

What the printers write is cut into the tokens of the value again. A token ends where the next
character cannot go on with it, so what is read of a text depends on the character that follows:
`Reads` leaves the rest of the text open, up to that first character.
-/
namespace BuildPlan.Json

mutual

def tokens : Json → List Token
  | .array items => .openBracket :: (itemTokens items ++ [.closeBracket])
  | .object fields => .openBrace :: (fieldTokens fields ++ [.closeBrace])
  | j => [.scalar j]

def itemTokens : List Json → List Token
  | [] => []
  | [j] => tokens j
  | j :: rest => tokens j ++ .comma :: itemTokens rest

def fieldTokens : List (Option String × Json) → List Token
  | [] => []
  | [(key, j)] => .scalar (.string key) :: .colon :: tokens j
  | (key, j) :: rest => .scalar (.string key) :: .colon :: (tokens j ++ .comma :: fieldTokens rest)

end

theorem itemTokens_cons_cons (j k : Json) (rest : List Json) :
    itemTokens (j :: k :: rest) = j.tokens ++ .comma :: itemTokens (k :: rest) := by
  simp [itemTokens]

theorem fieldTokens_cons_cons (key : Option String) (j : Json) (field : Option String × Json)
    (rest : List (Option String × Json)) :
    fieldTokens ((key, j) :: field :: rest) =
      .scalar (.string key) :: .colon :: (j.tokens ++ .comma :: fieldTokens (field :: rest)) := by
  simp [fieldTokens]

/-- A value all of whose numbers are integers. -/
inductive IsExact : Json → Prop
  | null : IsExact .null
  | bool (value : Bool) : IsExact (.bool value)
  | integer (negative : Bool) (magnitude : Nat) : IsExact (.integer negative magnitude)
  | string (text : Option String) : IsExact (.string text)
  | array {items : List Json} (h : ∀ j ∈ items, IsExact j) : IsExact (.array items)
  | object {fields : List (Option String × Json)} (h : ∀ field ∈ fields, IsExact field.2) :
    IsExact (.object fields)

namespace Lexer

/-- A character that belongs to no number and to no word. -/
def Breaks (c : Char) : Prop := isNumberChar c = false ∧ c.isAlpha = false

instance (c : Char) : Decidable (Breaks c) := inferInstanceAs (Decidable (_ ∧ _))

/-- A number or a word that stands before the text ends there. -/
def Ends (rest : List Char) : Prop := ∀ c ∈ rest.head?, Breaks c

theorem ends_cons {c : Char} {rest : List Char} (h : Breaks c) : Ends (c :: rest) := by
  rintro d hd
  cases hd
  exact h

/-- The characters are read as the tokens, whatever comes after them. -/
def Reads (cs : List Char) (tokens : List Token) : Prop :=
  ∀ back rest, Ends rest →
    scan .between back (cs ++ rest) = scan .between (tokens.reverse ++ back) rest

theorem scan_cons {mode next : Mode} {c : Char} {tokens back : List Token} {rest : List Char}
    (h : step mode c = some (next, tokens)) :
    scan mode back (c :: rest) = scan next (tokens.reverse ++ back) rest := by
  rw [scan, h]

theorem scan_start {next : Mode} {c : Char} {tokens back : List Token} {rest : List Char}
    (h : start c = some (next, tokens)) :
    scan .between back (c :: rest) = scan next (tokens.reverse ++ back) rest :=
  scan_cons h

namespace Reads

variable {c : Char} {cs ds : List Char} {ts us : List Token}

theorem nil : Reads [] [] := fun _ _ _ => rfl

theorem cons (hc : start c = some (.between, ts)) (h : Reads cs us) :
    Reads (c :: cs) (ts ++ us) := by
  intro back rest hrest
  rw [List.cons_append, scan_start hc, h _ _ hrest, List.reverse_append,
    List.append_assoc]

theorem append (h : Reads cs ts) (hc : Breaks c) (h' : Reads (c :: ds) us) :
    Reads (cs ++ c :: ds) (ts ++ us) := by
  intro back rest hrest
  have hrest' : Ends (c :: ds ++ rest) := ends_cons hc
  rw [List.append_assoc, h _ _ hrest', h' _ _ hrest, List.reverse_append, List.append_assoc]

end Reads

theorem tokens?_eq {s : String} {ts : List Token} (h : Reads s.toList ts) :
    tokens? s = some ts := by
  have hend : Ends [] := by simp [Ends]
  have hscan := h [] [] hend
  rw [List.append_nil, List.append_nil] at hscan
  simpa [tokens?, scan, finish] using hscan

/-! ### Words and numbers -/

/-- Where a token ends, reading goes on as it does between tokens. -/
theorem scan_restart {mode : Mode} {done back : List Token} {rest : List Char}
    (hdone : finish mode = some done) (hstep : ∀ c ∈ rest.head?, step mode c = restart mode c) :
    scan mode back rest = scan .between (done.reverse ++ back) rest := by
  cases rest with
  | nil =>
    rw [scan, scan, hdone]
    simp [finish]
  | cons c rest =>
    have hrestart : step mode c = (start c).map fun next => (next.1, done ++ next.2) := by
      rw [hstep c rfl, restart, hdone]
      cases start c <;> rfl
    rw [scan, scan, hrestart, step]
    cases start c with
    | none => rfl
    | some next => simp [List.append_assoc]

section Runs

/-! A word and a number are collected character by character, each while characters of its own kind
come. -/

variable {mode : List Char → Mode} {goesOn : Char → Bool}
  (hstep : ∀ back c, goesOn c = true → step (mode back) c = some (mode (c :: back), []))
include hstep

theorem scan_run (cs : List Char) {back : List Char} {ts : List Token} {rest : List Char}
    (h : ∀ c ∈ cs, goesOn c = true) :
    scan (mode back) ts (cs ++ rest) = scan (mode (cs.reverse ++ back)) ts rest := by
  induction cs generalizing back with
  | nil => rfl
  | cons c cs ih =>
    have hc := hstep back c (h c List.mem_cons_self)
    rw [List.cons_append, scan_cons hc, List.reverse_nil, List.nil_append,
      ih fun d hd => h d (List.mem_cons_of_mem c hd), List.reverse_cons, List.append_assoc]
    rfl

theorem reads_run (hstop : ∀ back c, Breaks c → step (mode back) c = restart (mode back) c)
    {c : Char} {cs : List Char} {j : Json} (hc : start c = some (mode [c], []))
    (hcs : ∀ d ∈ cs, goesOn d = true) (h : finish (mode (c :: cs).reverse) = some [.scalar j]) :
    Reads (c :: cs) [.scalar j] := by
  intro back rest hrest
  rw [List.reverse_cons] at h
  rw [List.cons_append, scan_start hc, scan_run hstep cs hcs]
  exact scan_restart h fun d hd => hstop _ d (hrest d hd)

end Runs

theorem reads_word {c : Char} {cs : List Char} {j : Json} (hc : start c = some (.word [c], []))
    (hcs : ∀ d ∈ cs, d.isAlpha = true) (h : word? (c :: cs) = some j) :
    Reads (c :: cs) [.scalar j] := by
  have hstep : ∀ back d, d.isAlpha = true → step (.word back) d = some (.word (d :: back), []) :=
    fun back d hd => by simp [step, hd]
  exact reads_run hstep (fun back d hd => by simp [step, hd.2]) hc hcs (by simp [finish, h])

theorem reads_number {c : Char} {cs : List Char} {j : Json} (hc : start c = some (.number [c], []))
    (hcs : ∀ d ∈ cs, isNumberChar d = true) (h : number? (c :: cs) = some j) :
    Reads (c :: cs) [.scalar j] := by
  have hstep : ∀ back d, isNumberChar d = true →
      step (.number back) d = some (.number (d :: back), []) :=
    fun back d hd => by simp [step, hd]
  exact reads_run hstep (fun back d hd => by simp [step, hd.1]) hc hcs (by simp [finish, h])

theorem reads_null : Reads "null".toList [.scalar .null] :=
  reads_word (c := 'n') rfl (List.all_eq_true.1 rfl) rfl

theorem reads_bool (value : Bool) :
    Reads (if value then "true" else "false").toList [.scalar (.bool value)] := by
  cases value with
  | true => exact reads_word (c := 't') rfl (List.all_eq_true.1 rfl) rfl
  | false => exact reads_word (c := 'f') rfl (List.all_eq_true.1 rfl) rfl

theorem isNumberChar_of_isDigit {c : Char} (h : c.isDigit = true) : isNumberChar c = true := by
  simp [isNumberChar, h]

theorem start_of_isDigit {c : Char} (h : c.isDigit = true) : start c = some (.number [c], []) := by
  have hspace : isSpace c = false := by
    by_contra hspace
    simp only [isSpace, Bool.not_eq_false, Bool.or_eq_true, beq_iff_eq] at hspace
    rcases hspace with ((rfl | rfl) | rfl) | rfl <;> revert h <;> decide
  have hquote : c ≠ '"' := by
    rintro rfl
    revert h
    decide
  simp [start, hspace, hquote, h]

theorem number?_digits (negative : Bool) {digits : List Char} (hne : digits ≠ [])
    (hdigits : ∀ c ∈ digits, c.isDigit = true)
    (hzero : digits.head? = some '0' → digits.length = 1) :
    number? ((if negative then ['-'] else []) ++ digits) =
      some (.integer negative (Text.decimalValue digits)) := by
  have htake : digits.takeWhile Char.isDigit = digits := List.takeWhile_eq_self_iff.2 hdigits
  have hdrop : digits.dropWhile Char.isDigit = [] := List.dropWhile_eq_nil_iff.2 hdigits
  have hneedless : ¬(digits.head? = some '0' ∧ 1 < digits.length) := fun h => by
    have := hzero h.1
    omega
  cases negative with
  | true => simp [number?, htake, hdrop, hne, hneedless]
  | false =>
    cases digits with
    | nil => exact absurd rfl hne
    | cons d rest =>
      have hd : d ≠ '-' := by
        rintro rfl
        exact absurd (hdigits '-' List.mem_cons_self) (by decide)
      simpa [number?, htake, hdrop, hd] using hzero

theorem reads_integer (negative : Bool) (magnitude : Nat) :
    Reads (Printer.integer negative magnitude).toList [.scalar (.integer negative magnitude)] := by
  have hdigits : ∀ c ∈ Nat.toDigits 10 magnitude, c.isDigit = true :=
    fun c hc => Text.isDigit_of_mem_toDigits hc
  have hzero : (Nat.toDigits 10 magnitude).head? = some '0' →
      (Nat.toDigits 10 magnitude).length = 1 := by
    intro hhead
    obtain rfl | hpos := Nat.eq_zero_or_pos magnitude
    · rfl
    · exact absurd hhead (Text.head?_toDigits_ne_zero hpos)
  have hnumber := number?_digits negative Nat.toDigits_ne_nil hdigits hzero
  rw [Text.decimalValue_toDigits] at hnumber
  have htext : (Printer.integer negative magnitude).toList =
      (if negative then ['-'] else []) ++ Nat.toDigits 10 magnitude := by
    cases negative <;> simp [Printer.integer]
  rw [htext]
  cases negative with
  | true =>
    exact reads_number (c := '-') rfl (fun d hd => isNumberChar_of_isDigit (hdigits d hd)) hnumber
  | false =>
    cases hcs : Nat.toDigits 10 magnitude with
    | nil => exact absurd hcs Nat.toDigits_ne_nil
    | cons c cs =>
      rw [hcs] at hdigits hnumber
      exact reads_number (start_of_isDigit (hdigits c List.mem_cons_self))
        (fun d hd => isNumberChar_of_isDigit (hdigits d (List.mem_cons_of_mem c hd))) hnumber

/-! ### Strings -/

theorem hexValue?_hexDigit (n : Nat) : Text.hexValue? (Printer.hexDigit n) = some (n % 16) :=
  Text.hexValue?_digitChar (Nat.mod_lt n (by decide))

theorem step_unicode {q : Quoted} {digits value v : Nat} {c : Char}
    (h : Text.hexValue? c = some v) :
    step (.unicode q digits value) c =
      if digits < 3 then some (.unicode q (digits + 1) (16 * value + v), [])
      else some (.quoted (q.pushUnit (16 * value + v)), []) := by
  rw [step, h]
  rfl

theorem scan_plain {c : Char} (hquote : c ≠ '"') (hslash : c ≠ '\\') (hplain : ¬c.toNat < 0x20)
    (read : List Char) (back : List Token) (rest : List Char) :
    scan (.quoted ⟨read, none, true⟩) back (c :: rest) =
      scan (.quoted ⟨c :: read, none, true⟩) back rest := by
  have hstep : step (.quoted ⟨read, none, true⟩) c =
      some (.quoted ⟨c :: read, none, true⟩, []) := by
    simp [step, hquote, hslash, hplain, Quoted.push, Quoted.settle]
  exact scan_cons hstep

theorem scan_control {c : Char} (hcontrol : c.toNat < 0x20) (read : List Char) (back : List Token)
    (rest : List Char) :
    scan (.quoted ⟨read, none, true⟩) back ('\\' :: 'u' :: '0' :: '0' ::
        Printer.hexDigit (c.toNat / 16) :: Printer.hexDigit c.toNat :: rest) =
      scan (.quoted ⟨c :: read, none, true⟩) back rest := by
  have hpush : Quoted.pushUnit ⟨read, none, true⟩ c.toNat = ⟨c :: read, none, true⟩ := by
    have hlow : ¬0xD800 ≤ c.toNat := by omega
    have hlow' : ¬0xDC00 ≤ c.toNat := by omega
    simp [Quoted.pushUnit, hlow, hlow', Quoted.push, Quoted.settle]
  have hunit : 16 * (16 * (16 * (16 * 0 + 0) + 0) + c.toNat / 16 % 16) + c.toNat % 16 =
      c.toNat := by
    omega
  have hzero : Text.hexValue? '0' = some 0 := rfl
  rw [scan_cons (c := '\\') rfl, scan_cons (c := 'u') rfl,
    scan_cons (c := '0') (step_unicode hzero), scan_cons (c := '0') (step_unicode hzero),
    scan_cons (step_unicode (hexValue?_hexDigit _)),
    scan_cons (step_unicode (hexValue?_hexDigit _)), hunit, hpush]
  rfl

theorem scan_escape (c : Char) (read : List Char) (back : List Token) (rest : List Char) :
    scan (.quoted ⟨read, none, true⟩) back (Printer.escape c ++ rest) =
      scan (.quoted ⟨c :: read, none, true⟩) back rest := by
  unfold Printer.escape
  split
  case h_8 _ hquote hslash _ _ _ _ _ =>
    split
    · next hcontrol => exact scan_control hcontrol read back rest
    · next hplain => exact scan_plain hquote hslash hplain read back rest
  all_goals rfl

theorem scan_escapes (cs read : List Char) (back : List Token) (rest : List Char) :
    scan (.quoted ⟨read, none, true⟩) back (cs.flatMap Printer.escape ++ rest) =
      scan (.quoted ⟨cs.reverse ++ read, none, true⟩) back rest := by
  induction cs generalizing read with
  | nil => rfl
  | cons c cs ih =>
    rw [List.flatMap_cons, List.append_assoc, scan_escape, ih, List.reverse_cons, List.append_assoc]
    rfl

theorem reads_string (text : Option String) :
    Reads (Printer.string text).toList [.scalar (.string text)] := by
  intro back rest _
  cases text with
  | none => rfl
  | some s =>
    have htext : (Printer.string (some s)).toList ++ rest =
        '"' :: (s.toList.flatMap Printer.escape ++ '"' :: rest) := by
      simp [Printer.string, Printer.quote]
    have hjson : Quoted.toJson ⟨s.toList.reverse, none, true⟩ = .string (some s) := by
      simp [Quoted.toJson, Quoted.settle]
    rw [htext, scan_cons (c := '"') rfl]
    simp only [Quoted.empty]
    rw [scan_escapes, List.append_nil, scan_cons (c := '"') rfl, hjson]
    rfl

/-! ### Values on one line -/

theorem reads_compactItems : ∀ {items : List Json},
    (∀ j ∈ items, Reads (Printer.compact j).toList j.tokens) →
    Reads (Printer.compactItems items).toList (itemTokens items)
  | [], _ => .nil
  | [j], h => h j List.mem_cons_self
  | j :: j' :: rest, h => by
    have hrest := reads_compactItems fun k hk => h k (List.mem_cons_of_mem j hk)
    have hcomma := Reads.cons (c := ',') rfl hrest
    have hj := (h j List.mem_cons_self).append (by decide) hcomma
    simpa [Printer.compactItems, itemTokens] using hj

theorem reads_compactFields : ∀ {fields : List (Option String × Json)},
    (∀ field ∈ fields, Reads (Printer.compact field.2).toList field.2.tokens) →
    Reads (Printer.compactFields fields).toList (fieldTokens fields)
  | [], _ => .nil
  | [(key, j)], h => by
    have hcolon := Reads.cons (c := ':') rfl (h (key, j) List.mem_cons_self)
    have hfield := (reads_string key).append (by decide) hcolon
    simpa [Printer.compactFields, fieldTokens] using hfield
  | (key, j) :: field :: rest, h => by
    have hrest := reads_compactFields fun f hf => h f (List.mem_cons_of_mem (key, j) hf)
    have hcomma := Reads.cons (c := ',') rfl hrest
    have hj := (h (key, j) List.mem_cons_self).append (by decide) hcomma
    have hfield := (reads_string key).append (by decide) (Reads.cons (c := ':') rfl hj)
    simpa [Printer.compactFields, fieldTokens] using hfield

theorem reads_compact {j : Json} (h : IsExact j) : Reads (Printer.compact j).toList j.tokens := by
  induction h with
  | null => simpa [Printer.compact, tokens] using reads_null
  | bool value => simpa [Printer.compact, tokens] using reads_bool value
  | integer negative magnitude =>
    simpa [Printer.compact, tokens] using reads_integer negative magnitude
  | string text => simpa [Printer.compact, tokens] using reads_string text
  | array _ ih =>
    have hclose := Reads.cons (c := ']') rfl .nil
    have hitems := (reads_compactItems ih).append (by decide) hclose
    simpa [Printer.compact, tokens] using Reads.cons (c := '[') rfl hitems
  | object _ ih =>
    have hclose := Reads.cons (c := '\x7d') rfl .nil
    have hfields := (reads_compactFields ih).append (by decide) hclose
    simpa [Printer.compact, tokens] using Reads.cons (c := '\x7b') rfl hfields

/-! ### Values laid out over several lines -/

theorem Reads.spaces {cs : List Char} {ts : List Token} (n : Nat) (h : Reads cs ts) :
    Reads (List.replicate n ' ' ++ cs) ts := by
  induction n with
  | zero => exact h
  | succ n ih => exact Reads.cons (c := ' ') rfl ih

theorem toList_newline (depth : Nat) :
    (Printer.newline depth).toList = '\n' :: List.replicate (2 * depth) ' ' := by
  simp [Printer.newline]

theorem Reads.newline {cs : List Char} {ts : List Token} (depth : Nat) (h : Reads cs ts) :
    Reads ('\n' :: (List.replicate (2 * depth) ' ' ++ cs)) ts :=
  Reads.cons (c := '\n') rfl (h.spaces (2 * depth))

theorem reads_prettyItems {depth : Nat} : ∀ {items : List Json},
    (∀ j ∈ items, Reads (Printer.pretty depth j).toList j.tokens) →
    Reads (Printer.prettyItems depth items).toList (itemTokens items)
  | [], _ => .nil
  | [j], h => by
    have hj := (h j List.mem_cons_self).newline depth
    simpa [Printer.prettyItems, itemTokens, toList_newline] using hj
  | j :: j' :: rest, h => by
    have hrest := reads_prettyItems fun k hk => h k (List.mem_cons_of_mem j hk)
    have hcomma := Reads.cons (c := ',') rfl hrest
    have hj := ((h j List.mem_cons_self).append (by decide) hcomma).newline depth
    simpa [Printer.prettyItems, itemTokens, toList_newline] using hj

theorem reads_prettyFields {depth : Nat} : ∀ {fields : List (Option String × Json)},
    (∀ field ∈ fields, Reads (Printer.pretty depth field.2).toList field.2.tokens) →
    Reads (Printer.prettyFields depth fields).toList (fieldTokens fields)
  | [], _ => .nil
  | [(key, j)], h => by
    have hspace := Reads.cons (c := ' ') rfl (h (key, j) List.mem_cons_self)
    have hcolon := Reads.cons (c := ':') rfl hspace
    have hfield := ((reads_string key).append (by decide) hcolon).newline depth
    simpa [Printer.prettyFields, fieldTokens, toList_newline] using hfield
  | (key, j) :: field :: rest, h => by
    have hrest := reads_prettyFields fun f hf => h f (List.mem_cons_of_mem (key, j) hf)
    have hcomma := Reads.cons (c := ',') rfl hrest
    have hj := (h (key, j) List.mem_cons_self).append (by decide) hcomma
    have hcolon := Reads.cons (c := ':') rfl (Reads.cons (c := ' ') rfl hj)
    have hfield := ((reads_string key).append (by decide) hcolon).newline depth
    simpa [Printer.prettyFields, fieldTokens, toList_newline] using hfield

theorem reads_pretty {j : Json} (h : IsExact j) (depth : Nat) :
    Reads (Printer.pretty depth j).toList j.tokens := by
  induction h generalizing depth with
  | null => simpa [Printer.pretty, tokens] using reads_null
  | bool value => simpa [Printer.pretty, tokens] using reads_bool value
  | integer negative magnitude =>
    simpa [Printer.pretty, tokens] using reads_integer negative magnitude
  | string text => simpa [Printer.pretty, tokens] using reads_string text
  | @array items _ ih =>
    have hclose := Reads.cons (c := ']') rfl .nil
    cases items with
    | nil => simpa [Printer.pretty, tokens, itemTokens] using Reads.cons (c := '[') rfl hclose
    | cons j rest =>
      have hitems := (reads_prettyItems fun j hj => ih j hj (depth + 1)).append (by decide)
        (hclose.newline depth)
      simpa [Printer.pretty, tokens, toList_newline] using Reads.cons (c := '[') rfl hitems
  | @object fields _ ih =>
    have hclose := Reads.cons (c := '\x7d') rfl .nil
    cases fields with
    | nil => simpa [Printer.pretty, tokens, fieldTokens] using Reads.cons (c := '\x7b') rfl hclose
    | cons field rest =>
      have hfields := (reads_prettyFields fun f hf => ih f hf (depth + 1)).append (by decide)
        (hclose.newline depth)
      simpa [Printer.pretty, tokens, toList_newline] using Reads.cons (c := '\x7b') rfl hfields

end Lexer

theorem tokens?_compact {j : Json} (h : IsExact j) : tokens? j.compact = some j.tokens :=
  Lexer.tokens?_eq (Lexer.reads_compact h)

theorem tokens?_pretty {j : Json} (h : IsExact j) : tokens? j.pretty = some j.tokens :=
  Lexer.tokens?_eq (Lexer.reads_pretty h 0)

end BuildPlan.Json

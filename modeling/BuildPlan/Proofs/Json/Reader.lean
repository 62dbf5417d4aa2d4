import BuildPlan.Json.Reader
import BuildPlan.Proofs.Json.Lexer

/-! # Written JSON read back

The tokens of a value bring the reader from any place where a value may stand to the state after
that value, so a value that is written in either layout is read back as it was.
-/
namespace BuildPlan.Json

namespace Reader

/-- The tokens are read as the value, inside whatever arrays and objects have begun. -/
def Builds (ts : List Token) (j : Json) : Prop :=
  ∀ stack, ts.foldlM step (.value stack) = some (.after stack j)

theorem Builds.foldlM_append {ts : List Token} {j : Json} (h : Builds ts j) (stack : List Frame)
    (us : List Token) :
    (ts ++ us).foldlM step (.value stack) = us.foldlM step (.after stack j) := by
  rw [List.foldlM_append, h stack]
  rfl

theorem exists_tokens_eq_cons (j : Json) : ∃ t ts, j.tokens = t :: ts ∧ t ≠ .closeBracket := by
  cases j <;> simp [tokens]

theorem step_firstItem {t : Token} (h : t ≠ .closeBracket) (stack : List Frame) :
    step (.firstItem stack) t = step (.value (.array [] :: stack)) t := by
  cases t <;> first | rfl | exact absurd rfl h

theorem foldlM_itemTokens (stack : List Frame) : ∀ (j : Json) (rest back : List Json),
    (∀ k ∈ j :: rest, Builds k.tokens k) →
    (itemTokens (j :: rest) ++ [Token.closeBracket]).foldlM step (.value (.array back :: stack)) =
      some (.after stack (.array (back.reverse ++ j :: rest)))
  | j, [], back, h => by
    have hj := h j List.mem_cons_self
    rw [itemTokens, hj.foldlM_append]
    simp [step]
  | j, k :: rest, back, h => by
    have hj := h j List.mem_cons_self
    have hrest := foldlM_itemTokens stack k rest (j :: back)
      fun i hi => h i (List.mem_cons_of_mem j hi)
    rw [List.reverse_cons, List.append_assoc] at hrest
    rw [itemTokens_cons_cons, List.append_assoc, hj.foldlM_append]
    exact hrest

theorem builds_array {items : List Json} (h : ∀ j ∈ items, Builds j.tokens j) :
    Builds (Json.array items).tokens (.array items) := by
  intro stack
  rw [tokens, List.foldlM_cons]
  cases items with
  | nil => rfl
  | cons j rest =>
    have hitems := foldlM_itemTokens stack j rest [] h
    obtain ⟨t, ts, htokens, ht⟩ := exists_tokens_eq_cons j
    obtain ⟨us, hus⟩ : ∃ us, itemTokens (j :: rest) ++ [.closeBracket] = t :: us := by
      cases rest <;> simp [itemTokens, htokens]
    rw [hus, List.foldlM_cons, ← step_firstItem ht stack] at hitems
    rw [hus]
    exact hitems

theorem step_key (stack : List Frame) (back : List (Option String × Json)) (first : Bool)
    (key : Option String) :
    step (.key stack back first) (.scalar (.string key)) = some (.colon stack back key) := by
  cases first <;> rfl

theorem foldlM_fieldTokens (stack : List Frame) :
    ∀ (field : Option String × Json) (rest back : List (Option String × Json)) (first : Bool),
    (∀ f ∈ field :: rest, Builds f.2.tokens f.2) →
    (fieldTokens (field :: rest) ++ [Token.closeBrace]).foldlM step (.key stack back first) =
      some (.after stack (.object (back.reverse ++ field :: rest)))
  | (key, j), [], back, first, h => by
    have hj := (h (key, j) List.mem_cons_self).foldlM_append (.object back key :: stack)
      [.closeBrace]
    rw [fieldTokens, List.cons_append, List.foldlM_cons, step_key]
    refine hj.trans ?_
    simp [step]
  | (key, j), field :: rest, back, first, h => by
    have hj := (h (key, j) List.mem_cons_self).foldlM_append (.object back key :: stack)
      (.comma :: fieldTokens (field :: rest) ++ [.closeBrace])
    have hrest := foldlM_fieldTokens stack field rest ((key, j) :: back) false
      fun f hf => h f (List.mem_cons_of_mem (key, j) hf)
    rw [List.reverse_cons, List.append_assoc] at hrest
    rw [fieldTokens_cons_cons, List.cons_append, List.cons_append, List.append_assoc,
      List.foldlM_cons, step_key]
    exact hj.trans hrest

theorem builds_object {fields : List (Option String × Json)}
    (h : ∀ field ∈ fields, Builds field.2.tokens field.2) :
    Builds (Json.object fields).tokens (.object fields) := by
  intro stack
  rw [tokens, List.foldlM_cons]
  cases fields with
  | nil => rfl
  | cons field rest => exact foldlM_fieldTokens stack field rest [] true h

theorem builds_tokens {j : Json} (h : IsExact j) : Builds j.tokens j := by
  induction h with
  | array _ ih => exact builds_array ih
  | object _ ih => exact builds_object ih
  | _ => exact fun stack => rfl

/-- A text is read as the value whose tokens it is cut into. -/
theorem parse?_eq {s : String} {j : Json} (hs : tokens? s = some j.tokens) (h : IsExact j) :
    parse? s = some j := by
  simp [parse?, hs, builds_tokens h []]

end Reader

theorem parse?_compact {j : Json} (h : IsExact j) : parse? j.compact = some j :=
  Reader.parse?_eq (tokens?_compact h) h

theorem parse?_pretty {j : Json} (h : IsExact j) : parse? j.pretty = some j :=
  Reader.parse?_eq (tokens?_pretty h) h

end BuildPlan.Json

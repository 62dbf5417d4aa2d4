import BuildPlan.Proofs.CommandLine.Sayings
import BuildPlan.Proofs.Text.ReadBack

/-! # Values in texts

The texts that stand for a depth, for a dependency type and for the entries of a list.
-/
namespace BuildPlan

/-- The decimal digits of a number, with any zeros and perhaps a sign in front. -/
def IsNumeral (n : UInt32) (text : String) : Prop :=
  ∃ width, text = Text.padded width n.toNat ∨ text = "+" ++ Text.padded width n.toNat

def DependencyType.words : DependencyType → List String
  | source => ["source", "src"]
  | binary => ["binary", "bin"]
  | both => ["both"]

/-- In any case, a word for a dependency type. -/
def DependencyType.IsNamedBy (t : DependencyType) (text : String) : Prop :=
  Text.lowerCase text ∈ t.words

theorem DependencyType.ofText?_of_isNamedBy {t : DependencyType} {text : String}
    (h : t.IsNamedBy text) : ofText? text = some t := by
  unfold IsNamedBy at h
  unfold ofText?
  generalize Text.lowerCase text = word at h
  cases t
  all_goals
    simp only [words, List.mem_cons, List.not_mem_nil, or_false] at h
    rcases h with rfl | rfl <;> rfl

theorem DependencyType.isNamedBy_name (t : DependencyType) : t.IsNamedBy t.name := by
  unfold IsNamedBy
  cases t <;> decide

/-- The texts mention a value in a single text. They may leave it out if it is the usual one. -/
def Mentions {α : Type} (Means : α → String → Prop) (usual v : α) (texts : List String) : Prop :=
  texts = [] ∧ v = usual ∨ ∃ text, texts = [text] ∧ Means v text

section Mentions

variable {α : Type} {Means : α → String → Prop} {usual v : α} {texts : List String}

theorem Mentions.length_le (h : Mentions Means usual v texts) : texts.length ≤ 1 := by
  rcases h with ⟨rfl, -⟩ | ⟨text, rfl, -⟩ <;> simp

theorem Mentions.of_mem (h : Mentions Means usual v texts) {text : String} (hmem : text ∈ texts) :
    Means v text := by
  obtain ⟨rfl, -⟩ | ⟨text', rfl, hmeans⟩ := h
  · cases hmem
  · exact List.mem_singleton.1 hmem ▸ hmeans

theorem Settings.getD_first?_of_mentions {arg : NamedArg} {said : List Saying}
    (h : Mentions Means usual v (Saying.textsOf arg said)) {read : String → Except Refusal α}
    (hread : ∀ {text}, Means v text → read text = .ok v) :
    (first? read arg said).getD usual = v := by
  rcases h with ⟨hnil, rfl⟩ | ⟨text, htext, hmeans⟩
  · simp [first?, hnil]
  · simp [first?, htext, hread hmeans, Except.toOption]

end Mentions

/-- Each text holds some neighbours of the list with commas between them. -/
def Joins (texts entries : List String) : Prop :=
  ∃ chunks : List (List String),
    [] ∉ chunks ∧ chunks.flatten = entries ∧ texts = chunks.map (",".intercalate ·)

theorem Joins.refl (entries : List String) : Joins entries entries :=
  ⟨entries.map ([·]), by simp, by simp [← List.flatMap_def], by simp [Function.comp_def]⟩

namespace Settings

theorem flatMap_items {texts entries : List String} (h : Joins texts entries)
    (hcomma : ∀ entry ∈ entries, ',' ∉ entry.toList) : texts.flatMap items = entries := by
  obtain ⟨chunks, hne, rfl, rfl⟩ := h
  rw [List.flatMap_map, List.flatten_eq_flatMap]
  refine List.flatMap_congr fun chunk hchunk => ?_
  refine Text.split_intercalate (fun hnil => hne (hnil ▸ hchunk)) fun entry hentry => ?_
  exact hcomma entry (List.mem_flatten_of_mem hchunk hentry)

theorem readDepth_of_digits {n : UInt32} {text : String} {digits : List Char}
    (hdigits : ∀ c ∈ digits, c.isDigit = true) (hne : digits ≠ [])
    (hvalue : Text.decimalValue digits = n.toNat)
    (htext : text.toList = digits ∨ text.toList = '+' :: digits) : readDepth text = .ok n := by
  have hall : digits.all Char.isDigit = true := List.all_eq_true.2 hdigits
  have hlt : ¬UInt32.size ≤ n.toNat := Nat.not_le.2 n.toNat_lt_size
  unfold readDepth
  rcases htext with htext | htext
  · rw [htext]
    split
    next hsign =>
      split at hsign
      · exact absurd (hdigits _ List.mem_cons_self) (by decide)
      · exact absurd (hdigits _ List.mem_cons_self) (by decide)
      · cases hsign
        simp [hall, hne, hvalue, hlt]
  · rw [htext]
    simp [hall, hne, hvalue, hlt]

theorem readDependencyType_of_isNamedBy {t : DependencyType} {text : String}
    (h : t.IsNamedBy text) : readDependencyType text = .ok t := by
  simp [readDependencyType, DependencyType.ofText?_of_isNamedBy h]

theorem readPath_of_ne {text : String} (h : text ≠ "") : readPath text = .ok text := by
  simp [readPath, h]

theorem readDepth_of_isNumeral {n : UInt32} {text : String} (h : IsNumeral n text) :
    readDepth text = .ok n := by
  obtain ⟨width, htext⟩ := h
  refine readDepth_of_digits (fun c => Text.isDigit_of_mem_padded)
    (Text.padded_ne_nil width n.toNat) (Text.decimalValue_padded width n.toNat) ?_
  rcases htext with rfl | rfl
  · exact Or.inl rfl
  · exact Or.inr (by simp [String.toList_append])

end Settings
end BuildPlan

import BuildPlan.Text.CaseTable
import BuildPlan.Text

/-! # Full lower-casing

Each character goes to its lower-case form, independent of any language. Two characters are
special: a capital I with a dot above becomes two characters, and a capital sigma at the end of a
word takes its final form.
-/
namespace BuildPlan.Text

def isCaseIgnorable (c : Char) : Bool := inRanges caseIgnorableRanges c

/-- Characters with case; those that are also case-ignorable are left out. -/
def isCased (c : Char) : Bool := inRanges casedRanges c

/-- The one-character lower-case form of a character. -/
def lowerChar (c : Char) : Char :=
  match lowerRuns.find? (·.covers c.toNat) with
  | some run => Char.ofNat (run.apply c.toNat)
  | none => c

/-- Whether the first character that is not case-ignorable has case. -/
def meetsCased (cs : List Char) : Bool :=
  match cs.dropWhile isCaseIgnorable with
  | [] => false
  | c :: _ => isCased c

/-- The lower-case form of a capital sigma after `before`, nearest first, and ahead of `after`: it
is final when a letter comes before it and none after it. -/
def lowerSigma (before after : List Char) : Char :=
  if meetsCased before && !meetsCased after then 'ς' else 'σ'

def lowerChars (before : List Char) : List Char → List Char
  | [] => []
  | c :: after =>
    let image :=
      if c = 'Σ' then [lowerSigma before after]
      else if c = 'İ' then ['i', '\u0307']
      else [lowerChar c]
    image ++ lowerChars (c :: before) after

def lowerCase (s : String) : String := String.ofList (lowerChars [] s.toList)

end BuildPlan.Text

import Std.Data.ExtTreeSet
import BuildPlan.Text

/-! # Names

Packages and the capabilities they require and provide are known by name. The two kinds of names
are kept apart, so that a requirement is never taken for the package that meets it. Names are
compared by code point, and sets of names list them in that order.
-/
namespace BuildPlan

structure PackageName where
  text : String
deriving DecidableEq, Inhabited, Repr

/-- The name of something that packages require and provide. -/
structure Capability where
  text : String
deriving DecidableEq, Inhabited, Repr

namespace PackageName

instance : Ord PackageName := ⟨compareOn text⟩

instance : Std.TransOrd PackageName := inferInstanceAs (Std.TransCmp (compareOn text))

instance : Std.LawfulEqOrd PackageName where
  eq_of_compare {a b} h := by
    cases a; cases b
    exact congrArg mk (Std.LawfulEqOrd.eq_of_compare h)

/-- The name that a text spells, blanks at its ends apart. -/
def ofText (s : String) : PackageName := ⟨Text.trim s⟩

def ofText? (s : String) : Option PackageName := (Text.nonBlank? s).map mk

end PackageName

namespace Capability

instance : Ord Capability := ⟨compareOn text⟩

instance : Std.TransOrd Capability := inferInstanceAs (Std.TransCmp (compareOn text))

instance : Std.LawfulEqOrd Capability where
  eq_of_compare {a b} h := by
    cases a; cases b
    exact congrArg mk (Std.LawfulEqOrd.eq_of_compare h)

def ofText (s : String) : Capability := ⟨Text.trim s⟩

/-- Every binary package provides its own name. -/
def ofPackage (name : PackageName) : Capability := ⟨name.text⟩

end Capability

abbrev PackageSet := Std.ExtTreeSet PackageName
abbrev CapabilitySet := Std.ExtTreeSet Capability

end BuildPlan

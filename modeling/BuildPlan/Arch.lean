import Std.Data.ExtTreeSet
import BuildPlan.Text.LowerCase

/-! # Architectures

A binary package is built for one architecture, and a `noarch` package runs on all of them.
Source packages carry the pseudo-architecture `src`. Architectures are ordered as declared here.
-/
namespace BuildPlan

inductive Arch where
  | noarch
  | i586
  | x86_64
  /-- 32-bit packages shipped for `x86_64`. -/
  | x86_64_i586
  | armh
  | aarch64
  | ppc64le
  | riscv64
  | loongarch64
  | mipsel
  | e2k
  | e2kv4
  | e2kv5
  | e2kv6
  | src
deriving DecidableEq, Inhabited, Repr

namespace Arch

def all : List Arch :=
  [noarch, i586, x86_64, x86_64_i586, armh, aarch64, ppc64le, riscv64, loongarch64, mipsel,
    e2k, e2kv4, e2kv5, e2kv6, src]

def name : Arch → String
  | noarch => "noarch"
  | i586 => "i586"
  | x86_64 => "x86_64"
  | x86_64_i586 => "x86_64-i586"
  | armh => "armh"
  | aarch64 => "aarch64"
  | ppc64le => "ppc64le"
  | riscv64 => "riscv64"
  | loongarch64 => "loongarch64"
  | mipsel => "mipsel"
  | e2k => "e2k"
  | e2kv4 => "e2kv4"
  | e2kv5 => "e2kv5"
  | e2kv6 => "e2kv6"
  | src => "src"

instance : Ord Arch := ⟨compareOn Arch.ctorIdx⟩

instance : Std.TransOrd Arch := inferInstanceAs (Std.TransCmp (compareOn Arch.ctorIdx))

instance : Std.LawfulEqOrd Arch where
  eq_of_compare {a b} h := by
    have h : compare a.ctorIdx b.ctorIdx = .eq := h
    rw [← ofNat_ctorIdx a, Std.LawfulEqOrd.eq_of_compare h, ofNat_ctorIdx]

/-- Whether binary packages can be built for the architecture. -/
def isBinary (a : Arch) : Bool := a != src

def ofName? (s : String) : Option Arch := all.find? (·.name == s)

/-- The architecture that a text names in any case, by its name or by a common alias. -/
def ofText? (s : String) : Option Arch :=
  match Text.lowerCase s with
  | "amd64" => some x86_64
  | "arm64" => some aarch64
  | "srpm" => some src
  | lower => ofName? lower

end Arch

abbrev ArchSet := Std.ExtTreeSet Arch

end BuildPlan

import BuildPlan.Error
import BuildPlan.Scope
import BuildPlan.Text
import Std.Data.ExtTreeMap

/-! # Configuration

What all resolutions share: their limits, and the architectures of branches for which a request
names none.
-/
namespace BuildPlan

structure Config where
  maxDepth : UInt32
  /-- How long one call may take when a request has no deadline. -/
  accessorTimeoutSecs : UInt64
  defaultArchs : Std.ExtTreeMap String (List Arch)
  /-- The architectures of branches that have no defaults. -/
  fallbackArchs : List Arch
  skipDebuginfo : Bool
  aclConcurrency : UInt64
deriving DecidableEq

namespace Config

def default : Config where
  maxDepth := 5
  accessorTimeoutSecs := 120
  defaultArchs :=
    let e2k : List Arch := [.noarch, .e2k, .e2kv4, .e2kv5, .e2kv6]
    .ofList [
      ("sisyphus_riscv64", [.noarch, .riscv64]),
      ("sisyphus_mipsel", [.noarch, .mipsel]),
      ("p9_mipsel", [.noarch, .mipsel]),
      ("sisyphus_e2k", e2k),
      ("p10_e2k", e2k),
      ("p9_e2k", e2k),
      ("sisyphus_loongarch64", [.noarch, .loongarch64])]
  fallbackArchs := [.noarch, .x86_64]
  skipDebuginfo := true
  aclConcurrency := 8

variable (config : Config)

def accessorTimeout : Span := .ofSeconds config.accessorTimeoutSecs

/-- Refuses a depth outside `1..=maxDepth`. -/
def checkDepth (depth : UInt32) : Except RequestError Unit :=
  if depth < 1 ∨ config.maxDepth < depth then
    throw (.depthOutOfRange depth.toNat config.maxDepth.toNat)
  else return ()

/-- The architectures of a branch when a request names none. -/
def archsFor (branch : String) : List Arch :=
  config.defaultArchs[branch]?.getD config.fallbackArchs

def parseArch (text : String) : Except RequestError Arch :=
  match Arch.ofText? text with
  | none => throw (.unknownArch text)
  | some arch => if arch.isBinary then return arch else throw (.sourceArch text)

/-- The scope that a request describes: the branch in lower case, and the architectures that it
names or else those of the branch. -/
def resolveScope (branch : String) (archs : List String) (dependencyType : DependencyType) :
    Except RequestError Scope := do
  let branch := Text.lowerCase (Text.trim branch)
  if branch.isEmpty then throw (.unknownBranch branch)
  let named ← archs.mapM parseArch
  let archs := if named.isEmpty then config.archsFor branch else named
  return .ofArchs branch archs dependencyType

end Config

end BuildPlan

import BuildPlan.Name
import BuildPlan.Time.Span

/-! # Errors

A resolution fails for one of three reasons: the caller asked for something that makes no sense, the
universe could not answer, or the time ran out. An empty result is no error.
-/
namespace BuildPlan

/-- What keeps a universe from answering. -/
inductive UniverseError where
  | unknownBranch (branch : String)
  | unknownArch (branch arch : String)
  /-- The data cannot be reached. -/
  | unavailable (detail : String)
  | malformed (detail : String)
deriving DecidableEq

namespace UniverseError

def message : UniverseError → String
  | unknownBranch branch => "Unknown branch: " ++ branch
  | unknownArch branch arch =>
    "Architecture " ++ arch ++ " is not available in branch " ++ branch
  | unavailable detail => "Universe unavailable: " ++ detail
  | malformed detail => "Malformed universe data: " ++ detail

end UniverseError

inductive RequestError where
  | noSeeds
  | unknownBranch (branch : String)
  | unknownArch (arch : String)
  | sourceArch (arch : String)
  | depthOutOfRange (depth limit : Nat)
  | conflictingFilters
  | leafNotInClosure (leaf : PackageName)
deriving DecidableEq

namespace RequestError

def message : RequestError → String
  | noSeeds => "At least one package is required"
  | unknownBranch branch => "Unknown branch: " ++ branch
  | unknownArch arch => "Unknown architecture: " ++ arch
  | sourceArch arch =>
    "Source pseudo-architecture '" ++ arch ++ "' is not allowed in an architecture list"
  | depthOutOfRange depth limit =>
    "Dependency depth should be in range (1..." ++ toString limit ++ "), got " ++ toString depth
  | conflictingFilters =>
    "Parameters 'filter_by_source' and 'filter_by_package' can't be used together"
  | leafNotInClosure leaf => "Package " ++ leaf.text ++ " is not in the dependency closure"

end RequestError

inductive ResolveError where
  | invalid (error : RequestError)
  | accessor (error : UniverseError)
  /-- A call took longer than it was allowed. -/
  | timeout (allowed : Span)
deriving DecidableEq

namespace ResolveError

def message : ResolveError → String
  | invalid error => "Invalid request: " ++ error.message
  | accessor error => "Universe accessor failed: " ++ error.message
  | timeout allowed => "Universe accessor timed out after " ++ allowed.text

/-- Whether the caller can mend the request and try again. -/
def isValidation : ResolveError → Bool
  | invalid _ => true
  | _ => false

def isInfrastructure : ResolveError → Bool
  | accessor _ | timeout _ => true
  | _ => false

/-- What a refused scope means: a branch or an architecture that does not exist is the caller's
mistake. -/
def ofScopeError : UniverseError → ResolveError
  | .unknownBranch branch => invalid (.unknownBranch branch)
  | .unknownArch _ arch => invalid (.unknownArch arch)
  | error => accessor error

def cause? : ResolveError → Option String
  | invalid error => some error.message
  | accessor error => some error.message
  | timeout _ => none

end ResolveError

end BuildPlan

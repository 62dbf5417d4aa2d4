import BuildPlan.Session.Call

/-! # Programs

A resolution is a program that puts calls to a universe and goes on with their answers. Programs are
trees, so that what a program asks can be told without a universe to ask.
-/
namespace BuildPlan

inductive Program (α : Type) where
  | done (value : α)
  | fail (error : ResolveError)
  | ask (call : Call) (next : call.Answer → Program α)
  /-- Looks up who may build each of some packages, at most `width` at a time. -/
  | lookups (width : Nat) (names : List PackageName) (branch : String)
      (next : List (List String) → Program α)

namespace Program

variable {α β : Type}

def bind : Program α → (α → Program β) → Program β
  | done a, f => f a
  | fail e, _ => fail e
  | ask c next, f => ask c fun r => (next r).bind f
  | lookups width names branch next, f => lookups width names branch fun r => (next r).bind f

instance : Monad Program where
  pure := done
  bind := bind

def ofRequest : Except RequestError α → Program α
  | .ok a => done a
  | .error e => fail (.invalid e)

def call (c : Call) : Program c.Answer := ask c done

/-! ### Calls that are left out when they would be about nothing -/

def requirementsOf (names : PackageSet) (reading : NameReading) (scope : Scope) :
    Program Requirements :=
  if names.isEmpty then done ∅ else call (.requirementsOf names reading scope)

def providersOf (capabilities : CapabilitySet) (scope : Scope) (asSource : Bool) :
    Program Providers :=
  if capabilities.isEmpty then done ∅ else call (.providersOf capabilities scope asSource)

def binariesOf (sources : PackageSet) (scope : Scope) : Program PackageSet :=
  if sources.isEmpty then done ∅ else call (.binariesOf sources scope)

def describe (names : PackageSet) (scope : Scope) (asSource : Bool) : Program Descriptions :=
  if names.isEmpty then done ∅ else call (.describe names scope asSource)

end Program

end BuildPlan

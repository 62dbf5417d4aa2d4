import BuildPlan.Closure.Expansion
import BuildPlan.Request
import BuildPlan.Session.Run

/-! # Resolutions

A resolution checks its scope, grows the closure of its seeds, puts the closure in build order,
applies its filters, and describes what is left. The seeds take part in the order and are not part
of the result.
-/
namespace BuildPlan

structure ResolvedPackage where
  name : PackageName
  version : String
  release : String
  epoch : UInt32
  serial : UInt32
  sourceRpm : String
  branch : String
  /-- The architectures of its binaries in the scope. -/
  archs : ArchSet
  buildTime : Timestamp
  /-- The other packages of its cycle. -/
  cycle : List PackageName
  /-- The members of the closure that it requires. -/
  requires : List PackageName
  acl : List String
  /-- The level at which it was found first; the seeds are level 1. -/
  depth : Nat
deriving DecidableEq

structure Resolution where
  branch : String
  packages : List ResolvedPackage
deriving DecidableEq

namespace Resolution

variable (r : Resolution)

def size : Nat := r.packages.length

def isEmpty : Bool := r.packages.isEmpty

def names : List PackageName := r.packages.map (·.name)

def get? (name : String) : Option ResolvedPackage :=
  r.packages.find? fun p => p.name.text == name

end Resolution

/-- What all resolutions of a session share. -/
structure Resolver where
  config : Config
  /-- Whether results say who may build each package. -/
  withAcl : Bool
  /-- More names than this cannot be found, whatever is asked. -/
  horizon : Nat

/-- How a resolution ends. -/
inductive Outcome where
  | resolved (result : Resolution)
  | failed (error : ResolveError)
  /-- The program ends: the clock cannot show an instant that it has to. -/
  | panicked
deriving DecidableEq

def Outcome.ofRun : Except Stop Resolution → Outcome
  | .ok result => .resolved result
  | .error (.failed error) => .failed error
  | .error .panicked => .panicked

namespace CheckedRequest

variable (r : CheckedRequest)

def asSource : Bool :=
  match r.goal with
  | .build _ _ => true
  | .full => false

/-- How the names that are found are read. -/
def reading : NameReading := if r.asSource then .source else .binary

/-- A half step has three levels, the seeds being the first. -/
def halfStepDepth : Nat := 3

/-- The closure of the seeds. A full closure needs no more rounds than there are names to find, and
one that finds nothing. -/
def closure (horizon : Nat) : Program Closure :=
  match r.goal with
  | .build _ true => (Expansion.build r.scope true).closure (halfStepDepth - 1) r.seeds
  | .build depth false => (Expansion.build r.scope false).closure (depth.toNat - 1) r.seeds
  | .full => (Expansion.full r.scope).closure (horizon + 1) r.seeds

def completeClosure (horizon : Nat) : Program Closure := do
  (← r.closure horizon).complete r.scope r.reading r.asSource

def record (c : Closure) (g : Graph) (o : BuildOrder) (described : Descriptions)
    (name : PackageName) : Except ResolveError ResolvedPackage :=
  match described[name]? with
  | none => throw (.accessor (.malformed ("no package record for " ++ name.text)))
  | some d => return {
      name
      version := d.package.version
      release := d.package.release
      epoch := d.package.epoch
      serial := d.package.serial
      sourceRpm := d.package.sourceRpm
      branch := r.scope.branch
      archs := d.archs
      buildTime := d.package.buildTime
      cycle := o.cycleMembers name
      requires := g.requires name
      acl := []
      depth := (c.level? name).getD 0 }

def annotate (width : Nat) (packages : List ResolvedPackage) : Program (List ResolvedPackage) :=
  Program.lookups width (packages.map (·.name)) r.scope.branch fun acls =>
    return packages.zipWith (fun p acl => { p with acl }) acls

def program (resolver : Resolver) : Program Resolution := do
  Program.call (.checkScope r.scope)
  let c ← r.completeClosure resolver.horizon
  let g := c.graph
  let o := g.sort
  let kept ← r.filters.kept r.scope r.reading g o c.discovered
  let described ← Program.describe kept r.scope r.asSource
  match (o.order.filter kept.contains).mapM (r.record c g o described) with
  | .error e => .fail e
  | .ok packages =>
    let packages ←
      if resolver.withAcl then r.annotate (max 1 resolver.config.aclConcurrency.toNat) packages
      else pure packages
    return ⟨r.scope.branch, packages⟩

end CheckedRequest

namespace Resolver

def ofUniverse (u : Universe) (config : Config) (withAcl : Bool) : Resolver :=
  ⟨config, withAcl, u.packageNames.size⟩

variable (resolver : Resolver)

/-- Answers a request by putting its calls to a world. -/
def resolve (world : World) (request : Request) (p : Progress) : Outcome × Progress :=
  match request.check resolver.config with
  | .error e => (.failed (.invalid e), p)
  | .ok checked =>
    match Allowance.start? p.now request.deadline resolver.config.accessorTimeout with
    | none => (.panicked, p)
    | some allowance =>
      let (ending, p) := (checked.program resolver).run world allowance p
      (.ofRun ending, p)

end Resolver

end BuildPlan

import BuildPlan.CommandLine.Basic
import BuildPlan.Files
import BuildPlan.Report
import BuildPlan.Resolution

/-! # Running commands

A request from the command line is answered over the universe of a snapshot. The configuration is
looked at before the snapshot.
-/
namespace BuildPlan

inductive RunError where
  | config (error : ConfigError)
  | snapshot (error : UniverseError)
  | resolution (error : ResolveError)
  | panicked
deriving DecidableEq

namespace RunError

def message : RunError → String
  | config error => error.message
  | snapshot error => error.message
  | resolution error => error.message
  | panicked => "overflow when adding duration to instant"

end RunError

namespace Universe

def load (config : Config) (file : FileContent) : Except UniverseError Universe := do
  ofSnapshot config.skipDebuginfo (← Snapshot.load file)

/-- Answers one request, with those who may build each package. -/
def resolve (u : Universe) (config : Config) (request : Request) : Except RunError Resolution :=
  match ((Resolver.ofUniverse u config true).resolve u.world request ⟨[], 0⟩).1 with
  | .resolved result => return result
  | .failed error => throw (.resolution error)
  | .panicked => throw .panicked

end Universe

namespace Invocation

variable (i : Invocation)

/-- The path of the configuration, and whether it has to exist. -/
def configPath (h : Home) : String × Bool :=
  match i.config with
  | some path => (path, true)
  | none => (h.config, false)

def snapshotPath (h : Home) : String := i.snapshot.getD h.snapshot

/-- What a request prints, given what the files hold. -/
def answer (request : Request) (h : Home) (files : String → FileContent) :
    Except RunError String := do
  let (path, required) := i.configPath h
  let load := if required then Config.load else Config.loadOrDefault
  let config ← (load (files path)).mapError .config
  let u ← (Universe.load config (files (i.snapshotPath h))).mapError .snapshot
  return (← u.resolve config request).report i.json

end Invocation

end BuildPlan

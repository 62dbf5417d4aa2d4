import BuildPlan.Config.Record
import BuildPlan.Error

/-! # Files

What the program keeps in files, and where it looks for them. A configuration that does not exist is
the usual one; a snapshot has to be there.
-/
namespace BuildPlan

inductive FileContent where
  | missing
  | unreadable
  | bytes (content : ByteArray)

namespace FileContent

/-- The text of a file that holds one. -/
def text? : FileContent → Option String
  | bytes content => String.fromUTF8? content
  | _ => none

end FileContent

inductive ConfigError where
  | unreadable
  | malformed
deriving DecidableEq

namespace ConfigError

def message : ConfigError → String
  | unreadable => "The configuration cannot be read"
  | malformed => "The configuration is malformed"

end ConfigError

namespace Config

def load (file : FileContent) : Except ConfigError Config :=
  match file.text? with
  | none => throw .unreadable
  | some text =>
    match ofText? text with
    | none => throw .malformed
    | some config => return config

/-- The configuration of a file that need not exist. -/
def loadOrDefault (file : FileContent) : Except ConfigError Config :=
  match file with
  | .missing => return default
  | file => load file

end Config

namespace Snapshot

def load (file : FileContent) : Except UniverseError Snapshot :=
  match file.text? with
  | none => throw (.unavailable "the snapshot cannot be read")
  | some text =>
    match ofText? text with
    | none => throw (.malformed "the snapshot is not of the expected form")
    | some snapshot => return snapshot

end Snapshot

structure Home where
  path : String
deriving DecidableEq

namespace Home

def entry (directory name : String) : String :=
  if directory.isEmpty || directory.endsWith "/" then directory ++ name
  else directory ++ "/" ++ name

/-- The directory that is chosen, or else the usual one in the home directory of the user. The home
directory of the account stands in for one that is not set or empty. -/
def ofSettings? (chosen userHome accountHome : Option String) : Option Home :=
  match chosen with
  | some path => some ⟨path⟩
  | none =>
    (userHome.filter (!·.isEmpty) <|> accountHome).map fun path => ⟨entry path ".bdep"⟩

def config (h : Home) : String := entry h.path "config.toml"

def snapshot (h : Home) : String := entry h.path "universe.json"

end Home

end BuildPlan

import DiagramShare.Settings.DotEnv
import DiagramShare.Settings.Load

/-!
The start of the server. Settings come first, then the database, then the place for files, then the
address to listen at; the first of these that cannot be had ends the start.
-/
namespace DiagramShare

/-- What a start meets: variables, files, and what can be had of the machine. -/
structure Surroundings where
  environment : Settings.Environment
  file : String → Option String
  reachesDatabase : String → Bool
  makesDirectory : String → Bool
  listens : String → Nat → Bool

namespace Startup

inductive Failure where
  | settings (e : Settings.LoadFailure)
  | noDatabase
  | noStorage
  | noListener

def Failure.message : Failure → String
  | settings e => e.message
  | noDatabase => "failed to create database pool"
  | noStorage => "failed to initialize file storage"
  | noListener => "HTTP server failed"

def variableFile : String := ".env"

def withFile (environment : Settings.Environment) (content : Option String) :
    Settings.Environment :=
  match content with
  | some content => Settings.DotEnv.apply content environment
  | none => environment

def storageIsReady (s : Surroundings) (settings : Settings.Storage) : Bool :=
  match settings.driver with
  | .local => s.makesDirectory settings.localStorage.path
  | _ => true

/-- Starts the server, up to where it would answer requests. -/
def run (s : Surroundings) : Except Failure Settings := do
  let environment := withFile s.environment (s.file variableFile)
  let settings ← (Settings.load environment s.file).mapError .settings
  if !s.reachesDatabase settings.database.url then throw .noDatabase
  if !storageIsReady s settings.storage then throw .noStorage
  if !s.listens settings.server.host settings.server.port then throw .noListener
  return settings

end Startup

end DiagramShare

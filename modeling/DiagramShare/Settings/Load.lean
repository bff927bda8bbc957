import DiagramShare.Settings.Check
import DiagramShare.Settings.Environment
import DiagramShare.Settings.Json
import DiagramShare.Settings.Toml

/-!
Loading settings: first values, then a file, then the environment. What comes later wins, setting
by setting.
-/
namespace DiagramShare.Settings

open DiagramShare.Json

inductive LoadFailure where
  | unreadable
  | unusable (problems : List Problem)

def LoadFailure.message : LoadFailure → String
  | unreadable => "failed to load configuration"
  | unusable problems => problemText problems

def defaultPath : String := "config/diagramserver.toml"

def pathVariable : String := "DIAGRAMSERVER_CONFIG"

mutual

/-- Lays a value over another: tables are joined, all else is replaced. -/
def overlay : Value → Value → Value
  | base, .object upper =>
    match base with
    | .object entries => .object (overlayEntries entries upper)
    | _ => .object upper
  | _, upper => upper

def overlayEntry (entries : List (String × Value)) : String × Value → List (String × Value)
  | (key, v) =>
    let v := match entries.lookup key with
      | some old => overlay old v
      | none => v
    Value.insert key v entries

def overlayEntries (entries : List (String × Value)) : List (String × Value) →
    List (String × Value)
  | [] => entries
  | e :: rest => overlayEntries (overlayEntry entries e) rest

end

def ofValue? (v : Value) : Option Settings := (decode .settings v.reading).toOption

def overlayEnvironment (env : Environment) (v : Value) : Value :=
  env.foldl (fun v (name, text) =>
    match Environment.path? name with
    | some path => overlay v (Environment.nest (Environment.meaning text) path)
    | none => v) v

def fillIn (env : Environment) (s : Settings) : Settings :=
  let url := if s.database.url.isEmpty then
      (env.get? "DATABASE_URL").getD s.database.url else s.database.url
  let secret := if s.auth.secret.isEmpty then
      (env.get? "JWT_SECRET").getD s.auth.secret else s.auth.secret
  { s with
    database := { s.database with url := url }
    auth := { s.auth with secret := secret } }

def check (s : Settings) : Except LoadFailure Settings :=
  match problems s with
  | [] => .ok s
  | found => .error (.unusable found)

def load (env : Environment) (file : String → Option String) : Except LoadFailure Settings := do
  let path := (env.get? pathVariable).getD defaultPath
  let base ← match file path with
    | none => .ok (Value.object [])
    | some content =>
      match Toml.document? content with
      | some v => .ok v
      | none => .error .unreadable
  match ofValue? (overlayEnvironment env base) with
  | none => .error .unreadable
  | some s => check (fillIn env s)

end DiagramShare.Settings

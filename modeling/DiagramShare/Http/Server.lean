import DiagramShare.Http.Cors
import DiagramShare.Http.Endpoint
import DiagramShare.Http.Files

/-!
The server: a request finds its place by its path, an endpoint there by its method, and its answer
is then given the fields that the place and the settings ask for. Questions about later requests are
answered before all else, and bodies that announce to be too long are not read.
-/
namespace DiagramShare.Http

open DiagramShare.Service (World Store Conditions)
open DiagramShare.Text

def filesPath : String := "/storage"

inductive Place where
  | route (r : Route)
  | files (rest : Target)
  | nowhere

def belowFiles? (t : Target) : Option Target :=
  match dropStart? filesPath.toList t.path with
  | some [] => some { t with path := ['/'] }
  | some ('/' :: rest) => some { t with path := '/' :: rest }
  | _ => none

def place (s : Settings.Storage) (t : Target) : Place :=
  match Route.ofPath? t with
  | some r => .route r
  | none =>
    match s.driver, belowFiles? t with
    | .local, some rest => .files rest
    | _, _ => .nowhere

/-- The methods that an answer names, where the request has none of them. -/
def Place.allowed (p : Place) (method : Method) : Option (List Method) :=
  match p with
  | .route r => if r.methods.contains method then none else some r.methods
  | _ => none

def announcedLength? (headers : Headers) : Option Nat := do
  let text ← (headers.first? "content-length").bind visibleText?
  if text.startsWith "-" then failure
  let n ← (Integer.parse 0 18446744073709551615 text.toList).toOption
  return n.toNat

/-- The most bytes of a body that are read. None if the body announces to be longer. -/
def bodyLimit? (s : Settings.Server) (headers : Headers) : Option Nat :=
  match announcedLength? headers with
  | none => some s.bodyLimit
  | some n => if s.bodyLimit < n then none else some n

/-- An answer with the fields that the place and the settings ask for, and without its body where
only its head is asked for. -/
def finish (method : Method) (allowed : Option (List Method)) (cors : Headers) (r : Response) :
    Response :=
  let allow : Headers := match allowed with
    | some methods => CorsPolicy.fields [("allow", ",".intercalate (methods.map Method.name))]
    | none => []
  ⟨r.status, r.headers ++ cors ++ allow, if method = .head then [] else r.body⟩

def respond (s : Store σ) (c : Conditions) (settings : Settings) (r : Request) (w : World σ) :
    World σ × Response × List LogRecord :=
  match place settings.storage r.target with
  | .nowhere => (w, .bare 404, [])
  | .files rest => (w, Files.respond w.backend.disk r.method rest r.headers, [])
  | .route route =>
    if route.methods.contains r.method then
      match (endpoint ⟨settings, r⟩ route r.method).run s c w with
      | (w, .ok response, records) => (w, response, records)
      | (w, .error e, records) => (w, .ofFailure e, records ++ failureRecords e)
    else (w, .bare 405, [])

def answer (s : Store σ) (c : Conditions) (settings : Settings) (r : Request) (w : World σ) :
    World σ × Response × List LogRecord :=
  let policy := CorsPolicy.ofSettings settings.cors
  let allowed := (place settings.storage r.target).allowed r.method
  if r.method = .options then
    (w, finish r.method allowed (policy.preflight r.headers) (.bare 200), [])
  else
    let (w, response, records) := match bodyLimit? settings.server r.headers with
      | none => (w, Response.plain 413 Body.limitText, [])
      | some limit => respond s c settings { r with body := r.body.limited limit } w
    (w, finish r.method allowed (policy.answerFields r.headers) response, records)

def setUpRecords (s : Settings) : List LogRecord :=
  let serving : List LogRecord := match s.storage.driver with
    | .local => [⟨.info, s!"Serving local storage from {s.storage.localStorage.path}"⟩]
    | _ => []
  serving ++ CorsPolicy.records s.cors

end DiagramShare.Http

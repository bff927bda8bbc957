/-!
Settings of the server. Every setting has a value from the start; files and the environment replace
some of them.
-/
namespace DiagramShare.Settings

structure Server where
  name : String := "diagramserver"
  host : String := "0.0.0.0"
  port : Nat := 8000
  bodyLimit : Nat := 10485760

structure Database where
  url : String := ""
  maxConnections : Nat := 10

structure Logger where
  level : String := "info"

structure Auth where
  secret : String := ""
  issuer : Option String := none
  cookieName : String := "auth_token"

structure Cors where
  allowedOrigins : List String := []

inductive Driver where
  | local
  | ftp
  | s3
  deriving DecidableEq, Repr

namespace Driver

def name : Driver → String
  | .local => "local"
  | ftp => "ftp"
  | s3 => "s3"

def ofName? (s : String) : Option Driver :=
  if s = "local" then some .local
  else if s = "ftp" then some ftp
  else if s = "s3" then some s3
  else none

end Driver

structure LocalStorage where
  path : String := "./storage"
  publicUrl : String := "http://localhost:8000/storage"

structure Sftp where
  host : String := ""
  port : Nat := 22
  user : String := ""
  password : String := ""
  baseDir : String := "/upload"
  publicUrl : String := ""

structure S3 where
  endpoint : String := ""
  accessKey : String := ""
  secretKey : String := ""
  bucket : String := ""
  region : String := "us-east-1"
  useSsl : Bool := true

structure Storage where
  driver : Driver := .local
  uploadTimeout : Nat := 60
  localStorage : LocalStorage := {}
  sftp : Sftp := {}
  s3 : S3 := {}

end DiagramShare.Settings

namespace DiagramShare

structure Settings where
  server : Settings.Server := {}
  database : Settings.Database := {}
  logger : Settings.Logger := {}
  auth : Settings.Auth := {}
  cors : Settings.Cors := {}
  storage : Settings.Storage := {}

end DiagramShare

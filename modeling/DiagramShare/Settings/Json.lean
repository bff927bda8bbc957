import DiagramShare.Json.Decode
import DiagramShare.Json.Value
import DiagramShare.Settings.Basic

/-!
Settings as JSON. Sections and single settings may be left out; what is left out has its first
value.
-/
namespace DiagramShare.Settings

open DiagramShare.Json DiagramShare.Json.Decode

def texts : Decoder (List String)
  | o, .array vs => go o 0 vs
  | _, r => reject "a sequence" r
where
  /-- The texts from the `n`-th on. -/
  go (o : Origin) (n : Nat) : List Reading → Except Fault (List String)
    | [] => .ok []
    | .broken :: _ => .error .malformed
    | v :: rest => do
      let s ← (string o v).mapError (Fault.under (.index n))
      let more ← go o (n + 1) rest
      return s :: more

def Driver.decode : Decoder Driver := choice ["local", "ftp", "s3"] Driver.ofName?

def u16 : Decoder Nat := natural 16 "u16"
def u32 : Decoder Nat := natural 32 "u32"
def u64 : Decoder Nat := natural 64 "u64"
def usize : Decoder Nat := natural 64 "usize"

def Server.decode : Decoder Server := fun o r => do
  let shape : Shape := ⟨"struct ServerConfig", [
    omissible "name" string, omissible "host" string, omissible "port" u16,
    omissible "body_limit_bytes" usize]⟩
  let parts ← shape.parts o r
  let base : Server := {}
  return {
    name := ← parts.withDefault "name" string base.name
    host := ← parts.withDefault "host" string base.host
    port := ← parts.withDefault "port" u16 base.port
    bodyLimit := ← parts.withDefault "body_limit_bytes" usize base.bodyLimit }

def Database.decode : Decoder Database := fun o r => do
  let shape : Shape := ⟨"struct DatabaseConfig", [
    omissible "url" string, omissible "max_connections" u32]⟩
  let parts ← shape.parts o r
  let base : Database := {}
  return {
    url := ← parts.withDefault "url" string base.url
    maxConnections := ← parts.withDefault "max_connections" u32 base.maxConnections }

def Logger.decode : Decoder Logger := fun o r => do
  let shape : Shape := ⟨"struct LoggerConfig", [omissible "level" string]⟩
  let parts ← shape.parts o r
  let base : Logger := {}
  return { level := ← parts.withDefault "level" string base.level }

def Auth.decode : Decoder Auth := fun o r => do
  let shape : Shape := ⟨"struct AuthConfig", [
    omissible "jwt_secret" string, omissible "issuer" (nullable string),
    omissible "cookie_name" string]⟩
  let parts ← shape.parts o r
  let base : Auth := {}
  return {
    secret := ← parts.withDefault "jwt_secret" string base.secret
    issuer := ← parts.optional "issuer" string
    cookieName := ← parts.withDefault "cookie_name" string base.cookieName }

def Cors.decode : Decoder Cors := fun o r => do
  let shape : Shape := ⟨"struct CorsConfig", [omissible "allowed_origins" texts]⟩
  let parts ← shape.parts o r
  let base : Cors := {}
  return { allowedOrigins := ← parts.withDefault "allowed_origins" texts base.allowedOrigins }

def LocalStorage.decode : Decoder LocalStorage := fun o r => do
  let shape : Shape := ⟨"struct LocalStorageConfig", [
    omissible "path" string, omissible "public_url" string]⟩
  let parts ← shape.parts o r
  let base : LocalStorage := {}
  return {
    path := ← parts.withDefault "path" string base.path
    publicUrl := ← parts.withDefault "public_url" string base.publicUrl }

def Sftp.decode : Decoder Sftp := fun o r => do
  let shape : Shape := ⟨"struct SftpConfig", [
    omissible "host" string, omissible "port" u16, omissible "user" string,
    omissible "password" string, omissible "base_dir" string, omissible "public_url" string]⟩
  let parts ← shape.parts o r
  let base : Sftp := {}
  return {
    host := ← parts.withDefault "host" string base.host
    port := ← parts.withDefault "port" u16 base.port
    user := ← parts.withDefault "user" string base.user
    password := ← parts.withDefault "password" string base.password
    baseDir := ← parts.withDefault "base_dir" string base.baseDir
    publicUrl := ← parts.withDefault "public_url" string base.publicUrl }

def S3.decode : Decoder S3 := fun o r => do
  let shape : Shape := ⟨"struct S3Config", [
    omissible "endpoint" string, omissible "access_key" string, omissible "secret_key" string,
    omissible "bucket" string, omissible "region" string, omissible "use_ssl" boolean]⟩
  let parts ← shape.parts o r
  let base : S3 := {}
  return {
    endpoint := ← parts.withDefault "endpoint" string base.endpoint
    accessKey := ← parts.withDefault "access_key" string base.accessKey
    secretKey := ← parts.withDefault "secret_key" string base.secretKey
    bucket := ← parts.withDefault "bucket" string base.bucket
    region := ← parts.withDefault "region" string base.region
    useSsl := ← parts.withDefault "use_ssl" boolean base.useSsl }

def Storage.decode : Decoder Storage := fun o r => do
  let shape : Shape := ⟨"struct StorageConfig", [
    omissible "driver" Driver.decode, omissible "upload_timeout_secs" u64,
    omissible "local" LocalStorage.decode, omissible "ftp" Sftp.decode,
    omissible "s3" S3.decode]⟩
  let parts ← shape.parts o r
  let base : Storage := {}
  return {
    driver := ← parts.withDefault "driver" Driver.decode base.driver
    uploadTimeout := ← parts.withDefault "upload_timeout_secs" u64 base.uploadTimeout
    localStorage := ← parts.withDefault "local" LocalStorage.decode base.localStorage
    sftp := ← parts.withDefault "ftp" Sftp.decode base.sftp
    s3 := ← parts.withDefault "s3" S3.decode base.s3 }

def decode : Decoder Settings := fun o r => do
  let shape : Shape := ⟨"struct AppConfig", [
    omissible "server" Server.decode, omissible "database" Database.decode,
    omissible "logger" Logger.decode, omissible "auth" Auth.decode,
    omissible "cors" Cors.decode, omissible "storage" Storage.decode]⟩
  let parts ← shape.parts o r
  let base : Settings := {}
  return {
    server := ← parts.withDefault "server" Server.decode base.server
    database := ← parts.withDefault "database" Database.decode base.database
    logger := ← parts.withDefault "logger" Logger.decode base.logger
    auth := ← parts.withDefault "auth" Auth.decode base.auth
    cors := ← parts.withDefault "cors" Cors.decode base.cors
    storage := ← parts.withDefault "storage" Storage.decode base.storage }

def toValue (s : Settings) : Value :=
  .object [
    ("server", .object [
      ("name", .string s.server.name), ("host", .string s.server.host),
      ("port", .nat s.server.port), ("body_limit_bytes", .nat s.server.bodyLimit)]),
    ("database", .object [
      ("url", .string s.database.url), ("max_connections", .nat s.database.maxConnections)]),
    ("logger", .object [("level", .string s.logger.level)]),
    ("auth", .object [
      ("jwt_secret", .string s.auth.secret), ("issuer", .optional .string s.auth.issuer),
      ("cookie_name", .string s.auth.cookieName)]),
    ("cors", .object [
      ("allowed_origins", .array (s.cors.allowedOrigins.map .string))]),
    ("storage", .object [
      ("driver", .string s.storage.driver.name),
      ("upload_timeout_secs", .nat s.storage.uploadTimeout),
      ("local", .object [
        ("path", .string s.storage.localStorage.path),
        ("public_url", .string s.storage.localStorage.publicUrl)]),
      ("ftp", .object [
        ("host", .string s.storage.sftp.host), ("port", .nat s.storage.sftp.port),
        ("user", .string s.storage.sftp.user), ("password", .string s.storage.sftp.password),
        ("base_dir", .string s.storage.sftp.baseDir),
        ("public_url", .string s.storage.sftp.publicUrl)]),
      ("s3", .object [
        ("endpoint", .string s.storage.s3.endpoint),
        ("access_key", .string s.storage.s3.accessKey),
        ("secret_key", .string s.storage.s3.secretKey),
        ("bucket", .string s.storage.s3.bucket), ("region", .string s.storage.s3.region),
        ("use_ssl", .boolean s.storage.s3.useSsl)])])]

end DiagramShare.Settings

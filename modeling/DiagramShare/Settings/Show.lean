import DiagramShare.Settings.Basic
import DiagramShare.Settings.DatabaseUrl
import DiagramShare.Text.Quoted

/-!
Settings as text for the log. Secrets are shown as asterisks.
-/
namespace DiagramShare.Settings

open DiagramShare.Text (quoted)

def recordText (name : String) (fields : List (String × String)) : String :=
  name ++ " \x7b " ++ ", ".intercalate (fields.map fun (field, shown) => field ++ ": " ++ shown) ++
    " \x7d"

def listText (items : List String) : String := "[" ++ ", ".intercalate (items.map quoted) ++ "]"

def optionalText : Option String → String
  | none => "None"
  | some s => "Some(" ++ quoted s ++ ")"

def boolText (b : Bool) : String := if b then "true" else "false"

def hidden : String := quoted "***"

def Driver.label : Driver → String
  | .local => "Local"
  | .ftp => "Ftp"
  | .s3 => "S3"

def Storage.text (s : Storage) : String :=
  recordText "StorageConfig" [
    ("driver", s.driver.label), ("upload_timeout_secs", toString s.uploadTimeout),
    ("local", recordText "LocalStorageConfig" [
      ("path", quoted s.localStorage.path), ("public_url", quoted s.localStorage.publicUrl)]),
    ("ftp", recordText "SftpConfig" [
      ("host", quoted s.sftp.host), ("port", toString s.sftp.port),
      ("user", quoted s.sftp.user), ("password", hidden), ("base_dir", quoted s.sftp.baseDir),
      ("public_url", quoted s.sftp.publicUrl)]),
    ("s3", recordText "S3Config" [
      ("endpoint", quoted s.s3.endpoint), ("access_key", quoted s.s3.accessKey),
      ("secret_key", hidden), ("bucket", quoted s.s3.bucket), ("region", quoted s.s3.region),
      ("use_ssl", boolText s.s3.useSsl)])]

def text (s : Settings) : String :=
  recordText "AppConfig" [
    ("server", recordText "ServerConfig" [
      ("name", quoted s.server.name), ("host", quoted s.server.host),
      ("port", toString s.server.port), ("body_limit_bytes", toString s.server.bodyLimit)]),
    ("database", recordText "DatabaseConfig" [
      ("url", quoted (redactDatabaseUrl s.database.url)),
      ("max_connections", toString s.database.maxConnections)]),
    ("logger", recordText "LoggerConfig" [("level", quoted s.logger.level)]),
    ("auth", recordText "AuthConfig" [
      ("jwt_secret", hidden), ("issuer", optionalText s.auth.issuer),
      ("cookie_name", quoted s.auth.cookieName)]),
    ("cors", recordText "CorsConfig" [("allowed_origins", listText s.cors.allowedOrigins)]),
    ("storage", s.storage.text)]

end DiagramShare.Settings

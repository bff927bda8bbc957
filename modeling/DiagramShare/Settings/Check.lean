import DiagramShare.Settings.Basic

/-!
Whether settings can be used. All problems are reported at once, in the order of the sections; of
the storage drivers only the chosen one counts.
-/
namespace DiagramShare.Settings

inductive Problem where
  | missing (setting : String)
  | notPositive (setting : String)
  | noPort (setting : String)
  | noDatabase
  | foreignDatabase
  | shortSecret
  | missingFor (driver : Driver) (setting : String)
  deriving DecidableEq

def Problem.message : Problem → String
  | missing setting => s!"{setting} is required"
  | notPositive setting => s!"{setting} must be greater than zero"
  | noPort setting => s!"{setting} must be a non-zero port number"
  | noDatabase => "database.url is required (or set DATABASE_URL)"
  | foreignDatabase => "database.url must be a postgres:// connection string"
  | shortSecret => "auth.jwt_secret should be at least 32 characters"
  | missingFor driver setting => s!"{setting} when storage driver is '{driver.name}'"

def problemIf (bad : Bool) (problem : Problem) : List Problem := if bad then [problem] else []

def Storage.driverProblems (s : Storage) : List Problem :=
  let lacks (value setting : String) : List Problem :=
    problemIf value.isEmpty (.missingFor s.driver s!"{setting} is required")
  match s.driver with
  | .local =>
    lacks s.localStorage.path "storage.local.path" ++
      lacks s.localStorage.publicUrl "storage.local.public_url"
  | .ftp =>
    lacks s.sftp.host "storage.ftp.host" ++
      problemIf (s.sftp.port == 0) (.noPort "storage.ftp.port") ++
      lacks s.sftp.user "storage.ftp.user" ++ lacks s.sftp.publicUrl "storage.ftp.public_url"
  | .s3 =>
    lacks s.s3.endpoint "storage.s3.endpoint" ++ lacks s.s3.bucket "storage.s3.bucket" ++
      problemIf (s.s3.accessKey.isEmpty || s.s3.secretKey.isEmpty)
        (.missingFor s.driver "storage.s3.access_key and secret_key are required")

def problems (s : Settings) : List Problem :=
  let url := s.database.url
  problemIf s.server.name.isEmpty (.missing "server.name") ++
    problemIf (s.server.port == 0) (.noPort "server.port") ++
    problemIf (s.server.bodyLimit == 0) (.notPositive "server.body_limit_bytes") ++
    (if url.isEmpty then [.noDatabase]
      else problemIf (!(url.startsWith "postgres://" || url.startsWith "postgresql://"))
        .foreignDatabase) ++
    problemIf (s.database.maxConnections == 0) (.notPositive "database.max_connections") ++
    problemIf (s.auth.secret.utf8ByteSize < 32) .shortSecret ++
    problemIf (s.storage.uploadTimeout == 0) (.notPositive "storage.upload_timeout_secs") ++
    s.storage.driverProblems

def problemText (ps : List Problem) : String :=
  "configuration validation failed:\n  - " ++ "\n  - ".intercalate (ps.map Problem.message)

end DiagramShare.Settings

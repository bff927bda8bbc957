import DiagramShare.Text.Split

/-!
Database addresses as the log shows them. What stands between the scheme and the last at sign is
replaced by asterisks, so that the shown text does not depend on user and password.
-/
namespace DiagramShare.Settings

open DiagramShare.Text

/-- The address without the user and password that precede its last at sign. -/
def redactDatabaseUrl (url : String) : String :=
  match breakOn? [':', '/', '/'] url.toList with
  | none => url
  | some (scheme, rest) =>
    match splitLast? (· == '@') rest with
    | none => url
    | some (_, host) => String.ofList (scheme ++ "://***@".toList ++ host)

end DiagramShare.Settings

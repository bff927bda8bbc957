import DiagramShare.Storage.Backend

/-!
What can be asked of a storage, with the types of the answers.
-/
namespace DiagramShare.Storage

inductive Call : Type → Type where
  | upload (key : String) (content : Content) : Call String
  | delete (key : String) : Call Unit
  | open_ (key : String) : Call (Except Failure Bytes)
  | size (key : String) : Call Nat
  | url (key : String) : Call String
  | driver : Call Settings.Driver

/-- Answers a call. The number makes the name of a staging file. -/
def Backend.answer (number : Nat) : Call α → Backend →
    Backend × Except Failure α × List LogRecord
  | .upload key content, b => b.upload key number content
  | .delete key, b =>
    let (b, result) := b.delete key
    (b, result, [])
  | .open_ key, b => (b, b.open_ key, [])
  | .size key, b => (b, b.size key, [])
  | .url key, b => (b, b.url key, [])
  | .driver, b => (b, .ok b.driver, [])

end DiagramShare.Storage

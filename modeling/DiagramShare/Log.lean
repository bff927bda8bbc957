/-!
Log records.
-/
namespace DiagramShare

inductive Level where
  | debug
  | info
  | warn
  | error
  deriving DecidableEq, Repr

def Level.name : Level → String
  | debug => "debug"
  | info => "info"
  | warn => "warn"
  | error => "error"

structure LogRecord where
  level : Level
  text : String
  deriving DecidableEq

end DiagramShare

/-!
# Log records

Operations that report on the side return the records beside their result, in the order they arose.
-/
namespace CilRelink

/-- How urgent a record is. -/
inductive Severity where
  | warn
  | debug
  | trace
deriving DecidableEq

/-- The word a record opens with. -/
def Severity.word : Severity → String
  | .warn => "WARN"
  | .debug => "DEBUG"
  | .trace => "TRACE"

/-- One message of a log. -/
structure LogRecord where
  severity : Severity
  message : String
deriving DecidableEq

/-- The record as a line. -/
def LogRecord.line (record : LogRecord) : String := record.severity.word ++ ": " ++ record.message

end CilRelink

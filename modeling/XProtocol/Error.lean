/-! The error type every fallible function of the crate returns, and the answer of
one that runs under a timer. -/
namespace XProtocol

inductive ProtocolError where
  | connectionFailed (text : String)
  | connectionClosed
  | timeout
  | invalidMessage (text : String)
  | notFound (text : String)
  | protocol (text : String)
  | encoding (text : String)
  | resourceExhausted (text : String)
  | server (text : String)
  deriving DecidableEq, Repr

/-- `From<std::io::Error>`: every I/O error, an end of file included, is a failed
connection; none becomes `connectionClosed`. -/
def ProtocolError.ofIo (text : String) : ProtocolError := .connectionFailed text

/-- `From<serde_json::Error>`. -/
def ProtocolError.ofJson (text : String) : ProtocolError := .encoding text

abbrev Result (α : Type) := Except ProtocolError α

/-- The answer of an operation under `tokio::time::timeout`. -/
inductive Timed (α : Type) where
  | inTime (a : α)
  | elapsed

end XProtocol

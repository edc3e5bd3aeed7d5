/-!
# Errors

Why an operation gave no result. An `Error` is a cause the program reports: it has a text
(`Error.message`) and belongs to one of the categories a process can end with (`Error.exitCode`).
Besides, a whole-number computation can leave the range of its words; that is no cause anybody
asked about, so it is kept apart as `Fault.overflow`.
-/

set_option autoImplicit false

namespace CriticalSection

/-- The name under which a process takes part. Names are ordered by their code points. -/
abbrev ProcessId := String

/-! ## Failures of files and connections -/

/-- What an operating system says when a file or a connection cannot be used. -/
inductive SystemFailure
  | notFound
  | permissionDenied
  | notADirectory
  | isADirectory
  | alreadyExists
  | invalidData
  | invalidInput
  | invalidFilename
  | connectionRefused
  | networkUnreachable
  | unexpectedEof
  /-- A failure of which only the description is known. -/
  | described (text : String)
  deriving DecidableEq, Repr

/-- The description of a failure. -/
def SystemFailure.text : SystemFailure → String
  | .notFound => "No such file or directory (os error 2)"
  | .permissionDenied => "Permission denied (os error 13)"
  | .notADirectory => "Not a directory (os error 20)"
  | .isADirectory => "Is a directory (os error 21)"
  | .alreadyExists => "File exists (os error 17)"
  | .invalidData => "stream did not contain valid UTF-8"
  | .invalidInput => "file name contained an unexpected NUL byte"
  | .invalidFilename => "File name too long (os error 36)"
  | .connectionRefused => "Connection refused (os error 111)"
  | .networkUnreachable => "Network is unreachable (os error 101)"
  | .unexpectedEof => "connection closed before reply"
  | .described text => text

/-! ## Causes -/

/-- The causes an operation can report. -/
inductive Error
  /-- The process is not subscribed on the coordinator that was asked. -/
  | nodeNotFound (process : ProcessId)
  /-- No known broker hosts the process. -/
  | unroutable (process : ProcessId)
  /-- The connection to an endpoint failed. -/
  | peerUnreachable (endpoint : String) (cause : SystemFailure)
  /-- The other side answered with a failure of its own. -/
  | remote (message : String)
  /-- An operation failed as often in a row as it was allowed to. -/
  | maxRetriesExceeded (operation : String) (attempts : UInt32)
  /-- A waiting call was ended before what it waited for came about. -/
  | interrupted (operation : String)
  /-- The caller withdrew. -/
  | cancelled (operation : String)
  /-- A file could not be used. -/
  | file (path : String) (cause : SystemFailure)
  /-- A line of a log breaks the form of a record. -/
  | logFormat (line : Nat) (reason : String)
  /-- A configuration is not well formed. -/
  | config (path : String) (reason : String)
  /-- A message or an estimate is not well formed. -/
  | codec (reason : String)
  /-- A time server gave no usable answer. -/
  | sntp (server : String) (message : String)
  deriving DecidableEq, Repr

namespace Error

/-- **The text of an error**, as it is shown and sent. -/
def message : Error → String
  | nodeNotFound process => "node '" ++ process ++ "' is not subscribed"
  | unroutable process => "no endpoint hosts process '" ++ process ++ "'"
  | peerUnreachable endpoint cause => "peer " ++ endpoint ++ " unreachable: " ++ cause.text
  | remote text => "remote error: " ++ text
  | maxRetriesExceeded operation attempts =>
    "max retries exceeded for " ++ operation ++ ": " ++ toString attempts.toNat ++ " attempts"
  | interrupted operation => "interrupted while waiting in " ++ operation
  | cancelled operation => operation ++ " cancelled"
  | file path cause => "io error on " ++ path ++ ": " ++ cause.text
  | logFormat line reason =>
    "malformed log record at line " ++ toString line ++ ": " ++ reason
  | config path reason => "invalid configuration in " ++ path ++ ": " ++ reason
  | codec reason => "codec error: " ++ reason
  | sntp server text => "sntp query against " ++ server ++ " failed: " ++ text

/-- **The exit code of an error**: 2 for a configuration that cannot work, 3 for the network,
4 for files and logs, 5 for an unknown process, 6 for a wait that was given up. -/
def exitCode : Error → Nat
  | config .. | unroutable .. => 2
  | peerUnreachable .. | maxRetriesExceeded .. | remote .. | sntp .. | codec .. => 3
  | file .. | logFormat .. => 4
  | nodeNotFound .. => 5
  | interrupted .. | cancelled .. => 6

end Error

/-! ## Outcomes -/

/-- Why there is no result: a cause, or whole-number arithmetic that left its range. -/
inductive Fault
  | error (cause : Error)
  | overflow
  deriving DecidableEq, Repr

/-- The result of an operation, or why there is none. -/
abbrev Outcome (α : Type) := Except Fault α

/-- An outcome without a result, for a known cause. -/
def fail {α : Type} (cause : Error) : Outcome α := .error (.error cause)

/-- An outcome without a result, because a computation left its range. -/
def overflowed {α : Type} : Outcome α := .error .overflow

end CriticalSection

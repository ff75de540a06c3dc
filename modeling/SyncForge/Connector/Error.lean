import Mathlib.Logic.Basic

/-!
# `Connector.Error` — connector errors and their classification

`internal/connectors`: the kinds a provider failure is sorted into, the Go `error` values that travel
through the worker, `Classify` and `ShouldRetry`. The three shapes of a Go error here are a typed connector
error, the store's `ErrNotFound` sentinel (compared with `errors.Is`), and any other error, of which the
code only ever reads the text.
-/

namespace SyncForge

abbrev Duration := Int
abbrev Time := Int

inductive ErrorKind where
  | transient | permanent | rateLimited | auth | schema | conflict | notFound | unknown
deriving DecidableEq, Repr

def ErrorKind.string : ErrorKind → String
  | .transient => "TRANSIENT"
  | .permanent => "PERMANENT"
  | .rateLimited => "RATE_LIMITED"
  | .auth => "AUTHENTICATION"
  | .schema => "SCHEMA_ERROR"
  | .conflict => "CONFLICT"
  | .notFound => "NOT_FOUND"
  | .unknown => "UNKNOWN"

/-- `connectors.Error`; `err` is the text of the wrapped error, when there is one. -/
structure ConnectorError where
  kind : ErrorKind
  message : String
  retryAfter : Duration := 0
  err : Option String := none
deriving DecidableEq, Repr

def ConnectorError.error (e : ConnectorError) : String :=
  match e.err with
  | some inner => e.kind.string ++ ": " ++ e.message ++ ": " ++ inner
  | none => e.kind.string ++ ": " ++ e.message

/-- A Go `error` value. -/
inductive GoError where
  | connector (e : ConnectorError)
  | notFound
  | plain (text : String)
deriving DecidableEq, Repr

namespace GoError

def error : GoError → String
  | .connector e => e.error
  | .notFound => "not found"
  | .plain text => text

/-- `connectors.NewError(kind, msg, nil)`. -/
def newError (kind : ErrorKind) (message : String) : GoError :=
  .connector { kind, message }

/-- `connectors.Classify` on a non-nil error: only a connector error carries a kind and a hint. -/
def classify : GoError → ErrorKind × Duration
  | .connector e => (e.kind, e.retryAfter)
  | .notFound => (.unknown, 0)
  | .plain _ => (.unknown, 0)

def isKind : GoError → ErrorKind → Bool
  | .connector e, kind => e.kind == kind
  | .notFound, _ => false
  | .plain _, _ => false

end GoError

def ErrorKind.shouldRetry : ErrorKind → Bool
  | .transient | .rateLimited | .conflict | .notFound | .unknown => true
  | .permanent | .auth | .schema => false

end SyncForge

/-
Answers of the web application: responses, the throwables that end a request without one, and `toResponse`, which turns
a throwable into a response.

- `toResponse_status`: a throwable is answered 500 unless it is a web application exception or a JSON error. A storage
  failure that nobody translates is therefore an internal error.
-/
import BankServices.Storage.Statements

namespace BankServices.Webapp

open BankServices.Storage

inductive Status where
  | OK
  | NOT_MODIFIED
  | BAD_REQUEST
  | CONFLICT
  | INTERNAL_SERVER_ERROR
deriving DecidableEq, Repr

namespace Status

def getStatusCode : Status → ℕ
  | .OK => 200
  | .NOT_MODIFIED => 304
  | .BAD_REQUEST => 400
  | .CONFLICT => 409
  | .INTERNAL_SERVER_ERROR => 500

def getReasonPhrase : Status → String
  | .OK => "OK"
  | .NOT_MODIFIED => "Not Modified"
  | .BAD_REQUEST => "Bad Request"
  | .CONFLICT => "Conflict"
  | .INTERNAL_SERVER_ERROR => "Internal Server Error"

end Status

inductive MediaType where
  | TEXT_PLAIN
  | APPLICATION_JSON
deriving DecidableEq, Repr

inductive Entity where
  | text (s : String)
  | account (a : Account)
  /-- the printed stack trace of a throwable -/
  | stackTrace

structure Response where
  status : Status
  type : Option MediaType
  entity : Option Entity

inductive Throwable where
  | webApplicationException (response : Response)
  /-- Jackson's message and, when known, the line and column of the error -/
  | jsonProcessingException (originalMessage : String) (location : Option (ℕ × ℕ))
  | dataAccessException (e : DataAccessException)
  | illegalStateException (message : String)
  | nullPointerException

/-- the message that JAX-RS gives an exception made of a response alone -/
def statusMessage (s : Status) : String := "HTTP " ++ toString s.getStatusCode ++ " " ++ s.getReasonPhrase

namespace ThrowableExceptionMapper

/-- the overload that puts details into a response of a given status -/
def toResponseOf (status : Status) (details : Entity) : Response := ⟨status, some .TEXT_PLAIN, some details⟩

def toResponse : Throwable → Response
  | .webApplicationException existing =>
    match existing.entity with
    | some _ => existing
    | none => toResponseOf existing.status (.text (statusMessage existing.status))
  | .jsonProcessingException msg location =>
    match location with
    | some (line, col) =>
      toResponseOf .BAD_REQUEST (.text (msg ++ " [line " ++ toString line ++ ", col " ++ toString col ++ "]"))
    | none => toResponseOf .BAD_REQUEST (.text msg)
  | _ => toResponseOf .INTERNAL_SERVER_ERROR .stackTrace

theorem toResponse_status (t : Throwable) : (toResponse t).status =
    match t with
    | .webApplicationException existing => existing.status
    | .jsonProcessingException _ _ => .BAD_REQUEST
    | _ => .INTERNAL_SERVER_ERROR := by
  cases t with
  | webApplicationException existing =>
    obtain ⟨status, type, entity⟩ := existing
    cases entity <;> rfl
  | jsonProcessingException msg location => cases location <;> rfl
  | _ => rfl

end ThrowableExceptionMapper

/-- the response that the client receives -/
def answer : Except Throwable Response → Response
  | .ok r => r
  | .error t => ThrowableExceptionMapper.toResponse t

end BankServices.Webapp

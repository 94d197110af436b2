import InfraOperator.Text.Quoted

/-!
# Failures

Why a call, a step or a cycle did not succeed, the text of each cause, and which causes may go
away when the cycle is run again.
-/

set_option autoImplicit false

namespace InfraOperator

structure ApiStatus where
  status : String
  message : String
  reason : String
  code : Nat
  deriving DecidableEq, Repr

inductive ApiFailure where
  | refused (status : ApiStatus)
  | unreadableAnswer
  | invalidRequest
  | lineTooLong
  deriving DecidableEq, Repr

inductive Failure where
  | api (cause : ApiFailure)
  | validation (resource message : String)
  | serialization (message : String) (kind : Option String)
  | render (stage message : String)
  | cancelled
  | internal (context message : String)
  deriving DecidableEq, Repr

namespace Failure

def unknown : String := "unknown"

def refused (status : ApiStatus) : Failure := .api (.refused status)

def ofCode (code : Nat) : Failure :=
  let reason := if code = 404 then "NotFound" else if code = 409 then "Conflict" else "Unknown"
  refused ⟨"Failure", "status " ++ toString code, reason, code⟩

def notFound : Failure := ofCode 404
def conflict : Failure := ofCode 409

def code? : Failure → Option Nat
  | .api (.refused status) => some status.code
  | _ => none

def isNotFound (f : Failure) : Bool := f.code? = some 404

def isConflict (f : Failure) : Bool := f.code? = some 409

/-- Refusals are final from 400 up to below 500, but for conflicts and throttling; what needs
another specification is final as well. -/
def isRetryable : Failure → Bool
  | .api (.refused status) =>
    status.code = 409 || status.code = 429 || status.code < 400 || 500 ≤ status.code
  | .api _ => true
  | .validation .. => false
  | .serialization .. => false
  | .render .. => false
  | .cancelled => true
  | .internal .. => true

def context? : Failure → Option String
  | .internal context _ => some context
  | .render stage _ => some stage
  | _ => none

end Failure

def ApiStatus.details (s : ApiStatus) : String :=
  "ErrorResponse \x7b status: " ++ Text.quoted s.status ++ ", message: " ++
    Text.quoted s.message ++ ", reason: " ++ Text.quoted s.reason ++ ", code: " ++
    toString s.code ++ " \x7d"

def ApiFailure.message : ApiFailure → String
  | .refused s => "ApiError: " ++ s.message ++ ": " ++ s.reason ++ " (" ++ s.details ++ ")"
  | .unreadableAnswer => "Error deserializing response"
  | .invalidRequest => "Error building request"
  | .lineTooLong => "Error finding newline character"

def Failure.message : Failure → String
  | .api cause => "kubernetes error: " ++ cause.message
  | .validation resource message => "validation error for " ++ resource ++ ": " ++ message
  | .serialization message _ => "serialization error: " ++ message
  | .render stage message => "render error for stage " ++ stage ++ ": " ++ message
  | .cancelled => "reconciliation cancelled"
  | .internal context message => "internal error [" ++ context ++ "]: " ++ message

instance : ToString Failure := ⟨Failure.message⟩

abbrev Outcome (α : Type) := Except Failure α

instance {α : Type} [DecidableEq α] : DecidableEq (Outcome α)
  | .ok _, .ok _ => decidable_of_decidable_of_iff ⟨congrArg Except.ok, Except.ok.inj⟩
  | .error _, .error _ => decidable_of_decidable_of_iff ⟨congrArg Except.error, Except.error.inj⟩
  | .ok _, .error _ => .isFalse nofun
  | .error _, .ok _ => .isFalse nofun

end InfraOperator

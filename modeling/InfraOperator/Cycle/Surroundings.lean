import InfraOperator.Cycle.Program
import InfraOperator.Failure
import InfraOperator.Object.Meta

/-!
# Surroundings of a cycle

Whatever a cycle works on, it may call its store, read the clock, publish notices, take measures,
write log lines and wait. A cycle runs under a token that may be cancelled at any time: a request
of a step that has to wait for its answer may then never get one, while the requests that finish a
cycle always do.
-/

set_option autoImplicit false

namespace InfraOperator

structure Notice where
  object : ObjectReference
  warning : Bool
  reason : String
  action : String
  note : Option String
  deriving DecidableEq

inductive Measure where
  | reconcileFinished (kind outcome : String)
  | unitCreated (kind stage : String)
  | conditionTransitioned (kind condition reason : String)
  | revisionExpired (plan : String)
  deriving DecidableEq, Repr

inductive LogLevel where
  | debug
  | info
  | warn
  | error
  deriving DecidableEq, Repr

def LogLevel.text : LogLevel → String
  | .debug => "DEBUG"
  | .info => "INFO"
  | .warn => "WARN"
  | .error => "ERROR"

structure LogLine where
  level : LogLevel
  message : String
  fields : List (String × String) := []
  deriving DecidableEq, Repr

namespace Surroundings

inductive Request (S : Interface) where
  | store (call : S.Request)
  | clock
  | publish (notice : Notice)
  | measure (m : Measure)
  | log (line : LogLine)
  | wait (span : Span)

variable {S : Interface}

def Answer : Request S → Type
  | .store call => Outcome (S.Answer call)
  | .clock => Instant
  | .publish _ | .measure _ | .log _ | .wait _ => Unit

/-- The answer may take time to come. -/
def Request.suspends : Request S → Bool
  | .store _ | .publish _ | .wait _ => true
  | .clock | .measure _ | .log _ => false

end Surroundings

def Surroundings (S : Interface) : Interface :=
  ⟨Surroundings.Request S, Surroundings.Answer⟩

namespace Supervised

inductive Request (S : Interface) where
  /-- Whether the token is cancelled by now. -/
  | cancelled
  | plain (r : Surroundings.Request S)
  | watched (r : Surroundings.Request S)

def Answer {S : Interface} : Request S → Type
  | .cancelled => Bool
  | .plain r => Surroundings.Answer r
  | .watched r => Option (Surroundings.Answer r)

end Supervised

def Supervised (S : Interface) : Interface := ⟨Supervised.Request S, Supervised.Answer⟩

/-- Requests that note the state they are asked in. -/
def Interface.noting (I : Interface) (σ : Type) : Interface :=
  ⟨σ × I.Request, fun r => I.Answer r.2⟩

abbrev Staged (S : Interface) (σ : Type) :=
  StateT σ (Program ((Surroundings S).noting σ))

namespace Staged

variable {S : Interface} {σ α : Type}

def ask (r : Surroundings.Request S) : Staged S σ (Surroundings.Answer r) := fun s =>
  Program.ask (I := (Surroundings S).noting σ) (s, r) fun answer => .done (answer, s)

def call (r : S.Request) : Staged S σ (Outcome (S.Answer r)) := ask (.store r)

def clock : Staged S σ Instant := ask .clock

def publish (notice : Notice) : Staged S σ Unit := ask (.publish notice)

def measure (m : Measure) : Staged S σ Unit := ask (.measure m)

def log (level : LogLevel) (message : String) (fields : List (String × String)) :
    Staged S σ Unit :=
  ask (.log ⟨level, message, fields⟩)

/-- Runs under the token. When a request is given up there is no value, and the state is that in
which it was asked. -/
def watch : Program ((Surroundings S).noting σ) (α × σ) →
    Program (Supervised S) (Option α × σ)
  | .done (value, s) => .done (some value, s)
  | .ask (s, r) next =>
    if r.suspends then
      Program.ask (I := Supervised S) (.watched r) fun
        | none => .done (none, s)
        | some answer => watch (next answer)
    else
      Program.ask (I := Supervised S) (.plain r) fun answer => watch (next answer)

end Staged

namespace Supervised

variable {S : Interface} {α : Type}

def isCancelled : Program (Supervised S) Bool :=
  Program.request (I := Supervised S) .cancelled

def plain (r : Surroundings.Request S) : Program (Supervised S) (Surroundings.Answer r) :=
  Program.request (I := Supervised S) (.plain r)

def log (level : LogLevel) (message : String) (fields : List (String × String)) :
    Program (Supervised S) Unit :=
  plain (.log ⟨level, message, fields⟩)

def unwatched (p : Program (Surroundings S) α) : Program (Supervised S) α :=
  p.interpret fun r => plain r

def watch : Program (Surroundings S) α → Program (Supervised S) (Option α)
  | .done value => .done (some value)
  | .ask r next =>
    if r.suspends then
      Program.ask (I := Supervised S) (.watched r) fun
        | none => .done none
        | some answer => watch (next answer)
    else
      Program.ask (I := Supervised S) (.plain r) fun answer => watch (next answer)

end Supervised

end InfraOperator

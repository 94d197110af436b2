import InfraOperator.Api.Serving
import InfraOperator.Json.Printer

/-!
# Rehearsals over HTTP

An API server that answers as written down beforehand: with one answer after the other, or with
what belongs to a method and a path. It keeps the requests it was sent. A request for which there
is no answer is told that nothing was found.
-/

set_option autoImplicit false

namespace InfraOperator

structure Route where
  method : String
  path : String
  response : HttpResponse

structure Exchange where
  /-- Answers to be used once, in order. -/
  responses : List HttpResponse := []
  routes : List Route := []
  clock : Instant
  requests : List HttpRequest := []

namespace Exchange

def unscripted : HttpResponse :=
  ⟨404, (Json.object [("kind", .str "Status"), ("status", .str "Failure"),
    ("message", .str "not scripted"), ("reason", .str "NotFound"), ("code", .int 404)]).compact⟩

def isFor (route : Route) (r : HttpRequest) : Bool :=
  route.method = r.method.text && route.path = r.target.path

def respond (x : Exchange) (r : HttpRequest) : HttpResponse × Exchange :=
  let x := { x with requests := x.requests ++ [r] }
  match x.routes.find? (isFor · r) with
  | some route => (route.response, x)
  | none =>
    match x.responses with
    | response :: rest => (response, { x with responses := rest })
    | [] => (unscripted, x)

def serve : (r : Surroundings.Request Http) → Exchange → Surroundings.Answer r × Exchange
  | .store request, x =>
    let (response, x) := x.respond request
    (.ok response, x)
  | .clock, x => (x.clock, { x with clock := x.clock.advance .microsecond })
  | .publish _, x | .measure _, x | .log _, x | .wait _, x => ((), x)

def supervise : (r : Supervised.Request Http) → Exchange → Supervised.Answer r × Exchange
  | .cancelled, x => (false, x)
  | .plain r, x => serve r x
  | .watched r, x => (serve r x).map some id

variable {α : Type}

def run (c : Client α) (x : Exchange) : Outcome α × Exchange := Program.run serve c.run x

def publish (n : Notice) (recorder : Api.Recorder) (x : Exchange) : Api.Recorder × Exchange :=
  (recorder.publish n).run serve x

def cycle {S : Interface} (server : Api.Server S) (recorder : Api.Recorder)
    (p : Program (Supervised S) α) (x : Exchange) : α × Exchange :=
  let ((outcome, _), x) := ((Api.overHttp server p).run recorder).run supervise x
  (outcome, x)

end Exchange

end InfraOperator

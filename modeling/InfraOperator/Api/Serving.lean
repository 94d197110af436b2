import InfraOperator.Api.Events
import InfraOperator.Api.Revisions

/-!
# Cycles over the API server

A cycle asks its store and publishes notices; over the API server both become requests. A request
of a cycle that is given up gives up all the requests made for it.
-/

set_option autoImplicit false

namespace InfraOperator.Api

variable {S : Interface} {α : Type}

abbrev Server (S : Interface) := (call : S.Request) → Client (S.Answer call)

def configurationServer : Server ConfigurationStore := configurationCall

def revisionServer : Server RevisionStore := revisionCall

def pass (r : Surroundings.Request Http) :
    StateT Recorder (Program (Surroundings Http)) (Surroundings.Answer r) :=
  StateT.lift (Program.request (I := Surroundings Http) r)

def serve (server : Server S) : (r : Surroundings.Request S) →
    StateT Recorder (Program (Surroundings Http)) (Surroundings.Answer r)
  | .store call => StateT.lift (server call).run
  | .publish notice => fun recorder => do return ((), ← recorder.publish notice)
  | .clock => pass .clock
  | .measure m => pass (.measure m)
  | .log line => pass (.log line)
  | .wait span => pass (.wait span)

def superviseServing (server : Server S) : (r : Supervised.Request S) →
    StateT Recorder (Program (Supervised Http)) (Supervised.Answer r)
  | .cancelled => StateT.lift Supervised.isCancelled
  | .plain r => fun recorder => Supervised.unwatched ((serve server r).run recorder)
  | .watched r => fun recorder => do
    match ← Supervised.watch ((serve server r).run recorder) with
    | some (answer, recorder) => return (some answer, recorder)
    | none => return (none, recorder)

def overHttp (server : Server S) (p : Program (Supervised S) α) :
    StateT Recorder (Program (Supervised Http)) α :=
  p.interpret (superviseServing server)

end InfraOperator.Api

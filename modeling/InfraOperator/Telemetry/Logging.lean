import InfraOperator.Text.Quoted

/-!
# Logging

The shape of log lines, by name, and what telemetry starts from.
-/

set_option autoImplicit false

namespace InfraOperator

inductive LogFormat where
  /-- One JSON object per line. -/
  | json
  | text
  deriving DecidableEq, Repr

namespace LogFormat

def name : LogFormat → String
  | .json => "json"
  | .text => "text"

def ofName? (name : String) : Option LogFormat :=
  match String.ofList (name.toList.map Char.toLower) with
  | "json" => some .json
  | "text" => some .text
  | _ => none

def unknownMessage (name : String) : String :=
  "unknown log format " ++ Text.quoted name ++ ", expected \"json\" or \"text\""

end LogFormat

structure TelemetryConfig where
  serviceName : String := "terrace"
  /-- Where spans and measures are sent, if anywhere. -/
  otlpEndpoint : Option String := none
  logFormat : LogFormat := .json
  deriving DecidableEq

def TelemetryConfig.defaultFilter : String :=
  "info,terrace=debug,kube=info,tower=warn,hyper=warn"

end InfraOperator

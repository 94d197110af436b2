import InfraOperator.Dict
import InfraOperator.Settings
import InfraOperator.Telemetry.Logging
import InfraOperator.Text.Integer

/-!
# The command line

Options are read from left to right. A value that stands in the word after its option is taken up
only when the next option is met or the line ends, so a word that is no option is told of before a
value that does not read; a value that stands in one word with its option is taken up at once. An
option that was not given is read from its variable, in the order of the options.
-/

set_option autoImplicit false

namespace InfraOperator.CommandLine

structure Invocation where
  /-- Print the manifests and exit. -/
  crd : Bool := false
  logFormat : LogFormat := .json
  settings : Settings := {}
  deriving DecidableEq

inductive Refusal where
  | unknownArgument
  /-- A value is missing, or is not one of those there are. -/
  | invalidValue
  /-- A value does not read. -/
  | valueValidation
  /-- An option is given twice. -/
  | argumentConflict
  /-- A flag is given a value. -/
  | tooManyValues
  | displayHelp
  | displayVersion
  deriving DecidableEq, Repr

abbrev Change := Invocation → Invocation

structure Opt where
  name : String
  /-- The variable of the environment it may be read from. -/
  envName : Option String
  /-- Takes no value on the line. -/
  isFlag : Bool := false
  summary : String
  read : String → Except Refusal Change

def ofSettings (f : Settings → Settings) : Change := fun i => { i with settings := f i.settings }

def readBool : String → Except Refusal Bool
  | "true" => .ok true
  | "false" => .ok false
  | _ => .error .invalidValue

def readWith {α : Type} (value? : String → Option α) (text : String) : Except Refusal α :=
  match value? text with
  | some value => .ok value
  | none => .error .valueValidation

/-- Read as a signed number before the bounds are looked at. -/
def concurrency? (text : String) : Option Nat :=
  ((Text.readInt? .int64 text).bind Bounds.nat16.check).map Int.toNat

def seconds? (text : String) : Option Span := (Text.readNat? .nat64 text).map Span.ofSeconds

def textOption (name envName summary : String) (f : String → Settings → Settings) : Opt :=
  { name, envName := some envName, summary, read := fun text => .ok (ofSettings (f text)) }

def spanOption (name envName summary : String) (f : Span → Settings → Settings) : Opt :=
  { name, envName := some envName, summary
    read := fun text => (readWith seconds? text).map fun s => ofSettings (f s) }

def options : List Opt :=
  [{ name := "crd", envName := none, isFlag := true
     summary := "Generate CRD manifests and exit"
     read := fun text => (readBool text).map fun b i => { i with crd := b } },
    textOption "namespace" "TERRACE_NAMESPACE"
      "Namespace holding execution units and generated configuration"
      fun t s => { s with namespaceName := t },
    { name := "max-concurrency", envName := some "TERRACE_MAX_CONCURRENCY"
      summary := "Maximum concurrent reconciliations per kind"
      read := fun text => (readWith concurrency? text).map fun n =>
        ofSettings fun s => { s with maxConcurrency := n } },
    textOption "executor-image" "TERRACE_EXECUTOR_IMAGE" "Image running terraform"
      fun t s => { s with executorImage := t },
    textOption "policy-image" "TERRACE_POLICY_IMAGE" "Image running policy checks"
      fun t s => { s with policyImage := t },
    textOption "infracost-image" "TERRACE_INFRACOST_IMAGE" "Image running cost estimation"
      fun t s => { s with infracostImage := t },
    { name := "enable-cost-analysis", envName := some "TERRACE_ENABLE_COST_ANALYSIS"
      isFlag := true
      summary := "Add cost estimation to plan units"
      read := fun text => (readBool text).map fun b =>
        ofSettings fun s => { s with costAnalysis := b } },
    { name := "enable-watchers", envName := some "TERRACE_ENABLE_WATCHERS"
      summary := "Start a log watcher next to each execution unit"
      read := fun text => (readBool text).map fun b =>
        ofSettings fun s => { s with watchers := b } },
    spanOption "resync-interval-secs" "TERRACE_RESYNC_INTERVAL_SECS"
      "Forced re-check interval for drift detection, in seconds"
      fun span s => { s with resync := span },
    spanOption "revision-expiration-secs" "TERRACE_REVISION_EXPIRATION_SECS"
      "Age after which unused revisions expire, in seconds (0 disables)"
      fun span s => { s with expiration := if span.isZero then none else some span },
    spanOption "revision-check-interval-secs" "TERRACE_REVISION_CHECK_INTERVAL_SECS"
      "How often each revision is checked for expiry, in seconds"
      fun span s => { s with checkInterval := span },
    { name := "log-format", envName := some "TERRACE_LOG_FORMAT"
      summary := "Log line format: json or text"
      read := fun text => (readWith LogFormat.ofName? text).map fun f i =>
        { i with logFormat := f } }]

structure Progress where
  invocation : Invocation := {}
  given : List String := []
  pending : Option (Opt × Option String) := none

namespace Progress

def take (p : Progress) (o : Opt) (value : String) : Except Refusal Progress := do
  if p.given.contains o.name then throw .argumentConflict
  let change ← o.read value
  return { p with invocation := change p.invocation, given := o.name :: p.given }

def settle (p : Progress) : Except Refusal Progress :=
  match p.pending with
  | none => .ok p
  | some (_, none) => .error .invalidValue
  | some (o, some value) => take { p with pending := none } o value

def settleThen (p : Progress) (r : Refusal) : Except Refusal Progress := do
  let _ ← p.settle
  throw r

def named (p : Progress) (name : String) (value : Option String) : Except Refusal Progress :=
  match options.find? (·.name = name) with
  | some o =>
    if o.isFlag then
      match value with
      | some _ => .error .tooManyValues
      | none => do (← p.settle).take o "true"
    else
      match value with
      | some value => do (← p.settle).take o value
      | none => do return { ← p.settle with pending := some (o, none) }
  | none =>
    if name = "help" then
      if value.isSome then .error .tooManyValues else p.settleThen .displayHelp
    else if name = "version" then
      if value.isSome then .error .tooManyValues else p.settleThen .displayVersion
    else .error .unknownArgument

def plain (p : Progress) (word : String) : Except Refusal Progress :=
  match p.pending with
  | some (o, none) => .ok { p with pending := some (o, some word) }
  | _ => .error .unknownArgument

/-- A word of letters behind one dash; nothing stands for an option but two of them. -/
def letters (p : Progress) : List Char → Except Refusal Progress
  | 'h' :: _ => p.settleThen .displayHelp
  | 'V' :: _ => p.settleThen .displayVersion
  | _ => .error .unknownArgument

def word (p : Progress) (w : String) : Except Refusal Progress :=
  match w.toList with
  | '-' :: '-' :: cs =>
    match cs.dropWhile (· ≠ '=') with
    | [] => p.named (String.ofList cs) none
    | _ :: value => p.named (String.ofList (cs.takeWhile (· ≠ '='))) (some (String.ofList value))
  | '-' :: c :: cs => p.letters (c :: cs)
  | _ => p.plain w

/-- After a word of two dashes no option is left to come. -/
def words (p : Progress) : List String → Except Refusal Progress
  | [] => p.settle
  | w :: rest =>
    if w = "--" then
      if rest.isEmpty then p.settle else .error .unknownArgument
    else do (← p.word w).words rest

def withEnvironment (env : Dict String) : List Opt → Progress → Except Refusal Progress
  | [], p => .ok p
  | o :: rest, p =>
    if p.given.contains o.name then withEnvironment env rest p
    else
      match o.envName.bind env.get? with
      | some value => do withEnvironment env rest (← p.take o value)
      | none => withEnvironment env rest p

end Progress

def parse (args : List String) (env : Dict String) : Except Refusal Invocation := do
  let p ← ({} : Progress).words args
  let p ← Progress.withEnvironment env options p
  return p.invocation

def Opt.help (o : Opt) : String :=
  let value := if o.isFlag then "" else " <VALUE>"
  let source := match o.envName with
    | some name => " [env: " ++ name ++ "]"
    | none => ""
  "  --" ++ o.name ++ value ++ "\n          " ++ o.summary ++ source

def help : String :=
  "Terrace - reconciles Terraform modules declared as Kubernetes resources\n\n" ++
  "Usage: terrace [OPTIONS]\n\nOptions:\n" ++
  "\n".intercalate (options.map Opt.help ++
    ["  -h, --help\n          Print help", "  -V, --version\n          Print version"])

def version : String := "terrace 0.1.0"

def Refusal.message : Refusal → String
  | .unknownArgument => "error: unexpected argument found"
  | .invalidValue => "error: a value is missing or is not one of those there are"
  | .valueValidation => "error: invalid value"
  | .argumentConflict => "error: an argument cannot be used multiple times"
  | .tooManyValues => "error: unexpected value for a flag"
  | .displayHelp => help
  | .displayVersion => version

end InfraOperator.CommandLine

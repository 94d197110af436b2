import InfraOperator.Cycle.Finalizer
import InfraOperator.Object.Secret
import InfraOperator.Provisioning.Naming
import InfraOperator.Resource.Policy
import InfraOperator.Resource.Provider

/-!
# The store of configurations

The calls a cycle of a configuration makes on the API server. Reading an object that does not
exist is no failure, neither is creating a job that exists already or deleting a secret that does
not.
-/

set_option autoImplicit false

namespace InfraOperator

inductive ConfigurationCall where
  | getConfiguration (name namespaceName : String)
  /-- Guarded by the version the object carries. -/
  | patchStatus (configuration : Configuration)
  | addFinalizer (name namespaceName finalizer : String)
  | removeFinalizer (name namespaceName finalizer : String)
  | getProvider (name : String)
  | listPolicies
  | listUnits (namespaceName ownerUid : String)
  | createJob (job : Job)
  | deleteUnits (namespaceName ownerUid : String)
  | getSecret (name namespaceName : String)
  | createSecret (secret : Secret)
  | patchSecretData (name namespaceName : String) (data : Dict Bytes)
  /-- Whether there was one. -/
  | deleteSecret (name namespaceName : String)

def ConfigurationCall.Answer : ConfigurationCall → Type
  | .getConfiguration _ _ => Option Configuration
  | .getProvider _ => Option Provider
  | .listPolicies => List Policy
  | .listUnits _ _ => List Job
  | .getSecret _ _ => Option Secret
  | .deleteSecret _ _ => Bool
  | .patchStatus _ | .addFinalizer _ _ _ | .removeFinalizer _ _ _ | .createJob _
  | .deleteUnits _ _ | .createSecret _ | .patchSecretData _ _ _ => Unit

def ConfigurationStore : Interface := ⟨ConfigurationCall, ConfigurationCall.Answer⟩

namespace ConfigurationStore

def finalizers : FinalizerStore ConfigurationStore Configuration where
  add c finalizer :=
    match c.identity with
    | .ok (name, ns) => Staged.call (S := ConfigurationStore) (.addFinalizer name ns finalizer)
    | .error e => pure (.error e)
  remove c finalizer :=
    match c.identity with
    | .ok (name, ns) =>
      Staged.call (S := ConfigurationStore) (.removeFinalizer name ns finalizer)
    | .error e => pure (.error e)

def statuses : StatusStore ConfigurationStore Configuration where
  write c :=
    Program.request (I := Surroundings ConfigurationStore) (.store (.patchStatus c))
  reload c :=
    match c.identity with
    | .ok (name, ns) =>
      Program.request (I := Surroundings ConfigurationStore) (.store (.getConfiguration name ns))
    | .error e => pure (.error e)

end ConfigurationStore

end InfraOperator

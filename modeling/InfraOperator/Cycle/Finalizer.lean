import InfraOperator.Cycle.Pipeline

/-!
# The finalizer

The finalizer keeps an object until everything it stands for is gone. It is added before anything
is made for the object, and released as the last thing done for it.
-/

set_option autoImplicit false

namespace InfraOperator

structure FinalizerStore (S : Interface) (R : Type) where
  add : {σ : Type} → R → String → Staged S σ (Outcome Unit)
  remove : {σ : Type} → R → String → Staged S σ (Outcome Unit)

variable {S : Interface} {R X : Type} [Resource R]

def ensureFinalizer (store : FinalizerStore S R) (finalizer : String) : Step S R X where
  name := "EnsureFinalizer"
  run := do
    let c ← get
    if (Resource.metadata c.resource).hasFinalizer finalizer then return .proceed
    else
      match ← store.add c.resource finalizer with
      | .ok () =>
        Staged.log .debug "added finalizer" [("finalizer", finalizer)]
        return .requeueNow
      | .error e => return .stop e

def ensureFinalizerRemoved (store : FinalizerStore S R) (finalizer : String) : Step S R X where
  name := "EnsureFinalizerRemoved"
  releasesFinalizer := true
  run := do
    let c ← get
    if (Resource.metadata c.resource).hasFinalizer finalizer then
      match ← store.remove c.resource finalizer with
      | .ok () =>
        Staged.log .info "released finalizer" [("finalizer", finalizer)]
        return .proceed
      | .error e => if e.isNotFound then return .proceed else return .stop e
    else return .proceed

end InfraOperator

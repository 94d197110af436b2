import InfraOperator.Proofs.Deeds
import InfraOperator.Proofs.Interleaving
import Mathlib.Data.List.Nodup

/-!
# Contended writes

While a cycle is under way, others may change the object it is over. The cycle writes its status
under a version in which it has read the object, at its start or anew after a conflict, and a write
takes effect only on the object in that very version: it never replaces a state that the cycle has
not read (`Contended.mem_reads`). What it writes is what its steps have left, the same after each
conflict (`Rereader.Guarded`), so what others have said of the object meanwhile is replaced too.
-/

set_option autoImplicit false

namespace InfraOperator

variable {S : Interface} {R X β : Type} [Resource R]

abbrev versionOf (r : R) : Option String := (Resource.metadata r).resourceVersion

class LawfulMetadata (R : Type) [Resource R] : Prop where
  metadata_withMetadata : ∀ (r : R) (m : ObjectMeta),
    Resource.metadata (Resource.withMetadata r m) = m
  withMetadata_metadata : ∀ r : R, Resource.withMetadata r (Resource.metadata r) = r
  withMetadata_withMetadata : ∀ (r : R) (m m' : ObjectMeta),
    Resource.withMetadata (Resource.withMetadata r m) m' = Resource.withMetadata r m'

instance : LawfulMetadata Configuration where
  metadata_withMetadata _ _ := rfl
  withMetadata_metadata _ := rfl
  withMetadata_withMetadata _ _ _ := rfl

instance : LawfulMetadata Revision where
  metadata_withMetadata _ _ := rfl
  withMetadata_metadata _ := rfl
  withMetadata_withMetadata _ _ _ := rfl

section Versions

variable [LawfulMetadata R] (r : R) (version : Option String)

theorem versionOf_withResourceVersion :
    versionOf (Resource.withResourceVersion r version) = version := by
  rw [versionOf, Resource.withResourceVersion, LawfulMetadata.metadata_withMetadata]

/-- Nothing but the version is lost when another one is put in its place. -/
theorem withResourceVersion_restored :
    Resource.withResourceVersion (Resource.withResourceVersion r version) (versionOf r) = r := by
  simp only [Resource.withResourceVersion, LawfulMetadata.metadata_withMetadata,
    LawfulMetadata.withMetadata_withMetadata]
  exact LawfulMetadata.withMetadata_metadata r

end Versions

/-- Cycles over one kind of objects: which of their calls write a status, which of them have read
the object anew, and which pipeline is run on which cycle for the object as it was read, once the
requests before that have been answered. -/
structure Rereader (S : Interface) (R X β : Type) extends Reconciler S R β where
  reread? : StoreCall S → Option R
  opens : R → List (Answered (Supervised S)) → Pipeline S R X → Cycle R X → Prop

/-- What becomes of an object while a cycle that was started for it makes these calls, the latest
state first. Others may change it between any two calls, and no version comes again. A call may
remain without effect, whatever is answered to it; what is read anew is a state of the object. -/
inductive Contended (k : Rereader S R X β) (r : R) : List (StoreCall S) → List R → Prop
  | start (versioned : versionOf r ≠ none) : Contended k r [] [r]
  | changed {calls : List (StoreCall S)} {states : List R} {x : R}
      (h : Contended k r calls states) (versioned : versionOf x ≠ none)
      (new : ∀ y ∈ states, versionOf x ≠ versionOf y) : Contended k r calls (x :: states)
  | called {calls : List (StoreCall S)} {states : List R} {call : StoreCall S}
      (h : Contended k r calls states) (reads : ∀ x, k.reread? call = some x → x ∈ states) :
      Contended k r (calls ++ [call]) states
  | wrote {calls : List (StoreCall S)} {states : List R} {call : StoreCall S} {x y w : R}
      (h : Contended k r calls (x :: states)) (writes : k.written? call.request = some w)
      (unread : k.reread? call = none) (effect : Overwrites x w y)
      (versioned : versionOf y ≠ none) (new : ∀ z ∈ x :: states, versionOf y ≠ versionOf z) :
      Contended k r (calls ++ [call]) (y :: x :: states)

namespace Rereader

variable (k : Rereader S R X β)

def reads (r : R) (calls : List (StoreCall S)) : List R := r :: calls.filterMap k.reread?

def writes (calls : List (StoreCall S)) : List R := calls.filterMap fun call =>
  k.written? call.request

/-- Whatever the calls write is this resource, under the version of something that is known by
then. -/
def Guarded (resource : R) : List R → List (StoreCall S) → Prop
  | _, [] => True
  | known, call :: later =>
    (∀ w, k.written? call.request = some w →
      ∃ x ∈ known, w = Resource.withResourceVersion resource (versionOf x)) ∧
    Guarded resource (known ++ (k.reread? call).toList) later

structure Steadfast (resource : R) (known : List R) (calls : List (StoreCall S)) : Prop where
  guarded : k.Guarded resource known calls
  few : (k.writes calls).length ≤ 3

def Quiet : Surroundings.Request S → Prop
  | .store call => k.written? call = none
  | _ => True

/-- The steps of a cycle over the object as it was read end with this run, and with this cycle. -/
def StepsEnd (r : R) (run : List (Answered (Supervised S))) (left : Cycle R X) : Prop :=
  ∃ opening p c ran outcome, k.opens r opening p c ∧
    (p.run c).Reaches ran (.done (outcome, left)) ∧ run = opening ++ ran

end Rereader

variable {k : Rereader S R X β} {r resource : R} {calls : List (StoreCall S)}
  {states known : List R}

/-! ## The object -/

namespace Contended

theorem versioned (h : Contended k r calls states) : ∀ x ∈ states, versionOf x ≠ none := by
  induction h with
  | start versioned =>
    intro x hx
    rw [List.mem_singleton.1 hx]
    exact versioned
  | changed _ versioned _ ih => exact List.forall_mem_cons.2 ⟨versioned, ih⟩
  | called _ _ ih => exact ih
  | wrote _ _ _ _ versioned _ ih => exact List.forall_mem_cons.2 ⟨versioned, ih⟩

theorem nodup_versions (h : Contended k r calls states) : (states.map versionOf).Nodup := by
  have cons : ∀ (x : R) (states : List R), (∀ y ∈ states, versionOf x ≠ versionOf y) →
      (states.map versionOf).Nodup → ((x :: states).map versionOf).Nodup := by
    intro x states new distinct
    rw [List.map_cons, List.nodup_cons]
    refine ⟨fun listed => ?_, distinct⟩
    obtain ⟨y, hy, same⟩ := List.mem_map.1 listed
    exact new y hy same.symm
  induction h with
  | start => exact List.nodup_cons.2 ⟨List.not_mem_nil, .nil⟩
  | changed _ _ new ih => exact cons _ _ new ih
  | called _ _ ih => exact ih
  | wrote _ _ _ _ _ new ih => exact cons _ _ new ih

theorem through (h : Contended k r calls states) (later : List (StoreCall S))
    (reads : ∀ x ∈ later.filterMap k.reread?, x ∈ states) :
    Contended k r (calls ++ later) states := by
  induction later generalizing calls with
  | nil =>
    rw [List.append_nil]
    exact h
  | cons call later ih =>
    have told : Contended k r (calls ++ [call]) states := by
      apply h.called
      intro x read
      exact reads x (List.mem_filterMap.2 ⟨call, List.mem_cons_self .., read⟩)
    rw [List.append_cons]
    apply ih told
    intro x hx
    obtain ⟨call', called, read⟩ := List.mem_filterMap.1 hx
    exact reads x (List.mem_filterMap.2 ⟨call', List.mem_cons_of_mem _ called, read⟩)

/-- All that a cycle has read is a state of its object. -/
theorem reads_subset (h : Contended k r calls states) : k.reads r calls ⊆ states := by
  induction h with
  | start => exact List.Subset.refl _
  | changed _ _ _ ih => exact fun x hx => List.mem_cons_of_mem _ (ih hx)
  | @called calls states call _ reads ih =>
    intro x hx
    rw [Rereader.reads, List.filterMap_append, ← List.cons_append] at hx
    rcases List.mem_append.1 hx with hx | hx
    · exact ih hx
    · obtain ⟨_, only, read⟩ := List.mem_filterMap.1 hx
      rw [List.mem_singleton.1 only] at read
      exact reads x read
  | @wrote calls states call _ _ _ _ _ unread _ _ _ ih =>
    intro x hx
    rw [Rereader.reads, List.filterMap_append, ← List.cons_append] at hx
    rcases List.mem_append.1 hx with hx | hx
    · exact List.mem_cons_of_mem _ (ih hx)
    · obtain ⟨_, only, read⟩ := List.mem_filterMap.1 hx
      rw [List.mem_singleton.1 only, unread] at read
      cases read

/-- A write under the version of something that was read takes effect on nothing else. -/
theorem mem_reads {x w y : R} (h : Contended k r calls (x :: states))
    (held : ∃ z ∈ k.reads r calls, versionOf w = versionOf z) (effect : Overwrites x w y) :
    x ∈ k.reads r calls := by
  obtain ⟨z, read, same⟩ := held
  have listed : z ∈ x :: states := h.reads_subset read
  -- No version comes again, so the state that is overwritten is the one that was read.
  rcases effect.guarded with unversioned | guarded
  · exact absurd (same.symm.trans unversioned) (h.versioned z listed)
  · have first : x ∈ x :: states := List.mem_cons_self ..
    obtain rfl : z = x :=
      List.inj_on_of_nodup_map h.nodup_versions listed first (same.symm.trans guarded)
    exact read

end Contended

/-! ## The calls -/

namespace Rereader

theorem Guarded.mono {known' : List R} (h : k.Guarded resource known calls)
    (sub : known ⊆ known') : k.Guarded resource known' calls := by
  induction calls generalizing known known' with
  | nil => trivial
  | cons call later ih =>
    constructor
    · intro w writes
      obtain ⟨x, hx, same⟩ := h.1 w writes
      exact ⟨x, sub hx, same⟩
    · apply ih h.2
      intro x hx
      rcases List.mem_append.1 hx with hx | hx
      · exact List.mem_append_left _ (sub hx)
      · exact List.mem_append_right _ hx

omit [Resource R] in
theorem filterMap_cons_reread (call : StoreCall S) (later : List (StoreCall S)) :
    (call :: later).filterMap k.reread? =
      (k.reread? call).toList ++ later.filterMap k.reread? := by
  rw [List.filterMap_cons]
  cases k.reread? call <;> rfl

theorem Guarded.append {later : List (StoreCall S)} (h : k.Guarded resource known calls)
    (h' : k.Guarded resource (known ++ calls.filterMap k.reread?) later) :
    k.Guarded resource known (calls ++ later) := by
  induction calls generalizing known with
  | nil =>
    rw [List.filterMap_nil, List.append_nil] at h'
    exact h'
  | cons call rest ih =>
    rw [filterMap_cons_reread, ← List.append_assoc] at h'
    exact ⟨h.1, ih h.2 h'⟩

theorem Guarded.of_append {later : List (StoreCall S)}
    (h : k.Guarded resource known (calls ++ later)) : k.Guarded resource known calls := by
  induction calls generalizing known with
  | nil => trivial
  | cons call rest ih => exact ⟨h.1, ih h.2⟩

theorem guarded_of_quiet (quiet : k.writes calls = []) :
    k.Guarded resource known calls := by
  induction calls generalizing known with
  | nil => trivial
  | cons call later ih =>
    obtain ⟨first, rest⟩ := List.forall_mem_cons.1 (List.filterMap_eq_nil_iff.1 quiet)
    refine ⟨fun w writes => ?_, ih (List.filterMap_eq_nil_iff.2 rest)⟩
    rw [first] at writes
    cases writes

omit [Resource R] in
theorem writes_nil : k.writes [] = [] := rfl

omit [Resource R] in
theorem writes_append (calls later : List (StoreCall S)) :
    k.writes (calls ++ later) = k.writes calls ++ k.writes later := List.filterMap_append ..

omit [Resource R] in
theorem writes_flatMap_append (run more : List (Answered (Supervised S))) :
    k.writes ((run ++ more).flatMap Supervised.calls) =
      k.writes (run.flatMap Supervised.calls) ++ k.writes (more.flatMap Supervised.calls) := by
  rw [List.flatMap_append, writes_append]

omit [Resource R] in
theorem writes_ne_nil {pre post : List (StoreCall S)} {call : StoreCall S} {w : R}
    (parts : calls = pre ++ call :: post) (writes : k.written? call.request = some w) :
    k.writes calls ≠ [] := by
  intro none
  have listed : call ∈ calls := by
    rw [parts]
    exact List.mem_append_right _ (List.mem_cons_self ..)
  exact absurd (writes.symm.trans (List.filterMap_eq_nil_iff.1 none call listed)) nofun

/-- Calls before and after that write nothing change nothing. -/
theorem Steadfast.between {front back : List (StoreCall S)} (h : k.Steadfast resource known calls)
    (before : k.writes front = []) (after : k.writes back = []) :
    k.Steadfast resource known (front ++ (calls ++ back)) := by
  constructor
  · apply (guarded_of_quiet before).append
    apply Guarded.append _ (guarded_of_quiet after)
    exact h.guarded.mono (List.subset_append_left _ _)
  · rw [writes_append, writes_append, before, after, List.append_nil, List.nil_append]
    exact h.few

theorem Steadfast.of_append {later : List (StoreCall S)}
    (h : k.Steadfast resource known (calls ++ later)) : k.Steadfast resource known calls := by
  refine ⟨h.guarded.of_append, ?_⟩
  have few := h.few
  rw [writes_append, List.length_append] at few
  omega

omit [Resource R] in
theorem quiet_of_prompt {q : Surroundings.Request S} (prompt : q.suspends = false) :
    k.Quiet q := by
  cases q with
  | store => cases prompt
  | _ => trivial

theorem Guarded.written (h : k.Guarded resource known calls)
    {pre post : List (StoreCall S)} {call : StoreCall S} {w : R}
    (parts : calls = pre ++ call :: post) (writes : k.written? call.request = some w) :
    ∃ x ∈ known ++ pre.filterMap k.reread?,
      w = Resource.withResourceVersion resource (versionOf x) := by
  induction pre generalizing calls known with
  | nil =>
    subst parts
    rw [List.filterMap_nil, List.append_nil]
    exact h.1 w writes
  | cons first pre ih =>
    subst parts
    rw [filterMap_cons_reread, ← List.append_assoc]
    exact ih h.2 rfl

omit [Resource R] in
theorem writes_of_only {γ : Type} {p : Program (Supervised S) γ} {ends : γ → Prop}
    (only : p.Only (Supervised.Within k.Quiet) ends) {run : List (Answered (Supervised S))}
    {rest : Program (Supervised S) γ} (reached : p.Reaches run rest) :
    k.writes (run.flatMap Supervised.calls) = [] :=
  List.filterMap_eq_nil_iff.2 fun _ called =>
    Supervised.called_of_only only (fun _ within => within) reached called

end Rereader

/-! ## The write of a status -/

abbrev shown (run : List (Answered (Surroundings S))) : List (StoreCall S) :=
  (run.map Supervised.answeredPlain).flatMap Supervised.calls

theorem shown_append (run later : List (Answered (Surroundings S))) :
    shown (run ++ later) = shown run ++ shown later := by
  rw [shown, List.map_append, List.flatMap_append]

omit [Resource R] in
theorem Program.run_of_request {I : Interface} {r : I.Request} {run : List (Answered I)}
    {answer : I.Answer r} (reached : (Program.request r).Reaches run (.done answer)) :
    run = [⟨r, answer⟩] := by
  cases reached with
  | told later =>
    cases later
    rfl

/-- How a status is stored and read anew is what the cycles are said to write and to read. -/
structure Rereader.Serves (k : Rereader S R X β) (store : StatusStore S R) : Prop where
  write : ∀ (w : R) run result, (store.write w).Reaches run (.done result) →
    ∃ call, shown run = [call] ∧ k.written? call.request = some w
  reload : ∀ (w : R) run result, (store.reload w).Reaches run (.done result) →
    k.writes (shown run) = [] ∧
    ∀ fresh, result = .ok (some fresh) → fresh ∈ (shown run).filterMap k.reread?

namespace Rereader

variable {store : StatusStore S R} {version version' : Option String}
  {run : List (Answered (Surroundings S))} {result : Outcome Unit}

theorem Serves.guarded_write (serves : k.Serves store)
    (held : ∃ x ∈ known, version = versionOf x)
    (wrote : (store.write (Resource.withResourceVersion r version)).Reaches run
      (.done result)) :
    k.Guarded r known (shown run) ∧ (k.writes (shown run)).length = 1 := by
  obtain ⟨call, only, writes⟩ := serves.write _ _ _ wrote
  rw [only]
  constructor
  · refine ⟨fun w written => ?_, trivial⟩
    obtain rfl : _ = w := Option.some.inj (writes.symm.trans written)
    obtain ⟨x, hx, rfl⟩ := held
    exact ⟨x, hx, rfl⟩
  · rw [Rereader.writes, List.filterMap_cons, writes]
    rfl

theorem Serves.guarded_reload {reading : List (Answered (Surroundings S))} {w : R}
    {fresh : Outcome (Option R)} (serves : k.Serves store)
    (read : (store.reload w).Reaches reading (.done fresh))
    (h : k.Guarded r known (shown run) ∧ (k.writes (shown run)).length = 1) :
    k.Guarded r known (shown (run ++ reading)) ∧
      (k.writes (shown (run ++ reading))).length = 1 := by
  obtain ⟨quiet, -⟩ := serves.reload _ _ _ read
  rw [shown_append, writes_append, quiet, List.append_nil]
  exact ⟨h.1.append (guarded_of_quiet quiet), h.2⟩

/-- An attempt writes once, under the version that is held, and holds a version that was read. -/
theorem Serves.guarded_try (serves : k.Serves store) (held : ∃ x ∈ known, version = versionOf x)
    (tried : store.Try r version run result version') :
    (k.Guarded r known (shown run) ∧ (k.writes (shown run)).length = 1) ∧
      ∃ x ∈ known ++ (shown run).filterMap k.reread?, version' = versionOf x := by
  have still : ∃ x ∈ known ++ (shown run).filterMap k.reread?, version = versionOf x := by
    obtain ⟨x, hx, same⟩ := held
    exact ⟨x, List.mem_append_left _ hx, same⟩
  cases tried with
  | written wrote => exact ⟨serves.guarded_write held wrote, still⟩
  | refused wrote => exact ⟨serves.guarded_write held wrote, still⟩
  | gone wrote _ read => exact ⟨serves.guarded_reload read (serves.guarded_write held wrote), still⟩
  | unread wrote _ read =>
    exact ⟨serves.guarded_reload read (serves.guarded_write held wrote), still⟩
  | @renewed _ _ _ fresh wrote _ read =>
    obtain ⟨-, reread⟩ := serves.reload _ _ _ read
    refine ⟨serves.guarded_reload read (serves.guarded_write held wrote), fresh, ?_, rfl⟩
    rw [shown_append, List.filterMap_append, ← List.append_assoc]
    exact List.mem_append_right _ (reread fresh rfl)

/-- Attempts in a row write the same resource, each under a version that was read. -/
theorem Serves.guarded_tries (serves : k.Serves store) {left : Nat}
    (held : ∃ x ∈ known, version = versionOf x) (tried : store.Tries r left version run result) :
    k.Guarded r known (shown run) ∧ (k.writes (shown run)).length ≤ left + 1 := by
  -- On the attempts; what the later ones may write under includes what the earlier ones reread.
  induction tried generalizing known with
  | ended once =>
    obtain ⟨⟨guarded, one⟩, -⟩ := serves.guarded_try held once
    exact ⟨guarded, by omega⟩
  | exhausted once =>
    obtain ⟨⟨guarded, one⟩, -⟩ := serves.guarded_try held once
    rw [shown_append, writes_append, List.length_append, one]
    exact ⟨guarded.append trivial, Nat.le_refl _⟩
  | @again left _ _ run later e line span result once _ _ ih =>
    obtain ⟨⟨guarded, one⟩, held⟩ := serves.guarded_try held once
    obtain ⟨guarded', few⟩ := ih held
    have waited : shown (⟨.log line, ()⟩ :: ⟨.wait span, ()⟩ :: later) = shown later := rfl
    rw [shown_append, waited, writes_append, List.length_append]
    exact ⟨guarded.append guarded', by omega⟩

end Rereader

/-! ## Whole cycles -/

open Supervised (Within)

/-- What a cycle over the object as it was read writes is the resource in which its steps end, after
they have ended. -/
inductive Rereader.Settles (k : Rereader S R X β) (r : R) (run : List (Answered (Supervised S))) :
    Prop
  | quiet (h : k.writes (run.flatMap Supervised.calls) = [])
  | wrote {front back : List (Answered (Supervised S))} {left : Cycle R X} {x : X}
      {ds : List Deed} (run_eq : run = front ++ back) (ended : k.StepsEnd r front left)
      (quiet : k.writes (front.flatMap Supervised.calls) = [])
      (did : (Cycle.start r x).Did ds left)
      (steadfast : k.Steadfast left.resource [r] (back.flatMap Supervised.calls))

theorem Rereader.Settles.append {run more : List (Answered (Supervised S))}
    (h : k.Settles r run)
    (quiet : k.writes (more.flatMap Supervised.calls) = []) :
    k.Settles r (run ++ more) := by
  cases h with
  | quiet before =>
    apply Rereader.Settles.quiet
    rw [writes_flatMap_append, before, quiet]
    rfl
  | @wrote front back _ _ _ run_eq ended before did steadfast =>
    refine .wrote (run_eq ▸ List.append_assoc ..) ended before did ?_
    have whole := steadfast.between writes_nil quiet
    rw [List.nil_append, ← List.flatMap_append] at whole
    exact whole

namespace Pipeline

variable {p : Pipeline S R X} {store : StatusStore S R} {c c' : Cycle R X}
  {run opening : List (Answered (Supervised S))} {persisted : Outcome Unit}
  {outcome result : Outcome Directive} {x : X}

theorem steadfast_writeStatus (serves : k.Serves store)
    (held : ∃ x ∈ known, versionOf c.resource = versionOf x)
    (reached : (writeStatus store c).Reaches run (.done persisted)) :
    k.Steadfast c.resource known (run.flatMap Supervised.calls) := by
  obtain ⟨changed, unchanged⟩ := run_of_writeStatus reached
  cases status : c.statusChanged with
  | true =>
    obtain ⟨own, last, rfl, tries, -⟩ := changed status
    obtain ⟨guarded, few⟩ := serves.guarded_tries held tries
    exact ⟨guarded, few⟩
  | false =>
    obtain ⟨rfl, -⟩ := unchanged status
    exact ⟨trivial, Nat.zero_le _⟩

theorem calls_report
    (reached : (p.report outcome persisted c).Reaches run (.done (result, c'))) :
    run.flatMap Supervised.calls = [] := by
  obtain ⟨told, rfl, -, published, withheld⟩ := run_of_report reached
  have silent : told.flatMap Supervised.calls = [] := by
    rw [List.flatMap_eq_nil_iff]
    intro t ht
    cases persisted with
    | error e =>
      obtain ⟨line, rfl⟩ := withheld e rfl t ht
      rfl
    | ok value =>
      rw [published rfl] at ht
      obtain ⟨e, -, told⟩ := List.mem_flatMap.1 ht
      simp only [telling, List.mem_cons, List.not_mem_nil, or_false] at told
      rcases told with rfl | rfl <;> rfl
  rw [List.flatMap_append, silent]
  rfl

/-- Where the steps write no status and what they do to the cycle comes to deeds, the cycle writes
what they leave of the resource, under a version that was read. -/
theorem settles_execute (serves : k.Serves store) (opens : k.opens r opening p c)
    (before : k.writes (opening.flatMap Supervised.calls) = [])
    (began : ∃ ds, (Cycle.start r x).Did ds c)
    (each : ∀ step ∈ p.steps, ∀ c, (∃ ds, (Cycle.start r x).Did ds c) →
      step.run.Does c (Staged.From c fun _ q => k.Quiet q)
        (fun _ _ c' => ∃ ds, (Cycle.start r x).Did ds c') [])
    (reached : (p.execute store c).Reaches run (.done (result, c'))) :
    k.Settles r (opening ++ run) := by
  obtain ⟨ran, run, ⟨outcome, left⟩, rfl, stepped, reached⟩ := Program.reaches_bind reached
  obtain ⟨written, told, persisted, rfl, wrote, reports⟩ := Program.reaches_bind reached
  have steps : (runSteps p.name p.steps c).Only (Within k.Quiet)
      fun v => ∃ ds, (Cycle.start r x).Did ds v.2 :=
    only_runSteps (fun c => ∃ ds, (Cycle.start r x).Did ds c)
      (fun _ => Rereader.quiet_of_prompt) each began
  obtain ⟨ds, did⟩ : ∃ ds, (Cycle.start r x).Did ds left := steps.ended stepped
  have kept : versionOf left.resource = versionOf r :=
    congrArg ObjectMeta.resourceVersion did.metadata_eq
  have quiet : k.writes ((opening ++ ran).flatMap Supervised.calls) = [] := by
    rw [Rereader.writes_flatMap_append, before, Rereader.writes_of_only steps stepped]
    rfl
  refine .wrote (List.append_assoc ..).symm ⟨opening, p, c, ran, outcome, opens, stepped, rfl⟩
    quiet did ?_
  rw [List.flatMap_append, calls_report reports, List.append_nil]
  exact steadfast_writeStatus serves ⟨r, List.mem_singleton_self r, kept⟩ wrote

end Pipeline

/-- Whole cycles write nothing but what their steps have left. -/
def Rereader.Careful (k : Rereader S R X β) : Prop :=
  ∀ r p, k.starts r p → ∀ run value, p.Reaches run (.done value) → k.Settles r run

/-- The steps of a run have ended with that cycle, in which these deeds had been done since the
object was read, and no status has been written by then. -/
structure Rereader.Ended (k : Rereader S R X β) (r : R) (run : List (Answered (Supervised S)))
    (left : Cycle R X) (ds : List Deed) : Prop where
  steps : ∃ front back, run = front ++ back ∧ k.StepsEnd r front left ∧
    k.writes (front.flatMap Supervised.calls) = []
  did : ∃ x, (Cycle.start r x).Did ds left

/-- What a run writes, three times at most, is what its steps have left of the resource, under a
version in which the cycle had read the object by then. Where a write takes effect on the object as
it is stored, the cycle has read just that state of it; the conditions stored are then those in which
the steps ended, so that one of a type that no deed marked is what it was when the cycle was started,
whatever others have made of it. -/
structure Rereader.Replaces (k : Rereader S R X β) (r : R) (run : List (Answered (Supervised S)))
    (left : Cycle R X) (ds : List Deed) : Prop extends k.Ended r run left ds where
  few : (k.writes (run.flatMap Supervised.calls)).length ≤ 3
  written : ∀ pre call post w, run.flatMap Supervised.calls = pre ++ call :: post →
    k.written? call.request = some w →
    ∃ x ∈ k.reads r pre, w = Resource.withResourceVersion left.resource (versionOf x)
  replaced : ∀ pre call post w x states y, run.flatMap Supervised.calls = pre ++ call :: post →
    k.written? call.request = some w → Contended k r pre (x :: states) → Overwrites x w y →
    x ∈ k.reads r pre ∧ Resource.conditions y = left.conditions ∧
      ∀ type condition, (∀ d ∈ ds, ¬ d.Marks type) →
        findCondition (Resource.conditions r) type = some condition →
        findCondition (Resource.conditions y) type = some condition

theorem Rereader.Steadfast.replaces [LawfulResource R] [LawfulMetadata R]
    {run front back : List (Answered (Supervised S))} {left : Cycle R X} {x : X} {ds : List Deed}
    (h : k.Steadfast left.resource [r] (run.flatMap Supervised.calls))
    (run_eq : run = front ++ back) (ended : k.StepsEnd r front left)
    (quiet : k.writes (front.flatMap Supervised.calls) = [])
    (did : (Cycle.start r x).Did ds left) : k.Replaces r run left ds := by
  constructor
  · exact ⟨⟨front, back, run_eq, ended, quiet⟩, x, did⟩
  · exact h.few
  · intro pre call post w parts writes
    exact h.guarded.written parts writes
  · intro pre call post w x states y parts writes contended effect
    obtain ⟨z, read, rfl⟩ := h.guarded.written parts writes
    have stored : Resource.conditions y = left.conditions :=
      effect.conditions_eq.trans (LawfulResource.conditions_withMetadata left.resource _)
    refine ⟨contended.mem_reads ⟨z, read, versionOf_withResourceVersion ..⟩ effect, stored, ?_⟩
    intro type condition unmarked found
    rw [stored]
    exact did.find_of_unmarked unmarked found

/-- A run that has written has come beyond the end of its steps. -/
theorem Rereader.Settles.replaces [LawfulResource R] [LawfulMetadata R]
    {run more : List (Answered (Supervised S))} (h : k.Settles r (run ++ more)) :
    k.writes (run.flatMap Supervised.calls) = [] ∨ ∃ left ds, k.Replaces r run left ds := by
  cases h with
  | quiet whole =>
    rw [writes_flatMap_append] at whole
    exact .inl (List.append_eq_nil_iff.1 whole).1
  | wrote run_eq ended quiet did steadfast =>
    rcases List.append_eq_append_iff.1 run_eq with ⟨rest, rfl, -⟩ | ⟨back, rfl, rfl⟩
    · rw [writes_flatMap_append] at quiet
      exact .inl (List.append_eq_nil_iff.1 quiet).1
    · rw [List.flatMap_append] at steadfast
      have whole := steadfast.of_append.between quiet writes_nil
      rw [List.append_nil, ← List.flatMap_append] at whole
      exact .inr ⟨_, _, whole.replaces rfl ended quiet did⟩

theorem Rereader.Careful.replaces [LawfulResource R] [LawfulMetadata R] (careful : k.Careful)
    {p rest : Program (Supervised S) β} {run : List (Answered (Supervised S))}
    (starts : k.starts r p) (reached : p.Reaches run rest) :
    k.writes (run.flatMap Supervised.calls) = [] ∨ ∃ left ds, k.Replaces r run left ds := by
  obtain ⟨more, value, whole⟩ := reached.exists_end Supervised.giveUp
  exact (careful r p starts _ value whole).replaces

end InfraOperator

import InfraOperator.Proofs.Catalog.Rounds
import InfraOperator.Proofs.Numerals

/-!
# A board of plans

A store of plans that can be run: it numbers the states of its plans, carries out what a write asks
for unless the write is refused or fails, and answers everything else as if there were nothing.
Programs take turns on it as a schedule says, and what comes of that is a history of the store.
-/

set_option autoImplicit false

namespace InfraOperator.Catalog

structure Board where
  plans : Plans
  /-- The number of the next state of a plan. -/
  next : Nat
  /-- Whether the coming writes fail. -/
  faults : List Bool := []

namespace Board

def stamp (name : String) (number : Nat) (plan : Plan) : Plan :=
  { plan with
    metadata :=
      { plan.metadata with name := some name, resourceVersion := some number.repr } }

/-- What becomes of the plan of that name by a write, unless it is refused. -/
def change? : RevisionCall → Option Plan → Outcome Plan
  | .createPlan plan, none => .ok { plan with status := none }
  | .createPlan _, some _ => .error .conflict
  | .patchPlanRevisions plan, some stored =>
    if plan.metadata.resourceVersion = none ∨
        plan.metadata.resourceVersion = stored.metadata.resourceVersion then
      .ok { stored with revisions := plan.revisions }
    else .error .conflict
  | .patchPlanStatus _ latest, some stored =>
    .ok { stored with status := some (latest.or stored.shownLatest) }
  | _, _ => .error .notFound

def target : RevisionCall → String
  | .createPlan plan | .patchPlanRevisions plan => plan.name
  | .patchPlanStatus name _ => name
  | _ => ""

def fault : Failure := .ofCode 500

def store (b : Board) (name : String) (plan : Plan) : Board :=
  { b with
    plans := Function.update b.plans name (some (stamp name b.next plan))
    next := b.next + 1 }

def write (b : Board) (call : RevisionCall) : Outcome Unit × Board :=
  let rest := { b with faults := b.faults.tail }
  if b.faults.headD false then (.error fault, rest)
  else
    match change? call (b.plans (target call)) with
    | .error e => (.error e, rest)
    | .ok plan => (.ok (), rest.store (target call) plan)

def serve (b : Board) : (call : RevisionCall) → Outcome call.Answer × Board
  | .getPlan name => (.ok (b.plans name), b)
  | .createPlan plan => b.write (.createPlan plan)
  | .patchPlanRevisions plan => b.write (.patchPlanRevisions plan)
  | .patchPlanStatus name latest => b.write (.patchPlanStatus name latest)
  | .getRevision _ => (.ok (none : Option Revision), b)
  | .listPlanRevisions _ => (.ok ([] : List Revision), b)
  | .countConsumers _ _ => (.ok (0 : Nat), b)
  | .patchStatus _ | .addFinalizer _ _ | .removeFinalizer _ _ | .deleteRevision _ => (.ok (), b)

def surround (b : Board) :
    (r : Surroundings.Request RevisionStore) → Surroundings.Answer r × Board
  | .store call => b.serve call
  | .clock => ((default : Instant), b)
  | .publish _ | .measure _ | .log _ | .wait _ => ((), b)

def answer (b : Board) : (q : Supervised.Request RevisionStore) → Supervised.Answer q × Board
  | .cancelled => (false, b)
  | .plain r => b.surround r
  | .watched r => (some (b.surround r).1, (b.surround r).2)

def Numbered (past : List Plans) (b : Board) : Prop :=
  ∀ state ∈ b.plans :: past, ∀ name plan, state name = some plan →
    ∃ n < b.next, plan.metadata.resourceVersion = some n.repr

def empty : Board := ⟨fun _ => none, 0, []⟩

theorem sound_empty : Sound [empty.plans] :=
  sound_start fun _ _ found => by cases found

theorem numbered_empty : empty.Numbered [] := by
  intro state mem name plan found
  obtain rfl := List.mem_singleton.1 mem
  cases found

variable {past : List Plans} {b : Board} {call : RevisionCall} {name : String} {plan : Plan}

theorem effect_change {found : Option Plan} (h : change? call found = .ok plan) (number : Nat) :
    Effect (target call) call found (stamp (target call) number plan) := by
  unfold change? at h
  split at h
  · cases h
    exact .made rfl rfl rfl
  · cases h
  · split at h
    · next current =>
      cases h
      exact .listed rfl current rfl rfl
    · cases h
  · cases h
    exact .shown rfl rfl
  · cases h

theorem missing_of_patchRevisions {found : Option Plan} {e : Failure}
    (h : change? (.patchPlanRevisions plan) found = .error e) (missing : e.isNotFound = true) :
    found = none := by
  cases found with
  | none => rfl
  | some stored =>
    simp only [change?] at h
    split at h
    · cases h
    · cases h
      cases missing

theorem missing_of_patchStatus {latest : Option PlanEntry} {found : Option Plan} {e : Failure}
    (h : change? (.patchPlanStatus name latest) found = .error e) : found = none := by
  cases found with
  | none => rfl
  | some stored => cases h

theorem Numbered.store (h : Numbered past b) :
    Numbered (b.plans :: past) (b.store name plan) := by
  intro state mem name' plan' found
  have before : ∀ state ∈ b.plans :: past, state name' = some plan' →
      ∃ n < b.next + 1, plan'.metadata.resourceVersion = some n.repr := by
    intro state mem found
    obtain ⟨n, below, numbered⟩ := h state mem name' plan' found
    exact ⟨n, Nat.lt_succ_of_lt below, numbered⟩
  rcases List.mem_cons.1 mem with rfl | mem
  · change Function.update b.plans name (some (stamp name b.next plan)) name' = some plan' at found
    by_cases same : name' = name
    · subst same
      rw [Function.update_self] at found
      cases found
      exact ⟨b.next, Nat.lt_succ_self _, rfl⟩
    · rw [Function.update_of_ne same] at found
      exact before b.plans (List.mem_cons_self ..) found
  · exact before state mem found

structure Goes (past : List Plans) (b : Board) (calls : PlanCalls) (b' : Board) : Prop where
  serves : Serves past b.plans calls b'.plans
  numbered : Numbered (b.plans :: past) b'

theorem Numbered.again (h : Numbered past b) : Numbered (b.plans :: past) b := by
  intro state mem
  rcases List.mem_cons.1 mem with rfl | mem
  · exact h _ (List.mem_cons_self ..)
  · exact h state mem

theorem Numbered.isNew (h : Numbered past b) :
    IsNew (b.plans :: past) name (stamp name b.next plan) where
  named := rfl
  versioned := nofun
  differs state mem old found same := by
    obtain ⟨n, below, numbered⟩ := h state mem name old found
    have equal : n.repr = b.next.repr := Option.some.inj (numbered.symm.trans same)
    exact absurd (Text.eq_of_repr_eq equal) (Nat.ne_of_lt below)

theorem Numbered.sound_store (h : Numbered past b) (sound : Sound (b.plans :: past)) :
    Sound ((b.store name plan).plans :: b.plans :: past) := by
  apply sound.cons
  intro name' plan' found
  change Function.update b.plans name (some (stamp name b.next plan)) name' = some plan' at found
  by_cases same : name' = name
  · subst same
    rw [Function.update_self] at found
    cases found
    exact .inr h.isNew
  · rw [Function.update_of_ne same] at found
    exact .inl ⟨b.plans, List.mem_cons_self .., found⟩

def ofPlan (name : String) (plan : Plan) (faults : List Bool) : Board :=
  { empty.store name plan with faults }

theorem sound_ofPlan {faults : List Bool} :
    Sound [(ofPlan name plan faults).plans, empty.plans] :=
  numbered_empty.sound_store sound_empty

theorem numbered_ofPlan {faults : List Bool} : Numbered [empty.plans] (ofPlan name plan faults) :=
  numbered_empty.store

theorem write_cases (b : Board) (call : RevisionCall) :
    (∃ e, ∃ b' : Board, b.write call = (.error e, b') ∧ b'.plans = b.plans ∧ b'.next = b.next ∧
      (change? call (b.plans (target call)) = .error e ∨ e = fault)) ∨
    ∃ plan, ∃ b' : Board, b.write call = (.ok (), b'.store (target call) plan) ∧
      b'.plans = b.plans ∧ b'.next = b.next ∧ change? call (b.plans (target call)) = .ok plan := by
  unfold write
  simp only
  split
  · exact .inl ⟨fault, _, rfl, rfl, rfl, .inr rfl⟩
  · cases changed : change? call (b.plans (target call)) with
    | error e => exact .inl ⟨e, _, rfl, rfl, rfl, .inl rfl⟩
    | ok plan => exact .inr ⟨plan, _, rfl, rfl, rfl, rfl⟩

theorem Goes.congr {calls : PlanCalls} {b' b'' : Board} (h : Goes past b calls b')
    (plans : b''.plans = b'.plans) (next : b''.next = b'.next) : Goes past b calls b'' where
  serves := plans ▸ h.serves
  numbered state mem := by
    rw [plans] at mem
    rw [next]
    exact h.numbered state mem

theorem goes_refused (h : Numbered past b) {made : StoreCall RevisionStore} {b' : Board}
    (plans : b'.plans = b.plans) (next : b'.next = b.next) (truthful : Truthful b.plans made)
    (unacknowledged : ¬ Acknowledged made) : Goes past b [made] b' :=
  Goes.congr ⟨.kept truthful unacknowledged, h.again⟩ plans next

theorem goes_stored (h : Numbered past b) {made : StoreCall RevisionStore} {b' : Board}
    (plans : b'.plans = b.plans) (next : b'.next = b.next) (truthful : Truthful b.plans made)
    (changed : change? made.request (b.plans (target made.request)) = .ok plan) :
    Goes past b [made] (b'.store (target made.request) plan) := by
  have stored : Goes past b [made] (b.store (target made.request) plan) :=
    ⟨.carried truthful (effect_change changed b.next) (.inr h.isNew), h.store⟩
  refine stored.congr ?_ ?_
  · rw [store, store, plans, next]
  · exact congrArg (· + 1) next

theorem goes_write (h : Numbered past b) (made : Outcome Unit → StoreCall RevisionStore)
    (asks : ∀ outcome, (made outcome).request = call) (truthful : Truthful b.plans (made (.ok ())))
    (refused : ∀ e, change? call (b.plans (target call)) = .error e ∨ e = fault →
      Truthful b.plans (made (.error e)) ∧ ¬ Acknowledged (made (.error e))) :
    Goes past b [made (b.write call).1] (b.write call).2 := by
  rcases b.write_cases call with ⟨e, b', ended, plans, next, why⟩ |
    ⟨after, b', ended, plans, next, changed⟩
  · rw [ended]
    exact goes_refused h plans next (refused e why).1 (refused e why).2
  · rw [ended]
    rw [← asks (.ok ())] at changed ⊢
    exact goes_stored h plans next truthful changed

theorem goes_serve (h : Numbered past b) (call : RevisionCall) :
    Goes past b [answered call (b.serve call).1] (b.serve call).2 := by
  have asided : ∀ {answer : Outcome call.Answer}, Truthful b.plans (answered call answer) →
      ¬ Acknowledged (answered call answer) → Goes past b [answered call answer] b :=
    goes_refused h rfl rfl
  cases call with
  | createPlan plan =>
    exact goes_write h (answered (.createPlan plan)) (fun _ => rfl) trivial
      fun e _ => ⟨trivial, id⟩
  | patchPlanRevisions plan =>
    refine goes_write h (answered (.patchPlanRevisions plan)) (fun _ => rfl) trivial
      fun e why => ⟨fun missing => ?_, id⟩
    rcases why with refused | rfl
    · exact missing_of_patchRevisions refused missing
    · cases missing
  | patchPlanStatus name latest =>
    refine goes_write h (answered (.patchPlanStatus name latest)) (fun _ => rfl) trivial
      fun e why => ⟨fun missing => ?_, id⟩
    rcases why with refused | rfl
    · exact missing_of_patchStatus refused
    · cases missing
  | getPlan name => exact asided rfl id
  | _ => exact asided trivial id

theorem goes_answer (h : Numbered past b) (q : Supervised.Request RevisionStore) :
    Goes past b (Supervised.calls ⟨q, (b.answer q).1⟩) (b.answer q).2 := by
  have silent : Goes past b [] b := ⟨.silent, h.again⟩
  cases q with
  | cancelled => exact silent
  | plain r =>
    cases r with
    | store call => exact goes_serve h call
    | _ => exact silent
  | watched r =>
    cases r with
    | store call => exact goes_serve h call
    | _ => exact silent

end Board

/-! ## Taking turns -/

structure Contest (ι : Type) where
  programs : ι → Program (Supervised RevisionStore) (Outcome Action × Failures)
  board : Board

namespace Contest

variable {ι : Type} [DecidableEq ι]

def turn (i : ι) (s : Contest ι) : List (Moment ι) × Contest ι :=
  match s.programs i with
  | .done _ => ([], s)
  | .ask q next =>
    let told := s.board.answer q
    ([⟨i, ⟨q, told.1⟩, told.2.plans⟩], ⟨Function.update s.programs i (next told.1), told.2⟩)

def play : List ι → Contest ι → List (Moment ι) × Contest ι
  | [], s => ([], s)
  | i :: turns, s =>
    let now := turn i s
    let later := play turns now.2
    (now.1 ++ later.1, later.2)

structure Comes (past : List Plans) (s : Contest ι) (ms : List (Moment ι)) (s' : Contest ι) :
    Prop where
  history : History past s.board.plans ms
  stored : stored s.board.plans ms = s'.board.plans
  numbered : Board.Numbered (behind past s.board.plans ms) s'.board
  reached : ∀ i, (s.programs i).Reaches (own i ms) (s'.programs i)

variable {past : List Plans} {s : Contest ι}

theorem comes_turn (numbered : s.board.Numbered past) (i : ι) :
    Comes past s (turn i s).1 (turn i s).2 := by
  cases asks : s.programs i with
  | done value =>
    rw [turn, asks]
    exact ⟨trivial, rfl, numbered, fun _ => .here _⟩
  | ask q next =>
    have goes := Board.goes_answer numbered q
    rw [turn, asks]
    refine ⟨⟨goes.serves, trivial⟩, rfl, goes.numbered, fun j => ?_⟩
    by_cases same : i = j
    · subst same
      show (s.programs i).Reaches (own i [_]) (Function.update s.programs i _ i)
      rw [Function.update_self, asks, own_cons_of_eq (m := ⟨i, _, _⟩) rfl]
      exact .told (.here _)
    · show (s.programs j).Reaches (own j [_]) (Function.update s.programs i _ j)
      rw [Function.update_of_ne (Ne.symm same), own_cons_of_ne same]
      exact .here _

theorem Comes.trans {s' s'' : Contest ι} {ms more : List (Moment ι)} (h : Comes past s ms s')
    (later : Comes (behind past s.board.plans ms) s' more s'') :
    Comes past s (ms ++ more) s'' where
  history := history_append.2 ⟨h.history, h.stored ▸ later.history⟩
  stored := by rw [stored_append, h.stored, later.stored]
  numbered := by
    rw [behind_append, h.stored]
    exact later.numbered
  reached i := by
    rw [own_append]
    exact (h.reached i).append (later.reached i)

/-- What programs do on a board is a history of its plans, in which each has come so far. -/
theorem comes_play (turns : List ι) (numbered : s.board.Numbered past) :
    Comes past s (play turns s).1 (play turns s).2 := by
  induction turns generalizing past s with
  | nil => exact ⟨trivial, rfl, numbered, fun _ => .here _⟩
  | cons i turns ih =>
    have now := comes_turn numbered i
    exact now.trans (ih now.numbered)

def ofRounds (rounds : ι → Round) (board : Board) : Contest ι :=
  ⟨fun i => (rounds i).program, board⟩

theorem interleaved_play (rounds : ι → Round) {board : Board} (turns : List ι)
    (sound : Sound (board.plans :: past)) (numbered : board.Numbered past) :
    Interleaved rounds past board.plans (play turns (ofRounds rounds board)).1 := by
  have comes : Comes past (ofRounds rounds board) _ _ := comes_play turns numbered
  exact ⟨sound, comes.history, fun i => ⟨_, comes.reached i⟩⟩

theorem enlists_play (rounds : ι → Round) {board : Board} (turns : List ι)
    (numbered : board.Numbered past) {i : ι} (joining : Joining (rounds i).revision)
    (done : succeeds ((play turns (ofRounds rounds board)).2.programs i) = true) :
    Enlists (rounds i).revision (own i (play turns (ofRounds rounds board)).1) := by
  have comes : Comes past (ofRounds rounds board) _ _ := comes_play turns numbered
  obtain ⟨action, failures, ended⟩ := exists_of_succeeds done
  have reached := comes.reached i
  rw [ended] at reached
  exact enlists_of_ok joining reached

end Contest

end InfraOperator.Catalog

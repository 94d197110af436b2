import InfraOperator.Proofs.Metadata
import InfraOperator.Proofs.Requests
import Mathlib.Data.List.Chain

/-!
# Finalizers under other writers

The API server keeps an object as a JSON value, or none. While a client changes the finalizers of
the object, others may change it too: the requests of the client come at moments of a history in
which no version of the object stands for two states. A patch under a version takes effect on that
version only, so that what a client has read is what its patch replaces (`History.replaces`).
-/

set_option autoImplicit false

namespace InfraOperator.Editing

open Collection (EditRun)

/-! ## The server -/

def heldBy (kept : Option Json) : List String := (kept.map Json.finalizers).getD []

def received (answer : Outcome HttpResponse) : Outcome String := answer.bind (·.accepted)

/-- A read is answered with what is kept, and with its being missing only where nothing is. -/
structure Shows (kept : Option Json) (answer : Outcome HttpResponse) : Prop where
  found : ∀ body, received answer = .ok body → ∃ j, kept = some j ∧ Json.parse? body = some j
  missing : ∀ e, received answer = .error e → e.meansMissing = true → kept = none

/-- What a merge patch may make of what is kept. It needs the version that it names, and what is
left may go where it has no finalizers any more. -/
inductive Patches (patch : Json) : Option Json → Option Json → Prop
  | merged {j : Json} {after : Option Json}
      (current : patch.version? = none ∨ patch.version? = j.version?)
      (held : heldBy after = (j.mergePatch patch).finalizers) : Patches patch (some j) after

/-- How the server answers a request while it keeps this at the path, and what it keeps then. A
conflict is answered only where nothing was done, and a body only where it was. -/
inductive Serves (path : String) (kept : Option Json) :
    HttpRequest → Outcome HttpResponse → Option Json → Prop
  | elsewhere {request : HttpRequest} {answer : Outcome HttpResponse}
      (other : request.target.path ≠ path) : Serves path kept request answer kept
  | read {target : Target} {answer : Outcome HttpResponse} (here : target.path = path)
      (shows : Shows kept answer) : Serves path kept (readAt target) answer kept
  | patched {target : Target} {answer : Outcome HttpResponse} {patch : Json}
      {after : Option Json} (here : target.path = path) (patches : Patches patch kept after)
      (agreed : ∀ e, received answer = .error e → e.isConflict = false) :
      Serves path kept (patchAt patch target) answer after
  | unpatched {target : Target} {answer : Outcome HttpResponse} {patch : Json}
      (here : target.path = path) (refused : ∀ body, received answer ≠ .ok body) :
      Serves path kept (patchAt patch target) answer kept

/-! ## Histories of an object -/

structure Moment where
  entry : Option (Answered (Surroundings Http))
  before : Option Json
  after : Option Json

namespace Moment

def isRead (m : Moment) : Bool :=
  match m.entry with
  | some ⟨.store request, _⟩ => request.method = .get
  | _ => false

def Fails (m : Moment) (e : Failure) : Prop :=
  ∃ request answer, m.entry = some (exchange request answer) ∧ received answer = .error e

def isWrite (m : Moment) : Bool :=
  match m.entry with
  | some ⟨.store request, _⟩ => request.method ≠ .get
  | _ => false

end Moment

def owned (ms : List Moment) : List Moment := ms.filter (·.entry.isSome)

def ownEntries (ms : List Moment) : List (Answered (Surroundings Http)) := ms.filterMap (·.entry)

def writes (ms : List Moment) : List Moment := ms.filter (·.isWrite)

def states (ms : List Moment) : List Json :=
  ms.flatMap fun m => m.before.toList ++ m.after.toList

/-- Moments of the object at a path. Others may leave it in any state, but no version stands for two
states. -/
structure History (path : String) (ms : List Moment) : Prop where
  chained : ms.IsChain fun m next => next.before = m.after
  served : ∀ m ∈ ms, ∀ request answer, m.entry = some (exchange request answer) →
    Serves path m.before request answer m.after
  versioned : ∀ j ∈ states ms, j.version?.isSome
  unrepeated : ∀ j ∈ states ms, ∀ k ∈ states ms, j.version? = k.version? → j = k

namespace Moment

variable {m : Moment} {target : Target} {answer : Outcome HttpResponse} {patch : Json}

theorem isRead_of_entry (own : m.entry = some (exchange (readAt target) answer)) :
    m.isRead = true := by
  rw [isRead, own]
  rfl

theorem isWrite_of_entry (own : m.entry = some (exchange (patchAt patch target) answer)) :
    m.isWrite = true := by
  rw [isWrite, own]
  rfl

theorem isSome_of_isRead (h : m.isRead = true) : m.entry.isSome = true := by
  cases own : m.entry <;> simp [isRead, own] at h ⊢

theorem isWrite_of_isRead (h : m.isRead = true) : m.isWrite = false := by
  obtain ⟨⟨request, answer⟩, own⟩ := Option.isSome_iff_exists.1 (isSome_of_isRead h)
  cases request <;> simp_all [isWrite, isRead]

end Moment

section Moments

variable {ms : List Moment} {m : Moment} {j : Json}

theorem map_entry_owned (ms : List Moment) :
    (owned ms).map (·.entry) = (ownEntries ms).map some := by
  induction ms with
  | nil => rfl
  | cons m ms ih =>
    cases own : m.entry with
    | none => simpa [owned, ownEntries, own] using ih
    | some e => simpa [owned, ownEntries, own] using ih

theorem writes_eq (ms : List Moment) : writes ms = (owned ms).filter (·.isWrite) := by
  rw [writes, owned, List.filter_filter]
  refine List.filter_congr fun m _ => ?_
  cases own : m.entry <;> simp [Moment.isWrite, own]

theorem mem_states_before (mem : m ∈ ms) (kept : m.before = some j) : j ∈ states ms :=
  List.mem_flatMap.2 ⟨m, mem, by simp [kept]⟩

theorem mem_owned (mem : m ∈ ms) (own : m.entry.isSome = true) : m ∈ owned ms :=
  List.mem_filter.2 ⟨mem, own⟩

theorem mem_of_owned (h : m ∈ owned ms) : m ∈ ms := (List.mem_filter.1 h).1

theorem exists_of_ownEntries_singleton {e : Answered (Surroundings Http)}
    (h : ownEntries ms = [e]) : ∃ r ∈ ms, owned ms = [r] ∧ r.entry = some e := by
  have entries := map_entry_owned ms
  rw [h] at entries
  obtain ⟨r, rest, own, first, later⟩ := List.map_eq_cons_iff.1 entries
  obtain rfl := List.map_eq_nil_iff.1 later
  exact ⟨r, mem_of_owned (own ▸ List.mem_singleton_self r), own, first⟩

theorem exists_of_ownEntries_pair {e e' : Answered (Surroundings Http)}
    (h : ownEntries ms = [e, e']) :
    ∃ r ∈ ms, ∃ w ∈ ms, owned ms = [r, w] ∧ r.entry = some e ∧ w.entry = some e' := by
  have entries := map_entry_owned ms
  rw [h] at entries
  obtain ⟨r, rest, own, first, later⟩ := List.map_eq_cons_iff.1 entries
  obtain ⟨w, rest, rfl, second, later⟩ := List.map_eq_cons_iff.1 later
  obtain rfl := List.map_eq_nil_iff.1 later
  exact ⟨r, mem_of_owned (own ▸ List.mem_cons_self ..), w,
    mem_of_owned (own ▸ List.mem_cons_of_mem _ (List.mem_singleton_self w)), own, first, second⟩

end Moments

/-! ## What is read of an answer -/

section Answers

variable {α : Type} {c : Collection α} {metadata : α → ObjectMeta} {answer : Outcome HttpResponse}
  {object : α} {e : Failure} {kept : Option Json}

theorem decoded_eq (c : Collection α) (answer : Outcome HttpResponse) :
    c.decoded answer = (received answer).bind fun body =>
      match (Document.parse? body).bind c.read with
      | some object => .ok object
      | none => .error HttpResponse.unreadable := by
  cases answer with
  | error e => rfl
  | ok response =>
    show response.decode c.read = response.accepted.bind _
    unfold HttpResponse.decode
    cases response.accepted <;> rfl

theorem received_of_decoded (h : c.decoded answer = .ok object) :
    ∃ body d, received answer = .ok body ∧ Document.parse? body = some d ∧
      c.read d = some object := by
  rw [decoded_eq] at h
  cases got : received answer with
  | error e =>
    rw [got] at h
    cases h
  | ok body =>
    rw [got] at h
    cases read : (Document.parse? body).bind c.read with
    | none => simp [Except.bind, read] at h
    | some object' =>
      obtain rfl : object' = object := by simpa [Except.bind, read] using h
      obtain ⟨d, parsed, read⟩ := Option.bind_eq_some_iff.1 read
      exact ⟨body, d, rfl, parsed, read⟩

/-- What fails was refused, or is an answer that cannot be read. -/
theorem received_of_decoded_error (h : c.decoded answer = .error e) :
    received answer = .error e ∨ e = HttpResponse.unreadable := by
  rw [decoded_eq] at h
  cases got : received answer with
  | error e' =>
    rw [got] at h
    cases h
    exact .inl rfl
  | ok body =>
    rw [got] at h
    simp only [Except.bind] at h
    split at h
    · cases h
    · cases h
      exact .inr rfl

theorem Shows.agrees (shows : Shows kept answer) (reads : ReadsMetadata c.read metadata)
    (versioned : ∀ j, kept = some j → j.version?.isSome) (h : c.decoded answer = .ok object) :
    ∃ j, kept = some j ∧ (metadata object).resourceVersion = j.version? ∧
      (metadata object).finalizers.getD [] = j.finalizers := by
  obtain ⟨body, d, got, parsed, read⟩ := received_of_decoded h
  obtain ⟨j, rfl, value⟩ := shows.found body got
  rw [Json.parse?, parsed, Option.bind_some] at value
  exact ⟨j, rfl, reads.agrees value (versioned j rfl) read⟩

end Answers

/-! ## Changes of the finalizers -/

/-- What a client does to the finalizers of an object: it reads the object, and replaces the
finalizers it has read by the next ones, if there are any. -/
inductive Course (next : List String → Option (List String)) (unread : Failure → Outcome Unit)
    (ms : List Moment) : Outcome Unit → Prop
  | unasked (own : owned ms = []) : Course next unread ms (.error (.api .invalidRequest))
  | unread {r : Moment} {e : Failure} (own : owned ms = [r]) (isRead : r.isRead = true)
      (kept : r.after = r.before) (missing : e.meansMissing = true → r.before = none)
      (fails : r.before = none → r.Fails e) : Course next unread ms (unread e)
  | left {r : Moment} {j : Json} (own : owned ms = [r]) (isRead : r.isRead = true)
      (kept : r.after = r.before) (read : r.before = some j) (h : next j.finalizers = none) :
      Course next unread ms (.ok ())
  | unwritten {r : Moment} {j : Json} (own : owned ms = [r]) (isRead : r.isRead = true)
      (kept : r.after = r.before) (read : r.before = some j) :
      Course next unread ms (.error (.api .invalidRequest))
  | written {r w : Moment} {j : Json} {finalizers : List String} (own : owned ms = [r, w])
      (isRead : r.isRead = true) (isWrite : w.isWrite = true) (kept : r.after = r.before)
      (read : r.before = some j) (h : next j.finalizers = some finalizers)
      (replaced : w.before = some j) (held : heldBy w.after = finalizers) :
      Course next unread ms (.ok ())
  | refused {r w : Moment} {j : Json} {e : Failure} (own : owned ms = [r, w])
      (isRead : r.isRead = true) (isWrite : w.isWrite = true) (kept : r.after = r.before)
      (read : r.before = some j) (h : next j.finalizers ≠ none)
      (untouched : e.isConflict = true → w.after = w.before) : Course next unread ms (.error e)

section Changes

variable {α : Type} {c : Collection α} {metadata : α → ObjectMeta} {name path : String}
  {ms : List Moment} {outcome : Outcome Unit}

theorem History.reads (history : History path ms) {r : Moment} (mem : r ∈ ms) {target : Target}
    {answer : Outcome HttpResponse} (own : r.entry = some (exchange (readAt target) answer))
    (here : target.path = path) : Shows r.before answer ∧ r.after = r.before := by
  have served := history.served r mem _ _ own
  generalize r.after = after at served ⊢
  cases served with
  | elsewhere other => exact absurd here other
  | read _ shows => exact ⟨shows, rfl⟩

theorem History.agrees (history : History path ms) (reads : ReadsMetadata c.read metadata)
    {r : Moment} (mem : r ∈ ms) {target : Target} {answer : Outcome HttpResponse} {object : α}
    (own : r.entry = some (exchange (readAt target) answer)) (here : target.path = path)
    (read : c.decoded answer = .ok object) :
    r.after = r.before ∧ ∃ j, r.before = some j ∧
      (metadata object).resourceVersion = j.version? ∧
      (metadata object).finalizers.getD [] = j.finalizers := by
  obtain ⟨shows, kept⟩ := history.reads mem own here
  exact ⟨kept, shows.agrees reads
    (fun j there => history.versioned j (mem_states_before mem there)) read⟩

/-- Asked to patch it, the server does so or not, and a conflict or a body tells which. -/
theorem History.patches (history : History path ms) {w : Moment} (mem : w ∈ ms)
    {target : Target} {patch : Json} {answer : Outcome HttpResponse}
    (own : w.entry = some (exchange (patchAt patch target) answer))
    (here : target.path = path) :
    (∀ body, received answer = .ok body → Patches patch w.before w.after) ∧
      ∀ e, received answer = .error e → e.isConflict = true → w.after = w.before := by
  have served := history.served w mem _ _ own
  generalize w.after = after at served ⊢
  cases served with
  | elsewhere other => exact absurd here other
  | patched _ patches agreed =>
    refine ⟨fun _ _ => patches, fun e got conflict => ?_⟩
    rw [agreed e got] at conflict
    cases conflict
  | unpatched _ refused => exact ⟨fun body got => absurd got (refused body), fun _ _ _ => rfl⟩

/-- What a patch of the finalizers replaces is the version they were read at. -/
theorem History.replaces (history : History path ms) {r w : Moment} {j : Json} {m : ObjectMeta}
    {finalizers : List String} (mem : r ∈ ms) (mem' : w ∈ ms) (read : r.before = some j)
    (version : m.resourceVersion = j.version?)
    (patches : Patches (finalizerPatch m finalizers) w.before w.after) :
    w.before = some j ∧ heldBy w.after = finalizers := by
  have listed := mem_states_before mem read
  have versioned := history.versioned j listed
  generalize kept : w.before = before at patches ⊢
  generalize w.after = after at patches ⊢
  cases patches with
  | @merged k _ current held =>
    rw [version?_finalizerPatch, version] at current
    have same : j = k := by
      rcases current with none | current
      · rw [none] at versioned
        cases versioned
      · exact history.unrepeated j listed k (mem_states_before mem' kept) current
    rw [finalizers_mergePatch] at held
    exact ⟨by rw [same], held⟩

theorem History.course {unread : Failure → Outcome Unit}
    {next : ObjectMeta → Option (List String)} {next' : List String → Option (List String)}
    (history : ∀ target, c.target? name "" = some target → History target.path ms)
    (reads : ReadsMetadata c.read metadata)
    (listed : ∀ m, next m = next' (m.finalizers.getD []))
    (edits : EditRun c metadata name unread next (ownEntries ms) outcome) :
    Course next' unread ms outcome := by
  generalize asked : ownEntries ms = run at edits
  cases edits with
  | unaddressed h =>
    have entries := map_entry_owned ms
    rw [asked] at entries
    exact .unasked (List.map_eq_nil_iff.1 entries)
  | unread addressed h =>
    obtain ⟨r, mem, own, entry⟩ := exists_of_ownEntries_singleton asked
    obtain ⟨shows, kept⟩ := (history _ addressed).reads mem entry rfl
    refine .unread own (Moment.isRead_of_entry entry) kept (fun missing => ?_) fun gone => ?_
    · rcases received_of_decoded_error h with got | rfl
      · exact shows.missing _ got missing
      · cases missing
    · cases got : received _ with
      | error e =>
        rw [decoded_eq, got] at h
        cases h
        exact ⟨_, _, entry, got⟩
      | ok body =>
        obtain ⟨j, there, -⟩ := shows.found body got
        cases gone.symm.trans there
  | left addressed read h =>
    obtain ⟨r, mem, own, entry⟩ := exists_of_ownEntries_singleton asked
    obtain ⟨kept, j, there, -, held⟩ := (history _ addressed).agrees reads mem entry rfl read
    rw [listed, held] at h
    exact .left own (Moment.isRead_of_entry entry) kept there h
  | unwritten addressed read h unaddressed =>
    obtain ⟨r, mem, own, entry⟩ := exists_of_ownEntries_singleton asked
    obtain ⟨kept, j, there, -⟩ := (history _ addressed).agrees reads mem entry rfl read
    exact .unwritten own (Moment.isRead_of_entry entry) kept there
  | written addressed read h addressed' =>
    obtain ⟨r, mem, w, mem', own, entry, entry'⟩ := exists_of_ownEntries_pair asked
    obtain ⟨kept, j, there, version, held⟩ :=
      (history _ addressed).agrees reads mem entry rfl read
    obtain ⟨done, undone⟩ := (history _ addressed).patches mem' entry'
      (Collection.path_eq_of_target? addressed addressed')
    rw [listed, held] at h
    have isRead := Moment.isRead_of_entry entry
    have isWrite := Moment.isWrite_of_entry entry'
    cases answered : c.decoded _ with
    | ok object' =>
      obtain ⟨body, _, got, -, -⟩ := received_of_decoded answered
      obtain ⟨replaced, held⟩ :=
        (history _ addressed).replaces mem mem' there version (done body got)
      exact .written own isRead isWrite kept there h replaced held
    | error e =>
      refine .refused own isRead isWrite kept there (by simp [h]) fun conflict => ?_
      rcases received_of_decoded_error answered with got | rfl
      · exact undone e got conflict
      · cases conflict

end Changes

/-! ## What becomes of the finalizers -/

/-- What adding a finalizer does. It is appended to those that are there just before the patch, and
nothing is asked for but a read where it is there already. -/
structure Added (finalizer : String) (ms : List Moment) (outcome : Outcome Unit) : Prop where
  succeeded : outcome = .ok () →
    (writes ms = [] ∧ ∃ r ∈ ms, r.isRead = true ∧ finalizer ∈ heldBy r.before) ∨
    ∃ w, writes ms = [w] ∧ finalizer ∉ heldBy w.before ∧
      heldBy w.after = heldBy w.before ++ [finalizer]
  present : ∀ r ∈ ms, r.isRead = true → finalizer ∈ heldBy r.before → writes ms = []
  conflicted : ∀ e, outcome = .error e → e.isConflict = true →
    ∀ m ∈ ms, m.entry ≠ none → m.after = m.before

/-- What removing a finalizer does. Those that are there just before the patch stay, but for that
one, and nothing is asked for but a read where there is no object. -/
structure Removed (finalizer : String) (ms : List Moment) (outcome : Outcome Unit) : Prop where
  succeeded : outcome = .ok () →
    (writes ms = [] ∧ ∃ r ∈ ms, r.isRead = true ∧ r.before = none) ∨
    ∃ w, writes ms = [w] ∧ heldBy w.after = (heldBy w.before).filter (· ≠ finalizer)
  missing : ∀ r ∈ ms, r.isRead = true → r.before = none → writes ms = [] ∧
    (outcome = .ok () ∨ ∃ e, r.Fails e ∧ e.meansMissing = false ∧ outcome = .error e)
  conflicted : ∀ e, outcome = .error e → e.isConflict = true →
    ∀ m ∈ ms, m.entry ≠ none → m.after = m.before

namespace Course

variable {next : List String → Option (List String)} {unread : Failure → Outcome Unit}
  {ms : List Moment} {outcome : Outcome Unit} {finalizer : String} {r w : Moment}

theorem writes_of_owned_singleton (own : owned ms = [r]) (isRead : r.isRead = true) :
    writes ms = [] := by
  rw [writes_eq, own]
  simp [Moment.isWrite_of_isRead isRead]

theorem writes_of_owned_pair (own : owned ms = [r, w]) (isRead : r.isRead = true)
    (isWrite : w.isWrite = true) : writes ms = [w] := by
  rw [writes_eq, own]
  simp [Moment.isWrite_of_isRead isRead, isWrite]

theorem eq_of_isRead (own : owned ms = [r, w]) (isWrite : w.isWrite = true) {m : Moment}
    (mem : m ∈ ms) (isRead : m.isRead = true) : m = r := by
  have asked := mem_owned mem (Moment.isSome_of_isRead isRead)
  rw [own, List.mem_cons, List.mem_singleton] at asked
  rcases asked with rfl | rfl
  · rfl
  · rw [Moment.isWrite_of_isRead isRead] at isWrite
    cases isWrite

theorem writes_cases (course : Course next unread ms outcome) {m : Moment} (mem : m ∈ ms)
    (isRead : m.isRead = true) :
    writes ms = [] ∨ ∃ j, m.before = some j ∧ next j.finalizers ≠ none := by
  cases course with
  | unasked own =>
    left
    rw [writes_eq, own]
    rfl
  | unread own isRead' => exact .inl (writes_of_owned_singleton own isRead')
  | left own isRead' => exact .inl (writes_of_owned_singleton own isRead')
  | unwritten own isRead' => exact .inl (writes_of_owned_singleton own isRead')
  | written own _ isWrite _ read h =>
    rw [eq_of_isRead own isWrite mem isRead]
    exact .inr ⟨_, read, by simp [h]⟩
  | refused own _ isWrite _ read h =>
    rw [eq_of_isRead own isWrite mem isRead]
    exact .inr ⟨_, read, h⟩

theorem exists_fails (course : Course next unread ms outcome) {m : Moment} (mem : m ∈ ms)
    (isRead : m.isRead = true) (gone : m.before = none) :
    ∃ e, m.Fails e ∧ outcome = unread e := by
  have asked := mem_owned mem (Moment.isSome_of_isRead isRead)
  cases course with
  | unasked own =>
    rw [own] at asked
    cases asked
  | unread own _ _ _ fails =>
    rw [own, List.mem_singleton] at asked
    exact ⟨_, asked ▸ fails (asked ▸ gone), rfl⟩
  | left own _ _ read =>
    rw [own, List.mem_singleton] at asked
    cases (asked ▸ gone).symm.trans read
  | unwritten own _ _ read =>
    rw [own, List.mem_singleton] at asked
    cases (asked ▸ gone).symm.trans read
  | written own _ isWrite _ read =>
    cases (eq_of_isRead own isWrite mem isRead ▸ gone).symm.trans read
  | refused own _ isWrite _ read =>
    cases (eq_of_isRead own isWrite mem isRead ▸ gone).symm.trans read

theorem conflicted (course : Course next unread ms outcome) {e : Failure}
    (failed : outcome = .error e) (conflict : e.isConflict = true) :
    ∀ m ∈ ms, m.entry ≠ none → m.after = m.before := by
  intro m mem own
  have asked := mem_owned mem (Option.isSome_iff_ne_none.2 own)
  cases course with
  | unasked own =>
    rw [own] at asked
    cases asked
  | unread own _ kept =>
    rw [own, List.mem_singleton] at asked
    rw [asked, kept]
  | left own _ kept =>
    rw [own, List.mem_singleton] at asked
    rw [asked, kept]
  | unwritten own _ kept =>
    rw [own, List.mem_singleton] at asked
    rw [asked, kept]
  | written => cases failed
  | refused own _ _ kept _ _ untouched =>
    cases failed
    rw [own, List.mem_cons, List.mem_singleton] at asked
    rcases asked with rfl | rfl
    · exact kept
    · exact untouched conflict

theorem added (course : Course (fun held =>
      if held.contains finalizer then none else some (held ++ [finalizer])) .error ms outcome) :
    Added finalizer ms outcome where
  conflicted _ := course.conflicted
  succeeded done := by
    cases course with
    | left own isRead _ read h =>
      refine .inl ⟨writes_of_owned_singleton own isRead, _, ?_, isRead, ?_⟩
      · exact mem_of_owned (own ▸ List.mem_singleton_self _)
      · simpa [heldBy, read] using h
    | written own isRead isWrite _ _ h replaced held =>
      refine .inr ⟨_, writes_of_owned_pair own isRead isWrite, ?_⟩
      rw [held, heldBy, replaced]
      simp only [List.contains_eq_mem, decide_eq_true_eq, Option.ite_none_left_eq_some,
        Option.some.injEq] at h
      exact ⟨h.1, h.2.symm⟩
    | _ => cases done
  present r mem isRead present := by
    rcases course.writes_cases mem isRead with nothing | ⟨j, read, some⟩
    · exact nothing
    · rw [read, heldBy, Option.map_some, Option.getD_some] at present
      exact absurd (by simp [present]) some

theorem removed (course : Course (fun held => some (held.filter (· ≠ finalizer)))
      Collection.unlessMissing ms outcome) : Removed finalizer ms outcome where
  conflicted _ := course.conflicted
  succeeded done := by
    cases course with
    | @unread r e own isRead _ missing =>
      have absent : e.meansMissing = true := by
        by_cases absent : e.meansMissing = true
        · exact absent
        · rw [Collection.unlessMissing, if_neg absent] at done
          cases done
      refine .inl ⟨writes_of_owned_singleton own isRead, r, ?_, isRead, missing absent⟩
      exact mem_of_owned (own ▸ List.mem_singleton_self _)
    | left _ _ _ _ h => cases h
    | written own isRead isWrite _ _ h replaced held =>
      refine .inr ⟨_, writes_of_owned_pair own isRead isWrite, ?_⟩
      cases h
      rw [held, heldBy, replaced]
      rfl
    | _ => cases done
  missing r mem isRead gone := by
    constructor
    · rcases course.writes_cases mem isRead with nothing | ⟨j, read, -⟩
      · exact nothing
      · cases gone.symm.trans read
    · obtain ⟨e, fails, rfl⟩ := course.exists_fails mem isRead gone
      by_cases absent : e.meansMissing = true
      · exact .inl (if_pos absent)
      · exact .inr ⟨e, fails, by simpa using absent, if_neg absent⟩

end Course

/-! ## The two clients -/

inductive Editor
  | configuration (name namespaceName : String)
  | revision (name : String)

namespace Editor

def target? : Editor → Option Target
  | .configuration name ns => (Api.configurations ns).target? name ""
  | .revision name => Api.revisions.target? name ""

def add (finalizer : String) : Editor → Client Unit
  | .configuration name ns => Api.configurationCall (.addFinalizer name ns finalizer)
  | .revision name => Api.revisionCall (.addFinalizer name finalizer)

def remove (finalizer : String) : Editor → Client Unit
  | .configuration name ns => Api.configurationCall (.removeFinalizer name ns finalizer)
  | .revision name => Api.revisionCall (.removeFinalizer name finalizer)

variable {editor : Editor} {finalizer : String} {ms : List Moment} {outcome : Outcome Unit}

theorem course_add (history : ∀ target, editor.target? = some target → History target.path ms)
    (reached : (editor.add finalizer).run.Reaches (ownEntries ms) (.done outcome)) :
    Course (fun held => if held.contains finalizer then none else some (held ++ [finalizer]))
      .error ms outcome := by
  cases editor with
  | configuration name ns =>
    exact History.course history Configuration.readsMetadata (fun _ => rfl)
      (Collection.reaches_edited_iff.1 (Collection.run_addFinalizer _ ▸ reached))
  | revision name =>
    exact History.course history Revision.readsMetadata (fun _ => rfl)
      (Collection.reaches_edited_iff.1 (Collection.run_addFinalizer _ ▸ reached))

theorem course_remove (history : ∀ target, editor.target? = some target → History target.path ms)
    (reached : (editor.remove finalizer).run.Reaches (ownEntries ms) (.done outcome)) :
    Course (fun held => some (held.filter (· ≠ finalizer))) Collection.unlessMissing ms
      outcome := by
  cases editor with
  | configuration name ns =>
    exact History.course history Configuration.readsMetadata (fun _ => rfl)
      (Collection.reaches_edited_iff.1 (Collection.run_removeFinalizer _ ▸ reached))
  | revision name =>
    exact History.course history Revision.readsMetadata (fun _ => rfl)
      (Collection.reaches_edited_iff.1 (Collection.run_removeFinalizer _ ▸ reached))

end Editor

def readDocument (cs : List Char) : Option Document :=
  (Json.readValue (2 * cs.length + 2) Json.depthLimit cs).bind fun r =>
    if (Json.skipSpace r.2).isEmpty then some r.1 else none

theorem parse?_ofList (cs : List Char) : Document.parse? (String.ofList cs) = readDocument cs := by
  rw [Document.parse?, String.toList_ofList, readDocument]
  cases Json.readValue (2 * cs.length + 2) Json.depthLimit cs <;> rfl

def bucketText (finalizers version : String) : List Char :=
  ["\x7b\"metadata\":\x7b\"finalizers\":[", finalizers, "],\"resourceVersion\":", version,
    "\x7d,\"spec\":\x7b\"module\":\"m\",\"providerRef\":\x7b", "\"name\":\"aws\"\x7d\x7d\x7d"].flatMap
    String.toList

def bucketJson (finalizers : List String) (version : String) : Json :=
  .obj [("metadata", .obj [("finalizers", Write.texts finalizers),
      ("resourceVersion", .str version)]),
    ("spec", .obj [("module", .str "m"), ("providerRef", .obj [("name", .str "aws")])])]

def bucket (finalizers : List String) (version : String) : Configuration :=
  { metadata := { finalizers := some finalizers, resourceVersion := some version }
    spec := { module := "m", providerName := "aws" } }

def bucketTarget (query : Option String) : Target :=
  ⟨"/apis/terrace.dev/v1alpha1/namespaces/apps/configurations/bucket", query⟩

def answerOf (text : List Char) : Outcome HttpResponse := .ok ⟨200, String.ofList text⟩

theorem received_answerOf (text : List Char) :
    received (answerOf text) = .ok (String.ofList text) := rfl

theorem decoded_answerOf {α : Type} {c : Collection α} {text : List Char} {object : α}
    (h : (readDocument text).bind c.read = some object) :
    c.decoded (answerOf text) = .ok object := by
  rw [decoded_eq, received_answerOf]
  simp [Except.bind, parse?_ofList, h]

theorem shows_answerOf {text : List Char} {j : Json}
    (h : (readDocument text).bind Document.value? = some j) :
    Shows (some j) (answerOf text) where
  found body got := by
    obtain rfl := Except.ok.inj got
    exact ⟨j, rfl, by rw [Json.parse?, parse?_ofList, h]⟩
  missing e got := by cases got

theorem exchange_inj {request request' : HttpRequest} {answer answer' : Outcome HttpResponse}
    (h : exchange request answer = exchange request' answer') :
    request = request' ∧ answer = answer' := by
  cases h
  exact ⟨rfl, rfl⟩

def appended : List Moment :=
  [⟨none, some (bucketJson ["a"] "1"), some (bucketJson ["a", "b"] "2")⟩,
    ⟨some (exchange (readAt (bucketTarget none))
      (answerOf (bucketText "\"a\",\"b\"" "\"2\""))),
      some (bucketJson ["a", "b"] "2"), some (bucketJson ["a", "b"] "2")⟩,
    ⟨some (exchange (patchAt (finalizerPatch (bucket ["a", "b"] "2").metadata ["a", "b", "f"])
        (bucketTarget (some "")))
      (answerOf (bucketText "\"a\",\"b\",\"f\"" "\"3\""))),
      some (bucketJson ["a", "b"] "2"), some (bucketJson ["a", "b", "f"] "3")⟩]

theorem history_appended : History (bucketTarget none).path appended where
  chained := by simp [appended]
  served := by
    intro m mem request answer own
    simp only [appended, List.mem_cons, List.not_mem_nil, or_false] at mem
    rcases mem with rfl | rfl | rfl
    · cases own
    · obtain ⟨rfl, rfl⟩ := exchange_inj (Option.some.inj own)
      exact .read rfl (shows_answerOf (by decide +kernel))
    · obtain ⟨rfl, rfl⟩ := exchange_inj (Option.some.inj own)
      refine .patched rfl (.merged (.inr (by decide +kernel)) (by decide +kernel)) ?_
      intro e got
      cases got
  versioned := by decide +kernel
  unrepeated := by decide +kernel

theorem reaches_appended :
    ((Editor.configuration "bucket" "apps").add "f").run.Reaches (ownEntries appended)
      (.done (.ok ())) := by
  have read : (Api.configurations "apps").decoded
      (answerOf (bucketText "\"a\",\"b\"" "\"2\"")) = .ok (bucket ["a", "b"] "2") :=
    decoded_answerOf (by decide +kernel)
  have patched : (Api.configurations "apps").decoded
      (answerOf (bucketText "\"a\",\"b\",\"f\"" "\"3\"")) = .ok (bucket ["a", "b", "f"] "3") :=
    decoded_answerOf (by decide +kernel)
  have edits : EditRun (Api.configurations "apps") Configuration.metadata "bucket" .error
      (Collection.withFinalizer "f") (ownEntries appended) _ :=
    .written (by decide +kernel) read (by decide +kernel) (by decide +kernel)
  rw [patched] at edits
  have reached := Collection.reaches_edited_iff.2 edits
  rwa [← Collection.run_addFinalizer] at reached

def revisionText (version : String) : List Char :=
  ["\x7b\"metadata\":\x7b\"finalizers\":[\"f\"],\"resourceVersion\":", version,
    "\x7d,\"spec\":\x7b\"configuration\":\x7b\"module\":\"m\",",
    "\"providerRef\":\x7b\"name\":\"aws\"\x7d\x7d,",
    "\"plan\":\x7b\"name\":\"net\",\"revision\":\"1.0.0\"\x7d\x7d\x7d"].flatMap String.toList

def revisionJson (version : String) : Json :=
  .obj [("metadata", .obj [("finalizers", Write.texts ["f"]), ("resourceVersion", .str version)]),
    ("spec", .obj
      [("configuration", .obj [("module", .str "m"), ("providerRef", .obj [("name", .str "aws")])]),
        ("plan", .obj [("name", .str "net"), ("revision", .str "1.0.0")])])]

def revision (version : String) : Revision :=
  { metadata := { finalizers := some ["f"], resourceVersion := some version }
    spec :=
      { planName := "net", version := "1.0.0"
        configuration := { module := "m", providerName := "aws" } } }

def revisionTarget (query : Option String) : Target :=
  ⟨"/apis/terrace.dev/v1alpha1/revisions/net-1.0.0", query⟩

def refused : Outcome HttpResponse := .ok ⟨409, ""⟩

def conflictTold : Failure := .refused (.ofResponse ⟨409, ""⟩)

theorem received_refused : received refused = .error conflictTold := by
  have unread : Document.parse? "" = none := by decide +kernel
  have isRefusal : HttpResponse.isRefusal ⟨409, ""⟩ = true := rfl
  simp [received, refused, Except.bind, HttpResponse.accepted, isRefusal, unread, conflictTold]

def overtaken : List Moment :=
  [⟨some (exchange (readAt (revisionTarget none)) (answerOf (revisionText "\"5\""))),
      some (revisionJson "5"), some (revisionJson "5")⟩,
    ⟨none, some (revisionJson "5"), some (revisionJson "6")⟩,
    ⟨some (exchange (patchAt (finalizerPatch (revision "5").metadata [])
        (revisionTarget (some ""))) refused),
      some (revisionJson "6"), some (revisionJson "6")⟩]

theorem history_overtaken : History (revisionTarget none).path overtaken where
  chained := by simp [overtaken]
  served := by
    intro m mem request answer own
    simp only [overtaken, List.mem_cons, List.not_mem_nil, or_false] at mem
    rcases mem with rfl | rfl | rfl
    · obtain ⟨rfl, rfl⟩ := exchange_inj (Option.some.inj own)
      exact .read rfl (shows_answerOf (by decide +kernel))
    · cases own
    · obtain ⟨rfl, rfl⟩ := exchange_inj (Option.some.inj own)
      refine .unpatched rfl fun body got => ?_
      rw [received_refused] at got
      cases got
  versioned := by decide +kernel
  unrepeated := by decide +kernel

theorem reaches_overtaken :
    ((Editor.revision "net-1.0.0").remove "f").run.Reaches (ownEntries overtaken)
      (.done (.error conflictTold)) := by
  have read : Api.revisions.decoded (answerOf (revisionText "\"5\"")) = .ok (revision "5") :=
    decoded_answerOf (by decide +kernel)
  have patched : Api.revisions.decoded refused = .error conflictTold := by
    rw [decoded_eq, received_refused]
    rfl
  have edits : EditRun Api.revisions Revision.metadata "net-1.0.0" Collection.unlessMissing
      (Collection.withoutFinalizer "f") (ownEntries overtaken) _ :=
    .written (by decide +kernel) read (by decide +kernel) (by decide +kernel)
  rw [patched] at edits
  have reached := Collection.reaches_edited_iff.2 edits
  rwa [← Collection.run_removeFinalizer] at reached

end InfraOperator.Editing

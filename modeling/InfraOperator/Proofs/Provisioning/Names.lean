import InfraOperator.Proofs.Provisioning.Correlation
import InfraOperator.Proofs.Selectors

/-!
# Names of units

The name of a unit joins its stage, the uid without dashes, the generation and the second of the
wish for a retry by dashes. It tells them all apart although the numbers may have a sign, since
there is no dash in the two parts before them and none after the digits of a number. The job that
follows the logs of a unit has a name that no unit has.
-/

set_option autoImplicit false

namespace InfraOperator

/-- Where neither of two texts has a dash, what stands behind the dash after them is told by the
joined text, and so are they. -/
theorem append_dash_inj {front front' back back' : List Char} (h : '-' ∉ front)
    (h' : '-' ∉ front') (same : front ++ '-' :: back = front' ++ '-' :: back') :
    front = front' ∧ back = back' := by
  have parts := congrArg (Version.cut '-') same
  rw [Version.cut_append h, Version.cut_append h', Prod.mk.injEq, Option.some.injEq] at parts
  exact parts

namespace Stage

theorem dash_not_mem_text (s : Stage) : '-' ∉ s.text.toList := by
  cases s <;> decide

theorem text_inj {s s' : Stage} (h : s.text = s'.text) : s = s' := by
  have read := congrArg ofText? h
  rwa [ofText?_text, ofText?_text, Option.some.injEq] at read

end Stage

section compactUid

variable {uid uid' : String}

theorem toList_compactUid (uid : String) :
    (compactUid uid).toList = uid.toList.filter (· ≠ '-') := by
  simp [compactUid]

theorem dash_not_mem_compactUid (uid : String) : '-' ∉ (compactUid uid).toList := by
  simp [toList_compactUid]

/-- Texts with their dashes in the same places differ in what is left without them. -/
theorem eq_of_filter_dash {cs ds : List Char} (places : cs.map (· == '-') = ds.map (· == '-'))
    (same : cs.filter (· ≠ '-') = ds.filter (· ≠ '-')) : cs = ds := by
  induction cs generalizing ds with
  | nil => simpa using places
  | cons c cs ih =>
    cases ds with
    | nil => simp at places
    | cons d ds =>
      simp only [List.map_cons, List.cons.injEq] at places
      by_cases dash : c = '-'
      · obtain rfl : d = '-' := by simpa [dash] using places.1.symm
        simp only [dash, ne_eq, not_true_eq_false, decide_false, Bool.false_eq_true,
          not_false_eq_true, List.filter_cons_of_neg] at same
        rw [dash, ih places.2 same]
      · have other : d ≠ '-' := by
          rintro rfl
          exact dash (by simpa using places.1)
        rw [List.filter_cons_of_pos (by simpa using dash),
          List.filter_cons_of_pos (by simpa using other), List.cons.injEq] at same
        rw [same.1, ih places.2 same.2]

theorem eq_of_compactUid (places : uid.toList.map (· == '-') = uid'.toList.map (· == '-'))
    (same : compactUid uid = compactUid uid') : uid = uid' := by
  have left := congrArg String.toList same
  rw [toList_compactUid, toList_compactUid] at left
  exact String.toList_inj.1 (eq_of_filter_dash places left)

end compactUid

def retryChars : Option Instant → List Char
  | some marker => '-' :: (toString marker.seconds).toList
  | none => []

theorem endsDigits_retryChars (retry : Option Instant) : Text.EndsDigits (retryChars retry) := by
  cases retry with
  | none => exact nofun
  | some marker =>
    rintro _ ⟨⟩
    rfl

theorem retryChars_inj {retry retry' : Option Instant} (h : retryChars retry = retryChars retry') :
    retry.map (·.seconds) = retry'.map (·.seconds) := by
  cases retry with
  | none =>
    cases retry' with
    | none => rfl
    | some marker' => cases h
  | some marker =>
    cases retry' with
    | none => cases h
    | some marker' =>
      have written := (List.cons.inj h).2
      have none_after : Text.EndsDigits [] := nofun
      obtain ⟨seconds, -⟩ := Text.toString_append_inj none_after none_after
        ((List.append_nil _).trans (written.trans (List.append_nil _).symm))
      exact congrArg some seconds

theorem toList_unitName (stage : Stage) (uid : String) (generation : Int)
    (retry : Option Instant) : (unitName stage uid generation retry).toList =
      stage.text.toList ++ '-' :: ((compactUid uid).toList ++ '-' ::
        ((toString generation).toList ++ retryChars retry)) := by
  cases retry <;> simp [unitName, retryChars]

section unitName

variable {stage stage' : Stage} {uid uid' : String} {generation generation' : Int}
  {retry retry' : Option Instant}

theorem unitName_eq_iff :
    unitName stage uid generation retry = unitName stage' uid' generation' retry' ↔
      stage = stage' ∧ compactUid uid = compactUid uid' ∧ generation = generation' ∧
        retry.map (·.seconds) = retry'.map (·.seconds) := by
  constructor
  · intro same
    have chars := congrArg String.toList same
    rw [toList_unitName, toList_unitName] at chars
    obtain ⟨staged, chars⟩ :=
      append_dash_inj stage.dash_not_mem_text stage'.dash_not_mem_text chars
    obtain ⟨owned, chars⟩ :=
      append_dash_inj (dash_not_mem_compactUid uid) (dash_not_mem_compactUid uid') chars
    obtain ⟨numbered, wished⟩ :=
      Text.toString_append_inj (endsDigits_retryChars retry) (endsDigits_retryChars retry') chars
    exact ⟨Stage.text_inj (String.toList_inj.1 staged), String.toList_inj.1 owned, numbered,
      retryChars_inj wished⟩
  · rintro ⟨rfl, owned, rfl, wished⟩
    have added : retryChars retry = retryChars retry' := by
      cases retry <;> cases retry' <;> simp_all [retryChars]
    rw [← String.toList_inj, toList_unitName, toList_unitName, owned, added]

theorem watcherName_ne_unitName (name : String) :
    watcherName name ≠ unitName stage uid generation retry := by
  intro same
  have chars := congrArg String.toList same
  rw [toList_unitName, watcherName, String.toList_append] at chars
  have parted : "watch-".toList ++ name.toList = "watch".toList ++ '-' :: name.toList := by
    simp
  rw [parted] at chars
  have first := (append_dash_inj (by decide) stage.dash_not_mem_text chars).1
  cases stage <;> exact absurd first (by decide)

end unitName

namespace UnitRequest

variable {r r' : UnitRequest} {unit unit' : Job}

/-- Units that are rendered under one name run for the same. -/
theorem same_of_name_eq (rendered : r.renderUnit = .ok unit) (rendered' : r'.renderUnit = .ok unit')
    (same : unit.metadata.name = unit'.metadata.name) :
    ∃ uid uid', r.configuration.metadata.uid = some uid ∧
      r'.configuration.metadata.uid = some uid' ∧ r.stage = r'.stage ∧
      compactUid uid = compactUid uid' ∧ r.generation = r'.generation ∧
      r.retry.map (·.seconds) = r'.retry.map (·.seconds) := by
  obtain ⟨uid, account, owned, rfl⟩ := exists_of_renderUnit rendered
  obtain ⟨uid', account', owned', rfl⟩ := exists_of_renderUnit rendered'
  exact ⟨uid, uid', owned, owned', unitName_eq_iff.1 (Option.some.inj same)⟩

theorem name_ne_of_renderWatcher {followed watcher : Job} (rendered : r.renderUnit = .ok unit)
    (watched : r'.renderWatcher followed = .ok watcher) :
    watcher.metadata.name ≠ unit.metadata.name := by
  obtain ⟨uid, account, -, rfl⟩ := exists_of_renderUnit rendered
  obtain ⟨uid', ns, name, -, -, rfl⟩ := exists_of_renderWatcher watched
  exact fun same => watcherName_ne_unitName name (Option.some.inj same)

/-- The name of a unit tells its stage, its generation, the second of the wish for a retry, and the
uid but for its dashes, and is no name of a job that follows the logs of a unit. So a job that is
rendered under a name that another rendered one has already runs for the same, and for the same
uid where all have their dashes in the same places. -/
theorem unitName_exact :
    (∀ (stage stage' : Stage) (uid uid' : String) (generation generation' : Int)
      (retry retry' : Option Instant),
      unitName stage uid generation retry = unitName stage' uid' generation' retry' ↔
        stage = stage' ∧ compactUid uid = compactUid uid' ∧ generation = generation' ∧
          retry.map (·.seconds) = retry'.map (·.seconds)) ∧
    (∀ (name : String) (stage : Stage) (uid : String) (generation : Int)
      (retry : Option Instant), watcherName name ≠ unitName stage uid generation retry) ∧
    (∀ (r r' : UnitRequest) (unit unit' : Job), r.renderUnit = .ok unit →
      r'.renderUnit = .ok unit' → unit.metadata.name = unit'.metadata.name →
      ∃ uid uid', r.configuration.metadata.uid = some uid ∧
        r'.configuration.metadata.uid = some uid' ∧ r.stage = r'.stage ∧
        compactUid uid = compactUid uid' ∧ r.generation = r'.generation ∧
        r.retry.map (·.seconds) = r'.retry.map (·.seconds) ∧
        (uid.toList.map (· == '-') = uid'.toList.map (· == '-') → uid = uid')) ∧
    ∀ (r r' : UnitRequest) (unit followed watcher : Job), r.renderUnit = .ok unit →
      r'.renderWatcher followed = .ok watcher → watcher.metadata.name ≠ unit.metadata.name := by
  refine ⟨fun _ _ _ _ _ _ _ _ => unitName_eq_iff, fun name _ _ _ _ => watcherName_ne_unitName name,
    ?_, fun _ _ _ _ _ => name_ne_of_renderWatcher⟩
  intro r r' unit unit' rendered rendered' same
  obtain ⟨uid, uid', owned, owned', staged, compact, numbered, wished⟩ :=
    same_of_name_eq rendered rendered' same
  exact ⟨uid, uid', owned, owned', staged, compact, numbered, wished,
    fun places => eq_of_compactUid places compact⟩

/-- The request from before 1970 for a wish from the start of its second. -/
def wholeSecond : UnitRequest := { beforeEpoch with retry := some ⟨-1, 0⟩ }

/-- Two wishes of one second get one name, which the job that follows either unit does not have. -/
theorem unitName_exact_wholeSecond :
    let unit := beforeEpoch.unitFor "u-1" Rendering.defaultServiceAccount
    let unit' := wholeSecond.unitFor "u-1" Rendering.defaultServiceAccount
    let watcher := beforeEpoch.watcherFor "u-1" "infra"
      (unitName .apply "u-1" (-3) (some ⟨-1, 500000000⟩))
    beforeEpoch.renderUnit = .ok unit ∧ wholeSecond.renderUnit = .ok unit' ∧
      beforeEpoch.renderWatcher unit = .ok watcher ∧ unit.metadata.name = unit'.metadata.name ∧
      beforeEpoch.generation = wholeSecond.generation ∧
      watcher.metadata.name ≠ unit'.metadata.name ∧
      unitName .apply "u-1" (-3) (some ⟨1, 0⟩) ≠ unitName .apply "u-1" (-3) (some ⟨-1, 0⟩) := by
  intro unit unit' watcher
  have rendered : beforeEpoch.renderUnit = .ok unit := rfl
  have rendered' : wholeSecond.renderUnit = .ok unit' := rfl
  have watched : beforeEpoch.renderWatcher unit = .ok watcher := rfl
  obtain ⟨named, -, alike, foreign⟩ := unitName_exact
  have same : unit.metadata.name = unit'.metadata.name :=
    congrArg some ((named .apply .apply "u-1" "u-1" (-3) (-3) _ _).2 ⟨rfl, rfl, rfl, rfl⟩)
  obtain ⟨-, -, -, -, -, -, numbered, -⟩ := alike _ _ _ _ rendered rendered' same
  refine ⟨rendered, rendered', watched, same, numbered, foreign _ _ _ _ _ rendered' watched, ?_⟩
  intro confused
  exact absurd ((named ..).1 confused).2.2.2 (by decide)

end UnitRequest

end InfraOperator

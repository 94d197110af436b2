import InfraOperator.Cluster.Answer
import InfraOperator.Proofs.Merging
import InfraOperator.Proofs.Provisioning.Steps
import InfraOperator.Proofs.Undisturbed

/-!
# The copy of the outputs

A configuration has its outputs copied into a secret of its choice. That secret is compared with
what it should hold, but what it should hold is merged into it: keys that the outputs no longer have
stay. Without such keys one copy is enough, and with them every further one writes again.
-/

set_option autoImplicit false

namespace InfraOperator

namespace Shelf

variable {α : Type} {isMeant other : α → Bool} {f : α → α}

theorem find?_updateFirst (keeps : ∀ x, isMeant x = true → isMeant (f x) = true)
    (objects : List α) :
    (updateFirst isMeant f objects).find? isMeant = (objects.find? isMeant).map f := by
  induction objects with
  | nil => rfl
  | cons x rest ih =>
    rw [updateFirst]
    by_cases meant : isMeant x = true
    · rw [if_pos meant, List.find?_cons_of_pos (keeps x meant), List.find?_cons_of_pos meant]
      rfl
    · rw [if_neg meant, List.find?_cons_of_neg meant, List.find?_cons_of_neg meant, ih]

theorem find?_updateFirst_of_apart
    (apart : ∀ x, isMeant x = true → other x = false ∧ other (f x) = false)
    (objects : List α) :
    (updateFirst isMeant f objects).find? other = objects.find? other := by
  induction objects with
  | nil => rfl
  | cons x rest ih =>
    rw [updateFirst]
    by_cases meant : isMeant x = true
    · obtain ⟨before, after⟩ := apart x meant
      rw [if_pos meant, List.find?_cons, List.find?_cons, before, after]
    · rw [if_neg meant, List.find?_cons, List.find?_cons, ih]

end Shelf

namespace Cluster

variable {h : Habits} {c c' : Cluster} {name ns name' ns' : String} {data : Dict Bytes}
  {secret : Secret}

def secret? (c : Cluster) (name ns : String) : Option Secret := c.secrets.find? (isSecret name ns)

def dataAt (c : Cluster) (name ns : String) : Option (Dict Bytes) :=
  (c.secret? name ns).bind Secret.data

/-! ## Writing a secret -/

theorem isSecret_iff : isSecret name ns secret = true ↔
    secret.metadata.name = some name ∧ secret.metadata.namespaceName = some ns := by
  rw [isSecret, ObjectMeta.isAt, Bool.and_eq_true, decide_eq_true_iff, decide_eq_true_iff]

theorem isSecret_of_isSecret (there : isSecret name ns secret = true)
    (apart : ¬ (name' = name ∧ ns' = ns)) : isSecret name' ns' secret = false := by
  apply Bool.eq_false_iff.2
  intro here
  obtain ⟨named, homed⟩ := isSecret_iff.1 there
  obtain ⟨named', homed'⟩ := isSecret_iff.1 here
  exact apart ⟨Option.some.inj (named'.symm.trans named), Option.some.inj (homed'.symm.trans homed)⟩

def withMerged (data : Dict Bytes) (stored : Secret) : Secret :=
  { stored with data := some ((stored.data.getD ∅).merge data) }

/-- That is what a merge patch makes of the secret as it is written. -/
theorem toJson_withMerged (data : Dict Bytes) (stored : Secret) :
    (withMerged data stored).toJson =
      stored.toJson.mergePatch (.obj [("data", Write.dict Write.bytes data)]) :=
  (stored.mergePatch_data data).symm

theorem patchSecretData_eq : c.patchSecretData name ns data =
    match c.secret? name ns with
    | none => (.error .notFound, c)
    | some _ => (.ok (), { c with
        secrets := Shelf.updateFirst (isSecret name ns) (withMerged data) c.secrets }) := by
  rw [patchSecretData, Shelf.write, secret?]
  cases c.secrets.find? (isSecret name ns) <;> rfl

theorem secret?_patch : (c.patchSecretData name ns data).2.secret? name ns =
    (c.secret? name ns).map (withMerged data) := by
  rw [patchSecretData_eq]
  cases found : c.secret? name ns with
  | none => exact found
  | some stored =>
    have patched := Shelf.find?_updateFirst (f := withMerged data)
      (fun s (meant : isSecret name ns s = true) => meant) c.secrets
    exact patched.trans (congrArg (Option.map _) found)

theorem secret?_patch_of_ne (apart : ¬ (name' = name ∧ ns' = ns)) :
    (c.patchSecretData name ns data).2.secret? name' ns' = c.secret? name' ns' := by
  rw [patchSecretData_eq]
  cases c.secret? name ns with
  | none => rfl
  | some stored =>
    refine Shelf.find?_updateFirst_of_apart ?_ c.secrets
    intro s meant
    exact ⟨isSecret_of_isSecret meant apart, isSecret_of_isSecret meant apart⟩

theorem createSecret_cases (h : Habits) (c : Cluster) (secret : Secret) :
    (∃ e, configurationCall h (.createSecret secret) c = (.error e, c)) ∨
      configurationCall h (.createSecret secret) c =
        (.ok (), { c with secrets := c.secrets ++ [secret] }) := by
  have made : configurationCall h (.createSecret secret) c =
      ((Shelf.create Secret.metadata secret c.secrets).1,
        { c with secrets := (Shelf.create Secret.metadata secret c.secrets).2 }) := rfl
  rw [made, Shelf.create]
  split
  · exact .inl ⟨_, rfl⟩
  · exact .inr rfl

theorem secret?_append (secret : Secret) :
    secret? { c with secrets := c.secrets ++ [secret] } name ns =
      (c.secret? name ns).or (if isSecret name ns secret then some secret else none) := by
  rw [secret?, List.find?_append, secret?, List.find?_singleton]

/-! ## Calls -/

/-- The cluster answers a call and changes as the call asks for. Where the answer is a failure, or
the call was given up, the call may have come through or not. -/
inductive Responds (h : Habits) (c : Cluster) : StoreCall ConfigurationStore → Cluster → Prop
  | done {call : ConfigurationCall} {answer : Outcome call.Answer} {after : Cluster}
      (made : configurationCall h call c = (answer, after)) :
      Responds h c ⟨call, some answer⟩ after
  | failed {call : ConfigurationCall} {answer : Option (Outcome call.Answer)}
      (unanswered : ∀ value, answer ≠ some (.ok value)) : Responds h c ⟨call, answer⟩ c
  | lost {call : ConfigurationCall} {answer : Option (Outcome call.Answer)}
      (unanswered : ∀ value, answer ≠ some (.ok value)) :
      Responds h c ⟨call, answer⟩ (configurationCall h call c).2

theorem Responds.ok {call : ConfigurationCall} {value : call.Answer}
    (responds : Responds h c ⟨call, some (.ok value)⟩ c') :
    configurationCall h call c = (.ok value, c') := by
  cases responds with
  | done made => exact made
  | failed unanswered => exact absurd rfl (unanswered value)
  | lost unanswered => exact absurd rfl (unanswered value)

theorem Responds.leaves {call : StoreCall ConfigurationStore} (responds : Responds h c call c') :
    c' = c ∨ c' = (configurationCall h call.request c).2 := by
  cases responds with
  | done made => exact .inr (congrArg Prod.snd made).symm
  | failed => exact .inl rfl
  | lost => exact .inr rfl

def surround (h : Habits) (c : Cluster) :
    (r : Surroundings.Request ConfigurationStore) → Surroundings.Answer r × Cluster
  | .store call => configurationCall h call c
  | .clock => ((default : Instant), c)
  | .publish _ | .measure _ | .log _ | .wait _ => ((), c)

def answer (h : Habits) :
    (q : Supervised.Request ConfigurationStore) → Cluster → Supervised.Answer q × Cluster
  | .cancelled, c => (false, c)
  | .plain r, c => c.surround h r
  | .watched r, c => (some (c.surround h r).1, (c.surround h r).2)

theorem carries_cluster {α : Type} (p : Program (Supervised ConfigurationStore) α) (c : Cluster) :
    Carries (Responds h) c ((p.trace (answer h) c).flatMap Supervised.calls)
      (p.run (answer h) c).2 := by
  have goes : ∀ (q : Supervised.Request ConfigurationStore) (c : Cluster), True → True ∧
      Carries (Responds h) c (Supervised.calls ⟨q, (answer h q c).1⟩) (answer h q c).2 := by
    refine fun q c _ => ⟨trivial, ?_⟩
    cases q with
    | cancelled => exact rfl
    | plain r =>
      cases r with
      | store call => exact carries_singleton.2 (.done rfl)
      | _ => exact rfl
    | watched r =>
      cases r with
      | store call => exact carries_singleton.2 (.done rfl)
      | _ => exact rfl
  exact (carries_trace goes p trivial).2

theorem Responds.of_read {call : StoreCall ConfigurationStore} (responds : Responds h c call c')
    (reads : call.request = .getSecret name ns) : c' = c := by
  rcases responds.leaves with rfl | rfl
  · rfl
  · rw [reads]
    rfl

end Cluster

namespace Provisioning

open Cluster (Habits Responds configurationCall isSecret isSecret_iff)

variable {settings : Settings} {h : Habits} {before after : Cluster} {c : ConfigurationCycle}
  {uid name ns name' ns' : String} {desired outputs : Secret} {data old : Dict Bytes} {own : Calls}
  {result : Outcome Unit}

theorem carries_getSecret {found : Option Secret} :
    Carries (Responds h) before (told (.getSecret name ns) (.ok found) :: own) after ↔
      found = before.secret? name ns ∧ Carries (Responds h) before own after := by
  constructor
  · rintro ⟨next, responds, later⟩
    have made : ((.ok (before.secret? name ns), before) : Outcome (Option Secret) × Cluster) =
        (.ok found, next) := responds.ok
    cases made
    exact ⟨rfl, later⟩
  · rintro ⟨rfl, later⟩
    exact ⟨before, .done rfl, later⟩

def Reads (call : ConfigurationCall) : Prop := ∃ name ns, call = .getSecret name ns

/-! ## One secret -/

structure Desires (desired : Secret) (name ns : String) (data : Dict Bytes) : Prop where
  place : isSecret name ns desired = true
  data : desired.data = some data

theorem Desires.displayName_eq (h : Desires desired name ns data) :
    desired.metadata.displayName = name := by
  rw [ObjectMeta.displayName, (isSecret_iff.1 h.place).1]
  rfl

theorem Desires.eq_of_home (h : Desires desired name ns data)
    (home : desired.metadata.namespaceName = some ns') : ns' = ns :=
  Option.some.inj (home.symm.trans (isSecret_iff.1 h.place).2)

theorem Desires.getD_eq (h : Desires desired name ns data) : desired.data.getD ∅ = data := by
  rw [h.data]
  rfl

theorem SecretEnds.brought (ends : SecretEnds desired own (.ok ()))
    (desires : Desires desired name ns data) (carried : Carries (Responds h) before own after) :
    after.dataAt name ns = some (((before.dataAt name ns).getD ∅).merge data) := by
  generalize succeeded : (.ok () : Outcome Unit) = result at ends
  cases ends with
  | homeless => cases succeeded
  | unread => cases succeeded
  | created home =>
    subst succeeded
    obtain rfl := desires.eq_of_home home
    obtain ⟨found, carried⟩ := carries_getSecret.1 carried
    rw [desires.displayName_eq] at found
    have made := (carries_singleton.1 carried).ok
    rcases Cluster.createSecret_cases h before desired with ⟨e, refused⟩ | added
    · cases refused.symm.trans made
    · cases added.symm.trans made
      rw [Cluster.dataAt, Cluster.dataAt, Cluster.secret?_append, ← found, if_pos desires.place]
      exact desires.data.trans (congrArg some (Dict.empty_merge data).symm)
  | kept home same =>
    obtain rfl := desires.eq_of_home home
    obtain ⟨found, rfl⟩ := carries_getSecret.1 carried
    rw [desires.displayName_eq] at found
    rw [desires.getD_eq] at same
    rw [Cluster.dataAt, ← found, Option.bind_some, same]
    exact congrArg some (Dict.merge_self data).symm
  | patched home =>
    subst succeeded
    obtain rfl := desires.eq_of_home home
    obtain ⟨found, carried⟩ := carries_getSecret.1 carried
    have made := (carries_singleton.1 carried).ok
    rw [desires.displayName_eq] at found made
    rw [desires.getD_eq] at made
    obtain rfl : (before.patchSecretData name _ data).2 = after := congrArg Prod.snd made
    rw [Cluster.dataAt, Cluster.dataAt, Cluster.secret?_patch, ← found]
    rfl

/-- Other secrets are left alone. -/
theorem SecretEnds.elsewhere (ends : SecretEnds desired own result)
    (desires : Desires desired name ns data) (carried : Carries (Responds h) before own after)
    (apart : ¬ (name' = name ∧ ns' = ns)) :
    after.secret? name' ns' = before.secret? name' ns' := by
  cases ends with
  | homeless => rw [carried]
  | unread => rw [(carries_singleton.1 carried).of_read rfl]
  | created home =>
    obtain ⟨-, carried⟩ := carries_getSecret.1 carried
    rcases (carries_singleton.1 carried).leaves with rfl | left
    · rfl
    · change after = (configurationCall h (.createSecret desired) before).2 at left
      rcases Cluster.createSecret_cases h before desired with ⟨e, refused⟩ | added
      · rw [left, refused]
      · rw [left, added, Cluster.secret?_append,
          Cluster.isSecret_of_isSecret desires.place apart]
        exact Option.or_none
  | kept => rw [(carries_getSecret.1 carried).2]
  | patched home =>
    obtain rfl := desires.eq_of_home home
    obtain ⟨-, carried⟩ := carries_getSecret.1 carried
    rcases (carries_singleton.1 carried).leaves with rfl | left
    · rfl
    · rw [left, desires.displayName_eq]
      exact Cluster.secret?_patch_of_ne apart

/-- What becomes of a secret with data that is to be brought to be as desired: nothing is written if
the data are the desired ones, and else they are patched. -/
theorem SecretEnds.again (ends : SecretEnds desired own result)
    (desires : Desires desired name ns data) (holds : before.dataAt name ns = some old)
    (carried : Carries (Responds h) before own after) :
    (after.dataAt name ns = some old ∨ after.dataAt name ns = some (old.merge data)) ∧
    (old = data → ∀ call ∈ own, Reads call.request) ∧
    (old ≠ data → result = .ok () →
      ∃ call ∈ own, call.request = .patchSecretData name ns data) := by
  cases ends with
  | homeless home => cases home.symm.trans (isSecret_iff.1 desires.place).2
  | unread home =>
    rw [(carries_singleton.1 carried).of_read rfl]
    exact ⟨.inl holds, fun _ => by simp [told, Reads], fun _ ok => by cases ok⟩
  | created home =>
    obtain rfl := desires.eq_of_home home
    obtain ⟨found, -⟩ := carries_getSecret.1 carried
    rw [desires.displayName_eq] at found
    rw [Cluster.dataAt, ← found] at holds
    cases holds
  | kept home same =>
    obtain rfl := desires.eq_of_home home
    obtain ⟨found, rfl⟩ := carries_getSecret.1 carried
    rw [desires.displayName_eq] at found
    rw [desires.getD_eq] at same
    have equal : old = data := by
      rw [Cluster.dataAt, ← found, Option.bind_some, same] at holds
      exact (Option.some.inj holds).symm
    exact ⟨.inl holds, fun _ => by simp [told, Reads], fun other => absurd equal other⟩
  | patched home differs =>
    obtain rfl := desires.eq_of_home home
    obtain ⟨found, carried⟩ := carries_getSecret.1 carried
    rw [desires.displayName_eq] at found carried ⊢
    rw [desires.getD_eq] at differs carried ⊢
    have stored := holds
    rw [Cluster.dataAt, ← found, Option.bind_some] at stored
    refine ⟨?_, fun equal => absurd (equal ▸ stored) differs, fun _ _ =>
      ⟨_, List.mem_cons_of_mem _ (List.mem_singleton_self _), rfl⟩⟩
    rcases (carries_singleton.1 carried).leaves with rfl | left
    · exact .inl holds
    · right
      rw [left]
      change (before.patchSecretData name _ data).2.dataAt name _ = _
      rw [Cluster.dataAt, Cluster.secret?_patch, ← found, Option.map_some, Option.bind_some,
        Cluster.withMerged, stored]
      rfl

/-! ## The step -/

def copying (settings : Settings) (c : ConfigurationCycle) :
    Program (Supervised ConfigurationStore) (Option Verdict × ConfigurationCycle) :=
  Staged.watch ((ensureConnectionSecret settings).run.run c)

structure Wants (c : ConfigurationCycle) (uid name ns : String) : Prop where
  owner : c.resource.ownerUid = .ok uid
  target : ∃ target, c.resource.spec.connectionSecret = some target ∧ target.name = name ∧
    (target.namespaceName.or c.resource.metadata.namespaceName).getD "" = ns

theorem Wants.desires (wants : Wants c uid name ns) (h : IsConnectionSecret c outputs desired) :
    Desires desired name ns (connectionData outputs) := by
  obtain ⟨target, wanted, rfl, rfl⟩ := wants.target
  obtain ⟨target', wanted', rfl⟩ := h
  cases wanted.symm.trans wanted'
  exact ⟨isSecret_iff.2 ⟨rfl, rfl⟩, rfl⟩

structure Copies (settings : Settings) (uid name ns : String) (own : Calls) (result : Outcome Unit)
    (outputs : Secret) (rest : Calls) : Prop where
  calls : own = told (.getSecret (SecretName.outputs uid) settings.namespaceName)
    (.ok (some outputs)) :: rest
  desired : ∃ desired, Desires desired name ns (connectionData outputs) ∧
    SecretEnds desired rest result

theorem ConnectionEnds.cases_of_wants {verdict : Verdict} {left : ConfigurationCycle}
    (ends : ConnectionEnds settings c own verdict left) (wants : Wants c uid name ns) :
    (∃ outputs rest result, verdict = verdictOf result ∧
      Copies settings uid name ns own result outputs rest) ∨
    (∀ call ∈ own, Reads call.request) ∧ verdict ≠ .proceed := by
  cases ends with
  | unwanted unwanted =>
    obtain ⟨target, wanted, -⟩ := wants.target
    cases unwanted.symm.trans wanted
  | ownerless ownerless => cases ownerless.symm.trans wants.owner
  | unread => exact .inr ⟨by simp [told, Reads], nofun⟩
  | waiting => exact .inr ⟨by simp [told, Reads], nofun⟩
  | copied owner copy ends =>
    cases owner.symm.trans wants.owner
    exact .inl ⟨_, _, _, rfl, rfl, _, wants.desires copy, ends⟩

theorem eq_ok_of_verdictOf (proceeds : verdictOf result = .proceed) : result = .ok () := by
  cases result with
  | ok value => rfl
  | error e => cases proceeds

theorem ConnectionEnds.copies_of_proceed {left : ConfigurationCycle}
    (ends : ConnectionEnds settings c own .proceed left) (wants : Wants c uid name ns) :
    ∃ outputs rest, Copies settings uid name ns own (.ok ()) outputs rest := by
  rcases ends.cases_of_wants wants with ⟨outputs, rest, result, proceeds, copies⟩ | ⟨-, stays⟩
  · exact ⟨outputs, rest, eq_ok_of_verdictOf proceeds.symm ▸ copies⟩
  · exact absurd rfl stays

theorem eq_of_reads (carried : Carries (Responds h) before own after)
    (reads : ∀ call ∈ own, Reads call.request) : after = before := by
  refine carried.stays ?_
  rintro pre call post next rfl - responds
  obtain ⟨name, ns, read⟩ := reads call (List.mem_append_cons_self)
  exact responds.of_read read

/-- A copy that proceeds has merged the outputs, without the number of resources, into the data that
the target had. These are the outputs only if the target had no other keys. Copies after that leave
the data so; if they are the outputs nothing is written any more, and else each copy that proceeds
patches them again. -/
theorem connection_merges {left : ConfigurationCycle}
    {run : List (Answered (Supervised ConfigurationStore))} (wants : Wants c uid name ns)
    (apart : ¬ (SecretName.outputs uid = name ∧ settings.namespaceName = ns))
    (reached : (copying settings c).Reaches run (.done (some .proceed, left)))
    (carried : Carries (Responds h) before (run.flatMap Supervised.calls) after) :
    ∃ outputs merged,
      before.secret? (SecretName.outputs uid) settings.namespaceName = some outputs ∧
      merged = ((before.dataAt name ns).getD ∅).merge (connectionData outputs) ∧
      after.dataAt name ns = some merged ∧
      (merged = connectionData outputs ↔ ∀ key,
        ((before.dataAt name ns).getD ∅).contains key = true →
          (connectionData outputs).contains key = true) ∧
      ∀ again more verdict left last, Wants again uid name ns →
        (copying settings again).Reaches more (.done (some verdict, left)) →
        Carries (Responds h) after (more.flatMap Supervised.calls) last →
        last.dataAt name ns = some merged ∧
        (merged = connectionData outputs →
          ∀ call ∈ more.flatMap Supervised.calls, Reads call.request) ∧
        (merged ≠ connectionData outputs → verdict = .proceed →
          ∃ call ∈ more.flatMap Supervised.calls,
            call.request = .patchSecretData name ns (connectionData outputs)) := by
  have ends := does_ensureConnectionSecret.returned reached
  obtain ⟨outputs, rest, copies⟩ := ends.copies_of_proceed wants
  obtain ⟨desired, desires, brings⟩ := copies.desired
  rw [copies.calls] at carried
  obtain ⟨found, carried⟩ := carries_getSecret.1 carried
  have merged := brings.brought desires carried
  have kept := brings.elsewhere desires carried apart
  refine ⟨outputs, _, found.symm, rfl, merged, Dict.merge_eq_right_iff, ?_⟩
  intro again more verdict left last wants reached carried
  have ends := does_ensureConnectionSecret.returned reached
  rcases ends.cases_of_wants wants with ⟨outputs', rest, result, rfl, copies⟩ | ⟨reads, stays⟩
  · rw [copies.calls] at carried ⊢
    obtain ⟨found', later⟩ := carries_getSecret.1 carried
    cases found'.trans (kept.trans found.symm)
    obtain ⟨desired, desires, ends⟩ := copies.desired
    obtain ⟨data, unwritten, patched⟩ := ends.again desires merged later
    rw [Dict.merge_merge, or_self] at data
    refine ⟨data, fun same => ?_, fun other proceeds => ?_⟩
    · exact List.forall_mem_cons.2 ⟨⟨_, _, rfl⟩, unwritten same⟩
    · obtain ⟨call, called, patches⟩ := patched other (eq_ok_of_verdictOf proceeds)
      exact ⟨call, List.mem_cons_of_mem _ called, patches⟩
  · rw [eq_of_reads carried reads]
    exact ⟨merged, fun _ => reads, fun _ proceeds => absurd proceeds stays⟩

def copyOn (c : ConfigurationCycle) (cluster : Cluster) :
    List (Answered (Supervised ConfigurationStore)) ×
      (Option Verdict × ConfigurationCycle) × Cluster :=
  ((copying {} c).trace (Cluster.answer {}) cluster, (copying {} c).run (Cluster.answer {}) cluster)

theorem reaches_copyOn (c : ConfigurationCycle) (cluster : Cluster)
    (proceeds : (copyOn c cluster).2.1.1 = some .proceed) :
    (copying {} c).Reaches (copyOn c cluster).1
      (.done (some .proceed, (copyOn c cluster).2.1.2)) := by
  have ended : (copyOn c cluster).2.1 = (some .proceed, (copyOn c cluster).2.1.2) :=
    Prod.ext proceeds rfl
  exact ended ▸ Program.reaches_trace ..

def wanting : ConfigurationCycle :=
  .start
    { metadata := { name := some "net", namespaceName := some "infra", uid := some "u-1" }
      spec := { module := "m", providerName := "aws", connectionSecret := some ⟨"conn", none⟩ } }
    {}

def leftover : Cluster :=
  { secrets :=
      [{ metadata := { name := some "outputs-u-1", namespaceName := some "terrace-system" }
         data := some (.ofList [("terrace.resources", [51]), ("url", [98])]) },
        { metadata := { name := some "conn", namespaceName := some "infra" }
          data := some (.ofList [("password", [112]), ("url", [97])]) }] }

theorem wants_target : Wants wanting "u-1" "conn" "infra" :=
  ⟨rfl, _, rfl, rfl, rfl⟩

/-- The leftover key stays, and the next copy writes again. -/
theorem connection_merges_leftover :
    (copyOn wanting leftover).2.2.dataAt "conn" "infra" =
      some (.ofList [("password", [112]), ("url", [98])]) ∧
    ∃ outputs, leftover.secret? "outputs-u-1" "terrace-system" = some outputs ∧
      connectionData outputs = .ofList [("url", [98])] ∧
      ∃ call ∈ (copyOn wanting (copyOn wanting leftover).2.2).1.flatMap Supervised.calls,
        call.request = .patchSecretData "conn" "infra" (connectionData outputs) := by
  have first := reaches_copyOn wanting leftover (by decide +kernel)
  have second := reaches_copyOn wanting (copyOn wanting leftover).2.2 (by decide +kernel)
  have data : (copyOn wanting leftover).2.2.dataAt "conn" "infra" =
      some (.ofList [("password", [112]), ("url", [98])]) := by decide +kernel
  obtain ⟨outputs, merged, found, -, stored, -, again⟩ :=
    connection_merges wants_target (by decide) first (Cluster.carries_cluster _ leftover)
  have wanted : connectionData outputs = .ofList [("url", [98])] := by
    have read : (leftover.secret? "outputs-u-1" "terrace-system").map connectionData =
        some (.ofList [("url", [98])]) := by decide +kernel
    exact Option.some.inj ((congrArg (Option.map connectionData) found).symm.trans read)
  have differs : merged ≠ connectionData outputs := by
    obtain rfl := Option.some.inj (data.symm.trans stored)
    rw [wanted]
    decide
  have copied := again wanting _ _ _ _ wants_target second (Cluster.carries_cluster ..)
  exact ⟨data, outputs, found, wanted, copied.2.2 differs rfl⟩

/-- So data that a copy is to bring about do not come about. -/
theorem leftover_never_dropped : ¬ ∀ (settings : Settings) (h : Habits)
    (c left : ConfigurationCycle) (uid name ns : String)
    (run : List (Answered (Supervised ConfigurationStore))) (before after : Cluster),
    Wants c uid name ns →
    (∀ made ∈ SecretName.state uid :: generatedSecrets uid,
      ¬ (made = name ∧ settings.namespaceName = ns)) →
    (copying settings c).Reaches run (.done (some .proceed, left)) →
    Carries (Responds h) before (run.flatMap Supervised.calls) after →
    ∃ outputs, before.secret? (SecretName.outputs uid) settings.namespaceName = some outputs ∧
      after.dataAt name ns = some (connectionData outputs) := by
  intro claim
  have reached := reaches_copyOn wanting leftover (by decide +kernel)
  obtain ⟨outputs, found, copied⟩ := claim {} {} wanting _ "u-1" "conn" "infra" _ leftover _
    wants_target (by decide) reached (Cluster.carries_cluster _ leftover)
  have differs : (leftover.secret? "outputs-u-1" "terrace-system").map connectionData ≠
      (copyOn wanting leftover).2.2.dataAt "conn" "infra" := by decide +kernel
  exact differs ((congrArg (Option.map connectionData) found).trans copied.symm)

end Provisioning

end InfraOperator

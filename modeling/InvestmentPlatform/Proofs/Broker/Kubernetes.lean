/-
What an allocation leaves in the cluster.

An allocation stops before it has created anything that stays, or it fills the place of its
connector up.  What follows a failure is the same for both: everything of the connector goes, what
stood there before included, if an allocation under its name has been recorded, and nothing goes
otherwise.  So a failure leaves the cluster as it was in the states of `Spares` and in no others.
Another connector's resources are never touched, because a delete asks for the identity.
-/
import InvestmentPlatform.Broker.Kubernetes

namespace InvestmentPlatform.Broker

open Function Option Table

/-! ### Identities -/

theorem hasIdentity_labels (configured : Labels) (connectorId : String) :
    hasIdentity (some (labels configured connectorId)) connectorId = true := by
  simp [hasIdentity, labels, requiredLabels, connectorIdLabel, Dict.get?_set]

theorem hasIdentity_unique {metadata : Option Labels} {id other : String}
    (h : hasIdentity metadata id = true) (hother : hasIdentity metadata other = true) :
    other = id := by
  cases metadata with
  | none => cases h
  | some l =>
    simp only [hasIdentity, Bool.and_eq_true, decide_eq_true_eq] at h hother
    exact some.inj (hother.1.symm.trans h.1)

/-! ### One kind of resource -/

section

variable {R : Type} (resources : Table Place R) (owned : R → Bool) (place : Place)

/-- What stands at the place is the connector's own. -/
def OwnedAt : Prop := ∀ resource, resources place = some resource → owned resource = true

/-- The resource is there, or a new one is created. -/
theorem create_step (resource : R) (refusal : Option Refusal) :
    (if (resources place).isSome then (some false, resources)
      else create resources owned place resource refusal) =
      if resources place = none ∧ refusal ≠ none then (none, resources)
      else (some (resources place).isNone, resources.fill place resource) := by
  unfold create fill
  cases h : resources place with
  | some r => simp
  | none => rcases refusal with _ | readable | _ <;> simp

variable {resources owned place}

theorem deleteIfOwned_of_owned (h : OwnedAt resources owned place) :
    deleteIfOwned resources owned place =
      (some (resources place).isSome, update resources place none) := by
  unfold deleteIfOwned
  cases hr : resources place with
  | none =>
    have hsame : update resources place none = resources := by
      rw [← hr, update_eq_self]
    rw [hsame]
    rfl
  | some r => exact if_pos (h r hr)

theorem deleteIfOwned_of_not (h : ¬ OwnedAt resources owned place) :
    deleteIfOwned resources owned place = (none, resources) := by
  unfold OwnedAt at h
  push Not at h
  obtain ⟨r, hr, hown⟩ := h
  unfold deleteIfOwned
  rw [hr]
  exact if_neg hown

theorem delete_eq_self : (deleteIfOwned resources owned place).2 = resources ↔
    ∀ r, resources place = some r → owned r = false := by
  unfold deleteIfOwned
  cases hr : resources place with
  | none => exact iff_of_true rfl fun r hr' => nomatch hr'
  | some r =>
    dsimp only
    split
    · rename_i hown
      rw [update_eq_self_iff, hr]
      exact iff_of_false nofun fun hall => nomatch hown.symm.trans (hall r rfl)
    · rename_i hown
      exact iff_of_true rfl fun r' hr' => some.inj hr' ▸ Bool.eq_false_iff.mpr hown

theorem ownedAt_fill (h : OwnedAt resources owned place) {resource : R}
    (hown : owned resource = true) : OwnedAt (resources.fill place resource) owned place ∧
      (resources.fill place resource) place ≠ none := by
  unfold OwnedAt at *
  unfold fill
  cases hr : resources place <;> simp_all

variable (resources owned place) in
/-- Deleting what was created, or nothing, leads back. -/
theorem delete_fill {resource : R} (hown : owned resource = true) :
    (if (resources place).isNone then
      (deleteIfOwned (resources.fill place resource) owned place).2
    else resources.fill place resource) = resources := by
  cases h : resources place with
  | some r => exact fill_eq_self.mpr (by rw [h]; exact some_ne_none r)
  | none =>
    have hvacant : OwnedAt resources owned place := fun r hr => nomatch h.symm.trans hr
    rw [isNone_none, if_pos rfl, deleteIfOwned_of_owned (ownedAt_fill hvacant hown).1,
      update_fill, ← h, update_eq_self]

/-- What is another's stays. -/
def Kept (other : R → Bool) (resources resources' : Table Place R) : Prop :=
  ∀ place resource, resources place = some resource → other resource = true →
    resources' place = some resource

theorem kept_fill (other : R → Bool) (resource : R) :
    Kept other resources (resources.fill place resource) := by
  intro j r hr _
  unfold fill put
  split
  · exact hr
  · rename_i hnone
    rw [update_of_ne (fun heq => hnone (by rw [← heq, hr]; rfl)), hr]

theorem kept_delete {other : R → Bool} (hunique : ∀ r, owned r = true → other r = true → False) :
    Kept other resources (deleteIfOwned resources owned place).2 := by
  intro j r hr hother
  by_cases hown : OwnedAt resources owned place
  · rw [deleteIfOwned_of_owned hown]
    refine (update_of_ne ?_ _ _).trans hr
    rintro rfl
    exact hunique r (hown r hr) hother
  · rw [deleteIfOwned_of_not hown]
    exact hr

end

namespace RuntimeProperties

variable (properties : RuntimeProperties) (connectorId : String)

theorem pod_isOf : (properties.pod connectorId).isOf connectorId = true :=
  hasIdentity_labels _ _

theorem service_isOf : (properties.service connectorId).isOf connectorId = true := by
  have hsame : sameEntries (labels Dict.empty connectorId) (labels Dict.empty connectorId) = true := by
    simp only [sameEntries, Bool.and_self, List.all_eq_true, decide_eq_true_eq]
    exact fun item hitem => Dict.get?_of_mem hitem
  exact Bool.and_eq_true_iff.mpr ⟨hasIdentity_labels _ _, hsame⟩

/-! ### The place of the connector -/

/-- What stands at the place is the connector's own. -/
def Fits (cluster : Cluster) : Prop :=
  OwnedAt cluster.pods (·.isOf connectorId) (properties.place connectorId) ∧
    OwnedAt cluster.services (·.isOf connectorId) (properties.place connectorId)

/-- Both resources stand there. -/
def Complete (cluster : Cluster) : Prop :=
  cluster.pods (properties.place connectorId) ≠ none ∧
    cluster.services (properties.place connectorId) ≠ none

/-- Neither does. -/
def Vacant (cluster : Cluster) : Prop :=
  cluster.pods (properties.place connectorId) = none ∧
    cluster.services (properties.place connectorId) = none

/-- A compensation finds nothing to delete: another's service stands there, which stops it, or no
service and no pod of the connector. -/
def Unharmed (cluster : Cluster) : Prop :=
  ¬ OwnedAt cluster.services (·.isOf connectorId) (properties.place connectorId) ∨
    cluster.services (properties.place connectorId) = none ∧
      ∀ pod, cluster.pods (properties.place connectorId) = some pod → pod.isOf connectorId = false

def filled (cluster : Cluster) : Cluster where
  pods := cluster.pods.fill (properties.place connectorId) (properties.pod connectorId)
  services := cluster.services.fill (properties.place connectorId) (properties.service connectorId)

def cleared (cluster : Cluster) : Cluster where
  pods := update cluster.pods (properties.place connectorId) none
  services := update cluster.services (properties.place connectorId) none

variable {properties connectorId} {cluster : Cluster} {state : RuntimeState}
  {answers : AllocationAnswers}

variable (properties connectorId cluster) in
theorem state_get : (cluster.get properties.namespaceName connectorId).state = .identityMismatch ↔
    ¬ properties.Fits connectorId cluster := by
  have hstate : ∀ resources : RuntimeResources, resources.state = .identityMismatch ↔
      ¬ (resources.labelsValid = true ∧ resources.selectorValid = true) := by
    intro resources
    unfold RuntimeResources.state
    grind
  rw [hstate, not_iff_not]
  unfold Fits OwnedAt place Cluster.get Pod.isOf Service.isOf
  simp only [Bool.and_eq_true, all_eq_true]
  grind

/-- Filling a place up that fits makes it complete, and it fits. -/
theorem fits_filled (h : properties.Fits connectorId cluster) :
    properties.Fits connectorId (properties.filled connectorId cluster) ∧
      properties.Complete connectorId (properties.filled connectorId cluster) := by
  obtain ⟨hpods, hpod⟩ := ownedAt_fill h.1 (properties.pod_isOf connectorId)
  obtain ⟨hservices, hservice⟩ := ownedAt_fill h.2 (properties.service_isOf connectorId)
  exact ⟨⟨hpods, hservices⟩, hpod, hservice⟩

theorem cleared_filled : properties.cleared connectorId (properties.filled connectorId cluster) =
    properties.cleared connectorId cluster := by
  rw [cleared, filled, update_fill, update_fill]
  rfl

theorem filled_eq_self :
    properties.filled connectorId cluster = cluster ↔ properties.Complete connectorId cluster := by
  rw [filled, Cluster.mk.injEq, fill_eq_self, fill_eq_self]
  rfl

theorem cleared_eq_self :
    properties.cleared connectorId cluster = cluster ↔ properties.Vacant connectorId cluster := by
  rw [cleared, Cluster.mk.injEq, update_eq_self_iff, update_eq_self_iff, eq_comm,
    @eq_comm _ none (cluster.services _)]
  rfl

/-! ### Reconciling -/

variable (properties connectorId) in
/-- The allocation fails before both resources are there. -/
def Stops (state : RuntimeState) (answers : AllocationAnswers) : Prop :=
  answers.beforeRefused = true ∨ ¬ properties.Fits connectorId state.cluster ∨
    (state.cluster.pods (properties.place connectorId) = none ∧ answers.createPod ≠ none) ∨
    state.cluster.services (properties.place connectorId) = none ∧ answers.createService ≠ none

theorem reconciled_filled (h : properties.Fits connectorId cluster) (recorded : List String)
    (podCreated serviceCreated : Bool) :
    ∃ result, properties.reconciled connectorId
        ⟨properties.filled connectorId cluster, recorded⟩ podCreated serviceCreated answers =
      (result, ⟨properties.filled connectorId cluster,
        if answers.afterRefused then recorded else runtimeIdentity connectorId :: recorded⟩) := by
  obtain ⟨hfits, hpod, hservice⟩ := fits_filled h
  have hstate : ((properties.filled connectorId cluster).get properties.namespaceName
      connectorId).state ≠ .identityMismatch := fun hmis => (state_get _ _ _).mp hmis hfits
  have hpodPresent : ((properties.filled connectorId cluster).get properties.namespaceName
      connectorId).podPresent = true := isSome_iff_ne_none.mpr hpod
  have hservicePresent : ((properties.filled connectorId cluster).get properties.namespaceName
      connectorId).servicePresent = true := isSome_iff_ne_none.mpr hservice
  unfold reconciled
  cases hafter : answers.afterRefused with
  | true => exact ⟨none, rfl⟩
  | false =>
    dsimp only
    rw [if_neg (by simp [hstate, hpodPresent, hservicePresent])]
    exact ⟨_, rfl⟩

/-- What `reconcileOrCreate` comes to: it stops and leaves nothing behind, or it fills the place
up, and records that unless the read after it is refused. -/
theorem reconcileOrCreate_cases (state : RuntimeState) (answers : AllocationAnswers) :
    properties.Stops connectorId state answers ∧
        properties.reconcileOrCreate connectorId state answers = (none, state) ∨
      ¬ properties.Stops connectorId state answers ∧ properties.Fits connectorId state.cluster ∧
        ∃ result, properties.reconcileOrCreate connectorId state answers =
          (result, ⟨properties.filled connectorId state.cluster,
            if answers.afterRefused then state.recorded
            else runtimeIdentity connectorId :: state.recorded⟩) := by
  have hmismatch := state_get properties connectorId state.cluster
  by_cases hstart : answers.beforeRefused = true ∨ ¬ properties.Fits connectorId state.cluster
  · refine Or.inl ⟨hstart.elim Or.inl fun h => Or.inr (Or.inl h), if_pos ?_⟩
    rcases hstart with h | h
    · simp [h]
    · simp [hmismatch.mpr h]
  obtain ⟨hbefore, hfits⟩ := not_or.mp hstart
  rw [not_not] at hfits
  have hpodStep : (if (state.cluster.get properties.namespaceName connectorId).podPresent then
      (some false, state.cluster.pods)
      else properties.createPod connectorId state.cluster.pods answers.createPod) = _ :=
    create_step _ _ (properties.place connectorId) _ _
  have hserviceStep : (if (state.cluster.get properties.namespaceName connectorId).servicePresent then
      (some false, state.cluster.services)
      else properties.createService connectorId state.cluster.services answers.createService) = _ :=
    create_step _ _ (properties.place connectorId) _ _
  unfold reconcileOrCreate Stops
  dsimp only
  rw [if_neg (by simp [hbefore, hmismatch, hfits]), hpodStep, hserviceStep]
  by_cases hpod : state.cluster.pods (properties.place connectorId) = none ∧ answers.createPod ≠ none
  · rw [if_pos hpod]
    exact Or.inl ⟨Or.inr (Or.inr (Or.inl hpod)), rfl⟩
  rw [if_neg hpod]
  by_cases hservice : state.cluster.services (properties.place connectorId) = none ∧
      answers.createService ≠ none
  · rw [if_pos hservice]
    dsimp only [deletePodIfOwned]
    have hback := delete_fill state.cluster.pods (·.isOf connectorId)
      (properties.place connectorId) (properties.pod_isOf connectorId)
    rw [hback]
    exact Or.inl ⟨Or.inr (Or.inr (Or.inr hservice)), rfl⟩
  · rw [if_neg hservice]
    refine Or.inr ⟨?_, hfits, reconciled_filled hfits _ _ _⟩
    rintro (h | h | h | h)
    · exact hbefore h
    · exact h hfits
    · exact hpod h
    · exact hservice h

/-! ### Compensating -/

theorem compensate_of_notMem (h : runtimeIdentity connectorId ∉ state.recorded) :
    properties.compensate connectorId state = state := if_pos h

/-- Compensating for a recorded name clears a place that fits. -/
theorem compensate_fits (hrecorded : runtimeIdentity connectorId ∈ state.recorded)
    (h : properties.Fits connectorId state.cluster) :
    (properties.compensate connectorId state).cluster =
      properties.cleared connectorId state.cluster := by
  unfold compensate deleteServiceIfOwned deletePodIfOwned
  rw [if_neg (not_not.mpr hrecorded), deleteIfOwned_of_owned h.2, deleteIfOwned_of_owned h.1]
  rfl

theorem compensate_eq_iff (hrecorded : runtimeIdentity connectorId ∈ state.recorded) :
    (properties.compensate connectorId state).cluster = state.cluster ↔
      properties.Unharmed connectorId state.cluster := by
  unfold compensate deleteServiceIfOwned deletePodIfOwned Unharmed
  rw [if_neg (not_not.mpr hrecorded)]
  by_cases hservice : OwnedAt state.cluster.services (·.isOf connectorId)
      (properties.place connectorId)
  · rw [deleteIfOwned_of_owned hservice, or_iff_right (not_not.mpr hservice)]
    dsimp only
    rw [Cluster.mk.injEq, update_eq_self_iff, delete_eq_self, and_comm,
      @eq_comm _ none (state.cluster.services _)]
  · rw [deleteIfOwned_of_not hservice]
    exact iff_of_true rfl (Or.inl hservice)

theorem compensate_filled (h : properties.Fits connectorId cluster) (recorded : List String)
    (refused : Bool) :
    (properties.compensate connectorId ⟨properties.filled connectorId cluster,
        if refused then recorded else runtimeIdentity connectorId :: recorded⟩).cluster = cluster ↔
      if refused = true ∧ runtimeIdentity connectorId ∉ recorded then
        properties.Complete connectorId cluster
      else properties.Vacant connectorId cluster := by
  by_cases hleft : refused = true ∧ runtimeIdentity connectorId ∉ recorded
  · rw [if_pos hleft, if_pos hleft.1, compensate_of_notMem hleft.2, filled_eq_self]
  · have hmem : runtimeIdentity connectorId ∈
        if refused then recorded else runtimeIdentity connectorId :: recorded := by
      split
      · rename_i hrefused
        exact not_not.mp fun hnot => hleft ⟨hrefused, hnot⟩
      · exact List.mem_cons_self
    rw [if_neg hleft, compensate_fits hmem (fits_filled h).1, cleared_filled, cleared_eq_self]

/-! ### Another connector's resources -/

/-- What is another connector's stays. -/
def Keeps (other : String) (before after : Cluster) : Prop :=
  Kept (hasIdentity ·.labels other) before.pods after.pods ∧
    Kept (hasIdentity ·.labels other) before.services after.services

variable (properties connectorId) in
theorem keeps_filled (other : String) (cluster : Cluster) :
    Keeps other cluster (properties.filled connectorId cluster) :=
  ⟨kept_fill _ _, kept_fill _ _⟩

variable (properties state) in
theorem keeps_compensate {other : String} (h : other ≠ connectorId) :
    Keeps other state.cluster (properties.compensate connectorId state).cluster := by
  have hpods : Kept (hasIdentity ·.labels other) state.cluster.pods
      (properties.deletePodIfOwned connectorId state.cluster.pods).2 :=
    kept_delete fun r hown hother => h (hasIdentity_unique hown hother)
  have hservices : Kept (hasIdentity ·.labels other) state.cluster.services
      (properties.deleteServiceIfOwned connectorId state.cluster.services).2 :=
    kept_delete fun r hown hother =>
      h (hasIdentity_unique (Bool.and_eq_true_iff.mp hown).1 hother)
  unfold compensate
  split
  · exact ⟨fun _ _ hpod _ => hpod, fun _ _ hservice _ => hservice⟩
  · split
    · rename_i heq
      rw [heq] at hservices
      exact ⟨fun _ _ hpod _ => hpod, hservices⟩
    · rename_i heq
      rw [heq] at hservices
      exact ⟨hpods, hservices⟩

/-! ### Allocating -/

/-- A poll saw the pod running and ready. -/
def SawReady (inspection : Inspection) : Prop :=
  inspection.refused = false ∧ ∃ status, inspection.status = some status ∧
    status.phase = some .running ∧ status.ready = true

theorem sawReady_of_inspect {namespaceName : String} {inspection : Inspection}
    (h : cluster.inspect namespaceName connectorId inspection = some .ready) :
    SawReady inspection := by
  unfold Cluster.inspect at h
  unfold SawReady
  cases hrefused : inspection.refused <;> cases hstatus : inspection.status <;>
    simp only [hrefused, hstatus] at h <;> grind

/-- `awaitReady` returns at a poll that sees the pod running and ready. -/
theorem sawReady_of_awaitReady {polls : List Poll}
    (h : properties.awaitReady connectorId cluster polls = true) :
    ∃ poll ∈ polls, SawReady poll.inspection := by
  induction polls with
  | nil => cases h
  | cons poll polls ih =>
    rw [awaitReady] at h
    split at h
    · cases h
    · cases h
    · rename_i hready
      exact ⟨poll, List.mem_cons_self, sawReady_of_inspect hready⟩
    · obtain ⟨later, hmem, hsaw⟩ := ih (Bool.and_eq_true_iff.mp h).2
      exact ⟨later, List.mem_cons_of_mem poll hmem, hsaw⟩

variable (properties connectorId) in
/-- The states and answers with which a failed allocation leaves the cluster as it was.  One that
stops needs a name that is not recorded, or nothing to delete; one that created what was missing
is cleared, and the place was vacant before, or is left alone, and was complete. -/
def Spares (state : RuntimeState) (answers : AllocationAnswers) : Prop :=
  (properties.Stops connectorId state answers → runtimeIdentity connectorId ∈ state.recorded →
      properties.Unharmed connectorId state.cluster) ∧
    (¬ properties.Stops connectorId state answers →
      if answers.afterRefused = true ∧ runtimeIdentity connectorId ∉ state.recorded then
        properties.Complete connectorId state.cluster
      else properties.Vacant connectorId state.cluster)

/-- **An allocation that fails leaves the cluster as it was exactly in the states of `Spares`; none
changes what is another connector's; and one that returns leaves a pod and a service of its
connector behind, the pod seen ready.** -/
theorem allocation (properties : RuntimeProperties) (connectorId : String) (state : RuntimeState)
    (answers : AllocationAnswers) :
    ((properties.allocate connectorId state answers).1 = none →
      ((properties.allocate connectorId state answers).2.cluster = state.cluster ↔
        properties.Spares connectorId state answers)) ∧
    (∀ other, other ≠ connectorId →
      Keeps other state.cluster (properties.allocate connectorId state answers).2.cluster) ∧
    ∀ result, (properties.allocate connectorId state answers).1 = some result →
      properties.Fits connectorId (properties.allocate connectorId state answers).2.cluster ∧
      properties.Complete connectorId (properties.allocate connectorId state answers).2.cluster ∧
      ∃ poll ∈ answers.polls, SawReady poll.inspection := by
  unfold allocate
  rcases reconcileOrCreate_cases state answers with
    ⟨hstops, heq⟩ | ⟨hgoes, hfits, result, heq⟩
  · rw [heq]
    refine ⟨fun _ => ?_, fun other hother => keeps_compensate _ _ hother, fun r hr => nomatch hr⟩
    dsimp only [Spares]
    rw [and_iff_left fun hgoes => absurd hstops hgoes, forall_prop_of_true hstops]
    by_cases hrecorded : runtimeIdentity connectorId ∈ state.recorded
    · rw [compensate_eq_iff hrecorded, forall_prop_of_true hrecorded]
    · rw [compensate_of_notMem hrecorded]
      exact iff_of_true rfl fun hmem => absurd hmem hrecorded
  · have hfailed := compensate_filled hfits state.recorded answers.afterRefused
    have hkeeps : ∀ recorded other, other ≠ connectorId → Keeps other state.cluster
        (properties.compensate connectorId
          ⟨properties.filled connectorId state.cluster, recorded⟩).cluster := by
      intro recorded other hother
      have hfilled := keeps_filled properties connectorId other state.cluster
      have hlater := keeps_compensate properties
        ⟨properties.filled connectorId state.cluster, recorded⟩ hother
      exact ⟨fun j r hr hid => hlater.1 j r (hfilled.1 j r hr hid) hid,
        fun j r hr hid => hlater.2 j r (hfilled.2 j r hr hid) hid⟩
    rw [heq, Spares, and_iff_right fun hstops => absurd hstops hgoes, forall_prop_of_true hgoes]
    cases result with
    | none => exact ⟨fun _ => hfailed, hkeeps _, fun r hr => nomatch hr⟩
    | some r =>
      dsimp only
      split
      · rename_i hready
        refine ⟨fun hnone => (nomatch hnone), fun other _ => keeps_filled _ _ other _, fun r' _ => ?_⟩
        exact ⟨(fits_filled hfits).1, (fits_filled hfits).2,
          sawReady_of_awaitReady (Bool.and_eq_true_iff.mp hready).2⟩
      · exact ⟨fun _ => hfailed, hkeeps _, fun r' hr => nomatch hr⟩

/-! ### Compensating for what was returned -/

variable {after : RuntimeState} {result : RuntimeAllocationResult}

/-- What a reconciliation that returns says in its result of what it has done. -/
theorem reconcileOrCreate_ok
    (h : properties.reconcileOrCreate connectorId state answers = (some result, after)) :
    after = ⟨properties.filled connectorId state.cluster,
        runtimeIdentity connectorId :: state.recorded⟩ ∧
      result.connectorId = connectorId ∧ result.runtimeIdentity = runtimeIdentity connectorId ∧
      result.podCreated = (state.cluster.pods (properties.place connectorId)).isNone ∧
      result.serviceCreated = (state.cluster.services (properties.place connectorId)).isNone := by
  have hpodStep : (if (state.cluster.get properties.namespaceName connectorId).podPresent then
      (some false, state.cluster.pods)
      else properties.createPod connectorId state.cluster.pods answers.createPod) = _ :=
    create_step _ _ (properties.place connectorId) _ _
  have hserviceStep : (if (state.cluster.get properties.namespaceName connectorId).servicePresent then
      (some false, state.cluster.services)
      else properties.createService connectorId state.cluster.services answers.createService) = _ :=
    create_step _ _ (properties.place connectorId) _ _
  unfold reconcileOrCreate reconciled at h
  dsimp only at h
  rw [hpodStep, hserviceStep] at h
  split at h
  · cases h
  split at h
  · cases h
  rename_i hpod
  split at hpod <;> cases hpod
  split at h
  · cases h
  rename_i hservice
  split at hservice <;> cases hservice
  split at h
  · cases h
  obtain ⟨hresult, rfl⟩ := Prod.mk.inj h
  obtain ⟨status, -, rfl⟩ := map_eq_some_iff.mp hresult
  exact ⟨rfl, rfl, rfl, rfl, rfl⟩

/-- **Compensating for an allocation that has returned leads back to the cluster before it**,
whatever of the connector stood there. -/
theorem compensation (properties : RuntimeProperties) (connectorId : String) (state : RuntimeState)
    (answers : AllocationAnswers) :
    ((properties.allocate connectorId state answers).1.map fun result =>
      (properties.compensateResult (properties.allocate connectorId state answers).2 result).cluster) =
    (properties.allocate connectorId state answers).1.map fun _ => state.cluster := by
  unfold allocate
  rcases reconcileOrCreate_cases state answers with ⟨-, heq⟩ | ⟨-, hfits, result, heq⟩
  · rw [heq]
    rfl
  cases result with
  | none =>
    rw [heq]
    rfl
  | some result =>
    obtain ⟨hafter, hid, hidentity, hpod, hservice⟩ := reconcileOrCreate_ok heq
    have hservices := delete_fill state.cluster.services (·.isOf connectorId)
      (properties.place connectorId) (properties.service_isOf connectorId)
    have hpods := delete_fill state.cluster.pods (·.isOf connectorId)
      (properties.place connectorId) (properties.pod_isOf connectorId)
    have howned := deleteIfOwned_of_owned (ownedAt_fill hfits.2 (properties.service_isOf connectorId)).1
    rw [heq, hafter]
    dsimp only
    split
    · refine congrArg some ?_
      unfold compensateResult deleteServiceIfOwned deletePodIfOwned filled
      dsimp only
      rw [hid, hidentity, hpod, hservice, if_neg (not_not.mpr List.mem_cons_self)]
      rw [howned] at hservices ⊢
      cases hnone : (state.cluster.services (properties.place connectorId)).isNone <;>
        · rw [hnone] at hservices
          exact congrArg₂ Cluster.mk hpods hservices
    · rfl

/-! ### Two allocations that fail -/

def sampleProperties : RuntimeProperties := ⟨"ai-investment", Dict.empty, Dict.empty, 80⟩

def sampleConnector : String := "6f1c7a52-0d3e-4a7b-9a60-3f0a4b9d2c11"

def emptyCluster : Cluster := ⟨Table.empty, Table.empty⟩

/-- Every call is answered, but the runtime is not ready in time. -/
def sampleAnswers : AllocationAnswers := ⟨false, none, none, false, ⟨false, none⟩, []⟩

/-- An allocation that runs out of time deletes the pod that stood there before, and one whose last
read is refused leaves the pod that it created. -/
theorem not_all_or_nothing :
    (∃ state, (sampleProperties.allocate sampleConnector state sampleAnswers).1 = none ∧
      state.cluster.pods (sampleProperties.place sampleConnector) ≠ none ∧
      (sampleProperties.allocate sampleConnector state sampleAnswers).2.cluster.pods
        (sampleProperties.place sampleConnector) = none) ∧
    ∃ answers, (sampleProperties.allocate sampleConnector ⟨emptyCluster, []⟩ answers).1 = none ∧
      (sampleProperties.allocate sampleConnector ⟨emptyCluster, []⟩ answers).2.cluster.pods
        (sampleProperties.place sampleConnector) ≠ none := by
  refine ⟨⟨⟨sampleProperties.filled sampleConnector emptyCluster, []⟩, ?_, ?_, ?_⟩,
    { sampleAnswers with afterRefused := true }, ?_, ?_⟩
  · rfl
  · intro h
    cases h
  · rfl
  · rfl
  · intro h
    cases h

end RuntimeProperties

end InvestmentPlatform.Broker

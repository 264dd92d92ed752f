/-
`KubernetesIBKRRuntimeOrchestrator` over its `Fabric8KubernetesRuntimeResourceClient`: the pod and
the service of a connector, which are allocated together and compensated where that fails.

The cluster maps the place of a resource, a namespace and a name, to what the client looks at of
it.  The API server may refuse any call of an allocation, and what it answers is given with the
allocation, as is the status that each read of the pod finds.  The deletes of a compensation
succeed, with the reads they begin with.  A UUID is its text.
-/
import InvestmentPlatform.Lib.Dict
import InvestmentPlatform.Lib.Table

namespace InvestmentPlatform.Broker

/-! ### The cluster -/

abbrev Labels := Dict String String

/-- A pod, with its labels if its metadata has any. -/
structure Pod where
  labels : Option Labels

structure Service where
  labels : Option Labels
  selector : Option Labels
  ports : List Nat

/-- A namespace, and a name in it. -/
abbrev Place := String × String

structure Cluster where
  pods : Table Place Pod
  services : Table Place Service

def connectorIdLabel : String := "ai-investment/connector-id"

def requiredLabels : List (String × String) :=
  [("app.kubernetes.io/name", "ibkr-connector-runtime"),
    ("app.kubernetes.io/managed-by", "ai-investment"), ("ai-investment/broker", "ibkr")]

/-- `labels`. -/
def labels (configured : Labels) (connectorId : String) : Labels :=
  (requiredLabels.foldl (fun out item => out.set item.1 item.2) configured).set connectorIdLabel
    connectorId

def hasIdentity (metadata : Option Labels) (connectorId : String) : Bool :=
  match metadata with
  | none => false
  | some l => l.get? connectorIdLabel = some connectorId &&
      requiredLabels.all fun item => l.get? item.1 = some item.2

/-- `Map.equals`, which does not look at the order. -/
def sameEntries (a b : Labels) : Bool :=
  a.items.all (fun item => b.get? item.1 = some item.2) &&
    b.items.all fun item => a.get? item.1 = some item.2

def selectorMatches (service : Service) (connectorId : String) : Bool :=
  match service.selector with
  | none => false
  | some selector => sameEntries (labels Dict.empty connectorId) selector

/-- The service is the one of the connector: its identity, and its selector. -/
def Service.isOf (service : Service) (connectorId : String) : Bool :=
  hasIdentity service.labels connectorId && selectorMatches service connectorId

def Pod.isOf (pod : Pod) (connectorId : String) : Bool := hasIdentity pod.labels connectorId

/-- `KubernetesIBKRRuntimeOrchestrator.name`. -/
def runtimeName (connectorId : String) : String :=
  "ibkr-runtime-" ++ String.ofList ((connectorId.toList.filter (· ≠ '-')).take 12)

/-! ### What the client reads -/

inductive RuntimeReconciliationState
  | absentBoth | podOnly | serviceOnly | bothMatching | identityMismatch
  deriving DecidableEq, Repr

inductive RuntimeTechnicalStatus
  | absent | starting | notReady | ready | failed | unknown
  deriving DecidableEq, Repr

structure RuntimeResources where
  connectorId : String
  runtimeIdentity : String
  podPresent : Bool
  servicePresent : Bool
  labelsValid : Bool
  selectorValid : Bool
  endpoint : String

def RuntimeResources.state (resources : RuntimeResources) : RuntimeReconciliationState :=
  if !resources.labelsValid || !resources.selectorValid then .identityMismatch
  else if resources.podPresent && resources.servicePresent then .bothMatching
  else if resources.podPresent then .podOnly
  else if resources.servicePresent then .serviceOnly
  else .absentBoth

def runtimeIdentity (connectorId : String) : String := "service/" ++ runtimeName connectorId

inductive PodPhase
  | pending | running | succeeded | failed | unknown
  deriving DecidableEq, Repr

structure PodStatus where
  phase : Option PodPhase
  /-- The types of the conditions, and their statuses. -/
  conditions : List (String × String)
  deriving DecidableEq, Repr

def PodStatus.ready (status : PodStatus) : Bool :=
  status.conditions.any fun condition => condition.1 = "Ready" && condition.2 = "True"

/-- What `inspect` meets: whether one of its reads is refused, and the status of the pod. -/
structure Inspection where
  refused : Bool
  status : Option PodStatus
  deriving DecidableEq, Repr

namespace Cluster

variable (cluster : Cluster) (namespaceName connectorId : String)

/-- `get`, where its reads are answered. -/
def get : RuntimeResources :=
  let name := runtimeName connectorId
  let pod := cluster.pods (namespaceName, name)
  let service := cluster.services (namespaceName, name)
  { connectorId
    runtimeIdentity := runtimeIdentity connectorId
    podPresent := pod.isSome
    servicePresent := service.isSome
    labelsValid := pod.all (hasIdentity ·.labels connectorId) &&
      service.all (hasIdentity ·.labels connectorId)
    selectorValid := service.all (selectorMatches · connectorId)
    endpoint := "http://" ++ name ++ ":" ++
      toString ((service.bind fun s => s.ports.head?).getD 80) }

/-- `inspect`; `none` where it throws. -/
def inspect (inspection : Inspection) : Option RuntimeTechnicalStatus :=
  if inspection.refused then none
  else
    match (cluster.get namespaceName connectorId).state with
    | .identityMismatch | .serviceOnly => some .unknown
    | .absentBoth => some .absent
    | .podOnly | .bothMatching =>
      match inspection.status with
      | none => some .unknown
      | some status =>
        match status.phase with
        | some .failed | some .succeeded => some .failed
        | some .running => some (if status.ready then .ready else .notReady)
        | _ => some .starting

end Cluster

/-! ### Creating and deleting -/

/-- The API server refuses a create: for a conflict, after which the resource may be read, or for
another reason. -/
inductive Refusal
  | conflict (readable : Bool)
  | other

section

variable {R : Type} (resources : Table Place R) (owned : R → Bool) (place : Place)

/-- What `createPod` and `createService` do: whether they created one, `none` where they throw. -/
def create (resource : R) (refusal : Option Refusal) : Option Bool × Table Place R :=
  let matching := (resources place).any owned
  match refusal, resources place with
  | some .other, _ => (none, resources)
  | some (.conflict readable), _ => (if readable && matching then some false else none, resources)
  | none, some _ => (if matching then some false else none, resources)
  | none, none => (some true, resources.put place resource)

/-- What `deletePodIfOwned` and `deleteServiceIfOwned` do. -/
def deleteIfOwned : Option Bool × Table Place R :=
  match resources place with
  | none => (some false, resources)
  | some resource =>
    if owned resource then (some true, Function.update resources place none) else (none, resources)

end

/-! ### Allocating -/

/-- The properties of the orchestrator and of its runtimes. -/
structure RuntimeProperties where
  namespaceName : String
  podLabels : Labels
  serviceLabels : Labels
  servicePort : Nat

/-- The cluster, and the keys of `allocationNamespaces`.  The client is only ever passed the
namespace of the properties, so that is the value of each. -/
structure RuntimeState where
  cluster : Cluster
  recorded : List String

/-- One turn of `awaitReady`, and whether the wait after it is interrupted. -/
structure Poll where
  inspection : Inspection
  interrupted : Bool

/-- What an allocation meets, call by call.  There is a poll for every time that the clock is not
past the deadline. -/
structure AllocationAnswers where
  beforeRefused : Bool
  createPod : Option Refusal
  createService : Option Refusal
  afterRefused : Bool
  inspection : Inspection
  polls : List Poll

structure RuntimeAllocationResult where
  connectorId : String
  runtimeIdentity : String
  endpoint : String
  podCreated : Bool
  serviceCreated : Bool
  podPresent : Bool
  servicePresent : Bool
  ready : Bool
  reconciled : Bool
  deriving DecidableEq, Repr

namespace RuntimeProperties

variable (properties : RuntimeProperties) (connectorId : String)

/-- `pod`, as far as the client looks at it. -/
def pod : Pod := ⟨some (labels properties.podLabels connectorId)⟩

/-- `service`. -/
def service : Service where
  labels := some (labels properties.serviceLabels connectorId)
  selector := some (labels Dict.empty connectorId)
  ports := [properties.servicePort]

def place : Place := (properties.namespaceName, runtimeName connectorId)

def createPod (pods : Table Place Pod) (refusal : Option Refusal) : Option Bool × Table Place Pod :=
  create pods (·.isOf connectorId) (properties.place connectorId) (properties.pod connectorId) refusal

def createService (services : Table Place Service) (refusal : Option Refusal) :
    Option Bool × Table Place Service :=
  create services (·.isOf connectorId) (properties.place connectorId)
    (properties.service connectorId) refusal

def deletePodIfOwned (pods : Table Place Pod) : Option Bool × Table Place Pod :=
  deleteIfOwned pods (·.isOf connectorId) (properties.place connectorId)

def deleteServiceIfOwned (services : Table Place Service) : Option Bool × Table Place Service :=
  deleteIfOwned services (·.isOf connectorId) (properties.place connectorId)

/-- The end of `reconcileOrCreate`: the result, if both resources are there and match. -/
def reconciled (state : RuntimeState) (podCreated serviceCreated : Bool) (answers : AllocationAnswers) :
    Option RuntimeAllocationResult × RuntimeState :=
  let after := state.cluster.get properties.namespaceName connectorId
  if answers.afterRefused || after.state = .identityMismatch || !after.podPresent ||
      !after.servicePresent then (none, state)
  else
    ((state.cluster.inspect properties.namespaceName connectorId answers.inspection).map fun status =>
      { connectorId
        runtimeIdentity := after.runtimeIdentity
        endpoint := after.endpoint
        podCreated
        serviceCreated
        podPresent := true
        servicePresent := true
        ready := status = .ready
        reconciled := !podCreated && !serviceCreated },
      { state with recorded := after.runtimeIdentity :: state.recorded })

/-- `reconcileOrCreate`; `none` where it throws. -/
def reconcileOrCreate (state : RuntimeState) (answers : AllocationAnswers) :
    Option RuntimeAllocationResult × RuntimeState :=
  let before := state.cluster.get properties.namespaceName connectorId
  if answers.beforeRefused || before.state = .identityMismatch then (none, state)
  else
    match
      if before.podPresent then (some false, state.cluster.pods)
      else properties.createPod connectorId state.cluster.pods answers.createPod with
    | (none, pods) => (none, { state with cluster.pods := pods })
    | (some podCreated, pods) =>
      match
        if before.servicePresent then (some false, state.cluster.services)
        else properties.createService connectorId state.cluster.services answers.createService with
      | (none, services) =>
        let pods := if podCreated then (properties.deletePodIfOwned connectorId pods).2 else pods
        (none, { state with cluster := ⟨pods, services⟩ })
      | (some serviceCreated, services) =>
        properties.reconciled connectorId { state with cluster := ⟨pods, services⟩ } podCreated
          serviceCreated answers

/-- `awaitReady`: whether it returns. -/
def awaitReady (cluster : Cluster) : List Poll → Bool
  | [] => false
  | poll :: polls =>
    match cluster.inspect properties.namespaceName connectorId poll.inspection with
    | none | some .failed => false
    | some .ready => true
    | _ => !poll.interrupted && awaitReady cluster polls

/-- `compensate`, of a pod and a service that are said to have been created. -/
def compensate (state : RuntimeState) : RuntimeState :=
  if runtimeIdentity connectorId ∉ state.recorded then state
  else
    match properties.deleteServiceIfOwned connectorId state.cluster.services with
    | (none, services) => { state with cluster.services := services }
    | (some _, services) =>
      { state with
        cluster := ⟨(properties.deletePodIfOwned connectorId state.cluster.pods).2, services⟩ }

/-- `compensate`, of an allocation that has returned. -/
def compensateResult (state : RuntimeState) (result : RuntimeAllocationResult) : RuntimeState :=
  if result.runtimeIdentity ∉ state.recorded then state
  else
    let (deleted, services) :=
      if result.serviceCreated then
        properties.deleteServiceIfOwned result.connectorId state.cluster.services
      else (some false, state.cluster.services)
    let pods :=
      if deleted.isSome && result.podCreated then
        (properties.deletePodIfOwned result.connectorId state.cluster.pods).2
      else state.cluster.pods
    { state with cluster := ⟨pods, services⟩ }

/-- `allocate`; `none` where it throws.  The descriptor repeats what the result holds. -/
def allocate (state : RuntimeState) (answers : AllocationAnswers) :
    Option RuntimeAllocationResult × RuntimeState :=
  match properties.reconcileOrCreate connectorId state answers with
  | (none, state) => (none, properties.compensate connectorId state)
  | (some result, state) =>
    if result.podPresent && result.servicePresent &&
        properties.awaitReady connectorId state.cluster answers.polls then (some result, state)
    else (none, properties.compensate connectorId state)

end RuntimeProperties

end InvestmentPlatform.Broker

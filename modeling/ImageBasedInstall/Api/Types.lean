import Mathlib.Data.List.Basic

/-!
# The API objects

The kinds the operator reads and writes: `ImageClusterInstall` (`api/v1alpha1`), the hive
`ClusterDeployment` and `ClusterImageSet`, the metal3 `BareMetalHost` and `DataImage`, and core
secrets and config maps. Namespace and name are the key an object is stored under and are not
repeated in the object. Annotations and labels are partial functions; a Go slice is an optional
list, `none` being the nil slice (`reflect.DeepEqual` tells it from an empty one).
-/

namespace ImageBasedInstall

/-- Points in time and durations, in seconds. -/
abbrev Time := Int

/-- `types.NamespacedName`, also used for `v1alpha1.BareMetalHostReference`. -/
structure NamespacedName where
  ns : String
  name : String
  deriving DecidableEq, Repr

/-- A Go slice: `none` is nil. -/
abbrev Slice (α : Type) := Option (List α)

/-- The entries of a slice, none for nil. -/
def Slice.items {α : Type} (s : Slice α) : List α := s.getD []

/-! ## ImageClusterInstall -/

/-- `hivev1.ClusterInstallConditionType`: the four the operator writes, and any other. -/
inductive ConditionType where
  | requirementsMet
  | completed
  | failed
  | stopped
  | other (name : String)
  deriving DecidableEq, Repr

/-- `corev1.ConditionStatus`: the three the operator writes, and any other. -/
inductive ConditionStatus where
  | true
  | false
  | unknown
  | other (name : String)
  deriving DecidableEq, Repr

/-- `hivev1.ClusterInstallCondition`. -/
structure Condition where
  type : ConditionType
  status : ConditionStatus
  reason : String
  message : String
  lastProbeTime : Time := 0
  lastTransitionTime : Time := 0
  deriving DecidableEq, Repr

/-- `hivev1.ClusterMetadata`. -/
structure ClusterMetadata where
  clusterID : String
  infraID : String
  adminKubeconfigSecretRef : String
  adminPasswordSecretRef : Option String
  deriving DecidableEq, Repr

/-- `apicfgv1.ImageDigestMirrors`. -/
structure ImageDigestMirrors where
  source : String
  mirrors : List String
  mirrorSourcePolicy : String := ""
  deriving DecidableEq, Repr

/-- `v1alpha1.Proxy`, with the fields of the installer's own proxy type. -/
structure Proxy where
  httpProxy : String
  httpsProxy : String
  noProxy : String
  deriving DecidableEq, Repr

/-- `v1alpha1.ImageClusterInstallSpec`. References to objects of the own namespace are names. -/
structure Spec where
  clusterDeploymentRef : Option String := none
  imageSetRef : String := ""
  clusterMetadata : Option ClusterMetadata := none
  nodeIP : String := ""
  hostname : String := ""
  sshKey : String := ""
  imageDigestSources : Slice ImageDigestMirrors := none
  caBundleRef : Option String := none
  extraManifestsRefs : Slice String := none
  bareMetalHostRef : Option NamespacedName := none
  machineNetwork : String := ""
  machineNetworks : Slice String := none
  proxy : Option Proxy := none
  additionalNTPSources : Slice String := none
  deriving DecidableEq, Repr

/-- `v1alpha1.ImageClusterInstallStatus`; a zero `bootTime` is `none`. -/
structure Status where
  conditions : List Condition := []
  installRestarts : Nat := 0
  bareMetalHostRef : Option NamespacedName := none
  bootTime : Option Time := none
  deriving DecidableEq, Repr

/-! ### Reasons and messages of the conditions -/

def configurationPendingReason := "ConfigurationPending"
def configurationFailedReason := "ConfigurationFailed"
def imageCreationFailedReason := "ImageCreationFailed"
def imageCreationPendingReason := "ImageCreationPending"
def hostConfigurationPendingReason := "HostConfigurationPending"
def hostConfigurationFailedReason := "HostConfigurationFailed"
def hostConfigurationSucceededReason := "HostConfigurationSucceeded"
def hostValidationFailedReason := "HostValidationFailed"
def hostValidationPendingReason := "HostValidationPending"
def installTimedoutReason := "ClusterInstallationTimedOut"
def installTimedoutMessage := "Cluster installation is taking longer than expected"
def installInProgressReason := "ClusterInstallationInProgress"
def installInProgressMessage := "Cluster installation is in progress"
def installSucceededReason := "ClusterInstallationSucceeded"
def installSucceededMessage := "Cluster installation has succeeded"

structure ImageClusterInstall where
  uid : String
  annotations : String → Option String := fun _ => none
  labels : String → Option String := fun _ => none
  finalizers : List String := []
  deletionTimestamp : Option Time := none
  spec : Spec := {}
  status : Status := {}

/-! ## The objects it refers to -/

/-- `hivev1.ClusterDeployment`. -/
structure ClusterDeployment where
  uid : String := ""
  baseDomain : String
  clusterName : String
  pullSecretRef : Option String
  deriving DecidableEq, Repr

/-- `bmh_v1alpha1.AutomatedCleaningMode`. -/
inductive CleaningMode where
  | disabled
  | metadata
  | unset
  deriving DecidableEq, Repr

/-- `bmh_v1alpha1.ProvisioningState`: the two the operator acts on, and any other. -/
inductive ProvisioningState where
  | available
  | externallyProvisioned
  | other (name : String)
  deriving DecidableEq, Repr

/-- `bmh_v1alpha1.NIC`. -/
structure NIC where
  mac : String
  ip : String
  deriving DecidableEq, Repr

structure BareMetalHost where
  annotations : String → Option String := fun _ => none
  labels : String → Option String := fun _ => none
  automatedCleaningMode : CleaningMode := .metadata
  externallyProvisioned : Bool := false
  online : Bool := false
  preprovisioningNetworkDataName : String := ""
  provisioningState : ProvisioningState := .available
  poweredOn : Bool := false
  hardwareDetails : Option (List NIC) := none

/-- `bmh_v1alpha1.DataImage`, stored under the key of its host. -/
structure DataImage where
  url : String
  attachedURL : String := ""
  creationTimestamp : Time
  deletionTimestamp : Option Time := none
  finalizers : List String := []
  deriving DecidableEq, Repr

/-- `corev1.Secret`: its data, labels and owner UIDs, over a type `B` of byte strings. -/
structure Secret (B : Type) where
  data : List (String × B) := []
  labels : String → Option String := fun _ => none
  owners : List String := []

/-- `corev1.ConfigMap`, its data in some order of iteration. -/
structure ConfigMap where
  data : List (String × String) := []
  labels : String → Option String := fun _ => none

/-! ## Errors -/

/-- Go errors, as far as the code tells them apart, and the aborts of a nil dereference and of a
failed type assertion. -/
inductive Err where
  | notFound
  | alreadyExists
  | api (text : String)
  | mk (text : String)
  | wrap (text : String) (cause : Err)
  | panic
  | badAssertion
  deriving DecidableEq, Repr

/-- `errors.IsNotFound`, which sees through wrapped errors. -/
def Err.isNotFound : Err → Bool
  | .notFound => true
  | .wrap _ e => e.isNotFound
  | _ => false

/-- `fmt.Errorf("text: %w", err)`; an abort passes through. -/
def Err.within (text : String) : Err → Err
  | .panic => .panic
  | .badAssertion => .badAssertion
  | e => .wrap text e

/-- The operator is aborted: this is not an error that a function returns. -/
def Err.aborts : Err → Bool
  | .panic | .badAssertion => true
  | _ => false

@[simp] theorem Err.aborts_within (text : String) (e : Err) :
    (e.within text).aborts = e.aborts := by
  cases e <;> rfl

/-- The rendered text of an error. -/
def Err.text : Err → String
  | .notFound => "not found"
  | .alreadyExists => "already exists"
  | .api t => t
  | .mk t => t
  | .wrap t e => t ++ ": " ++ e.text
  | .panic => "nil pointer dereference"
  | .badAssertion => "interface conversion"

end ImageBasedInstall

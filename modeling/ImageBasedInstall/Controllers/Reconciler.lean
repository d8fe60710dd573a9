import ImageBasedInstall.Controllers.ImageData

/-!
# The reconciler

`controllers/imageclusterinstall_controller.go`. Go's pointers become values that are passed on: a
function that changes the `ImageClusterInstall`, the host or the condition in memory returns them. A
pass ends in a `Report`, which also records the condition its deferred function reported.
-/

namespace ImageBasedInstall

open Interactive

variable {B : Type} [DecidableEq B] (E : Env B)

def clusterInstallFinalizerName := "imageclusterinstall.extensions.hive.openshift.io/deprovision"
def backupLabel := "cluster.open-cluster-management.io/backup"
def restoreStatusAnnotation := "velero.io/restore-status"
def restoreSourceLabel := "velero.io/restore-name"

/-- The error of a call as a value, `none` for nil. -/
def errorOf {α : Type} : Except Err α → Option Err
  | .ok _ => none
  | .error e => some e

/-! ## Finalizer -/

/-- Removes the object's directory; `false` if another process holds its lock. -/
def removeConfigDir (ns uid : String) : Act B Bool := do
  let (lockDir, _) ← configDirs ns uid
  match ← (stat lockDir).attempt with
  | .error e =>
    if !e.isNotFound then throw (.wrap "failed to stat config directory" e)
    return true
  | .ok () =>
    match ← ExceptT.lift (withWriteLock E lockDir (removeAll lockDir)) with
    | .lockErr e => throw (e.within "failed to acquire file lock")
    | .busy => return false
    | .ran (.error e) => throw (e.within "failed to write input data")
    | .ran (.ok ()) => return true

/-- Deletes the `DataImage` of the host the spec names; `false` while its deletion is waited for. -/
def removeHostDataImage (s : Spec) : Act B Bool := do
  match s.bareMetalHostRef with
  | none => return true
  | some key =>
    let dataImage ← (removeBMHDataImage key).wrap ("failed to delete DataImage " ++ key.text)
    return dataImage.isNone

def removeFinalizer (req : NamespacedName) (ici : ImageClusterInstall) : Act B Unit := do
  if clusterInstallFinalizerName ∈ ici.finalizers then
    let (_, err) ← ExceptT.lift (patchICI req ici
      { ici with finalizers := ici.finalizers.filter (· ≠ clusterInstallFinalizerName) })
    liftExcept err

/-- `handleFinalizer` on an object that is being deleted. -/
def finalize (req : NamespacedName) (ici : ImageClusterInstall) : Act B Result := do
  if !(← removeConfigDir E req.ns ici.uid) then return { requeueAfter := 5 }
  if !(← removeHostDataImage ici.spec) then return { requeueAfter := 60 }
  removeFinalizer req ici
  return {}

/-- The object in memory, and the result if the pass stops here. -/
def handleFinalizer (req : NamespacedName) (ici : ImageClusterInstall) :
    Program B (ImageClusterInstall × Option (Result × Option Err)) := do
  if ici.deletionTimestamp.isNone then
    if clusterInstallFinalizerName ∈ ici.finalizers then return (ici, none)
    let (ici, err) ← patchICI req ici
      { ici with finalizers := ici.finalizers ++ [clusterInstallFinalizerName] }
    return (ici, some ({ requeue := true }, errorOf err))
  match ← (finalize E req ici).run with
  | .ok res => return (ici, some (res, none))
  | .error e => return (ici, some ({}, some e))

/-! ## Backup labels -/

/-- The labels with the backup label, if it was missing. -/
def setBackupLabel (labels : String → Option String) : Option (String → Option String) :=
  if labels backupLabel = some "true" then none
  else some (Function.update labels backupLabel (some "true"))

def labelConfigMapForBackup (key : NamespacedName) : Act B Unit := do
  let cm ← getConfigMap key
  match setBackupLabel cm.labels with
  | none => return ()
  | some labels => let _ ← patchConfigMap key cm { cm with labels }

def labelSecretForBackup (key : NamespacedName) : Act B Unit := do
  let secret ← getSecretNoncached key
  match setBackupLabel secret.labels with
  | none => return ()
  | some labels => let _ ← patchSecret key secret { secret with labels }

def labelBMHForBackup (key : NamespacedName) : Act B Unit := do
  let bmh ← getBMH key
  match setBackupLabel bmh.labels with
  | none => return ()
  | some labels => let _ ← requestPatchBMH key bmh { bmh with labels }

/-- The config maps, secrets and host an object refers to, in the order they are labelled. -/
def backupTargets (ns : String) (s : Spec) (cd : Option (NamespacedName × ClusterDeployment)) :
    List (Act B Unit) :=
  (s.caBundleRef.toList.map fun name => labelConfigMapForBackup ⟨ns, name⟩) ++
  (s.extraManifestsRefs.items.map fun name => labelConfigMapForBackup ⟨ns, name⟩) ++
  (cd.toList.flatMap fun (key, cd) =>
    labelSecretForBackup (seedReconfigurationSecret.key key) ::
      cd.pullSecretRef.toList.map fun name => labelSecretForBackup ⟨key.ns, name⟩) ++
  (s.bareMetalHostRef.toList.map labelBMHForBackup) ++
  (s.clusterMetadata.toList.flatMap fun m =>
    labelSecretForBackup ⟨ns, m.adminKubeconfigSecretRef⟩ ::
      m.adminPasswordSecretRef.toList.map fun name => labelSecretForBackup ⟨ns, name⟩)

/-- Errors are only logged. -/
def labelReferencedObjectsForBackup (ns : String) (s : Spec)
    (cd : Option (NamespacedName × ClusterDeployment)) : Program B Unit :=
  (backupTargets ns s cd).forM Act.ignore

/-! ## Annotations and metadata -/

def ensureAnnotated (req : NamespacedName) (ici : ImageClusterInstall) (key value : String) :
    Program B (ImageClusterInstall × Except Err Unit) := do
  let (annotations, set) := setAnnotationIfNotExists ici.annotations key value
  if !set then return (ici, .ok ())
  patchICI req ici { ici with annotations }

def ensureRestoreStatusAnnotation (req : NamespacedName) (ici : ImageClusterInstall) :
    Program B (ImageClusterInstall × Except Err Unit) :=
  ensureAnnotated req ici restoreStatusAnnotation "true"

def ensurePostCleanupAnnotation (req : NamespacedName) (ici : ImageClusterInstall) :
    Program B (ImageClusterInstall × Except Err Unit) :=
  ensureAnnotated req ici postCleanupAnnotation postCleanupAnnotationValue

/-- The status is empty and the velero restore label is present. -/
def iciIsBeingRestored (ici : ImageClusterInstall) : Bool :=
  (ici.labels restoreSourceLabel).isSome && ici.status.conditions.isEmpty &&
    ici.status.installRestarts == 0 && ici.status.bareMetalHostRef.isNone &&
    ici.status.bootTime.isNone

/-- The metadata is complete and names the secrets of the cluster deployment. A missing
`AdminPasswordSecretRef` is dereferenced once everything before it matches. -/
def metadataIsCurrent (cdName : String) : Option ClusterMetadata → Except Err Bool
  | none => .ok false
  | some m =>
    if m.clusterID ≠ "" ∧ m.infraID ≠ "" ∧
        m.adminKubeconfigSecretRef = kubeconfigSecretName cdName then
      match m.adminPasswordSecretRef with
      | none => .error .panic
      | some name => .ok (name == kubeadminPasswordSecretName cdName)
    else .ok false

/-- Collapse runs of dashes. -/
def squeezeDashes : List Char → List Char
  | '-' :: '-' :: cs => squeezeDashes ('-' :: cs)
  | c :: cs => c :: squeezeDashes cs
  | [] => []

/-- The part of `generateInfraID` before the random suffix. -/
def infraIDPrefix (base : String) : String :=
  let cs := base.toList.map fun c => if c.isAlphanum || c == '-' then c else '-'
  String.ofList (((squeezeDashes cs).take 21).reverse.dropWhile (· == '-')).reverse

def generateInfraID (base : String) : Program B String := do
  let suffix ← Prog.perform Op.randString
  return infraIDPrefix base ++ "-" ++ suffix

/-- The ID in the metadata, else the one in the secret, else a new one. -/
def chooseID (current secret : String) (fresh : Program B String) : Program B String :=
  if current ≠ "" then return current
  else if secret ≠ "" then return secret
  else fresh

def newUUID : Program B String := do
  return (← Prog.perform Op.newUUID).val

def setClusterInstallMetadata (req : NamespacedName) (ici : ImageClusterInstall)
    (cdKey : NamespacedName) (cd : ClusterDeployment) :
    Program B (ImageClusterInstall × Except Err Unit) := do
  match metadataIsCurrent cdKey.name ici.spec.clusterMetadata with
  | .error e => return (ici, .error e)
  | .ok true => return (ici, .ok ())
  | .ok false =>
    match ← (seedReconfigSecretClusterIDs E cdKey).run with
    | .error e => return (ici, .error (e.within "failed to get seed reconfiguration secret"))
    | .ok (secretClusterID, secretInfraID) =>
      let current (f : ClusterMetadata → String) := (ici.spec.clusterMetadata.map f).getD ""
      let clusterID ← chooseID (current (·.clusterID)) secretClusterID newUUID
      let infraID ← chooseID (current (·.infraID)) secretInfraID (generateInfraID cd.clusterName)
      let metadata : ClusterMetadata :=
        { clusterID, infraID
          adminKubeconfigSecretRef := kubeconfigSecretName cdKey.name
          adminPasswordSecretRef := some (kubeadminPasswordSecretName cdKey.name) }
      patchICI req ici { ici with spec := { ici.spec with clusterMetadata := some metadata } }

/-! ## Phases -/

/-- Phase 1: the cluster deployment and the host exist, and the host's disk is not cleaned. -/
def validateConfiguration (req : NamespacedName) (s : Spec)
    (cd : Option (NamespacedName × ClusterDeployment)) (cond : Condition) :
    Program B (Condition × Except Err (Option (NamespacedName × BareMetalHost))) := do
  match cd, s.bareMetalHostRef.filter (·.name ≠ "") with
  | none, _ =>
    match s.clusterDeploymentRef.filter (· ≠ "") with
    | none => return ({ cond with message := "ClusterDeploymentRef is unset" }, .ok none)
    | some name =>
      return ({ cond with
        message := "failed to get ClusterDeployment " ++ req.ns ++ "/" ++ name }, .ok none)
  | some _, none => return ({ cond with message := "BareMetalHostRef is unset" }, .ok none)
  | some _, some key =>
    match ← (getBMH key).run with
    | .error _ =>
      return ({ cond with message := "failed to get BareMetalHost " ++ key.text }, .ok none)
    | .ok bmh =>
      if bmh.automatedCleaningMode = .disabled then return (cond, .ok (some (key, bmh)))
      match ← patchBMH key bmh { bmh with automatedCleaningMode := .disabled } with
      | (bmh, .ok ()) => return (cond, .ok (some (key, bmh)))
      | (_, .error e) =>
        return ({ cond with
          reason := configurationFailedReason
          message := "failed to disable automated cleaning mode for BareMetalHost " ++ key.text },
          .error e)

/-- Phase 2: the host is validated and marked externally provisioned. -/
def validateHost (s : Spec) (key : NamespacedName) (bmh : BareMetalHost) (cond : Condition) :
    Program B (BareMetalHost × Condition × Except Err Result) := do
  match validateBMH E s key bmh cond with
  | (cond, .error e) => return (bmh, cond, .error e)
  | (cond, .ok res) =>
    if !res.isZero then return (bmh, cond, .ok res)
    if bmh.externallyProvisioned then return (bmh, cond, .ok {})
    match ← patchBMH key bmh { bmh with externallyProvisioned := true } with
    | (bmh, .ok ()) => return (bmh, cond, .ok {})
    | (bmh, .error e) => return (bmh, cond, .error e)

/-- `BaseURL/images/<namespace>/<UID>.iso`. -/
def imageURL (ns uid : String) : String := E.baseURL ++ "/images/" ++ ns ++ "/" ++ uid ++ ".iso"

/-- Phase 3: the image, and its URL. -/
def createImage (req : NamespacedName) (uid : String) (inp : BuildInput) (cond : Condition) :
    Program B (Condition × Except Err (String × Result)) := do
  match ← (writeInputData E inp uid).run with
  | .error .panic => return (cond, .error .panic)
  | .error .badAssertion => return (cond, .error .badAssertion)
  | .error e =>
    return ({ cond with reason := imageCreationFailedReason, message := "failed to create image" },
      .error e)
  | .ok res =>
    if !res.isZero then
      return ({ cond with
        reason := imageCreationPendingReason
        message := "could not acquire lock for image data" }, .ok ("", res))
    if E.baseURLParses then return (cond, .ok (imageURL E req.ns uid, {}))
    else
      return ({ cond with message := "failed to create image url" },
        .error (.mk "failed to create image url"))

/-- An existing `DataImage` of the host is used whatever its URL; one that is being deleted is
waited for. -/
def ensureBMHDataImage (key : NamespacedName) (url : String) : Act B (DataImage × Result) := do
  match ← (getDataImage key).attempt with
  | .ok dataImage =>
    if dataImage.deletionTimestamp.isSome then return (dataImage, { requeueAfter := 30 })
    return (dataImage, {})
  | .error e =>
    if !e.isNotFound then throw e
    (createDataImage key url).wrap "failed to create dataImage due to"
    let dataImage ← getDataImage key
    return (dataImage, {})

/-- The host as `updateBMHProvisioningState` patches it: online, managed, and rebooted unless the
image is attached already. -/
def BareMetalHost.booted (bmh : BareMetalHost) (dataImage : DataImage) : BareMetalHost :=
  let annotations :=
    if dataImage.attachedURL = "" then
      (setAnnotationIfNotExists bmh.annotations rebootAnnotation rebootAnnotationValue).1
    else bmh.annotations
  { bmh with
    online := true
    annotations := (setAnnotationIfNotExists annotations ibioManagedBMH "").1 }

def updateBMHProvisioningState (key : NamespacedName) (bmh : BareMetalHost)
    (dataImage : DataImage) : Program B (BareMetalHost × Except Err Unit) := do
  if annotationExists bmh.annotations ibioManagedBMH then return (bmh, .ok ())
  if bmh.provisioningState ≠ .available ∧ bmh.provisioningState ≠ .externallyProvisioned then
    return (bmh, .ok ())
  patchBMH key bmh (bmh.booted dataImage)

/-- What a phase that changes the object returns: the object and the condition in memory, and a
result, an error, or nothing if the pass goes on. -/
structure PhaseOutcome where
  ici : ImageClusterInstall
  cond : Condition
  result : Result := {}
  err : Option Err := none
  continues : Bool := false

/-- The boot time of the status, or the present if there is none. -/
def bootTimeOf (status : Status) : Program B Time :=
  match status.bootTime with
  | some t => pure t
  | none => now

/-- The object with a recorded boot of the host its spec names. -/
def ImageClusterInstall.bootedAt (ici : ImageClusterInstall) (t : Time) : ImageClusterInstall :=
  { ici with
    status := { ici.status with
      bareMetalHostRef := ici.spec.bareMetalHostRef
      bootTime := some t } }

/-- The start of the installation is recorded in the status. -/
def recordBoot (req : NamespacedName) (ici : ImageClusterInstall) (cond : Condition) :
    Program B PhaseOutcome := do
  match ici.status.bareMetalHostRef with
  | some _ => return { ici, cond, continues := true }
  | none =>
    let bootTime ← bootTimeOf ici.status
    match ← patchICIStatus req ici (ici.bootedAt bootTime) with
    | (ici, .ok ()) => return { ici, cond, continues := true }
    | (ici, .error e) =>
      return { ici, cond := { cond with message := "failed to set Status.BareMetalHostRef" },
               err := some e }

/-- The host is booted once its `DataImage` has cooled down. -/
def bootHost (req : NamespacedName) (ici : ImageClusterInstall) (key : NamespacedName)
    (bmh : BareMetalHost) (dataImage : DataImage) (cond : Condition) : Program B PhaseOutcome := do
  let t ← now
  if dataImage.creationTimestamp + E.dataImageCoolDownPeriod > t then
    return { ici
             cond := { cond with
               reason := hostConfigurationPendingReason
               message := "waiting for DataImage to cool down" }
             result := { requeueAfter := E.dataImageCoolDownPeriod } }
  match ← updateBMHProvisioningState key bmh dataImage with
  | (_, .error e) =>
    return { ici
             cond := { cond with message := "failed to update BareMetalHost provisioning state" }
             err := some e }
  | (bmh, .ok ()) =>
    if !annotationExists bmh.annotations ibioManagedBMH then
      return { ici
               cond := { cond with
                 reason := hostConfigurationPendingReason
                 message := "waiting for BMH provisioning state to be StateAvailable or " ++
                   "StateExternallyProvisioned, current state is: " ++
                     bmh.provisioningState.text } }
    recordBoot req ici cond

/-- Phase 4: the image is attached and the host booted. -/
def configureHost (req : NamespacedName) (ici : ImageClusterInstall) (imageUrl : String)
    (key : NamespacedName) (bmh : BareMetalHost) (cond : Condition) : Program B PhaseOutcome := do
  match ← (ensureBMHDataImage key imageUrl).run with
  | .error e =>
    return { ici, cond := { cond with message := "failed to create BareMetalHost DataImage" }
             err := some e }
  | .ok (dataImage, res) =>
    if !res.isZero then
      return { ici
               cond := { cond with
                 reason := hostConfigurationPendingReason
                 message := "previous DataImage is being deleted" }
               result := res }
    bootHost E req ici key bmh dataImage cond

/-! ## The pass -/

/-- Phases 3 and 4. -/
def imagePhases (req : NamespacedName) (ici : ImageClusterInstall)
    (cd : NamespacedName × ClusterDeployment) (key : NamespacedName) (bmh : BareMetalHost)
    (cond : Condition) : Program B PhaseOutcome := do
  let inp : BuildInput := ⟨req.ns, ici.spec, cd.1, cd.2, key, bmh⟩
  match ← createImage E req ici.uid inp { cond with reason := imageCreationFailedReason } with
  | (cond, .error e) => return { ici, cond, err := some e }
  | (cond, .ok (imageUrl, res)) =>
    if !res.isZero then return { ici, cond, result := res }
    let out ← configureHost E req ici imageUrl key bmh
      { cond with reason := hostConfigurationFailedReason }
    if !out.continues then return out
    return { out with
      cond := { out.cond with
        status := .true
        reason := hostConfigurationSucceededReason
        message := "configuration image is attached to the referenced host" } }

/-- Phase 2 and the cluster metadata, then the rest. -/
def hostPhases (req : NamespacedName) (ici : ImageClusterInstall)
    (cd : NamespacedName × ClusterDeployment) (key : NamespacedName) (bmh : BareMetalHost)
    (cond : Condition) : Program B PhaseOutcome := do
  match ← validateHost E ici.spec key bmh { cond with reason := hostValidationFailedReason } with
  | (_, cond, .error e) => return { ici, cond, err := some e }
  | (bmh, cond, .ok res) =>
    if !res.isZero then return { ici, cond, result := res }
    match ← setClusterInstallMetadata E req ici cd.1 cd.2 with
    | (ici, .error .panic) => return { ici, cond, err := some .panic }
    | (ici, .error e) =>
      return { ici
               cond := { cond with
                 message := "failed to set ClusterMetaData in ImageClusterInstall" }
               err := some e }
    | (ici, .ok ()) => imagePhases E req ici cd key bmh cond

/-- The condition before the first phase. -/
def unknownCondition : Condition :=
  { type := .requirementsMet, status := .false, reason := configurationPendingReason,
    message := "Unknown" }

/-- The four phases. -/
def runPhases (req : NamespacedName) (ici : ImageClusterInstall)
    (cd : Option (NamespacedName × ClusterDeployment)) : Program B PhaseOutcome := do
  match cd, ← validateConfiguration req ici.spec cd unknownCondition with
  | some cd, (cond, .ok (some (key, bmh))) => hostPhases E req ici cd key bmh cond
  | _, (cond, r) => return { ici, cond, err := errorOf r }

/-- The outcome of a pass: what `Reconcile` returns, and the condition that its deferred function
passed to `setRequirementsMetCondition`, if the pass got that far. -/
structure Report where
  result : Result := {}
  err : Option Err := none
  reported : Option Condition := none
  deriving DecidableEq

/-- The phases and the deferred report. -/
def reportPhases (req : NamespacedName) (ici : ImageClusterInstall)
    (cd : Option (NamespacedName × ClusterDeployment)) : Program B Report := do
  let out ← runPhases E req ici cd
  let _ ← setRequirementsMetCondition req out.ici out.cond.status out.cond.reason out.cond.message
  return { result := out.result, err := out.err, reported := some out.cond }

/-- The preparation of the object: annotations and initial conditions. -/
def prepare (req : NamespacedName) (ici : ImageClusterInstall) :
    Program B (ImageClusterInstall × Except Err Unit) := do
  match ← ensureRestoreStatusAnnotation req ici with
  | (ici, .error e) => return (ici, .error e)
  | (ici, .ok ()) =>
    match ← ensurePostCleanupAnnotation req ici with
    | (ici, .error e) => return (ici, .error e)
    | (ici, .ok ()) => initializeConditions req ici

/-- A failed requirement of an installation that has started is reported as met again. -/
def restoreRequirementsMet (req : NamespacedName) (ici : ImageClusterInstall) :
    Program B ImageClusterInstall :=
  match findCondition ici.status.conditions .requirementsMet with
  | some cond =>
    if cond.status = .false then
      setRequirementsMetCondition req ici .true hostConfigurationSucceededReason
        "configuration image is attached to the referenced host"
    else pure ici
  | none => pure ici

/-- An installation that has started has nothing to do as long as its files exist: `true`. -/
def checkStarted (req : NamespacedName) (ici : ImageClusterInstall) :
    Program B (ImageClusterInstall × Bool) := do
  if ici.status.bootTime.isNone then return (ici, false)
  let ici ← restoreRequirementsMet req ici
  return (ici, ← verifyIsoAndAuthExists (getClusterConfigDir req.ns ici.uid))

/-- A pass over an object whose installation is not complete. -/
def reconcileInstall (req : NamespacedName) (ici : ImageClusterInstall)
    (cd : Option (NamespacedName × ClusterDeployment)) : Program B Report := do
  match ← checkStarted req ici with
  | (_, true) => return {}
  | (ici, false) =>
    if iciIsBeingRestored ici then return {}
    match ← prepare req ici with
    | (_, .error e) => return { err := some e }
    | (ici, .ok ()) => reportPhases E req ici cd

/-- The cluster deployment, if it can be read. -/
def fetchCD (ns : String) (s : Spec) :
    Program B (Option (NamespacedName × ClusterDeployment)) := do
  match s.clusterDeploymentRef.filter (· ≠ "") with
  | none => return none
  | some name =>
    match ← (getCD ⟨ns, name⟩).run with
    | .ok cd => return some (⟨ns, name⟩, cd)
    | .error _ => return none

/-- `Reconcile`. -/
def reconcile (req : NamespacedName) : Program B Report := do
  match ← (getICI req).run with
  | .error e => return { err := if e.isNotFound then none else some e }
  | .ok ici =>
    match ← handleFinalizer E req ici with
    | (_, some (result, err)) => return { result, err }
    | (ici, none) =>
      let cd ← fetchCD req.ns ici.spec
      labelReferencedObjectsForBackup req.ns ici.spec cd
      if installationCompleted ici then
        match ← (handlePostCleanup ici).run with
        | .ok result => return { result }
        | .error e => return { err := some e }
      else
        reconcileInstall E req ici cd

/-! ## Watches -/

/-- The requests for an event of a host, from the replies to its `Get` and to the `List` of the
objects that name it. -/
def mapBMHToICI (bmh : Except Err BareMetalHost)
    (iciList : Except Err (List (NamespacedName × ImageClusterInstall))) : List NamespacedName :=
  match bmh, iciList with
  | .error _, _ => []
  | .ok _, .error _ => []
  | .ok _, .ok items =>
    -- only if the installation hasn't started
    (items.filter fun item => item.2.status.bootTime.isNone).map Prod.fst

end ImageBasedInstall

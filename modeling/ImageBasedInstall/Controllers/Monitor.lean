import ImageBasedInstall.Controllers.Common
import ImageBasedInstall.Credentials

/-!
# The monitor

`controllers/imageclusterinstall_monitor.go`: watches an installation that has started and reports
its progress, its timeout or its end in the Completed, Stopped and Failed conditions.
-/

namespace ImageBasedInstall

open Interactive

variable {B : Type} [DecidableEq B] (E : Env B)

def installTimeoutAnnotation :=
  "imageclusterinstall.extensions.hive.openshift.io/install-timeout"

/-- The timeout of an installation: its annotation, if it has one, else the default. -/
def installTimeout (ici : ImageClusterInstall) : Except Err Time :=
  match ici.annotations installTimeoutAnnotation with
  | none => .ok E.defaultInstallTimeout
  | some text =>
    match E.parseDuration text with
    | some t => .ok t
    | none => .error (.mk ("failed to parse install timeout annotation value " ++ text))

/-- `BootTime + timeout` lies before `t`; the zero boot time always does. -/
def isExpired (ici : ImageClusterInstall) (timeout t : Time) : Bool :=
  match ici.status.bootTime with
  | some bootTime => decide (bootTime + timeout < t)
  | none => true

/-- Reports the timeout if it has passed, and whether it has. -/
def handleClusterTimeout (req : NamespacedName) (ici : ImageClusterInstall) : Act B Bool := do
  if installationTimedout ici then return true
  let timeout ← liftExcept (installTimeout E ici)
  let t ← ExceptT.lift now
  if isExpired ici timeout t then
    let _ ← ExceptT.lift (setClusterTimeoutConditions req ici (E.durationText timeout))
    return true
  return false

/-- Waits, with a message, while the host's `DataImage` is being deleted; `some` stops the pass. -/
def handleDataImageDeletion (req : NamespacedName) (ici : ImageClusterInstall)
    (bmhRef : NamespacedName) : Act B (Option Result) := do
  match ← (getDataImage bmhRef).attempt with
  | .error e =>
    if e.isNotFound then return none
    throw e
  | .ok dataImage =>
    if dataImage.deletionTimestamp.isNone then return none
    let _ ← ExceptT.lift
      (setClusterInstallingConditions req ici "Waiting for DataImage to be deleted")
    return some { requeueAfter := 60 }

/-- The kubeconfig of the installed cluster, from its secret. -/
def spokeKubeconfig (req : NamespacedName) (ici : ImageClusterInstall) : Act B B := do
  match ici.spec.clusterMetadata with
  | none => throw (.mk "kubeconfig secret must be set to get spoke client")
  | some m =>
    if m.adminKubeconfigSecretRef = "" then
      throw (.mk "kubeconfig secret must be set to get spoke client")
    let key : NamespacedName := ⟨req.ns, m.adminKubeconfigSecretRef⟩
    let secret ← (getSecret key).wrap ("failed to get admin kubeconfig secret " ++ key.text)
    if secret.data.isEmpty then
      throw (.mk ("Secret " ++ key.text ++ " does not contain any data"))
    else
      match (secret.get "kubeconfig").filter fun b => !E.isEmpty b with
      | none => throw (.mk ("Secret data for " ++ key.text ++ " does not contain kubeconfig"))
      | some kubeconfig => return kubeconfig

/-- Not installed yet: timed out, or in progress. -/
def reportProgress (req : NamespacedName) (ici : ImageClusterInstall) (message : String) :
    Act B Result := do
  if ← handleClusterTimeout E req ici then return { requeueAfter := 3600 }
  let _ ← ExceptT.lift (setClusterInstallingConditions req ici message)
  return { requeueAfter := 60 }

/-- Installed: the `DataImage` has to be gone before it is reported. -/
def reportInstalled (req : NamespacedName) (ici : ImageClusterInstall) (bmhRef : NamespacedName) :
    Act B Result := do
  let _ ← removeBMHDataImage bmhRef
  match ← handleDataImageDeletion req ici bmhRef with
  | some res => return res
  | none =>
    let (_, err) ← ExceptT.lift (setClusterInstalledConditions req ici)
    liftExcept err
    return {}

def checkClusterStatus (req : NamespacedName) (ici : ImageClusterInstall)
    (bmhRef : NamespacedName) : Act B Result := do
  match ← handleDataImageDeletion req ici bmhRef with
  | some res => return res
  | none =>
    let kubeconfig ← spokeKubeconfig E req ici
    let status ← (spokeStatus kubeconfig).wrap "failed to initialize spoke client"
    if status.installed then reportInstalled req ici bmhRef
    else reportProgress E req ici status.text

/-- A nil `Status.BareMetalHostRef` is dereferenced. -/
def monitorInstallationProgress (req : NamespacedName) (ici : ImageClusterInstall) :
    Act B Result := do
  match ici.status.bareMetalHostRef with
  | none => throw .panic
  | some bmhRef =>
    let bmh ← getBMH bmhRef
    if bmh.poweredOn then checkClusterStatus E req ici bmhRef
    else reportProgress E req ici "Waiting for BMH to power on"

/-- `Reconcile` of the monitor. -/
def monitor (req : NamespacedName) : Act B Result := do
  match ← (getICI req).attempt with
  | .error e =>
    if e.isNotFound then return {}
    throw e
  | .ok ici =>
    if ici.status.bootTime.isNone then return {}
    if installationCompleted ici then return {}
    monitorInstallationProgress E req ici

end ImageBasedInstall

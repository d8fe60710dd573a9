import ImageBasedInstall.Controllers.HostValidation
import ImageBasedInstall.Credentials

/-!
# Building the config ISO

`writeInputData`: under the directory lock, an image that exists is reused and its credentials are
copied to the identity secrets; otherwise the work directory is rebuilt. If all three identity
secrets exist, the config files go to a temp directory and the stored identity is written to the
work directory (reinstall), else they go to the work directory itself.
-/

namespace ImageBasedInstall

open Interactive

variable {B : Type} [DecidableEq B] (E : Env B)

/-! ## The directory lock -/

/-- The results of `WithWriteLock`: a lock error, the lock was taken, or the callback ran. -/
inductive Locked (α : Type) where
  | lockErr (e : Err)
  | busy
  | ran (r : Except Err α)

/-- Makes sure the lock file exists, then tries to lock it. -/
def lockForDir (dir : Path) : Act B Bool := do
  match ← (stat (dir.join ["lock"])).attempt with
  | .ok () => tryLock dir
  | .error e =>
    if !e.isNotFound then throw e
    writeFile (dir.join ["lock"]) (E.ofString "")
    tryLock dir

def withWriteLock {α : Type} (dir : Path) (f : Act B α) : Program B (Locked α) := do
  match ← (lockForDir E dir).run with
  | .error e => return .lockErr e
  | .ok false => return .busy
  | .ok true => return .ran (← f.run)

/-! ## Directories -/

/-- `DataDir/namespaces/<namespace>/<UID>`. -/
def lockDirOf (ns uid : String) : Path := ⟨.data ns uid, []⟩

def filesDir := "files"

/-- `GetClusterConfigDir`: the work directory of an `ImageClusterInstall`. -/
def getClusterConfigDir (ns uid : String) : Path := ⟨.data ns uid, [filesDir, clusterConfigDir]⟩

/-- Creates the directories and returns the lock directory and the files directory. -/
def configDirs (ns uid : String) : Act B (Path × Path) := do
  let lockDir := lockDirOf ns uid
  let files := lockDir.join [filesDir]
  mkdirAll files
  return (lockDir, files)

def fileExists (path : Path) : Program B Bool := do
  match ← (stat path).run with
  | .ok () => return true
  | .error _ => return false

def verifyIsoAndAuthExists (clusterConfigPath : Path) : Program B Bool :=
  [isoPath, kubeadminPasswordPath, kubeconfigPath, manifestPath].allM fun file =>
    fileExists (clusterConfigPath.join file)

/-! ## Inputs -/

/-- The map with a key set. -/
def mapSet {α : Type} (m : List (String × α)) (key : String) (value : α) : List (String × α) :=
  m.filter (·.1 ≠ key) ++ [(key, value)]

/-- A `map[string]interface{}`; the nil map is empty. -/
abbrev JsonMap := List (String × Json)

/-- `json.Unmarshal` into a `JsonMap`: null makes it nil, a later member hides an earlier one. -/
def unmarshalMap : Json → Option JsonMap
  | .null => some []
  | .obj members => some (members.foldl (fun m kv => mapSet m kv.1 kv.2) [])
  | _ => none

/-- Into the `Auths` of an `imagePullSecret`, whose present entries an object adds to. -/
def unmarshalAuths (auths : List (String × JsonMap)) : Json → Option (List (String × JsonMap))
  | .null => some []
  | .obj members =>
    members.foldlM (fun auths kv => (unmarshalMap kv.2).map (mapSet auths kv.1)) auths
  | _ => none

/-- The package's case folding, as far as the name `auths` needs it. -/
def foldRune (c : Char) : Char := if c = 'ſ' then 's' else c.toLower

/-- Field names are matched without regard to case. -/
def isAuths (name : String) : Bool := name.toList.map foldRune == "auths".toList

/-- `json.Unmarshal` into an `imagePullSecret`. -/
def unmarshalPullSecret : Json → Option (List (String × JsonMap))
  | .null => some []
  | .obj members =>
    members.foldlM
      (fun auths kv => if isAuths kv.1 then unmarshalAuths auths kv.2 else some auths) []
  | _ => none

/-- One entry of the pull secret's `auths`: its error, or an abort if `auth` is not a string. -/
def checkAuth (entry : String × JsonMap) : Except Err (List String) :=
  match entry.2.lookup "auth" with
  | none => .ok ["invalid pull secret: \"" ++ entry.1 ++ "\" JSON-object requires 'auth' field"]
  | some (.str auth) =>
    match E.decodeBase64 auth with
    | none =>
      .ok ["invalid pull secret: 'auth' fields of \"" ++ entry.1 ++ "\" are not base64-encoded"]
    | some data =>
      if data.count 58 + 1 ≠ 2 then
        .ok ["invalid pull secret: 'auth' for " ++ entry.1 ++ " is not in 'user:password' format"]
      else .ok []
  | some _ => .error .badAssertion

/-- The text of `k8serrors.NewAggregate`. -/
def aggregateText (errs : List String) : String :=
  match errs.eraseDups with
  | [err] => err
  | errs => "[" ++ ", ".intercalate errs ++ "]"

def validatePullSecret (pullSecret : String) : Except Err Unit := do
  match (E.parseJson (E.trimSpace pullSecret)).bind unmarshalPullSecret with
  | none => throw (.mk "pull secret must be a well-formed JSON")
  | some auths =>
    if auths.length = 0 then throw (.mk "pull secret must contain 'auths' JSON-object field")
    let errs ← auths.mapM (checkAuth E)
    if errs.flatten ≠ [] then throw (.mk (aggregateText errs.flatten))

def dockerConfigJsonKey := ".dockerconfigjson"

def getValidPullSecret (psRef : Option String) (ns : String) : Act B String := do
  match psRef with
  | none => throw (.mk "missing reference to pull secret")
  | some name =>
    if name = "" ∨ ns = "" then throw (.mk "missing reference to pull secret")
    let s ← (getSecretNoncached ⟨ns, name⟩).wrap ("failed to find secret " ++ name)
    match s.get dockerConfigJsonKey with
    | none => throw (.mk ("secret " ++ name ++ " did not contain key " ++ dockerConfigJsonKey))
    | some psData =>
      (liftExcept (validatePullSecret E (E.toString psData))).wrap
        "invalid pull secret data in secret"
      return E.toString psData

def caBundleFileName := "tls-ca-bundle.pem"

def getCABundle (ref : Option String) (ns : String) : Act B String := do
  match ref with
  | none => return ""
  | some name =>
    let cm ← (getConfigMap ⟨ns, name⟩).wrap "failed to get CABundle config map"
    match cm.data.lookup caBundleFileName with
    | none => throw (.mk (caBundleFileName ++ " key missing from CABundle config map"))
    | some data => return data

/-- One entry of an extra-manifest config map. -/
def writeManifest (dir : Path) (entry : String × String) : Act B Unit := do
  if !E.validYaml entry.2 then throw (.mk ("failed to validate manifest file " ++ entry.1))
  (writeFile (dir.join [entry.1]) (E.ofString entry.2)).wrap "failed to write extra manifest file"

def invokerCMFileName := "invoker-cm.yaml"
def startTimeCMFileName := "ibi-monitor-cm.yaml"

def generateExtraManifests (clusterConfigPath : Path) (ns : String) (s : Spec) : Act B Unit := do
  let extraManifestsPath := clusterConfigPath.join [extraManifestsDir]
  mkdirAll extraManifestsPath
  (writeFile (extraManifestsPath.join [invokerCMFileName]) E.invokerCM).wrap
    "failed to write invoker config map"
  (writeFile (extraManifestsPath.join [startTimeCMFileName]) E.startTimeCM).wrap
    "failed to write ibi-monitor-cm config map"
  s.extraManifestsRefs.items.forM fun name => do
    let cm ← (getConfigMap ⟨ns, name⟩).wrap "failed to get extraManifests config map"
    cm.data.forM (writeManifest E extraManifestsPath)

def nmstateSecretKey := "nmstate"

/-- The static network configuration of a host, if it has one. -/
def nmstateConfig (key : NamespacedName) (bmh : BareMetalHost) : Act B String := do
  if bmh.preprovisioningNetworkDataName = "" then return ""
  let secretKey : NamespacedName := ⟨key.ns, bmh.preprovisioningNetworkDataName⟩
  let secret ← (getSecretNoncached secretKey).wrap
    ("failed to get network config secret " ++ secretKey.text)
  match secret.get nmstateSecretKey with
  | none =>
    throw (.mk ("referenced networking secret " ++ secretKey.text ++
      " does not contain the required key " ++ nmstateSecretKey))
  | some nmstate =>
    if !E.validNmstate (E.toString nmstate) then
      throw (.mk "failed to unmarshal nmstate data")
    return E.toString nmstate

def imageSetRegistry (s : Spec) : Act B String := do
  let releaseImage ← (getImageSet s.imageSetRef).wrap
    ("failed to get ClusterImageSet " ++ s.imageSetRef)
  liftExcept (E.imageRegistry releaseImage)

/-- `writeImageBaseConfig` of the controller. -/
def writeImageBaseConfig (s : Spec) (key : NamespacedName) (bmh : BareMetalHost) (file : Path) :
    Act B Unit := do
  let nmstate ← nmstateConfig E key bmh
  let releaseRegistry ← imageSetRegistry E s
  Installer.writeImageBaseConfig E s releaseRegistry nmstate file

/-! ## The build -/

def ensureCreds (cd : NamespacedName) (cdUID : String) (workDir : Path) : Act B Unit := do
  (ensureAdminPasswordSecret E cd cdUID (workDir.join kubeadminPasswordPath)).wrap
    "failed to ensure admin password secret"
  (ensureKubeconfigSecret E cd cdUID (workDir.join kubeconfigPath)).wrap
    "failed to ensure kubeconfig secret"
  (ensureSeedReconfigurationSecret E cd cdUID (workDir.join manifestPath)).wrap
    "failed to ensure seed reconfiguration secret"

/-- What a build reads besides the file system: the object's namespace and spec, the cluster
deployment and the host, with their keys. -/
structure BuildInput where
  ns : String
  spec : Spec
  cdKey : NamespacedName
  cd : ClusterDeployment
  bmhKey : NamespacedName
  bmh : BareMetalHost

variable (inp : BuildInput)

/-- `install-config.yaml` and `image-based-config.yaml`. -/
def writeConfigFiles (psData caBundle : String) (dir : Path) : Act B Unit := do
  (Installer.writeInstallConfig E inp.spec inp.cd psData caBundle
    (dir.join [installConfigFilename])).wrap "failed to write install config"
  (writeImageBaseConfig E inp.spec inp.bmhKey inp.bmh (dir.join [imageBasedConfigFilename])).wrap
    "failed to write install config"

/-- The image and the credentials, once the work directory holds its inputs. -/
def finishBuild (isoWorkDir : Path) : Act B Unit := do
  (Installer.createInstallationIso E inp.spec isoWorkDir).wrap "failed to create installation iso"
  ensureCreds E inp.cdKey inp.cd.uid isoWorkDir

/-- The branch without identity secrets: the config files lie in the work directory. -/
def firstInstall (psData caBundle : String) (isoWorkDir : Path) : Act B Unit := do
  writeConfigFiles E inp psData caBundle isoWorkDir
  finishBuild E inp isoWorkDir

/-- The branch with identity secrets, up to the deferred removal of the temp directory. -/
def reinstall (psData caBundle : String) (idData : IdentityData B) (tmpDir isoWorkDir : Path) :
    Act B Unit := do
  writeConfigFiles E inp psData caBundle tmpDir
  (Installer.writeReinstallData E tmpDir isoWorkDir idData).wrap "failed to write reinstall data"
  finishBuild E inp isoWorkDir

/-- `defer os.RemoveAll(dir)`. -/
def deferRemoveAll (dir : Path) (body : Act B Unit) : Act B Unit := do
  let r ← body.attempt
  let _ ← (removeAll dir).attempt
  liftExcept r

/-- A build in a work directory without a complete image. The error of the removal is ignored. -/
def rebuild (isoWorkDir : Path) : Act B Unit := do
  let _ ← (removeAll isoWorkDir).attempt
  mkdirAll isoWorkDir
  let psData ← (getValidPullSecret E inp.cd.pullSecretRef inp.cdKey.ns).wrap
    "failed to get valid pull secret"
  let caBundle ← (getCABundle inp.spec.caBundleRef inp.ns).wrap "failed to get ca bundle"
  (generateExtraManifests E isoWorkDir inp.ns inp.spec).wrap "failed to generate extra manifests"
  match ← (clusterIdentitySecrets E inp.cdKey).wrap
      "failed to check existence of cluster identity secrets" with
  | none => firstInstall E inp psData caBundle isoWorkDir
  | some idData =>
    let tmpDir ← mkdirTemp.wrap "failed to create tempdir"
    deferRemoveAll tmpDir (reinstall E inp psData caBundle idData tmpDir isoWorkDir)

/-- The callback of `writeInputData`. -/
def buildImage (isoWorkDir : Path) : Act B Unit := do
  if ← ExceptT.lift (verifyIsoAndAuthExists isoWorkDir) then
    ensureCreds E inp.cdKey inp.cd.uid isoWorkDir
  else
    rebuild E inp isoWorkDir

def writeInputData (uid : String) : Act B Result := do
  let (lockDir, files) ← configDirs inp.ns uid
  match ← ExceptT.lift (withWriteLock E lockDir (buildImage E inp (files.join [clusterConfigDir])))
  with
  | .lockErr e => throw (e.within "failed to acquire file lock")
  | .busy => return { requeueAfter := 5 }
  | .ran (.error e) => throw (e.within "failed to write input data")
  | .ran (.ok ()) => return {}

end ImageBasedInstall

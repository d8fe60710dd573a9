import ImageBasedInstall.Installer.Config

/-!
# The vendored installer

`CreateInstallationIso` fetches four assets from the work directory and writes each to it: the ISO,
the kubeconfig, the kubeadmin password and `manifest.json`. An asset is loaded from its file when
none of its inputs is on disk, and generated otherwise:

* `manifest.json` and the kubeconfig are kept as they are unless `install-config.yaml` or (for the
  manifest) `image-based-config.yaml` is there;
* the mirror set comes from an `install-config.yaml` on disk, or from its own file;
* the password is loaded from `tls/kubeadmin-password.hash` only, which nothing writes, so it is
  always drawn anew.

Fetching the first asset also writes the state file and purges the consumed files; the asset is
written to disk even if that failed.
-/

namespace ImageBasedInstall

open Interactive

def installConfigFilename := "install-config.yaml"
def imageBasedConfigFilename := "image-based-config.yaml"
def clusterConfigDir := "cluster-configuration"
def extraManifestsDir := "extra-manifests"
def seedReconfigurationFileName := "manifest.json"
def mirrorSetFile : List String := [clusterConfigDir, "manifests", "image-digest-mirror-set.json"]
def stateFileName := ".openshift_install_state.json"
def isoName := "imagebasedconfig.iso"
def authDir := "auth"
def kubeAdminFile := "kubeadmin-password"
def kubeconfigFile := "kubeconfig"

/-- The four files of a finished build, relative to the work directory. -/
def manifestPath : List String := [clusterConfigDir, seedReconfigurationFileName]
def kubeconfigPath : List String := [authDir, kubeconfigFile]
def kubeadminPasswordPath : List String := [authDir, kubeAdminFile]
def isoPath : List String := [isoName]

variable {B : Type} (E : Env B)

namespace Installer

/-! ## Loading -/

/-- Decode a file if it is there. -/
def loadFile {α : Type} (decode : B → Option α) (valid : α → Bool) (name : String)
    (file : Option B) : Except Err (Option α) :=
  match file with
  | none => .ok none
  | some b =>
    match decode b with
    | none => .error (.mk ("failed to unmarshal " ++ name))
    | some a => if valid a then .ok (some a) else .error (.mk ("invalid " ++ name))

def loadInstallConfig (snap : Snapshot B) : Except Err (Option InstallConfig) :=
  loadFile E.unmarshalInstallConfig E.validInstallConfig installConfigFilename
    (snap [installConfigFilename])

def loadImageBasedConfig (snap : Snapshot B) : Except Err (Option ImageBasedConfig) :=
  loadFile E.unmarshalImageBasedConfig E.validImageBasedConfig imageBasedConfigFilename
    (snap [imageBasedConfigFilename])

/-- The manifest with the bytes it was read from. -/
def loadClusterConfiguration (snap : Snapshot B) :
    Except Err (Option (B × SeedReconfiguration)) :=
  loadFile (fun b => (E.unmarshalSeedStrict b).map (b, ·)) (fun _ => true)
    seedReconfigurationFileName (snap manifestPath)

def loadMirrorSet (snap : Snapshot B) : Except Err (Option B) :=
  loadFile some E.validMirrorSet "image-digest-mirror-set.json" (snap mirrorSetFile)

def loadKubeconfig (snap : Snapshot B) : Except Err (Option B) :=
  loadFile some E.validKubeconfig kubeconfigFile (snap kubeconfigPath)

/-- `*.yaml`, `*.yml` and `*.json`. -/
def isManifestName (name : String) : Bool :=
  [".yaml", ".yml", ".json"].any fun ext => ext.toList.isSuffixOf name.toList

def loadExtraManifests (snap : Snapshot B) : String → Option B :=
  fun name => if isManifestName name then snap [extraManifestsDir, name] else none

/-! ## Generating -/

def chronyConfWithAdditionalNTPSources (sources : List String) : String :=
  sources.foldl (fun content source => content ++ "\nserver " ++ source ++ " iburst")
    ("\npool 0.rhel.pool.ntp.org iburst\ndriftfile /var/lib/chrony/drift\nmakestep 1.0 3" ++
      "\nrtcsync\nlogdir /var/log/chrony")

/-- `ClusterConfiguration.Generate` on both config files. -/
def generateClusterConfiguration (ic : InstallConfig) (ibc : ImageBasedConfig) (draw : Draw) :
    SeedReconfiguration where
  apiVersion := 1
  baseDomain := ic.baseDomain
  clusterID := if ibc.clusterID ≠ "" then ibc.clusterID else draw.clusterUUID
  clusterName := if ic.name ≠ "" then ic.name else "imagebased-sno-cluster"
  chronyConfig :=
    if ibc.additionalNTPSources.length > 0 then
      chronyConfWithAdditionalNTPSources ibc.additionalNTPSources
    else ""
  hostname := ibc.hostname
  infraID := if ibc.infraID ≠ "" then ibc.infraID else draw.infraID
  kubeadminPasswordHash := E.bcrypt draw.salt draw.password
  kubeconfigCryptoRetention := draw.crypto
  machineNetworks := ic.machineNetwork
  rawNMStateConfig := ibc.networkConfig
  releaseRegistry := ibc.releaseRegistry
  sshKey := ic.sshKey
  proxy := ic.proxy
  pullSecret := ic.pullSecret
  userCaBundle := ic.additionalTrustBundle

/-- The mirrors of `manifests.ConvertImageDigestMirrorSet`. -/
def convertImageDigestMirrorSet (imageDigestSources : List ImageDigestSource) :
    List ImageDigestMirrors :=
  imageDigestSources.map fun ids =>
    { source := ids.source, mirrors := ids.mirrors, mirrorSourcePolicy := ids.sourcePolicy }

/-- `ImageDigestMirrorSet.Generate`. -/
def generateMirrorSet (ic : Option InstallConfig) : Option B :=
  (ic.bind InstallConfig.imageDigestSources).map E.marshalMirrorSet

/-- The manifest: generated if a config file is on disk, else the one on disk. -/
def fetchClusterConfiguration (ic : Option InstallConfig) (ibc : Option ImageBasedConfig)
    (onDisk : Option (B × SeedReconfiguration)) (draw : Draw) :
    Except Err (B × SeedReconfiguration) :=
  match ic, ibc, onDisk with
  | none, none, some manifest => .ok manifest
  | none, _, _ => .error (.mk "missing install-config.yaml")
  | some _, none, _ => .error (.mk "missing configuration or manifest file")
  | some ic, some ibc, _ =>
    let config := generateClusterConfiguration E ic ibc draw
    .ok (E.marshalSeed config, config)

/-- The admin kubeconfig: generated if the install config is on disk, else the one on disk. With
neither, generating it dereferences a nil config. -/
def fetchKubeconfig (ic : Option InstallConfig) (onDisk : Except Err (Option B)) (draw : Draw) :
    Except Err B := do
  match ic, ← onDisk with
  | some ic, _ => .ok (E.generateKubeconfig ic draw)
  | none, some b => .ok b
  | none, none => .error .panic

/-- What the installer makes of a directory. -/
def resolve (snap : Snapshot B) (draw : Draw) : Except Err (Fetched B) :=
  match snap [stateFileName] with
  | some state => E.resolveWithState state snap draw
  | none => do
    let ic ← loadInstallConfig E snap
    let ibc ← loadImageBasedConfig E snap
    let onDisk ← loadClusterConfiguration E snap
    let mirrorsOnDisk ← loadMirrorSet E snap
    let (manifest, config) ← fetchClusterConfiguration E ic ibc onDisk draw
    let mirrorSet := if ic.isSome then generateMirrorSet E ic else mirrorsOnDisk
    return { config
             image := ⟨manifest, mirrorSet, loadExtraManifests snap⟩
             password := draw.password
             kubeconfig := fetchKubeconfig E ic (loadKubeconfig E snap) draw }

/-! ## Writing -/

/-- The files the first fetch consumes. -/
def consumed (dir : Path) (q : Path) : Bool :=
  q == dir.join [installConfigFilename] || q == dir.join [imageBasedConfigFilename] ||
    q == dir.join mirrorSetFile ||
    (q.within (dir.join [extraManifestsDir]) && isManifestName (q.rel.getLastD ""))

def saveStateFile (dir : Path) (draw : Draw) : Act B Unit :=
  writeFile (dir.join [stateFileName]) (E.stateFile draw)

/-- Save the state, then write the asset even if that failed. -/
def fetchAndPersist (saved persist : Act B Unit) : Act B Unit := do
  let err ← saved.attempt
  persist
  liftExcept err

def persistToFile (path : Path) (content : B) : Act B Unit := do
  mkdirAll ⟨path.root, path.rel.dropLast⟩
  writeFile path content

/-- `builtFrom` is the ghost tag of the image. -/
def createInstallationIso (builtFrom : Spec) (workDir : Path) : Act B Unit := do
  let snap ← loadDir workDir
  let draw ← drawAssets
  let fetched ← liftExcept (resolve E snap draw)
  fetchAndPersist (do saveStateFile E workDir draw; purge (consumed workDir))
    (writeIso (workDir.join isoPath) fetched.image builtFrom)
  let kubeconfig ← liftExcept fetched.kubeconfig
  fetchAndPersist (saveStateFile E workDir draw)
    (persistToFile (workDir.join kubeconfigPath) kubeconfig)
  fetchAndPersist (saveStateFile E workDir draw)
    (persistToFile (workDir.join kubeadminPasswordPath) (E.ofString fetched.password))
  fetchAndPersist (saveStateFile E workDir draw)
    (persistToFile (workDir.join manifestPath) fetched.image.manifest)

end Installer

end ImageBasedInstall

import ImageBasedInstall.Api.Types
import ImageBasedInstall.Interactive.Fallible
import ImageBasedInstall.Patch.Merge

/-!
# The world the controllers act on

The API server, the operator's file system and the clock, the calls the controllers make on them,
and the machine `answer` that replies. Everything the environment decides about one call is a
`Choice`: whether the call fails (with or without its effect), what a failed write leaves on disk,
random draws, how much time passes. `B` is the type of byte strings.
-/

namespace ImageBasedInstall

open Interactive Patch

/-! ## Files -/

/-- Where a path starts: `DataDir/namespaces/<namespace>/<UID>`, or a fresh temp directory. -/
inductive Root where
  | data (ns uid : String)
  | temp (name : String)
  deriving DecidableEq, Repr

/-- A path below a root; `filepath.Join` appends elements. -/
structure Path where
  root : Root
  rel : List String := []
  deriving DecidableEq, Repr

def Path.join (p : Path) (elems : List String) : Path := ⟨p.root, p.rel ++ elems⟩

/-- `p` is `dir` or lies below it. -/
def Path.within (p dir : Path) : Bool := decide (p.root = dir.root) && dir.rel.isPrefixOf p.rel

/-- What the config ISO holds: the bytes of `manifest.json`, the image digest mirror set if there is
one, and the extra manifests by file name. -/
structure IsoImage (B : Type) where
  manifest : B
  imageDigestMirrorSet : Option B
  extraManifests : String → Option B

/-- A directory, a file, or an ISO. `builtFrom` is a ghost: the spec the image was made from. -/
inductive Entry (B : Type) where
  | dir
  | file (content : B)
  | iso (image : IsoImage B) (builtFrom : Spec)

/-- The content of a regular file. -/
def Entry.content {B : Type} : Entry B → Option B
  | .file b => some b
  | _ => none

/-! ## Random draws -/

/-- `imagebased.KubeConfigCryptoRetention`. -/
structure KubeconfigCryptoRetention where
  loadbalancerSignerPrivateKey : String
  localhostSignerPrivateKey : String
  serviceNetworkSignerPrivateKey : String
  adminCACertificate : String
  ingressCAPrivateKey : String
  ingressCertificateCN : String
  deriving DecidableEq, Repr

/-- What the installer draws at random when it generates its assets. -/
structure Draw where
  password : String
  salt : String
  crypto : KubeconfigCryptoRetention
  clientCertKey : String
  clusterUUID : String
  infraID : String
  deriving DecidableEq, Repr

/-- What the spoke cluster reports: `monitor.ClusterInstallStatus` and its rendering. -/
structure InstallStatus where
  installed : Bool
  text : String
  deriving DecidableEq, Repr

/-! ## The world -/

structure World (B : Type) where
  icis : NamespacedName → Option ImageClusterInstall := fun _ => none
  bmhs : NamespacedName → Option BareMetalHost := fun _ => none
  dataImages : NamespacedName → Option DataImage := fun _ => none
  cds : NamespacedName → Option ClusterDeployment := fun _ => none
  /-- Cluster image sets are cluster-scoped; the value is the release image. -/
  imageSets : String → Option String := fun _ => none
  secrets : NamespacedName → Option (Secret B) := fun _ => none
  configMaps : NamespacedName → Option ConfigMap := fun _ => none
  fs : Path → Option (Entry B) := fun _ => none
  clock : Time := 0

/-! ## Calls -/

/-- The calls of the two controllers and of the installer. -/
inductive Op (B : Type) where
  | getICI (key : NamespacedName)
  | patchICI (key : NamespacedName) (base new : ImageClusterInstall)
  | patchICIStatus (key : NamespacedName) (base new : ImageClusterInstall)
  | getBMH (key : NamespacedName)
  | patchBMH (key : NamespacedName) (base new : BareMetalHost)
  | getDataImage (key : NamespacedName)
  | createDataImage (key : NamespacedName) (url : String)
  | deleteDataImage (key : NamespacedName)
  | getCD (key : NamespacedName)
  | getImageSet (name : String)
  | getConfigMap (key : NamespacedName)
  | patchConfigMap (key : NamespacedName) (base new : ConfigMap)
  /-- Reads through the manager's cache see the labelled secrets only. -/
  | getSecret (cached : Bool) (key : NamespacedName)
  | createSecret (key : NamespacedName) (secret : Secret B)
  | updateSecret (key : NamespacedName) (secret : Secret B)
  | patchSecret (key : NamespacedName) (base new : Secret B)
  | spokeStatus (kubeconfig : B)
  | mkdirAll (path : Path)
  | mkdirTemp
  | stat (path : Path)
  | readFile (path : Path)
  | writeFile (path : Path) (content : B)
  | writeIso (path : Path) (image : IsoImage B) (builtFrom : Spec)
  /-- Remove the files selected by a predicate, one by one. -/
  | purge (which : Path → Bool)
  | removeAll (path : Path)
  /-- The regular files below a directory, by relative path. -/
  | loadDir (path : Path)
  | tryLock (dir : Path)
  | now
  | newUUID
  | randString
  | drawAssets

/-- The files below a directory, by path relative to it. -/
abbrev Snapshot (B : Type) := List String → Option B

/-- The replies. A patch replies with the stored object. -/
abbrev Resp {B : Type} : Op B → Type
  | .getICI _ | .patchICI .. | .patchICIStatus .. => Except Err ImageClusterInstall
  | .getBMH _ | .patchBMH .. => Except Err BareMetalHost
  | .getDataImage _ => Except Err DataImage
  | .createDataImage .. | .deleteDataImage _ => Except Err Unit
  | .getCD _ => Except Err ClusterDeployment
  | .getImageSet _ => Except Err String
  | .getConfigMap _ | .patchConfigMap .. => Except Err ConfigMap
  | .getSecret .. | .patchSecret .. => Except Err (Secret B)
  | .createSecret .. | .updateSecret .. => Except Err Unit
  | .spokeStatus _ => Except Err InstallStatus
  | .mkdirAll _ | .stat _ | .writeFile .. | .writeIso .. | .purge _ | .removeAll _ =>
    Except Err Unit
  | .mkdirTemp => Except Err Path
  | .readFile _ => Except Err B
  | .loadDir _ => Except Err (Snapshot B)
  | .tryLock _ => Except Err Bool
  | .now => Time
  | .newUUID => { s : String // s ≠ "" }
  | .randString => String
  | .drawAssets => Draw

/-- How a call ends: as it should, failed without effect, or with its effect done and its reply
lost. A failure is never reported as "not found". -/
inductive Ending where
  | ok
  | fail (text : String)
  | lost (text : String)
  deriving DecidableEq, Repr

theorem uuid_ne_empty : "uuid" ≠ "" := by decide

/-- What the environment decides about one call. -/
structure Choice (B : Type) where
  ending : Ending := .ok
  elapsed : Nat := 0
  /-- What a failed write leaves in the file, if it touched it. -/
  leftover : Option B := none
  leftoverIso : Option (IsoImage B) := none
  /-- Which entries a failed removal leaves. -/
  kept : Path → Bool := fun _ => true
  lockFree : Bool := true
  tempName : String := "asset-generation"
  uuid : { s : String // s ≠ "" } := ⟨"uuid", uuid_ne_empty⟩
  suffix : String := "xxxxx"
  draw : Draw := ⟨"pw", "salt", ⟨"", "", "", "", "", ""⟩, "", "", ""⟩
  status : InstallStatus := ⟨false, ""⟩

end ImageBasedInstall

import ImageBasedInstall.Api.Webhook
import ImageBasedInstall.Cluster.Client

/-!
# The installer's configuration files

The records the operator hands to the vendored installer (`install-config.yaml` and
`image-based-config.yaml`), the seed reconfiguration the installer makes of them, and the
environment `Env` of codecs, library functions and options. `internal/installer/installer.go` writes
the files.
-/

namespace ImageBasedInstall

open Interactive

/-- `installertypes.ImageDigestSource`. -/
structure ImageDigestSource where
  source : String
  mirrors : List String
  sourcePolicy : String := ""
  deriving DecidableEq, Repr

/-- `installertypes.InstallConfig`, the fields the operator fills. -/
structure InstallConfig where
  baseDomain : String
  name : String
  sshKey : String
  pullSecret : String
  proxy : Option Proxy
  additionalTrustBundle : String
  machineNetwork : List String
  imageDigestSources : Slice ImageDigestSource
  deriving DecidableEq, Repr

/-- `imagebased.Config`. -/
structure ImageBasedConfig where
  hostname : String
  releaseRegistry : String
  additionalNTPSources : List String
  networkConfig : String
  clusterID : String
  infraID : String
  deriving DecidableEq, Repr

/-- `imagebased.SeedReconfiguration`, the fields the installer fills. -/
structure SeedReconfiguration where
  apiVersion : Nat
  baseDomain : String
  clusterID : String
  clusterName : String
  chronyConfig : String
  hostname : String
  infraID : String
  kubeadminPasswordHash : String
  kubeconfigCryptoRetention : KubeconfigCryptoRetention
  machineNetworks : List String
  rawNMStateConfig : String
  releaseRegistry : String
  sshKey : String
  proxy : Option Proxy
  pullSecret : String
  userCaBundle : String
  deriving DecidableEq, Repr

/-- What the installer makes of a work directory. The kubeconfig is fetched after the image. -/
structure Fetched (B : Type) where
  config : SeedReconfiguration
  image : IsoImage B
  password : String
  kubeconfig : Except Err B

/-- JSON documents. -/
inductive Json where
  | null
  | bool (b : Bool)
  | num (text : String)
  | str (s : String)
  | arr (items : List Json)
  | obj (members : List (String × Json))

/-- Options and library functions. Decoders return `none` where the library returns an error. -/
structure Env (B : Type) where
  parsers : Parsers
  /-- `ipInCidr`, false on unparsable input. -/
  ipInCidr : String → String → Bool
  isIPv4CIDR : String → Bool
  /-- `ipnet.ParseCIDR` and its rendering. -/
  canonicalCIDR : String → Option String
  baseURL : String
  /-- `url.JoinPath` can parse `baseURL`. -/
  baseURLParses : Bool := true
  dataImageCoolDownPeriod : Time
  defaultInstallTimeout : Time
  parseDuration : String → Option Time
  durationText : Time → String
  /-- `reference.Parse` of a release image, and the first element of its name. -/
  imageRegistry : String → Except Err String
  /-- `strings.TrimSpace`. -/
  trimSpace : String → String
  parseJson : String → Option Json
  decodeBase64 : String → Option (List UInt8)
  /-- A manifest is YAML; a network config is a YAML mapping. -/
  validYaml : String → Bool
  validNmstate : String → Bool
  ofString : String → B
  toString : B → String
  isEmpty : B → Bool
  invokerCM : B
  startTimeCM : B
  marshalInstallConfig : InstallConfig → B
  unmarshalInstallConfig : B → Option InstallConfig
  validInstallConfig : InstallConfig → Bool
  marshalImageBasedConfig : ImageBasedConfig → Option B
  unmarshalImageBasedConfig : B → Option ImageBasedConfig
  validImageBasedConfig : ImageBasedConfig → Bool
  /-- What marshalling and loading make of a network config (YAML to JSON and back). -/
  reloadNetworkConfig : String → String
  marshalSeed : SeedReconfiguration → B
  unmarshalSeed : B → Option SeedReconfiguration
  unmarshalSeedStrict : B → Option SeedReconfiguration
  marshalMirrorSet : List ImageDigestSource → B
  validMirrorSet : B → Bool
  generateKubeconfig : InstallConfig → Draw → B
  validKubeconfig : B → Bool
  /-- `bcrypt.GenerateFromPassword` with a salt. -/
  bcrypt : String → String → String
  stateFile : Draw → B
  /-- What the installer makes of a directory that holds the state file of an earlier run. -/
  resolveWithState : B → Snapshot B → Draw → Except Err (Fetched B)

/-! ## installer.go -/

variable {B : Type} (E : Env B)

namespace Installer

def getEffectiveMachineNetworks (s : Spec) : List String :=
  ImageBasedInstall.getEffectiveMachineNetworks s.machineNetwork s.machineNetworks

def proxy : Option Proxy → Option Proxy
  | none => none
  | some p => if p.httpsProxy = "" ∧ p.httpProxy = "" then none else some p

/-- The mirrors' source policy is not copied. -/
def convertIDMToIDS (mirrors : List ImageDigestMirrors) : List ImageDigestSource :=
  mirrors.map fun idm => { source := idm.source, mirrors := idm.mirrors }

def parseNetworks (networks : List String) : Except Err (List String) :=
  networks.mapM fun network =>
    match E.canonicalCIDR network with
    | some cidr => .ok cidr
    | none => .error (.mk ("failed to parse machine network CIDR " ++ network))

/-- The install config of a spec. -/
def installConfig (s : Spec) (cd : ClusterDeployment) (psData caBundle : String)
    (machineNetwork : List String) : InstallConfig where
  baseDomain := cd.baseDomain
  name := cd.clusterName
  sshKey := s.sshKey
  pullSecret := psData
  proxy := proxy s.proxy
  additionalTrustBundle := caBundle
  machineNetwork := machineNetwork
  imageDigestSources := s.imageDigestSources.map convertIDMToIDS

def writeInstallConfig (s : Spec) (cd : ClusterDeployment) (psData caBundle : String)
    (file : Path) : Act B Unit := do
  let machineNetwork ← liftExcept (parseNetworks E (getEffectiveMachineNetworks s))
  (writeFile file (E.marshalInstallConfig (installConfig s cd psData caBundle machineNetwork))).wrap
    "failed to write cluster info"

/-- The image-based config of a spec, if the cluster IDs are known. -/
def imageBasedConfig (s : Spec) (releaseRegistry nmstateConfig : String) :
    Except Err ImageBasedConfig :=
  match s.clusterMetadata with
  | none => .error (.mk "clusterID and infraID are missing from cluster metadata")
  | some m =>
    if m.clusterID = "" ∨ m.infraID = "" then
      .error (.mk "clusterID and infraID are missing from cluster metadata")
    else
      .ok { hostname := s.hostname
            releaseRegistry
            additionalNTPSources := s.additionalNTPSources.items
            networkConfig := nmstateConfig
            clusterID := m.clusterID
            infraID := m.infraID }

def writeImageBaseConfig (s : Spec) (releaseRegistry nmstateConfig : String) (file : Path) :
    Act B Unit := do
  let config ← liftExcept (imageBasedConfig s releaseRegistry nmstateConfig)
  match E.marshalImageBasedConfig config with
  | none => throw (.mk "failed to marshal cluster info")
  | some data => (writeFile file data).wrap "failed to write cluster info"

end Installer

end ImageBasedInstall

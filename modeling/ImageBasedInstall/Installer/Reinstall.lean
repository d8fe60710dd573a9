import ImageBasedInstall.Installer.Assets

/-!
# Reinstall data

`internal/installer/reinstall.go`: a new seed reconfiguration is generated from the config files in
a temp directory, the crypto of the stored one is merged into it, and the result is written to the
ISO work directory together with the stored kubeconfig and password.
-/

namespace ImageBasedInstall

open Interactive

/-- `credentials.IdentityData`. -/
structure IdentityData (B : Type) where
  kubeconfig : B
  kubeadminPassword : B
  seedReconfig : B

variable {B : Type} (E : Env B)

namespace Installer

/-- The seed reconfiguration generated from the config files of a directory. The three fetches also
draw and save auth assets, of which only the paths are used. -/
def getBaseAssets (workdir : Path) : Act B SeedReconfiguration := do
  let snap ← (loadDir workdir).wrap "failed to create asset store"
  let draw ← drawAssets
  let fetched ← (liftExcept (resolve E snap draw)).wrap
    "failed to fetch cluster config asset from store"
  (do saveStateFile E workdir draw; purge (consumed workdir) : Act B Unit).wrap
    "failed to fetch cluster config asset from store"
  let _ ← (liftExcept fetched.kubeconfig).wrap "failed to fetch kubeconfig asset from store"
  (saveStateFile E workdir draw).wrap "failed to fetch kubeconfig asset from store"
  (saveStateFile E workdir draw).wrap "failed to fetch kubeadmin password asset from store"
  return fetched.config

def validateReinstallConfig (newConfig secretConfig : SeedReconfiguration) : Except Err Unit :=
  if newConfig.baseDomain ≠ secretConfig.baseDomain then
    .error (.mk ("provided base domain (" ++ newConfig.baseDomain ++
      ") must match previous base domain (" ++ secretConfig.baseDomain ++ ")"))
  else if newConfig.clusterName ≠ secretConfig.clusterName then
    .error (.mk ("provided cluster name (" ++ newConfig.clusterName ++
      ") must match previous cluster name (" ++ secretConfig.clusterName ++ ")"))
  else .ok ()

/-- The new configuration with the crypto of the stored one. -/
def mergeIdentity (newConfig secretConfig : SeedReconfiguration) : SeedReconfiguration :=
  { newConfig with
    kubeadminPasswordHash := secretConfig.kubeadminPasswordHash
    kubeconfigCryptoRetention := secretConfig.kubeconfigCryptoRetention }

def writeAuth (path : Path) (data : B) : Act B Unit := do
  (mkdirAll ⟨path.root, path.rel.dropLast⟩).wrap "failed to create directory"
  (writeFile path data).wrap "failed to write auth data"

def writeSeedReconfig (isoWorkDir : Path) (config : SeedReconfiguration) : Act B Unit := do
  let path := isoWorkDir.join manifestPath
  (mkdirAll ⟨path.root, path.rel.dropLast⟩).wrap "failed to create reconfig dir"
  (writeFile path (E.marshalSeed config)).wrap "failed to write updated seed reconfig"

def writeReinstallData (tmpWorkDir isoWorkDir : Path) (idData : IdentityData B) : Act B Unit := do
  let clusterConfig ← getBaseAssets E tmpWorkDir
  match E.unmarshalSeed idData.seedReconfig with
  | none => throw (.mk "failed to decode local seed reconfiguration")
  | some secretSeedReconfig =>
    (liftExcept (validateReinstallConfig clusterConfig secretSeedReconfig)).wrap
      "cluster configuration is not valid for reinstall"
    writeSeedReconfig E isoWorkDir (mergeIdentity clusterConfig secretSeedReconfig)
    writeAuth (isoWorkDir.join kubeconfigPath) idData.kubeconfig
    writeAuth (isoWorkDir.join kubeadminPasswordPath) idData.kubeadminPassword

end Installer

end ImageBasedInstall

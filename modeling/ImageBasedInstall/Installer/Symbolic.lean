import ImageBasedInstall.Installer.Reinstall

/-!
# Laws of the codecs

`Env.Lawful` is what the development assumes of the libraries: what is marshalled is read back (up
to the normalisations the Go types have), and generated documents are not empty. `Env.symbolic` is
an environment whose byte strings are documents, with encoding and decoding as the constructors; it
shows that the laws can be met, and programs can be run in it.
-/

namespace ImageBasedInstall

variable {B : Type}

/-- What is left of an install config after a round trip: `omitempty` drops an empty mirror list. -/
def InstallConfig.reloaded (ic : InstallConfig) : InstallConfig :=
  { ic with imageDigestSources := ic.imageDigestSources.filter (· ≠ []) }

/-- What the development assumes of the libraries. -/
structure Env.Lawful (E : Env B) : Prop where
  unmarshalSeed_marshalSeed : ∀ s, E.unmarshalSeed (E.marshalSeed s) = some s
  unmarshalSeedStrict_marshalSeed : ∀ s, E.unmarshalSeedStrict (E.marshalSeed s) = some s
  unmarshalInstallConfig_marshalInstallConfig : ∀ ic,
    E.unmarshalInstallConfig (E.marshalInstallConfig ic) = some ic.reloaded
  unmarshalImageBasedConfig_of_marshal : ∀ c b, E.marshalImageBasedConfig c = some b →
    E.unmarshalImageBasedConfig b =
      some { c with networkConfig := E.reloadNetworkConfig c.networkConfig }
  marshalSeed_nonempty : ∀ s, E.isEmpty (E.marshalSeed s) = false
  generateKubeconfig_nonempty : ∀ ic d, E.isEmpty (E.generateKubeconfig ic d) = false
  ofString_nonempty : ∀ s, s ≠ "" → E.isEmpty (E.ofString s) = false

/-- Symbolic byte strings. -/
inductive Doc where
  | text (s : String)
  | installConfig (ic : InstallConfig)
  | imageBasedConfig (c : ImageBasedConfig)
  | seed (s : SeedReconfiguration)
  | mirrorSet (l : List ImageDigestSource)
  | kubeconfig (clusterName : String) (crypto : KubeconfigCryptoRetention) (clientCertKey : String)
  | state
  deriving DecidableEq, Repr

/-- The symbolic environment: every name and network is valid, passwords hash to a text that shows
the salt, and all NICs lie in all networks. -/
def Env.symbolic : Env Doc where
  parsers := ⟨fun _ => none, fun _ => [], fun _ => none⟩
  ipInCidr _ _ := true
  isIPv4CIDR _ := true
  canonicalCIDR := some
  baseURL := "https://images"
  dataImageCoolDownPeriod := 1
  defaultInstallTimeout := 3600
  parseDuration text := if text = "2h" then some 7200 else none
  durationText _ := "1h0m0s"
  imageRegistry := .ok
  trimSpace := id
  parseJson s := some (.obj [("auths", .obj [(s, .obj [("auth", .str s)])])])
  decodeBase64 _ := some [58]
  validYaml _ := true
  validNmstate _ := true
  ofString := .text
  toString
    | .text s => s
    | _ => ""
  isEmpty d := d == .text ""
  invokerCM := .text "invoker"
  startTimeCM := .text "start time"
  marshalInstallConfig ic := .installConfig ic.reloaded
  unmarshalInstallConfig
    | .installConfig ic => some ic
    | _ => none
  validInstallConfig _ := true
  marshalImageBasedConfig c := some (.imageBasedConfig c)
  unmarshalImageBasedConfig
    | .imageBasedConfig c => some c
    | _ => none
  validImageBasedConfig _ := true
  reloadNetworkConfig := id
  marshalSeed := .seed
  unmarshalSeed
    | .seed s => some s
    | _ => none
  unmarshalSeedStrict
    | .seed s => some s
    | _ => none
  marshalMirrorSet := .mirrorSet
  validMirrorSet _ := true
  generateKubeconfig ic d := .kubeconfig ic.name d.crypto d.clientCertKey
  validKubeconfig _ := true
  bcrypt salt password := "hash of " ++ password ++ " with " ++ salt
  stateFile _ := .state
  resolveWithState _ _ _ := .error (.mk "state file")

theorem Env.symbolic_lawful : Env.symbolic.Lawful where
  unmarshalSeed_marshalSeed _ := rfl
  unmarshalSeedStrict_marshalSeed _ := rfl
  unmarshalInstallConfig_marshalInstallConfig _ := rfl
  unmarshalImageBasedConfig_of_marshal c b h := by
    cases h
    rfl
  marshalSeed_nonempty _ := rfl
  generateKubeconfig_nonempty _ _ := rfl
  ofString_nonempty s hs := by simp [Env.symbolic, hs]

end ImageBasedInstall

import ImageBasedInstall.Verify.Inputs
import ImageBasedInstall.Verify.Interruption
import ImageBasedInstall.Verify.Reinstall

/-!
# What an image is made of

A build reads its sources from the cluster and fills the emptied work directory. In a first install
the installer finds both config files there, in a reinstall the merged manifest and the stored
credentials; either way the extra manifests, and nothing else. `resolve_first` and
`resolve_reinstall` say what it makes of the two.
-/

namespace ImageBasedInstall

open Interactive Installer Patch

variable {B : Type}

/-! ## Sources -/

/-- What a build reads of the cluster, `none` where it is missing. -/
structure Sources where
  pullSecret : Option String
  caBundle : Option String
  nmstate : Option String
  releaseImage : Option String
  extraManifests : List (List (String × String))
  deriving DecidableEq

/-- The text under a key of a secret. -/
def World.secretText (E : Env B) (w : World B) (key : NamespacedName) (dataKey : String) :
    Option String :=
  ((w.secrets key).bind fun s => s.get dataKey).map E.toString

/-- The sources of a build. Without a reference the CA bundle and the network config are empty. -/
def BuildInput.sources (E : Env B) (inp : BuildInput) (w : World B) : Sources where
  pullSecret := inp.cd.pullSecretRef.bind fun name =>
    w.secretText E ⟨inp.cdKey.ns, name⟩ dockerConfigJsonKey
  caBundle :=
    match inp.spec.caBundleRef with
    | none => some ""
    | some name => (w.configMaps ⟨inp.ns, name⟩).bind fun cm => cm.data.lookup caBundleFileName
  nmstate :=
    if inp.bmh.preprovisioningNetworkDataName = "" then some ""
    else w.secretText E ⟨inp.bmhKey.ns, inp.bmh.preprovisioningNetworkDataName⟩ nmstateSecretKey
  releaseImage := w.imageSets inp.spec.imageSetRef
  extraManifests := inp.spec.extraManifestsRefs.items.map fun name =>
    ((w.configMaps ⟨inp.ns, name⟩).map ConfigMap.data).getD []

/-- The install config as the installer loads it. -/
def Sources.installConfig (E : Env B) (inp : BuildInput) (src : Sources) :
    Option InstallConfig := do
  let psData ← src.pullSecret
  let caBundle ← src.caBundle
  let nets ← (parseNetworks E (Installer.getEffectiveMachineNetworks inp.spec)).toOption
  return (Installer.installConfig inp.spec inp.cd psData caBundle nets).reloaded

/-- The image-based config as the installer loads it. -/
def Sources.imageBasedConfig (E : Env B) (inp : BuildInput) (src : Sources) :
    Option ImageBasedConfig := do
  let nmstate ← src.nmstate
  let releaseImage ← src.releaseImage
  let registry ← (E.imageRegistry releaseImage).toOption
  let config ← (Installer.imageBasedConfig inp.spec registry nmstate).toOption
  return { config with networkConfig := E.reloadNetworkConfig config.networkConfig }

/-- The extra manifests, by file name. -/
def Sources.manifests (E : Env B) (src : Sources) : String → Option B :=
  overlay (operatorLayer E :: src.extraManifests.map (manifestLayer E))

/-- The payload of an identity secret, as the cache shows it. -/
def World.payload (E : Env B) (kind : IdentitySecret) (cd : NamespacedName) (w : World B) :
    Option B :=
  ((w.secrets (kind.key cd)).filter Secret.isCached).bind fun s =>
    (s.get kind.dataKey).filter fun b => !E.isEmpty b

/-- The stored identity of a cluster. -/
def World.identity (E : Env B) (cd : NamespacedName) (w : World B) : Option (IdentityData B) := do
  let kubeconfig ← w.payload E kubeconfigSecret cd
  let kubeadminPassword ← w.payload E adminPasswordSecret cd
  let seedReconfig ← w.payload E seedReconfigurationSecret cd
  return { kubeconfig, kubeadminPassword, seedReconfig }

section Reads

variable {ok : World B → (op : Op B) → Resp op → World B → Prop} {E : Env B} {inp : BuildInput}
  {w w' : World B}

theorem sources_of_framed (h : Framed [.nothing, .file] w w') :
    inp.sources E w' = inp.sources E w := by
  simp [BuildInput.sources, World.secretText, h.secrets (by decide), h.configMaps (by decide),
    h.imageSets]

theorem identity_of_framed {cd : NamespacedName} (h : Framed [.nothing, .file] w w') :
    w'.identity E cd = w.identity E cd := by
  simp [World.identity, World.payload, h.secrets (by decide)]

theorem tries_getSecretNoncached {key : NamespacedName} :
    Tries (Alone ok) (getSecretNoncached key) (fun s w' => w' = w ∧ w.secrets key = some s)
      (fun _ _ => True) w :=
  tries_getSecret .free (fun _ hs => ⟨rfl, Option.eq_some_of_filter_eq_some hs⟩) (fun _ => trivial)
    fun _ => trivial

theorem getValidPullSecret_reads :
    Tries (Alone ok) (getValidPullSecret E inp.cd.pullSecretRef inp.cdKey.ns)
      (fun psData w' => w' = w ∧ (inp.sources E w).pullSecret = some psData)
      (fun _ _ => True) w := by
  unfold getValidPullSecret
  cases href : inp.cd.pullSecretRef with
  | none => exact tries_throw.2 trivial
  | some name =>
    dsimp only
    split
    · exact Tries.seq (Q := fun _ _ => False) (tries_throw.2 trivial) fun _ _ h => h.elim
    refine Tries.seq (tries_wrap tries_getSecretNoncached) ?_
    rintro s w ⟨rfl, hs⟩
    cases hdata : s.get dockerConfigJsonKey with
    | none => exact tries_throw.2 trivial
    | some data =>
      refine Tries.seq (Q := fun _ w' => w' = w) (tries_wrap (tries_liftExcept.2 ?_)) ?_
      · cases validatePullSecret E (E.toString data) with
        | error e => trivial
        | ok u => rfl
      rintro _ _ rfl
      exact tries_pure.2 ⟨rfl, by simp [BuildInput.sources, World.secretText, href, hs, hdata]⟩

theorem getCABundle_reads (E : Env B) :
    Tries (Alone ok) (getCABundle inp.spec.caBundleRef inp.ns)
      (fun caBundle w' => w' = w ∧ (inp.sources E w).caBundle = some caBundle)
      (fun _ _ => True) w := by
  unfold getCABundle
  cases href : inp.spec.caBundleRef with
  | none => exact tries_pure.2 ⟨rfl, by simp [BuildInput.sources, href]⟩
  | some name =>
    refine Tries.bind (tries_wrap (tries_getConfigMap .free ?_ (fun _ => trivial) fun _ => trivial))
    intro cm hcm
    cases hdata : cm.data.lookup caBundleFileName with
    | none => exact tries_throw.2 trivial
    | some data => exact tries_pure.2 ⟨rfl, by simp [BuildInput.sources, href, hcm, hdata]⟩

theorem nmstateConfig_reads :
    Tries (Alone ok) (nmstateConfig E inp.bmhKey inp.bmh)
      (fun nmstate w' => w' = w ∧ (inp.sources E w).nmstate = some nmstate)
      (fun _ _ => True) w := by
  unfold nmstateConfig
  split
  · next href => exact tries_pure.2 ⟨rfl, by simp [BuildInput.sources, href]⟩
  next href =>
  refine Tries.seq (tries_wrap tries_getSecretNoncached) ?_
  rintro s _ ⟨rfl, hs⟩
  cases hdata : s.get nmstateSecretKey with
  | none => exact tries_throw.2 trivial
  | some data =>
    dsimp only
    split
    · exact Tries.seq (Q := fun _ _ => False) (tries_throw.2 trivial) fun _ _ h => h.elim
    · exact tries_pure.2 ⟨rfl, by simp [BuildInput.sources, World.secretText, href, hs, hdata]⟩

theorem imageSetRegistry_reads :
    Tries (Alone ok) (imageSetRegistry E inp.spec)
      (fun registry w' => w' = w ∧ ∃ releaseImage,
        (inp.sources E w).releaseImage = some releaseImage ∧
        E.imageRegistry releaseImage = .ok registry) (fun _ _ => True) w := by
  refine Tries.seq (Q := fun releaseImage w' => w' = w ∧
    w.imageSets inp.spec.imageSetRef = some releaseImage) (tries_wrap ?_) ?_
  · refine meets_call fun c r w' hc _ => ⟨trivial, ?_⟩
    exact lookup_post (Choice.lookup_eq hc) (fun _ h => ⟨rfl, h⟩) (fun _ => trivial)
      fun _ => trivial
  · rintro releaseImage _ ⟨rfl, himage⟩
    rw [tries_liftExcept]
    cases hregistry : E.imageRegistry releaseImage with
    | error e => trivial
    | ok registry => exact ⟨rfl, releaseImage, himage, hregistry⟩

theorem payload_reads (kind : IdentitySecret) (cd : NamespacedName) :
    Tries (Alone ok) (getSecretContent E (kind.key cd) kind.dataKey)
      (fun o w' => w' = w ∧ w.payload E kind cd = o) (fun _ _ => True) w :=
  Tries.mono (getSecretContent_spec _ _) (fun _ _ h => ⟨h.1, h.2.symm⟩) fun _ _ _ => trivial

theorem clusterIdentitySecrets_reads (cd : NamespacedName) :
    Tries (Alone ok) (clusterIdentitySecrets E cd)
      (fun idData w' => w' = w ∧ w.identity E cd = idData) (fun _ _ => True) w := by
  refine Tries.seq (payload_reads kubeconfigSecret cd) ?_
  rintro kubeconfig w ⟨rfl, hkubeconfig⟩
  cases kubeconfig with
  | none => exact tries_pure.2 ⟨rfl, by simp [World.identity, hkubeconfig]⟩
  | some kubeconfig =>
  refine Tries.seq (payload_reads adminPasswordSecret cd) ?_
  rintro password w ⟨rfl, hpassword⟩
  cases password with
  | none => exact tries_pure.2 ⟨rfl, by simp [World.identity, hkubeconfig, hpassword]⟩
  | some password =>
  refine Tries.seq (payload_reads seedReconfigurationSecret cd) ?_
  rintro seed w ⟨rfl, hseed⟩
  cases seed with
  | none => exact tries_pure.2 ⟨rfl, by simp [World.identity, hkubeconfig, hpassword, hseed]⟩
  | some seed => exact tries_pure.2 ⟨rfl, by simp [World.identity, hkubeconfig, hpassword, hseed]⟩

end Reads

/-! ## The work directory -/

@[simp] theorem Path.join_inj {p : Path} {a b : List String} : p.join a = p.join b ↔ a = b := by
  simp [Path.join]

theorem World.files_eq (w : World B) (dir : Path) (rel : List String) :
    w.files dir rel = w.content (dir.join rel) := rfl

/-- A file appears only where one is written. -/
theorem content_none_kept {op : Op B} {c : Choice B} {r : Resp op} {w w' : World B} {p : Path}
    (hc : answer op c w = (r, w')) (hop : ∀ b, op ≠ .writeFile p b) (h : w.content p = none) :
    w'.content p = none := by
  have hprune : ∀ which kept, (w.prune which kept).content p = none := by
    intro which kept
    simp only [World.content, World.prune]
    split
    · rfl
    · exact h
  have hiso : ∀ q i s, (w.setEntry q (some (.iso i s))).content p = none := by
    intro q i s
    simp only [World.content, World.setEntry, Function.update_apply]
    split
    · rfl
    · exact h
  cases op with
  | writeFile q b =>
    have hq : p ≠ q := by
      rintro rfl
      exact hop b rfl
    obtain ⟨-, rfl⟩ | ⟨e, -, rfl | ⟨b, rfl⟩⟩ := answer_writeFile hc
    · simpa [hq] using h
    · exact h
    · simpa [hq] using h
  | writeIso q i s =>
    obtain ⟨-, rfl⟩ | ⟨e, -, rfl | ⟨i, rfl⟩⟩ := answer_writeIso hc
    · exact hiso ..
    · exact h
    · exact hiso ..
  | mkdirAll q =>
    rcases Choice.write_eq hc with ⟨rfl, -⟩ | ⟨rfl, -⟩
    · simpa using h
    · exact h
  | mkdirTemp =>
    rcases Choice.write_eq hc with ⟨rfl, -⟩ | ⟨rfl, -⟩
    · simpa using hprune ..
    · exact h
  | purge which | removeAll q =>
    obtain ⟨-, rfl⟩ | ⟨e, kept, -, rfl⟩ := Choice.removal_eq hc
    · exact hprune ..
    · exact hprune ..
  | _ =>
    rw [World.content, (answer_framed hc).fs (by simp [Op.target]) (by simp [Op.target])]
    exact h

/-- Nothing is left of the directory. -/
def Cleared (dir : Path) (w : World B) : Prop := ∀ p : Path, p.within dir = true → w.fs p = none

theorem Cleared.join {dir : Path} {w : World B} (h : Cleared dir w) (rel : List String) :
    w.fs (dir.join rel) = none :=
  h _ (by simp [Path.within, Path.join])

/-- The directory holds no file but extra manifests. -/
structure OnlyManifests (dir : Path) (manifests : String → Option B) (w : World B) : Prop where
  manifests : ∀ name, w.content (dir.join [extraManifestsDir, name]) = manifests name
  bare : ∀ rel, rel.head? ≠ some extraManifestsDir → w.content (dir.join rel) = none

/-- What the installer finds in a first install. -/
structure FirstSnapshot (E : Env B) (ic : InstallConfig) (ibc : ImageBasedConfig)
    (manifests : String → Option B) (snap : Snapshot B) : Prop where
  installConfig : (snap [installConfigFilename]).bind E.unmarshalInstallConfig = some ic
  imageBasedConfig : (snap [imageBasedConfigFilename]).bind E.unmarshalImageBasedConfig = some ibc
  manifest : snap manifestPath = none
  kubeconfig : snap kubeconfigPath = none
  password : snap kubeadminPasswordPath = none
  mirrorSet : snap mirrorSetFile = none
  state : snap [stateFileName] = none
  extraManifests : ∀ name, snap [extraManifestsDir, name] = manifests name

/-- What the installer finds in a reinstall. -/
structure ReinstallSnapshot (E : Env B) (seed : SeedReconfiguration) (idData : IdentityData B)
    (manifests : String → Option B) (snap : Snapshot B) : Prop where
  installConfig : snap [installConfigFilename] = none
  imageBasedConfig : snap [imageBasedConfigFilename] = none
  manifest : snap manifestPath = some (E.marshalSeed seed)
  kubeconfig : snap kubeconfigPath = some idData.kubeconfig
  password : snap kubeadminPasswordPath = some idData.kubeadminPassword
  mirrorSet : snap mirrorSetFile = none
  state : snap [stateFileName] = none
  extraManifests : ∀ name, snap [extraManifestsDir, name] = manifests name

/-- The manifests the installer puts in the image. -/
def imageManifests (manifests : String → Option B) : String → Option B :=
  fun name => if isManifestName name then manifests name else none

section Resolve

variable {E : Env B} {ic : InstallConfig} {ibc : ImageBasedConfig} {seed : SeedReconfiguration}
  {idData : IdentityData B} {manifests : String → Option B} {snap : Snapshot B} {draw : Draw}
  {fetched : Fetched B}

theorem loadExtraManifests_eq (h : ∀ name, snap [extraManifestsDir, name] = manifests name) :
    loadExtraManifests snap = imageManifests manifests := by
  funext name
  simp [loadExtraManifests, imageManifests, h]

theorem loadFile_none {α : Type} {decode : B → Option α} {valid : α → Bool} {name : String}
    {file : Option B} {o : Option α} (hfile : file = none)
    (h : loadFile decode valid name file = .ok o) : o = none := by
  subst hfile
  exact (Except.ok.inj h).symm

theorem loadFile_some {α : Type} {decode : B → Option α} {valid : α → Bool} {name : String}
    {file : Option B} {o : Option α} {a : α} (hfile : file.bind decode = some a)
    (h : loadFile decode valid name file = .ok o) : o = some a := by
  obtain ⟨b, rfl, hb⟩ := Option.bind_eq_some_iff.1 hfile
  simp only [loadFile, hb] at h
  split at h
  · exact (Except.ok.inj h).symm
  · cases h

/-- The installer generates everything from the two config files. -/
theorem resolve_first (h : FirstSnapshot E ic ibc manifests snap)
    (hok : resolve E snap draw = .ok fetched) :
    fetched =
      { config := generateClusterConfiguration E ic ibc draw
        image := ⟨E.marshalSeed (generateClusterConfiguration E ic ibc draw),
          generateMirrorSet E (some ic), imageManifests manifests⟩
        password := draw.password
        kubeconfig := fetchKubeconfig E (some ic) (loadKubeconfig E snap) draw } := by
  unfold resolve at hok
  rw [h.state] at hok
  obtain ⟨ic', hic, hok⟩ := exists_of_bind_eq_ok hok
  obtain ⟨ibc', hibc, hok⟩ := exists_of_bind_eq_ok hok
  obtain ⟨onDisk, -, hok⟩ := exists_of_bind_eq_ok hok
  obtain ⟨mirrors, -, hok⟩ := exists_of_bind_eq_ok hok
  obtain rfl := loadFile_some h.installConfig hic
  obtain rfl := loadFile_some h.imageBasedConfig hibc
  rw [loadExtraManifests_eq h.extraManifests] at hok
  exact (Except.ok.inj hok).symm

/-- The installer keeps the manifest and the kubeconfig, and draws a password. -/
theorem resolve_reinstall (hE : E.Lawful) (h : ReinstallSnapshot E seed idData manifests snap)
    (hok : resolve E snap draw = .ok fetched) :
    fetched =
      { config := seed
        image := ⟨E.marshalSeed seed, none, imageManifests manifests⟩
        password := draw.password
        kubeconfig := fetchKubeconfig E none (loadKubeconfig E snap) draw } := by
  have hdecode : (snap manifestPath).bind (fun b => (E.unmarshalSeedStrict b).map (b, ·)) =
      some (E.marshalSeed seed, seed) := by
    simp [h.manifest, hE.unmarshalSeedStrict_marshalSeed]
  unfold resolve at hok
  rw [h.state] at hok
  obtain ⟨ic', hic, hok⟩ := exists_of_bind_eq_ok hok
  obtain ⟨ibc', hibc, hok⟩ := exists_of_bind_eq_ok hok
  obtain ⟨onDisk, honDisk, hok⟩ := exists_of_bind_eq_ok hok
  obtain ⟨mirrors, hmirrors, hok⟩ := exists_of_bind_eq_ok hok
  obtain rfl := loadFile_none h.installConfig hic
  obtain rfl := loadFile_none h.imageBasedConfig hibc
  obtain rfl := loadFile_some hdecode honDisk
  obtain rfl := loadFile_none h.mirrorSet hmirrors
  rw [loadExtraManifests_eq h.extraManifests] at hok
  exact (Except.ok.inj hok).symm

/-- The kubeconfig that is fetched is the one on disk. -/
theorem fetchKubeconfig_kept (h : ReinstallSnapshot E seed idData manifests snap) {b : B}
    (hb : fetchKubeconfig E none (loadKubeconfig E snap) draw = .ok b) : b = idData.kubeconfig := by
  obtain ⟨onDisk, honDisk, hb⟩ := exists_of_bind_eq_ok hb
  have hfile : (snap kubeconfigPath).bind some = some idData.kubeconfig := by simp [h.kubeconfig]
  obtain rfl := loadFile_some hfile honDisk
  exact (Except.ok.inj hb).symm

end Resolve

/-! ## Filling the work directory -/

/-- The config files that come from the sources. -/
structure Configs (E : Env B) (inp : BuildInput) (src : Sources) (ic : InstallConfig)
    (ibc : ImageBasedConfig) : Prop where
  installConfig : src.installConfig E inp = some ic
  imageBasedConfig : src.imageBasedConfig E inp = some ibc

section Fill

variable {ok : World B → (op : Op B) → Resp op → World B → Prop} {E : Env B} {inp : BuildInput}
  {dir tmp : Path} {w w' : World B} {ic : InstallConfig} {ibc : ImageBasedConfig} {b b' : B}
  {manifests : String → Option B} {idData : IdentityData B} {seed : SeedReconfiguration}

theorem writeInstallConfig_writes (hE : E.Lawful) {psData caBundle : String}
    (hps : (inp.sources E w).pullSecret = some psData)
    (hca : (inp.sources E w).caBundle = some caBundle) {file : Path} :
    Tries (Alone ok) (writeInstallConfig E inp.spec inp.cd psData caBundle file)
      (fun _ w' => ∃ ic b, (inp.sources E w).installConfig E inp = some ic ∧
        E.unmarshalInstallConfig b = some ic ∧ w' = w.setEntry file (some (.file b)))
      (fun _ _ => True) w := by
  unfold writeInstallConfig
  refine Tries.seq (Q := fun nets w' => w' = w ∧
    parseNetworks E (Installer.getEffectiveMachineNetworks inp.spec) = .ok nets) ?_ ?_
  · rw [tries_liftExcept]
    cases parseNetworks E (Installer.getEffectiveMachineNetworks inp.spec) with
    | error e => trivial
    | ok nets => exact ⟨rfl, rfl⟩
  rintro nets _ ⟨rfl, hnets⟩
  refine Tries.mono (tries_wrap tries_writeFile) ?_ fun _ _ h => h
  rintro _ _ rfl
  refine ⟨_, _, ?_, hE.unmarshalInstallConfig_marshalInstallConfig _, rfl⟩
  simp [Sources.installConfig, hps, hca, hnets, Except.toOption]

theorem writeImageBaseConfig_writes (hE : E.Lawful) {file : Path} :
    Tries (Alone ok) (writeImageBaseConfig E inp.spec inp.bmhKey inp.bmh file)
      (fun _ w' => ∃ ibc b, (inp.sources E w).imageBasedConfig E inp = some ibc ∧
        E.unmarshalImageBasedConfig b = some ibc ∧ w' = w.setEntry file (some (.file b)))
      (fun _ _ => True) w := by
  refine Tries.seq nmstateConfig_reads ?_
  rintro nmstate w ⟨rfl, hnmstate⟩
  refine Tries.seq imageSetRegistry_reads ?_
  rintro registry w ⟨rfl, releaseImage, himage, hregistry⟩
  refine Tries.seq (Q := fun config w' => w' = w ∧
    Installer.imageBasedConfig inp.spec registry nmstate = .ok config) ?_ ?_
  · rw [tries_liftExcept]
    cases Installer.imageBasedConfig inp.spec registry nmstate with
    | error e => trivial
    | ok config => exact ⟨rfl, rfl⟩
  rintro config w ⟨rfl, hconfig⟩
  cases hdata : E.marshalImageBasedConfig config with
  | none => exact tries_throw.2 trivial
  | some data =>
    refine Tries.mono (tries_wrap tries_writeFile) ?_ fun _ _ h => h
    rintro _ _ rfl
    refine ⟨_, _, ?_, hE.unmarshalImageBasedConfig_of_marshal _ _ hdata, rfl⟩
    simp [Sources.imageBasedConfig, hnmstate, himage, hregistry, hconfig, Except.toOption]

/-- Both config files, and nothing else. -/
theorem writeConfigFiles_writes (hE : E.Lawful) {psData caBundle : String}
    (hps : (inp.sources E w).pullSecret = some psData)
    (hca : (inp.sources E w).caBundle = some caBundle) :
    Tries (Alone ok) (writeConfigFiles E inp psData caBundle dir)
      (fun _ w' => ∃ ic ibc b b', Configs E inp (inp.sources E w) ic ibc ∧
        E.unmarshalInstallConfig b = some ic ∧ E.unmarshalImageBasedConfig b' = some ibc ∧
        w'.content = Function.update (Function.update w.content (dir.join [installConfigFilename])
          (some b)) (dir.join [imageBasedConfigFilename]) (some b')) (fun _ _ => True) w := by
  refine Tries.seq (tries_wrap (writeInstallConfig_writes hE hps hca)) ?_
  rintro _ _ ⟨ic, b, hic, hb, rfl⟩
  refine Tries.mono (tries_wrap (writeImageBaseConfig_writes hE)) ?_ fun _ _ h => h
  rintro _ _ ⟨ibc, b', hibc, hb', rfl⟩
  exact ⟨ic, ibc, b, b', ⟨hic, hibc⟩, hb, hb', by simp⟩

theorem OnlyManifests.configured (h : OnlyManifests dir manifests w)
    (hb : E.unmarshalInstallConfig b = some ic) (hb' : E.unmarshalImageBasedConfig b' = some ibc)
    (hw : w'.content = Function.update (Function.update w.content (dir.join [installConfigFilename])
      (some b)) (dir.join [imageBasedConfigFilename]) (some b')) :
    FirstSnapshot E ic ibc manifests (w'.files dir) := by
  have hother : ∀ rel : List String, rel ≠ [installConfigFilename] →
      rel ≠ [imageBasedConfigFilename] → w'.files dir rel = w.content (dir.join rel) := by
    intro rel h₁ h₂
    simp [World.files_eq, hw, h₁, h₂]
  have hbare : ∀ rel : List String, rel ≠ [installConfigFilename] →
      rel ≠ [imageBasedConfigFilename] → rel.head? ≠ some extraManifestsDir →
      w'.files dir rel = none := fun rel h₁ h₂ hrel => (hother rel h₁ h₂).trans (h.bare rel hrel)
  refine ⟨?_, ?_, ?_, ?_, ?_, ?_, ?_, fun name => ?_⟩
  · simp [World.files_eq, hw, installConfigFilename, imageBasedConfigFilename, hb]
  · simp [World.files_eq, hw, hb']
  · exact hbare _ (by decide) (by decide) (by decide)
  · exact hbare _ (by decide) (by decide) (by decide)
  · exact hbare _ (by decide) (by decide) (by decide)
  · exact hbare _ (by decide) (by decide) (by decide)
  · exact hbare _ (by decide) (by decide) (by decide)
  · rw [hother _ (by simp) (by simp)]
    exact h.manifests name

theorem OnlyManifests.merged (h : OnlyManifests dir manifests w)
    (hw : w'.content = Function.update (Function.update (Function.update w.content
      (dir.join manifestPath) (some (E.marshalSeed seed)))
      (dir.join kubeconfigPath) (some idData.kubeconfig))
      (dir.join kubeadminPasswordPath) (some idData.kubeadminPassword)) :
    ReinstallSnapshot E seed idData manifests (w'.files dir) := by
  have hother : ∀ rel : List String, rel ≠ manifestPath → rel ≠ kubeconfigPath →
      rel ≠ kubeadminPasswordPath → w'.files dir rel = w.content (dir.join rel) := by
    intro rel h₁ h₂ h₃
    simp [World.files_eq, hw, h₁, h₂, h₃]
  have hbare : ∀ rel : List String, rel ≠ manifestPath → rel ≠ kubeconfigPath →
      rel ≠ kubeadminPasswordPath → rel.head? ≠ some extraManifestsDir → w'.files dir rel = none :=
    fun rel h₁ h₂ h₃ hrel => (hother rel h₁ h₂ h₃).trans (h.bare rel hrel)
  have hmk : manifestPath ≠ kubeconfigPath := by decide
  have hmp : manifestPath ≠ kubeadminPasswordPath := by decide
  have hkp : kubeconfigPath ≠ kubeadminPasswordPath := by decide
  refine ⟨?_, ?_, ?_, ?_, ?_, ?_, ?_, fun name => ?_⟩
  · exact hbare _ (by decide) (by decide) (by decide) (by decide)
  · exact hbare _ (by decide) (by decide) (by decide) (by decide)
  · simp [World.files_eq, hw, hmk, hmp]
  · simp [World.files_eq, hw, hkp]
  · simp [World.files_eq, hw]
  · exact hbare _ (by decide) (by decide) (by decide) (by decide)
  · exact hbare _ (by decide) (by decide) (by decide) (by decide)
  · have hname : extraManifestsDir ≠ clusterConfigDir ∧ extraManifestsDir ≠ authDir := by decide
    rw [hother _ (by simp [manifestPath, hname]) (by simp [kubeconfigPath, hname])
      (by simp [kubeadminPasswordPath, hname])]
    exact h.manifests name

/-- The extra manifests of a directory that was empty. -/
theorem overlay_manifestLayers (hw : ∀ rel, w.content (dir.join rel) = none) :
    overlay (manifestLayers E (dir.join [extraManifestsDir]) inp.ns
      inp.spec.extraManifestsRefs.items w) = (inp.sources E w).manifests E := by
  have hempty : w.filesIn (dir.join [extraManifestsDir]) = fun _ => none := by
    funext name
    have hjoin : (dir.join [extraManifestsDir]).join [name] =
        dir.join [extraManifestsDir, name] := by simp [Path.join]
    rw [World.filesIn, hjoin, hw]
  simp [manifestLayers, hempty, Sources.manifests, BuildInput.sources, overlay, Function.comp_def]

theorem generateExtraManifests_fills (hw : ∀ rel, w.content (dir.join rel) = none) :
    Tries (Alone ok) (generateExtraManifests E dir inp.ns inp.spec)
      (fun _ w' => ∃ manifests, OnlyManifests dir manifests w' ∧
        (MapsAreMaps w → manifests = (inp.sources E w).manifests E)) (fun _ _ => True) w := by
  have hjoin : ∀ name, (dir.join [extraManifestsDir]).join [name] =
      dir.join [extraManifestsDir, name] := by simp [Path.join]
  have hnames : (visitsOf inp.spec).map Visit.name = inp.spec.extraManifestsRefs.items := by
    simp [visitsOf, Function.comp_def]
  have hbare : Meets (Alone ok) (generateExtraManifests E dir inp.ns inp.spec).run
      (fun _ w' => ∀ rel : List String, rel.head? ≠ some extraManifestsDir →
        w'.content (dir.join rel) = none) w := by
    refine Meets.of_uses (A := fun op => ∀ rel : List String, rel.head? ≠ some extraManifestsDir →
      ∀ b, op ≠ .writeFile (dir.join rel) b) (generateExtraManifests_uses_manifests ?_ E _ _ ?_ ?_)
      (fun _ _ h hr => hr ▸ h) ?_ fun rel _ => hw rel
    · rintro op hop rel - b rfl
      cases hop
    · rintro rel - b ⟨⟩
    · intro name content rel hrel b heq
      obtain ⟨rfl, -⟩ : [extraManifestsDir, name] = rel ∧ content = b := by simpa using heq
      exact hrel rfl
    · rintro op w₁ r w₂ hop hI ⟨⟨c, hc⟩, -⟩
      exact ⟨trivial, fun rel hrel => content_none_kept hc (hop rel hrel) (hI rel hrel)⟩
  have hmanifests : Meets (Alone ok) (generateExtraManifests E dir inp.ns inp.spec).run
      (fun r w' => r = .ok () → MapsAreMaps w →
        w'.filesIn (dir.join [extraManifestsDir]) = (inp.sources E w).manifests E) w := by
    by_cases hmaps : MapsAreMaps w
    · rw [generateExtraManifests_eq]
      refine Meets.mono (generateExtraManifestsIn_spec hmaps (visitsOf inp.spec)) ?_
      rintro (e | _) w' h hr -
      · cases hr
      · rw [outcome_ok, hnames, overlay_manifestLayers hw] at h
        exact h
    · exact Meets.mono (meets_true _) fun _ _ _ _ h => absurd h hmaps
  refine Meets.mono (hbare.and hmanifests) ?_
  rintro (e | _) w' ⟨hb, hm⟩
  · trivial
  · refine ⟨w'.filesIn (dir.join [extraManifestsDir]), ⟨fun name => ?_, hb⟩, hm rfl⟩
    rw [World.filesIn, hjoin]

/-- A fresh temp directory. -/
theorem tries_mkdirTemp :
    Tries (Alone ok) (mkdirTemp : Act B Path) (fun tmp w' => ∃ name, tmp = ⟨.temp name, []⟩ ∧
      (∀ rel, w'.content (tmp.join rel) = none) ∧
      ∀ p : Path, p.root ≠ tmp.root → w'.content p = w.content p) (fun _ _ => True) w := by
  refine meets_call fun c r w' hc _ => ⟨trivial, meets_ret.2 ?_⟩
  rcases Choice.write_eq hc with ⟨rfl, rfl | ⟨_, rfl⟩⟩ | ⟨-, _, rfl⟩
  · rw [outcome_ok, World.content_mkdirs]
    refine ⟨_, rfl, fun rel => ?_, fun p hp => ?_⟩
    · simp [World.content, World.prune, Path.within, Path.join]
    · have hwithin : p.within ⟨.temp c.tempName, []⟩ = false := by simpa [Path.within] using hp
      simp [World.content, World.prune, hwithin]
  · trivial
  · trivial

/-- The configuration that is generated in a temp directory. -/
theorem getBaseAssets_generates (h : FirstSnapshot E ic ibc manifests (w.files tmp)) :
    Tries (Alone ok) (getBaseAssets E tmp)
      (fun config w' => (∃ draw, config = generateClusterConfiguration E ic ibc draw) ∧
        ∀ p : Path, p.root ≠ tmp.root → w'.content p = w.content p) (fun _ _ => True) w := by
  have helsewhere : Meets (Alone ok) (getBaseAssets E tmp).run
      (fun _ w' => ∀ p : Path, p.root ≠ tmp.root → w'.content p = w.content p) w := by
    refine Meets.of_uses (getBaseAssets_inTemp E tmp) (fun _ _ h hr => hr ▸ h) ?_ fun _ _ => rfl
    rintro op w₁ r w₂ hop hI ⟨⟨c, hc⟩, -⟩
    refine ⟨trivial, fun p hp => ?_⟩
    rw [World.content, hop.fs hc hp]
    exact hI p hp
  have hconfig : Tries (Alone ok) (getBaseAssets E tmp)
      (fun config _ => ∃ draw, config = generateClusterConfiguration E ic ibc draw)
      (fun _ _ => True) w := by
    refine Tries.seq (tries_wrap tries_loadDir) ?_
    rintro _ w ⟨rfl, rfl⟩
    refine Tries.seq (tries_true _) fun draw _ _ => ?_
    refine Tries.seq (Q := fun fetched _ => fetched.config = generateClusterConfiguration
      E ic ibc draw) (tries_wrap (tries_liftExcept.2 ?_)) fun fetched _ hfetched => ?_
    · cases hresolve : resolve E (w.files tmp) draw with
      | error e => trivial
      | ok fetched =>
        rw [outcome_ok, resolve_first h hresolve]
    refine Tries.seq (tries_true _) fun _ _ _ => ?_
    refine Tries.seq (tries_true _) fun _ _ _ => ?_
    refine Tries.seq (tries_true _) fun _ _ _ => ?_
    refine Tries.seq (tries_true _) fun _ _ _ => ?_
    exact tries_pure.2 ⟨draw, hfetched⟩
  refine Meets.mono (Meets.and hconfig helsewhere) ?_
  rintro (e | config) w' ⟨hok, helse⟩
  · trivial
  · exact ⟨hok, helse⟩

theorem OnlyManifests.elsewhere (h : OnlyManifests dir manifests w)
    (hw : ∀ p : Path, p.root = dir.root → w'.content p = w.content p) :
    OnlyManifests dir manifests w' where
  manifests name := (hw (dir.join _) rfl).trans (h.manifests name)
  bare rel hrel := (hw (dir.join rel) rfl).trans (h.bare rel hrel)

/-- The merged manifest and the stored credentials, beside the extra manifests. -/
theorem writeReinstallData_merges {manifests' : String → Option B} (hroot : dir.root ≠ tmp.root)
    (honly : OnlyManifests dir manifests w)
    (h : FirstSnapshot E ic ibc manifests' (w.files tmp)) :
    Tries (Alone ok) (writeReinstallData E tmp dir idData)
      (fun _ w' => ∃ draw secret, E.unmarshalSeed idData.seedReconfig = some secret ∧
        ReinstallSnapshot E (mergeIdentity (generateClusterConfiguration E ic ibc draw)
          secret) idData manifests (w'.files dir)) (fun _ _ => True) w := by
  rw [writeReinstallData_eq]
  refine Tries.seq (getBaseAssets_generates h) ?_
  rintro config w₁ ⟨⟨draw, rfl⟩, helsewhere⟩
  have honly₁ : OnlyManifests dir manifests w₁ :=
    honly.elsewhere fun p hp => helsewhere p (hp ▸ hroot)
  refine Tries.mono writeMerged_content ?_ fun _ _ h => h
  rintro _ w₂ ⟨secret, hcompatible, hcontent⟩
  exact ⟨draw, secret, hcompatible.decodes, honly₁.merged hcontent⟩

end Fill

/-! ## Up to the installer -/

/-- The calls of a build before the installer runs in the work directory. -/
inductive Prepares (E : Env B) (inp : BuildInput) (dir : Path) : Op B → Prop where
  | read {op : Op B} (h : op.target = .nothing) : Prepares E inp dir op
  | file {op : Op B} (h : BuildFile dir op) : Prepares E inp dir op
  | config {tmp : Path} {op : Op B} (h : WritesNetworks E inp tmp op) : Prepares E inp dir op

/-- The image is still missing, and nothing but files has changed. -/
structure Preparing (dir : Path) (w₀ w : World B) : Prop where
  noImage : w.fs (dir.join isoPath) = none
  framed : Framed [.nothing, .file] w₀ w

/-- The world in which the installer starts, in a first install from `w₀`. -/
structure FirstReady (E : Env B) (inp : BuildInput) (dir : Path) (w₀ w : World B) : Prop
    extends Preparing dir w₀ w where
  identity : w₀.identity E inp.cdKey = none
  found : ∃ ic ibc manifests, Configs E inp (inp.sources E w₀) ic ibc ∧
    (MapsAreMaps w₀ → manifests = (inp.sources E w₀).manifests E) ∧
    FirstSnapshot E ic ibc manifests (w.files dir)

/-- The world in which the installer starts, in a reinstall from `w₀`. -/
structure ReinstallReady (E : Env B) (inp : BuildInput) (dir : Path) (w₀ w : World B) : Prop
    extends Preparing dir w₀ w where
  found : ∃ idData ic ibc manifests draw secret, w₀.identity E inp.cdKey = some idData ∧
    Configs E inp (inp.sources E w₀) ic ibc ∧
    (MapsAreMaps w₀ → manifests = (inp.sources E w₀).manifests E) ∧
    E.unmarshalSeed idData.seedReconfig = some secret ∧
    ReinstallSnapshot E (mergeIdentity (generateClusterConfiguration E ic ibc draw) secret) idData
      manifests (w.files dir)

/-- What has been read and written when the two kinds of install part. -/
structure Gathered (E : Env B) (inp : BuildInput) (dir : Path) (psData ca : String)
    (manifests : String → Option B) (w₀ w : World B) : Prop extends Preparing dir w₀ w where
  pullSecret : (inp.sources E w₀).pullSecret = some psData
  caBundle : (inp.sources E w₀).caBundle = some ca
  maps : MapsAreMaps w₀ → manifests = (inp.sources E w₀).manifests E
  only : OnlyManifests dir manifests w

section Prepare

variable {ok guar : World B → (op : Op B) → Resp op → World B → Prop} {E : Env B} {inp : BuildInput}
  {ns uid : String} {dir : Path} {w₀ w : World B} {op : Op B} {α : Type}

theorem Prepares.target (h : Prepares E inp dir op) : op.target ∈ [.nothing, .file] := by
  cases h with
  | read h => simp [h]
  | file h => simp [h.target]
  | config h => simp [h.target]

theorem Prepares.spares (h : Prepares E inp (getClusterConfigDir ns uid) op) :
    SparesImage (getClusterConfigDir ns uid) op := by
  cases h with
  | read h => exact sparesImage_of_read h
  | file h => exact sparesImage_of_file h
  | config h => exact ⟨h.not_writes_output (by decide), storesSecret_of_file h.target⟩

theorem Preparing.step {c : Choice B} {r : Resp op} {w' : World B}
    (h : Preparing (getClusterConfigDir ns uid) w₀ w)
    (hop : Prepares E inp (getClusterConfigDir ns uid) op) (hc : answer op c w = (r, w')) :
    Preparing (getClusterConfigDir ns uid) w₀ w' := by
  constructor
  · rcases kept_or_gone hc hop.spares.1 with hk | hk
    · exact hk.trans h.noImage
    · exact hk
  · exact h.framed.trans ((answer_framed hc).mono (by simpa using hop.target))

variable (hprep : ∀ w₁ op, Preparing (getClusterConfigDir ns uid) w₀ w₁ →
  Prepares E inp (getClusterConfigDir ns uid) op → Permits ok guar w₁ op)
include hprep

/-- A step before the installer, with what it establishes when it runs alone. -/
theorem tries_prepare {x : Act B α} {Q : α → World B → Prop}
    (hx : x.run.Uses (Prepares E inp (getClusterConfigDir ns uid)))
    (hspec : Tries (Alone ok) x Q (fun _ _ => True) w)
    (h : Preparing (getClusterConfigDir ns uid) w₀ w) :
    Tries (Running ok guar) x (fun a w' => Preparing (getClusterConfigDir ns uid) w₀ w' ∧ Q a w')
      (fun _ _ => True) w := by
  have hkept := meets_permitted (I := Preparing (getClusterConfigDir ns uid) w₀) hx hprep
    (fun hI hop hc => hI.step hop hc) h
  refine Meets.mono (meets_alone hkept hspec) ?_
  rintro (e | a) w' ⟨hw, hQ⟩
  · trivial
  · exact ⟨hw, hQ⟩

variable [DecidableEq B] (hE : E.Lawful) {Q : World B → Prop}
include hE

section Branches

variable {psData ca : String} {manifests : String → Option B}
  (h : Gathered E inp (getClusterConfigDir ns uid) psData ca manifests w₀ w)
include h

omit [DecidableEq B] in
/-- The config files are those of the world the build started in. -/
theorem writeConfigFiles_runs (d : Path) :
    Tries (Running ok guar) (writeConfigFiles E inp psData ca d)
      (fun _ w' => Preparing (getClusterConfigDir ns uid) w₀ w' ∧ ∃ ic ibc b b',
        Configs E inp (inp.sources E w₀) ic ibc ∧
        E.unmarshalInstallConfig b = some ic ∧ E.unmarshalImageBasedConfig b' = some ibc ∧
        w'.content = Function.update (Function.update w.content (d.join [installConfigFilename])
          (some b)) (d.join [imageBasedConfigFilename]) (some b')) (fun _ _ => True) w := by
  refine Tries.mono (tries_prepare hprep
    (writeConfigFiles_uses (fun _ => .read) (fun _ => .file) E inp psData ca d fun _ => .config)
    (writeConfigFiles_writes hE (by rw [sources_of_framed h.framed, h.pullSecret])
      (by rw [sources_of_framed h.framed, h.caBundle])) h.toPreparing) ?_ fun _ _ => id
  rintro _ w' ⟨h', ic, ibc, b, b', hconfigs, hrest⟩
  rw [sources_of_framed h.framed] at hconfigs
  exact ⟨h', ic, ibc, b, b', hconfigs, hrest⟩

theorem firstInstall_runs (hidentity : w₀.identity E inp.cdKey = none)
    (hfirst : ∀ w, FirstReady E inp (getClusterConfigDir ns uid) w₀ w →
      Tries (Running ok guar) (finishBuild E inp (getClusterConfigDir ns uid)) (fun _ w' => Q w')
        (fun _ _ => True) w) :
    Tries (Running ok guar) (firstInstall E inp psData ca (getClusterConfigDir ns uid))
      (fun _ w' => Q w') (fun _ _ => True) w := by
  refine Tries.seq (writeConfigFiles_runs hprep hE h _) ?_
  rintro _ w' ⟨h', ic, ibc, b, b', hconfigs, hb, hb', hcontent⟩
  exact hfirst w' ⟨h', hidentity, ic, ibc, manifests, hconfigs, h.maps,
    h.only.configured hb hb' hcontent⟩

theorem reinstall_runs {name : String} {idData : IdentityData B}
    (htemp : OnlyManifests ⟨.temp name, []⟩ (fun _ => none) w)
    (hidentity : w₀.identity E inp.cdKey = some idData)
    (hagain : ∀ w, ReinstallReady E inp (getClusterConfigDir ns uid) w₀ w →
      Tries (Running ok guar) (finishBuild E inp (getClusterConfigDir ns uid)) (fun _ w' => Q w')
        (fun _ _ => True) w) :
    Tries (Running ok guar)
      (reinstall E inp psData ca idData ⟨.temp name, []⟩ (getClusterConfigDir ns uid))
      (fun _ w' => Q w') (fun _ _ => True) w := by
  have hroot : (getClusterConfigDir ns uid).root ≠ .temp name := by simp [getClusterConfigDir]
  refine Tries.seq (writeConfigFiles_runs hprep hE h _) ?_
  rintro _ w₁ ⟨h₁, ic, ibc, b, b', hconfigs, hb, hb', hcontent⟩
  -- the work directory is not the one the config files went to
  have honly : OnlyManifests (getClusterConfigDir ns uid) manifests w₁ := by
    refine h.only.elsewhere fun p hp => ?_
    have hne : ∀ rel, p ≠ (⟨.temp name, []⟩ : Path).join rel := by
      rintro rel rfl
      exact hroot hp.symm
    rw [hcontent, Function.update_of_ne (hne _), Function.update_of_ne (hne _)]
  refine Tries.seq (tries_prepare hprep
    (uses_wrap (writeReinstallData_uses (fun _ => .read) (fun _ => .file) ..))
    (tries_wrap (writeReinstallData_merges hroot honly (htemp.configured hb hb' hcontent))) h₁) ?_
  rintro _ w₂ ⟨h₂, draw, secret, hsecret, hsnap⟩
  exact hagain w₂ ⟨h₂, idData, ic, ibc, manifests, draw, secret, hidentity, hconfigs,
    h.maps, hsecret, hsnap⟩

end Branches

/-- A build is what comes before the installer, which is permitted as long as there is no image, and
the installer with what follows it, from the two worlds it can start in. -/
theorem rebuild_runs
    (hclear : ∀ w r w', ok w (.removeAll (getClusterConfigDir ns uid)) r w' →
      Cleared (getClusterConfigDir ns uid) w')
    (hremove : Permits ok guar w₀ (.removeAll (getClusterConfigDir ns uid)))
    (htmp : ∀ name w, Permits ok guar w (.removeAll ⟨.temp name, []⟩))
    (hQ : ∀ name w kept, Q w → Q (w.prune (·.within ⟨.temp name, []⟩) kept))
    (hfirst : ∀ w, FirstReady E inp (getClusterConfigDir ns uid) w₀ w →
      Tries (Running ok guar) (finishBuild E inp (getClusterConfigDir ns uid)) (fun _ w' => Q w')
        (fun _ _ => True) w)
    (hagain : ∀ w, ReinstallReady E inp (getClusterConfigDir ns uid) w₀ w →
      Tries (Running ok guar) (finishBuild E inp (getClusterConfigDir ns uid)) (fun _ w' => Q w')
        (fun _ _ => True) w) :
    Tries (Running ok guar) (rebuild E inp (getClusterConfigDir ns uid)) (fun _ w' => Q w')
      (fun _ _ => True) w₀ := by
  have hr : ∀ op : Op B, op.target = .nothing → Prepares E inp (getClusterConfigDir ns uid) op :=
    fun _ => .read
  have hf : ∀ op : Op B, BuildFile (getClusterConfigDir ns uid) op →
      Prepares E inp (getClusterConfigDir ns uid) op := fun _ => .file
  have hdir : (getClusterConfigDir ns uid).join [] = getClusterConfigDir ns uid := by
    simp [Path.join]
  refine Tries.seq (Q := fun _ w' => Cleared (getClusterConfigDir ns uid) w' ∧
    Framed [.nothing, .file] w₀ w') ?_ ?_
  · refine tries_attempt (meets_call fun c r w' hc ho => ⟨hremove _ _ _ hc ho, meets_ret.2 ?_⟩)
    have hpost : Cleared (getClusterConfigDir ns uid) w' ∧ Framed [.nothing, .file] w₀ w' :=
      ⟨hclear _ _ _ ho, (answer_framed hc).mono (by simp [Op.target])⟩
    cases r <;> exact hpost
  rintro _ w₁ ⟨hcleared, hframed⟩
  refine Tries.seq (tries_prepare hprep (Prog.uses_perform (hdir ▸ hf _ (.subdir (by simp))))
    tries_mkdirAll ⟨hcleared.join isoPath, hframed⟩) ?_
  rintro _ w₂ ⟨h₂, hw₂⟩
  have hempty : ∀ rel, w₂.content ((getClusterConfigDir ns uid).join rel) = none := by
    intro rel
    rw [hw₂, World.content_mkdirs, World.content, hcleared.join rel]
    rfl
  refine Tries.seq (tries_prepare hprep (uses_wrap (getValidPullSecret_uses hr ..))
    (tries_wrap getValidPullSecret_reads) h₂) ?_
  rintro psData w₂ ⟨-, rfl, hps⟩
  refine Tries.seq (tries_prepare hprep (uses_wrap (getCABundle_uses hr ..))
    (tries_wrap (getCABundle_reads E)) h₂) ?_
  rintro caBundle w₂ ⟨-, rfl, hca⟩
  refine Tries.seq (tries_prepare hprep (uses_wrap (generateExtraManifests_uses hr hf ..))
    (tries_wrap (generateExtraManifests_fills hempty)) h₂) ?_
  rintro _ w₃ ⟨h₃, manifests, honly, hmanifests⟩
  rw [sources_of_framed h₂.framed] at hps hca hmanifests
  have hmaps : MapsAreMaps w₀ → manifests = (inp.sources E w₀).manifests E := fun hmaps =>
    hmanifests fun key cm hcm => hmaps key cm (h₂.framed.configMaps (by decide) ▸ hcm)
  refine Tries.seq (tries_prepare hprep (uses_wrap (clusterIdentitySecrets_uses hr ..))
    (tries_wrap (clusterIdentitySecrets_reads _)) h₃) ?_
  rintro idData w₃ ⟨-, rfl, hidentity⟩
  rw [identity_of_framed h₃.framed] at hidentity
  cases idData with
  | none => exact firstInstall_runs hprep hE ⟨h₃, hps, hca, hmaps, honly⟩ hidentity hfirst
  | some idData =>
    refine Tries.seq (tries_prepare hprep (uses_wrap (Prog.uses_perform (hf _ .temp)))
      (tries_wrap tries_mkdirTemp) h₃) ?_
    rintro tmp w₄ ⟨h₄, name, rfl, hnew, helsewhere⟩
    have honly₄ : OnlyManifests (getClusterConfigDir ns uid) manifests w₄ :=
      honly.elsewhere fun p hp => helsewhere p (by simp [hp, getClusterConfigDir])
    exact deferRemoveAll_runs (htmp name) (hQ name) (reinstall_runs hprep hE
      ⟨h₄, hps, hca, hmaps, honly₄⟩ ⟨fun _ => hnew _, fun rel _ => hnew rel⟩ hidentity hagain)

end Prepare

/-! ## Under the lock -/

/-- The calls before the lock is held: reads, and those that make the directories and the lock
file. -/
inductive Opens (E : Env B) (ns uid : String) : Op B → Prop where
  | read {op : Op B} (h : op.target = .nothing) : Opens E ns uid op
  | file {op : Op B} (h : Tidies E (lockDirOf ns uid) op) : Opens E ns uid op

/-- Nothing but files has changed, and outputs are as they were or gone. -/
structure Opened (dir : Path) (w₀ w : World B) : Prop where
  framed : Framed [.nothing, .file] w₀ w
  outputs : ∀ file ∈ buildOutputs, w.fs (dir.join file) = w₀.fs (dir.join file) ∨
    w.fs (dir.join file) = none

section Open

variable {ok guar : World B → (op : Op B) → Resp op → World B → Prop} {E : Env B} {inp : BuildInput}
  {ns uid : String} {dir : Path} {w₀ w : World B} {op : Op B}

theorem Opened.missing (h : Opened dir w₀ w) (hmissing : Missing dir w₀) : Missing dir w :=
  hmissing.of_outputs h.outputs

theorem Opens.target (h : Opens E ns uid op) : op.target ∈ [.nothing, .file] := by
  cases h with
  | read h => simp [h]
  | file h => simp [h.target]

theorem Opens.not_writes_output (h : Opens E ns uid op) {ns' uid' : String} {file : List String}
    (hfile : file ∈ buildOutputs) : ¬op.writes ((getClusterConfigDir ns' uid').join file) := by
  cases h with
  | read h => exact (sparesOutputs_of_plain (plain_of_read h)).1 file hfile
  | file h => exact h.not_writes_output

theorem Opened.step {c : Choice B} {r : Resp op} {w' : World B}
    (h : Opened (getClusterConfigDir ns uid) w₀ w) (hop : Opens E ns uid op)
    (hc : answer op c w = (r, w')) : Opened (getClusterConfigDir ns uid) w₀ w' := by
  refine ⟨h.framed.trans ((answer_framed hc).mono (by simpa using hop.target)),
    fun file hfile => ?_⟩
  rcases kept_or_gone hc (hop.not_writes_output hfile) with hk | hk
  · rw [hk]
    exact h.outputs file hfile
  · exact .inr hk

variable [DecidableEq B]

/-- `writeInputData` is what comes before the lock is held, and the build. -/
theorem writeInputData_runs {Q : World B → Prop}
    (hopen : ∀ w₁ op, Opened (getClusterConfigDir inp.ns uid) w w₁ → Opens E inp.ns uid op →
      Permits ok guar w₁ op)
    (hbuild : ∀ w₁, Opened (getClusterConfigDir inp.ns uid) w w₁ →
      Tries (Running ok guar) (buildImage E inp (getClusterConfigDir inp.ns uid)) (fun _ w' => Q w')
        (fun _ _ => True) w₁) :
    Tries (Running ok guar) (writeInputData E inp uid) (fun res w' => res = {} → Q w')
      (fun _ _ => True) w := by
  refine Tries.mono (writeInputData_steps E inp (A := Opens E inp.ns uid)
    (I := Opened (getClusterConfigDir inp.ns uid) w) (Q := Q) (R := fun _ => True) (fun _ => .read)
    (fun _ => .file) (fun hp h₁ => meets_permitted hp hopen (fun hI hop hc => hI.step hop hc) h₁)
    hbuild (fun _ _ => trivial) ⟨.refl .., fun _ _ => .inl rfl⟩) ?_ fun _ _ _ => trivial
  rintro res w' (⟨-, h⟩ | ⟨rfl, -⟩) hres
  · exact h
  · cases hres

end Open

end ImageBasedInstall

import ImageBasedInstall.Cluster.Smooth
import ImageBasedInstall.Verify.Images

/-!
# Builds that go through

When no call fails, a build is stopped only by what it reads. `Buildable` says what it must find in
the cluster: a valid pull secret, the objects the spec names, config files the installer accepts
and, if an identity is stored, one that can be installed again. `writeInputData_works`: then there
is an image in the end.
-/

namespace ImageBasedInstall

open Interactive Installer

variable {B : Type} {α : Type}

/-- What a build must find in the cluster. -/
structure Buildable (E : Env B) (inp : BuildInput) (ic : InstallConfig) (ibc : ImageBasedConfig)
    (w : World B) : Prop where
  named : inp.cd.pullSecretRef ≠ some "" ∧ inp.cdKey.ns ≠ ""
  pullSecret : ∀ psData, (inp.sources E w).pullSecret = some psData →
    validatePullSecret E psData = .ok ()
  network : inp.bmh.preprovisioningNetworkDataName ≠ "" → ∀ nmstate,
    (inp.sources E w).nmstate = some nmstate → E.validNmstate nmstate = true
  manifests : ∀ name ∈ inp.spec.extraManifestsRefs.items, ∃ cm,
    w.configMaps ⟨inp.ns, name⟩ = some cm ∧ ∀ entry ∈ cm.data, E.validYaml entry.2 = true
  configs : Configs E inp (inp.sources E w) ic ibc
  marshals : ∀ registry nmstate config, (inp.sources E w).nmstate = some nmstate →
    imageBasedConfig inp.spec registry nmstate = .ok config →
    (E.marshalImageBasedConfig config).isSome
  installConfig : E.validInstallConfig ic = true
  imageBasedConfig : E.validImageBasedConfig ibc = true
  /-- A stored identity is one of the same cluster, with a kubeconfig that can be loaded. -/
  reinstall : ∀ idData, w.identity E inp.cdKey = some idData →
    E.validKubeconfig idData.kubeconfig = true ∧
    ∃ secret, ∀ draw, Compatible E idData (generateClusterConfiguration E ic ibc draw) secret

/-- The cache shows the identity secrets that exist. -/
def Shown (cd : NamespacedName) (w : World B) : Prop :=
  ∀ kind ∈ identitySecrets, ∀ s, w.secrets (kind.key cd) = some s → s.isCached = true

section Reads

variable {E : Env B} {inp : BuildInput} {ic : InstallConfig} {ibc : ImageBasedConfig}
  {w w' : World B}

/-- Two builds have the same sources: of the host only the name of its network config counts, and of
the config maps only their data. -/
structure SameSources (E : Env B) (inp inp' : BuildInput) (w w' : World B) : Prop where
  ns : inp'.ns = inp.ns
  spec : inp'.spec = inp.spec
  cdKey : inp'.cdKey = inp.cdKey
  cd : inp'.cd = inp.cd
  network : inp'.bmh.preprovisioningNetworkDataName = inp.bmh.preprovisioningNetworkDataName
  sources : inp'.sources E w' = inp.sources E w
  configMaps : ∀ key, (w'.configMaps key).map ConfigMap.data = (w.configMaps key).map ConfigMap.data

/-- Two builds read the same. -/
structure SameInputs (E : Env B) (inp inp' : BuildInput) (w w' : World B) : Prop
    extends SameSources E inp inp' w w' where
  identity : w'.identity E inp.cdKey = w.identity E inp.cdKey

theorem SameInputs.of_framed (h : Framed [.nothing, .file] w w') : SameInputs E inp inp w w' where
  ns := rfl
  spec := rfl
  cdKey := rfl
  cd := rfl
  network := rfl
  sources := sources_of_framed h
  identity := identity_of_framed h
  configMaps key := by rw [h.configMaps (by decide)]

/-- With the same sources, what is stored decides. -/
theorem Buildable.of_sources {inp' : BuildInput} (h : Buildable E inp ic ibc w)
    (hsame : SameSources E inp inp' w w')
    (hreinstall : ∀ idData, w'.identity E inp.cdKey = some idData →
      E.validKubeconfig idData.kubeconfig = true ∧
      ∃ secret, ∀ draw, Compatible E idData (generateClusterConfiguration E ic ibc draw) secret) :
    Buildable E inp' ic ibc w' where
  named := by rw [hsame.cd, hsame.cdKey]; exact h.named
  pullSecret := by rw [hsame.sources]; exact h.pullSecret
  network := by rw [hsame.network, hsame.sources]; exact h.network
  manifests name hname := by
    rw [hsame.spec] at hname
    obtain ⟨cm, hcm, hyaml⟩ := h.manifests name hname
    have hdata := hsame.configMaps ⟨inp.ns, name⟩
    rw [hcm, Option.map_some, Option.map_eq_some_iff] at hdata
    obtain ⟨cm', hcm', heq⟩ := hdata
    exact ⟨cm', by rw [hsame.ns, hcm'], fun entry hentry => hyaml entry (heq ▸ hentry)⟩
  configs := by
    have hconfigs := h.configs
    rw [← hsame.sources] at hconfigs
    constructor
    · have hic := hconfigs.installConfig
      simpa only [Sources.installConfig, hsame.spec, hsame.cd] using hic
    · have hibc := hconfigs.imageBasedConfig
      simpa only [Sources.imageBasedConfig, hsame.spec] using hibc
  marshals := by rw [hsame.spec, hsame.sources]; exact h.marshals
  installConfig := h.installConfig
  imageBasedConfig := h.imageBasedConfig
  reinstall := by rw [hsame.cdKey]; exact hreinstall

theorem Buildable.congr {inp' : BuildInput} (h : Buildable E inp ic ibc w)
    (hsame : SameInputs E inp inp' w w') : Buildable E inp' ic ibc w' :=
  h.of_sources hsame.toSameSources (by rw [hsame.identity]; exact h.reinstall)

theorem Buildable.of_framed (h : Buildable E inp ic ibc w) (hw : Framed [.nothing, .file] w w') :
    Buildable E inp ic ibc w' :=
  h.congr (.of_framed hw)

theorem Shown.of_framed {cd : NamespacedName} (h : Shown cd w)
    (hw : Framed [.nothing, .file] w w') :
    Shown cd w' := by
  intro kind hkind s hs
  rw [hw.secrets (by decide)] at hs
  exact h kind hkind s hs

theorem ok_of_toOption {x : Except Err α} {a : α} (h : x.toOption = some a) : x = .ok a := by
  cases x with
  | error e => cases h
  | ok b => cases h; rfl

/-- What the install config is made of. -/
theorem Configs.cluster (h : Configs E inp (inp.sources E w) ic ibc) :
    ∃ psData caBundle nets, (inp.sources E w).pullSecret = some psData ∧
      (inp.sources E w).caBundle = some caBundle ∧
      parseNetworks E (Installer.getEffectiveMachineNetworks inp.spec) = .ok nets := by
  have hic := h.installConfig
  simp only [Sources.installConfig, Option.bind_eq_bind, Option.bind_eq_some_iff] at hic
  obtain ⟨psData, hps, caBundle, hca, nets, hnets, -⟩ := hic
  exact ⟨psData, caBundle, nets, hps, hca, ok_of_toOption hnets⟩

/-- What the image-based config is made of. -/
theorem Configs.host (h : Configs E inp (inp.sources E w) ic ibc) :
    ∃ nmstate releaseImage registry config, (inp.sources E w).nmstate = some nmstate ∧
      (inp.sources E w).releaseImage = some releaseImage ∧
      E.imageRegistry releaseImage = .ok registry ∧
      Installer.imageBasedConfig inp.spec registry nmstate = .ok config := by
  have hibc := h.imageBasedConfig
  simp only [Sources.imageBasedConfig, Option.bind_eq_bind, Option.bind_eq_some_iff] at hibc
  obtain ⟨nmstate, hnm, releaseImage, himage, registry, hreg, config, hconfig, -⟩ := hibc
  exact ⟨nmstate, releaseImage, registry, config, hnm, himage, ok_of_toOption hreg,
    ok_of_toOption hconfig⟩

/-! ## Reading the sources -/

theorem works_getSecretNoncached {key : NamespacedName} {s : Secret B}
    (h : w.secrets key = some s) {Q : Secret B → World B → Prop} (hQ : Q s w) :
    Works (getSecretNoncached key) Q w := by
  refine smooth_getSecret.2 ?_
  simpa [h, orNotFound, Option.filter] using hQ

theorem works_getConfigMap {key : NamespacedName} {cm : ConfigMap}
    (h : w.configMaps key = some cm) {Q : ConfigMap → World B → Prop} (hQ : Q cm w) :
    Works (getConfigMap key) Q w := by
  refine smooth_getConfigMap.2 ?_
  rw [h]
  exact hQ

theorem works_true {x : Act B α} {Q : α → World B → Prop} (h : Works x Q w) :
    Works x (fun _ _ => True) w :=
  h.mono (fun _ _ _ => trivial) fun _ _ h => h

theorem World.secretText_some {key : NamespacedName} {dataKey text : String}
    (h : w.secretText E key dataKey = some text) :
    ∃ s data, w.secrets key = some s ∧ s.get dataKey = some data ∧ E.toString data = text := by
  simp only [World.secretText, Option.map_eq_some_iff, Option.bind_eq_some_iff] at h
  obtain ⟨data, ⟨s, hs, hdata⟩, htext⟩ := h
  exact ⟨s, data, hs, hdata, htext⟩

theorem getValidPullSecret_works (h : Buildable E inp ic ibc w) :
    Works (getValidPullSecret E inp.cd.pullSecretRef inp.cdKey.ns) (fun _ _ => True) w := by
  obtain ⟨psData, -, -, hps, -, -⟩ := h.configs.cluster
  have hvalid := h.pullSecret psData hps
  obtain ⟨name, hname, htext⟩ := Option.bind_eq_some_iff.1 hps
  obtain ⟨s, data, hs, hdata, rfl⟩ := World.secretText_some htext
  have hnamed : ¬(name = "" ∨ inp.cdKey.ns = "") := by
    rintro (rfl | hns)
    · exact h.named.1 hname
    · exact h.named.2 hns
  simp only [getValidPullSecret, hname, if_neg hnamed]
  refine Tries.bind (tries_wrap (works_getSecretNoncached hs ?_))
  rw [hdata]
  dsimp only
  rw [hvalid]
  exact Tries.bind (tries_wrap (tries_liftExcept.2 (tries_pure.2 trivial)))

theorem getCABundle_works (h : Buildable E inp ic ibc w) :
    Works (getCABundle inp.spec.caBundleRef inp.ns) (fun _ _ => True) w := by
  obtain ⟨-, caBundle, -, -, hca, -⟩ := h.configs.cluster
  unfold getCABundle
  cases href : inp.spec.caBundleRef with
  | none => exact tries_pure.2 trivial
  | some name =>
    simp only [BuildInput.sources, href, Option.bind_eq_some_iff] at hca
    obtain ⟨cm, hcm, hdata⟩ := hca
    refine Tries.bind (tries_wrap (works_getConfigMap hcm ?_))
    rw [hdata]
    exact tries_pure.2 trivial

theorem nmstateConfig_works (h : Buildable E inp ic ibc w) :
    Works (nmstateConfig E inp.bmhKey inp.bmh) (fun _ _ => True) w := by
  obtain ⟨nmstate, -, -, -, hnm, -⟩ := h.configs.host
  unfold nmstateConfig
  split
  · exact tries_pure.2 trivial
  next href =>
  have hvalid := h.network href nmstate hnm
  simp only [BuildInput.sources, if_neg href] at hnm
  obtain ⟨s, data, hs, hdata, rfl⟩ := World.secretText_some hnm
  refine Tries.bind (tries_wrap (works_getSecretNoncached hs ?_))
  simp only [hdata, hvalid]
  exact tries_pure.2 trivial

theorem imageSetRegistry_works (h : Buildable E inp ic ibc w) :
    Works (imageSetRegistry E inp.spec) (fun _ _ => True) w := by
  obtain ⟨-, releaseImage, registry, -, -, himage, hregistry, -⟩ := h.configs.host
  have hset : w.imageSets inp.spec.imageSetRef = some releaseImage := himage
  refine Tries.bind (tries_wrap (smooth_getImageSet.2 ?_))
  rw [hset]
  refine tries_liftExcept.2 ?_
  rw [hregistry]
  trivial

theorem getSecretContent_works (ref : NamespacedName) (key : String) :
    Works (getSecretContent E ref key) (fun _ _ => True) w := by
  refine Tries.bind (tries_attempt (smooth_getSecret.2 ?_))
  cases (w.secrets ref).filter fun s => !true || s.isCached with
  | none => exact tries_pure.2 trivial
  | some s => exact tries_pure.2 trivial

theorem clusterIdentitySecrets_works (cd : NamespacedName) :
    Works (clusterIdentitySecrets E cd) (fun _ _ => True) w := by
  refine Tries.seq (getSecretContent_works _ _) fun kubeconfig w₁ _ => ?_
  cases kubeconfig with
  | none => exact tries_pure.2 trivial
  | some kubeconfig =>
  refine Tries.seq (getSecretContent_works _ _) fun password w₂ _ => ?_
  cases password with
  | none => exact tries_pure.2 trivial
  | some password =>
  refine Tries.seq (getSecretContent_works _ _) fun seed w₃ _ => ?_
  cases seed with
  | none => exact tries_pure.2 trivial
  | some seed => exact tries_pure.2 trivial

end Reads

/-- What a program that does not fail leaves alone. -/
theorem Works.framed {x : Act B α} {Q : α → World B → Prop} {S : List Target} {w : World B}
    (h : Works x Q w) (hx : x.run.Uses fun op => op.target ∈ S) :
    Works x (fun a w' => Q a w' ∧ Framed S w w') w := by
  refine Works.and h (Meets.mono ((meets_framed hx).guar_mono fun _ _ _ _ _ => trivial) ?_)
  rintro (e | a) w' hframed
  · trivial
  · exact hframed

/-! ## Writing files -/

section Files

variable {E : Env B} {inp : BuildInput} {ic : InstallConfig} {ibc : ImageBasedConfig}
  {w w' : World B} {path dir : Path} {b : B}

theorem works_writeFile :
    Works (writeFile path b) (fun _ w' => w' = w.setEntry path (some (.file b))) w :=
  smooth_writeFile.2 rfl

theorem works_mkdirAll : Works (mkdirAll path) (fun _ w' => w' = w.mkdirs path) w :=
  smooth_mkdirAll.2 rfl

theorem writeConfigFiles_works (h : Buildable E inp ic ibc w) {psData caBundle : String} :
    Works (writeConfigFiles E inp psData caBundle dir) (fun _ _ => True) w := by
  obtain ⟨-, -, nets, -, -, hnets⟩ := h.configs.cluster
  refine Tries.seq (Q := fun _ w' => Framed [.nothing, .file] w w') (tries_wrap ?_) ?_
  · unfold writeInstallConfig
    refine Tries.bind (tries_liftExcept.2 ?_)
    rw [hnets]
    refine Tries.mono (tries_wrap works_writeFile) ?_ fun _ _ h => h
    rintro _ _ rfl
    exact (Framed.setFile ..).mono (by simp)
  intro _ w₁ hframed
  have h₁ := h.of_framed hframed
  unfold ImageBasedInstall.writeImageBaseConfig
  refine tries_wrap (Tries.seq ((nmstateConfig_works h₁).spec nmstateConfig_reads) ?_)
  rintro nmstate w₁ ⟨rfl, hnmstate⟩
  refine Tries.seq ((imageSetRegistry_works h₁).spec imageSetRegistry_reads) ?_
  rintro registry w₁ ⟨rfl, releaseImage, himage, hregistry⟩
  obtain ⟨nmstate', image', registry', config, hnm, him, hreg, hconfig⟩ := h₁.configs.host
  obtain rfl : nmstate = nmstate' := Option.some.inj (hnmstate.symm.trans hnm)
  obtain rfl : releaseImage = image' := Option.some.inj (himage.symm.trans him)
  obtain rfl : registry = registry' := Except.ok.inj (hregistry.symm.trans hreg)
  obtain ⟨data, hdata⟩ := Option.isSome_iff_exists.1 (h₁.marshals _ _ _ hnm hconfig)
  unfold Installer.writeImageBaseConfig
  refine Tries.bind (tries_liftExcept.2 ?_)
  rw [hconfig]
  dsimp only [Outcome]
  rw [hdata]
  exact works_true (tries_wrap works_writeFile)

theorem generateExtraManifests_works (h : Buildable E inp ic ibc w) :
    Works (generateExtraManifests E dir inp.ns inp.spec) (fun _ _ => True) w := by
  refine Tries.seq works_mkdirAll ?_
  rintro _ _ rfl
  refine Tries.seq (tries_wrap works_writeFile) ?_
  rintro _ _ rfl
  refine Tries.seq (tries_wrap works_writeFile) ?_
  rintro _ _ rfl
  refine works_true (Tries.forM (I := fun _ (w' : World B) => w'.configMaps = w.configMaps) _
    (fun _ _ _ h hr => hr ▸ h) ?_ rfl)
  intro done name rest heq w₁ hmaps
  obtain ⟨cm, hcm, hyaml⟩ := h.manifests name (by simp [heq])
  refine Tries.bind (tries_wrap (works_getConfigMap (hmaps ▸ hcm) ?_))
  refine Tries.forM (I := fun _ (w' : World B) => w'.configMaps = w.configMaps) _
    (fun _ _ _ h hr => hr ▸ h) ?_ hmaps
  intro done' entry rest' heq' w₂ hmaps₂
  unfold writeManifest
  simp only [hyaml entry (by simp [heq'])]
  refine Tries.mono (tries_wrap works_writeFile) ?_ fun _ _ h => h
  rintro _ _ rfl
  exact hmaps₂

/-! ## The installer -/

theorem loadFile_ok {decode : B → Option α} {valid : α → Bool} {name : String} {file : Option B}
    {a : α} (hfile : file.bind decode = some a) (hvalid : valid a = true) :
    loadFile decode valid name file = .ok (some a) := by
  obtain ⟨b, rfl, hb⟩ := Option.bind_eq_some_iff.1 hfile
  simp [loadFile, hb, hvalid]

/-- The installer makes an image and a kubeconfig of the directory. -/
def Resolves (E : Env B) (snap : Snapshot B) : Prop :=
  ∀ draw, ∃ fetched kubeconfig, resolve E snap draw = .ok fetched ∧
    fetched.kubeconfig = .ok kubeconfig

theorem FirstSnapshot.resolves {manifests : String → Option B} {snap : Snapshot B}
    (h : FirstSnapshot E ic ibc manifests snap) (hic : E.validInstallConfig ic = true)
    (hibc : E.validImageBasedConfig ibc = true) : Resolves E snap := by
  intro draw
  have hconfig : loadInstallConfig E snap = .ok (some ic) := loadFile_ok h.installConfig hic
  have himage : loadImageBasedConfig E snap = .ok (some ibc) := loadFile_ok h.imageBasedConfig hibc
  have hmanifest : loadClusterConfiguration E snap = .ok none := by
    simp only [loadClusterConfiguration, h.manifest, loadFile]
  have hmirrors : loadMirrorSet E snap = .ok none := by
    simp only [loadMirrorSet, h.mirrorSet, loadFile]
  have hkubeconfig : loadKubeconfig E snap = .ok none := by
    simp only [loadKubeconfig, h.kubeconfig, loadFile]
  simp only [resolve, h.state, hconfig, himage, hmanifest, hmirrors, hkubeconfig]
  exact ⟨_, _, rfl, rfl⟩

theorem ReinstallSnapshot.resolves (hE : E.Lawful) {seed : SeedReconfiguration}
    {idData : IdentityData B} {manifests : String → Option B} {snap : Snapshot B}
    (h : ReinstallSnapshot E seed idData manifests snap)
    (hk : E.validKubeconfig idData.kubeconfig = true) : Resolves E snap := by
  intro draw
  have hconfig : loadInstallConfig E snap = .ok none := by
    simp only [loadInstallConfig, h.installConfig, loadFile]
  have himage : loadImageBasedConfig E snap = .ok none := by
    simp only [loadImageBasedConfig, h.imageBasedConfig, loadFile]
  have hmanifest : loadClusterConfiguration E snap = .ok (some (E.marshalSeed seed, seed)) :=
    loadFile_ok (by simp [h.manifest, hE.unmarshalSeedStrict_marshalSeed]) rfl
  have hmirrors : loadMirrorSet E snap = .ok none := by
    simp only [loadMirrorSet, h.mirrorSet, loadFile]
  have hkubeconfig : loadKubeconfig E snap = .ok (some idData.kubeconfig) :=
    loadFile_ok (by simp [h.kubeconfig]) hk
  simp only [resolve, h.state, hconfig, himage, hmanifest, hmirrors, hkubeconfig]
  exact ⟨_, _, rfl, rfl⟩

theorem works_saveStateFile {draw : Draw} : Works (saveStateFile E dir draw)
    (fun _ w' => w' = w.setEntry (dir.join [stateFileName]) (some (.file (E.stateFile draw)))) w :=
  works_writeFile

/-- What `fetchAndPersist` does when both steps work. -/
theorem works_fetchAndPersist {saved persist : Act B Unit} {Q : World B → Prop}
    (h : Works saved (fun _ w' => Works persist (fun _ w'' => Q w'') w') w) :
    Works (fetchAndPersist saved persist) (fun _ w' => Q w') w := by
  refine Tries.bind (tries_attempt (Tries.mono h ?_ fun _ _ h => h.elim))
  intro _ w₁ h₁
  exact Tries.seq h₁ fun _ w₂ h₂ => tries_liftExcept.2 h₂

theorem isSome_content_setEntry {p : Path} (h : (w.content p).isSome) :
    ((w.setEntry path (some (.file b))).content p).isSome := by
  rw [World.content_setEntry, Function.update_apply]
  split
  · rfl
  · exact h

/-- The file is there, and no other file is lost. -/
theorem works_persist {draw : Draw} :
    Works (fetchAndPersist (saveStateFile E dir draw) (persistToFile path b)) (fun _ w' =>
      (w'.content path).isSome ∧ ∀ p, (w.content p).isSome → (w'.content p).isSome) w := by
  refine works_fetchAndPersist (Tries.mono works_saveStateFile ?_ fun _ _ h => h)
  rintro _ _ rfl
  refine Tries.seq works_mkdirAll ?_
  rintro _ _ rfl
  refine Tries.mono works_writeFile ?_ fun _ _ h => h
  rintro _ _ rfl
  refine ⟨by simp, fun p hp => isSome_content_setEntry ?_⟩
  rw [World.content_mkdirs]
  exact isSome_content_setEntry hp

theorem works_drawAssets : Works (drawAssets : Act B Draw) (fun _ w' => w' = w) w :=
  Tries.lift (smooth_call.2 fun _ _ => rfl)

theorem works_loadDir : Works (loadDir dir) (fun snap w' => snap = w.files dir ∧ w' = w) w :=
  smooth_loadDir.2 ⟨rfl, rfl⟩

theorem works_saveAndPurge {draw : Draw} :
    Works (do saveStateFile E dir draw; purge (consumed dir)) (fun _ _ => True) w :=
  Tries.seq works_saveStateFile fun _ _ _ => smooth_purge.2 trivial

theorem createInstallationIso_works (builtFrom : Spec) (h : Resolves E (w.files dir)) :
    Works (createInstallationIso E builtFrom dir) (fun _ w' =>
      ∀ file ∈ [kubeadminPasswordPath, kubeconfigPath, manifestPath],
        (w'.content (dir.join file)).isSome) w := by
  refine Tries.seq works_loadDir ?_
  rintro _ _ ⟨rfl, rfl⟩
  refine Tries.seq works_drawAssets ?_
  rintro draw w rfl
  obtain ⟨fetched, kubeconfig, hresolve, hkubeconfig⟩ := h draw
  refine Tries.bind (tries_liftExcept.2 ?_)
  rw [hresolve]
  refine Tries.seq (Q := fun _ _ => True) (works_fetchAndPersist (Tries.mono works_saveAndPurge
    (fun _ _ _ => smooth_writeIso.2 trivial) fun _ _ h => h)) fun _ w₁ _ => ?_
  refine Tries.bind (tries_liftExcept.2 ?_)
  rw [hkubeconfig]
  refine Tries.seq works_persist fun _ w₂ h₂ => ?_
  refine Tries.seq works_persist fun _ w₃ h₃ => ?_
  refine Tries.mono works_persist ?_ fun _ _ h => h
  intro _ w₄ h₄ file hfile
  simp only [List.mem_cons, List.not_mem_nil, or_false] at hfile
  rcases hfile with rfl | rfl | rfl
  · exact h₄.2 _ h₃.1
  · exact h₄.2 _ (h₃.2 _ h₂.1)
  · exact h₄.1

theorem getBaseAssets_works (h : Resolves E (w.files dir)) :
    Works (getBaseAssets E dir) (fun _ _ => True) w := by
  refine Tries.seq (tries_wrap works_loadDir) ?_
  rintro _ _ ⟨rfl, rfl⟩
  refine Tries.seq works_drawAssets ?_
  rintro draw w rfl
  obtain ⟨fetched, kubeconfig, hresolve, hkubeconfig⟩ := h draw
  refine Tries.bind (tries_wrap (tries_liftExcept.2 ?_))
  rw [hresolve]
  refine Tries.seq (tries_wrap works_saveAndPurge) fun _ w₁ _ => ?_
  refine Tries.bind (tries_wrap (tries_liftExcept.2 ?_))
  rw [hkubeconfig]
  refine Tries.seq (tries_wrap works_saveStateFile) fun _ w₂ _ => ?_
  refine Tries.seq (tries_wrap works_saveStateFile) fun _ w₃ _ => ?_
  exact tries_pure.2 trivial

theorem diskWorks_of_smooth {op : Op B} {r : Resp op} (h : smooth w op r w') :
    DiskWorks w op r w' := by
  obtain ⟨c, hc, heq⟩ := h
  unfold DiskWorks
  split
  · cases (hc.write ..).symm.trans heq
  · simp only [answer, hc.ending] at heq
    cases (hc.write ..).symm.trans heq
  · trivial

theorem writeReinstallData_works {tmp : Path} {idData : IdentityData B}
    {secret : SeedReconfiguration} {manifests : String → Option B}
    (h : FirstSnapshot E ic ibc manifests (w.files tmp)) (hic : E.validInstallConfig ic = true)
    (hibc : E.validImageBasedConfig ibc = true)
    (hcompatible : ∀ draw, Compatible E idData (generateClusterConfiguration E ic ibc draw)
      secret) :
    Works (writeReinstallData E tmp dir idData) (fun _ _ => True) w := by
  rw [writeReinstallData_eq]
  refine Tries.seq ((getBaseAssets_works (h.resolves hic hibc)).spec (getBaseAssets_generates h)) ?_
  rintro config w₁ ⟨⟨draw, rfl⟩, -⟩
  exact (writeMerged_works (hcompatible draw)).ok_mono fun _ _ _ _ => diskWorks_of_smooth

end Files

/-! ## The identity secrets -/

section Secrets

variable [DecidableEq B] {E : Env B} {w w' : World B} {kind : IdentitySecret} {cd : NamespacedName}
  {uid : String} {path dir : Path} {b : B}

omit [DecidableEq B] in
theorem works_getSecret_attempt {key : NamespacedName} {Q : Except Err (Secret B) → World B → Prop}
    (hshown : ∀ s, w.secrets key = some s → s.isCached = true)
    (hQ : Q (orNotFound (w.secrets key)) w) : Works (getSecret key).attempt Q w := by
  have hfilter : ((w.secrets key).filter fun s => !true || s.isCached) = w.secrets key := by
    cases hs : w.secrets key with
    | none => rfl
    | some s => simp [Option.filter, hshown s hs]
  refine tries_attempt (smooth_getSecret.2 ?_)
  rw [hfilter]
  cases hs : w.secrets key with
  | none =>
    rw [hs] at hQ
    exact hQ
  | some s =>
    rw [hs] at hQ
    exact hQ

theorem ensureSecret_works (hfile : (w.content path).isSome)
    (hshown : ∀ s, w.secrets (kind.key cd) = some s → s.isCached = true) :
    Works (ensureSecret E kind cd uid path) (fun _ _ => True) w := by
  obtain ⟨b, hb⟩ := Option.isSome_iff_exists.1 hfile
  refine Tries.bind (tries_wrap (smooth_readFile.2 ?_))
  rw [show (w.fs path).bind Entry.content = some b from hb]
  refine Tries.seq (Q := fun _ w' => w' = w) ?_ ?_
  · refine Tries.bind (works_getSecret_attempt hshown ?_)
    cases w.secrets (kind.key cd) with
    | none => exact tries_pure.2 rfl
    | some s => exact tries_pure.2 rfl
  rintro valid w rfl
  split
  · exact tries_pure.2 trivial
  refine tries_wrap (Tries.bind (works_getSecret_attempt hshown ?_))
  cases hs : w.secrets (kind.key cd) with
  | none => exact tries_wrap ((smooth_createSecret hs).2 trivial)
  | some s =>
    dsimp only [orNotFound]
    split
    · exact tries_pure.2 trivial
    · exact tries_wrap ((smooth_updateSecret hs).2 trivial)

theorem ensureCreds_works (hshown : Shown cd w)
    (hfiles : ∀ file ∈ [kubeadminPasswordPath, kubeconfigPath, manifestPath],
      (w.content (dir.join file)).isSome) :
    Works (ensureCreds E cd uid dir) (fun _ _ => True) w := by
  have hcontent : ∀ {w' : World B}, w'.fs = w.fs → ∀ p, w'.content p = w.content p :=
    fun hfs p => by rw [World.content, hfs, World.content]
  refine Tries.seq (tries_wrap ((ensureSecret_works (hfiles _ (by simp)) (hshown _ ?_)).spec
    (ensureSecret_spec E adminPasswordSecret cd uid _))) fun _ w₁ h₁ => ?_
  · simp [identitySecrets]
  refine Tries.seq (tries_wrap ((ensureSecret_works ?_ ?_).spec
    (ensureSecret_spec E kubeconfigSecret cd uid _))) fun _ w₂ h₂ => ?_
  · rw [hcontent h₁.fs]
    exact hfiles _ (by simp)
  · rw [h₁.others _ (adminPassword_ne_kubeconfig cd cd).symm]
    exact hshown _ (by simp [identitySecrets])
  refine tries_wrap (ensureSecret_works ?_ ?_)
  · rw [hcontent (h₂.fs.trans h₁.fs)]
    exact hfiles _ (by simp)
  · rw [h₂.others _ (kubeconfig_ne_seed cd cd).symm, h₁.others _ (adminPassword_ne_seed cd cd).symm]
    exact hshown _ (by simp [identitySecrets])

end Secrets

/-! ## The build -/

section Build

variable [DecidableEq B] {E : Env B} {inp : BuildInput} {ic : InstallConfig}
  {ibc : ImageBasedConfig} {w : World B} {ns uid : String} {dir : Path}

theorem finishBuild_works (h : Resolves E (w.files dir)) (hshown : Shown inp.cdKey w) :
    Works (finishBuild E inp dir) (fun _ _ => True) w := by
  have hiso := (createInstallationIso_works inp.spec h).framed
    (S := [.nothing, .file, .iso]) (createInstallationIso_uses (fun op h => by simp [h])
      (fun op h => by simp [h.target]) E inp.spec fun i => by simp [Op.target])
  refine Tries.seq (tries_wrap hiso) ?_
  rintro _ w₁ ⟨hfiles, hframed⟩
  refine ensureCreds_works (fun kind hkind s hs => hshown kind hkind s ?_) hfiles
  rwa [hframed.secrets (by decide)] at hs

omit [DecidableEq B] in
theorem works_deferRemoveAll {tmp : Path} {body : Act B Unit}
    (h : Works body (fun _ _ => True) w) : Works (deferRemoveAll tmp body) (fun _ _ => True) w := by
  refine Tries.bind (tries_attempt (Tries.mono h ?_ fun _ _ h => h.elim))
  intro _ w₁ _
  exact Tries.bind (tries_attempt (smooth_removeAll.2 (tries_liftExcept.2 trivial)))

omit [DecidableEq B] in
theorem works_mkdirTemp :
    Works (mkdirTemp : Act B Path)
      (fun tmp w' =>
        (∃ name, tmp = ⟨.temp name, []⟩ ∧ (∀ rel, w'.content (tmp.join rel) = none) ∧
          ∀ p : Path, p.root ≠ tmp.root → w'.content p = w.content p) ∧
        Framed [.nothing, .file] w w') w := by
  have h : Works (mkdirTemp : Act B Path) (fun _ _ => True) w := smooth_mkdirTemp.2 fun _ => trivial
  exact (h.spec tries_mkdirTemp).framed (Prog.uses_perform (by simp [Op.target]))

omit [DecidableEq B] in
theorem works_removeAll_attempt (dir : Path) : Works (removeAll dir : Act B Unit).attempt
    (fun _ w' => Cleared dir w' ∧ Framed [.nothing, .file] w w') w := by
  refine Works.framed (tries_attempt (smooth_removeAll.2 ?_))
    (uses_attempt (Prog.uses_perform (by simp [Op.target])))
  intro p hp
  simp [World.prune, hp]

section Branches

variable (hE : E.Lawful) (h : Buildable E inp ic ibc w) (hshown : Shown inp.cdKey w)
  {psData caBundle : String} (hps : (inp.sources E w).pullSecret = some psData)
  (hca : (inp.sources E w).caBundle = some caBundle)
include hE h hps hca

omit [DecidableEq B] in
/-- The config files are those the installer accepts. -/
theorem writeConfigFiles_accepted (dir : Path) :
    Works (writeConfigFiles E inp psData caBundle dir) (fun _ w' => (∃ b b',
      E.unmarshalInstallConfig b = some ic ∧ E.unmarshalImageBasedConfig b' = some ibc ∧
      w'.content = Function.update (Function.update w.content (dir.join [installConfigFilename])
        (some b)) (dir.join [imageBasedConfigFilename]) (some b')) ∧
      Framed [.nothing, .file] w w') w := by
  have hwrites := ((writeConfigFiles_works h).spec (writeConfigFiles_writes hE hps hca)).framed
    (S := [.nothing, .file]) (writeConfigFiles_uses (fun op h => by simp [h])
      (fun op (h : BuildFile dir op) => by simp [h.target]) E inp psData caBundle dir
      fun op h => by simp [h.target])
  refine hwrites.mono ?_ fun _ _ h => h
  rintro _ w' ⟨⟨ic', ibc', b, b', hconfigs, hb, hb', hcontent⟩, hframed⟩
  obtain rfl : ic = ic' := Option.some.inj
    (h.configs.installConfig.symm.trans hconfigs.installConfig)
  obtain rfl : ibc = ibc' :=
    Option.some.inj (h.configs.imageBasedConfig.symm.trans hconfigs.imageBasedConfig)
  exact ⟨⟨b, b', hb, hb', hcontent⟩, hframed⟩

include hshown

theorem firstInstall_works {manifests : String → Option B} (honly : OnlyManifests dir manifests w) :
    Works (firstInstall E inp psData caBundle dir) (fun _ _ => True) w := by
  refine Tries.seq (writeConfigFiles_accepted hE h hps hca dir) ?_
  rintro _ w₁ ⟨⟨b, b', hb, hb', hcontent⟩, hframed⟩
  exact finishBuild_works ((honly.configured hb hb' hcontent).resolves h.installConfig
    h.imageBasedConfig) (hshown.of_framed hframed)

theorem reinstall_works {manifests : String → Option B} {tmp : Path} {idData : IdentityData B}
    (hroot : dir.root ≠ tmp.root) (honly : OnlyManifests dir manifests w)
    (htemp : OnlyManifests tmp (fun _ => none) w)
    (hidentity : w.identity E inp.cdKey = some idData) :
    Works (reinstall E inp psData caBundle idData tmp dir) (fun _ _ => True) w := by
  obtain ⟨hkubeconfig, secret, hcompatible⟩ := h.reinstall idData hidentity
  refine Tries.seq (writeConfigFiles_accepted hE h hps hca tmp) ?_
  rintro _ w₁ ⟨⟨b, b', hb, hb', hcontent⟩, hframed⟩
  -- the work directory is not the one the config files went to
  have honly₁ : OnlyManifests dir manifests w₁ := by
    refine honly.elsewhere fun p hp => ?_
    have hne : ∀ rel, p ≠ tmp.join rel := by
      rintro rel rfl
      exact hroot hp.symm
    rw [hcontent, Function.update_of_ne (hne _), Function.update_of_ne (hne _)]
  have hsnap := htemp.configured hb hb' hcontent
  have hdata := ((writeReinstallData_works hsnap h.installConfig h.imageBasedConfig
    hcompatible).spec (writeReinstallData_merges hroot honly₁ hsnap)).framed
    (S := [.nothing, .file]) (writeReinstallData_uses (fun op h => by simp [h])
      (fun op (h : BuildFile dir op) => by simp [h.target]) E tmp idData)
  refine Tries.seq (tries_wrap hdata) ?_
  rintro _ w₂ ⟨⟨draw, secret', -, hmerged⟩, hframed₂⟩
  exact finishBuild_works (hmerged.resolves hE hkubeconfig)
    ((hshown.of_framed hframed).of_framed hframed₂)

end Branches

theorem rebuild_works (hE : E.Lawful) (h : Buildable E inp ic ibc w) (hshown : Shown inp.cdKey w) :
    Works (rebuild E inp (getClusterConfigDir ns uid)) (fun _ _ => True) w := by
  refine Tries.seq (works_removeAll_attempt _) ?_
  rintro _ w₀ ⟨hcleared, hframed₀⟩
  refine Tries.seq (works_mkdirAll.framed (S := [.nothing, .file])
    (Prog.uses_perform (by simp [Op.target]))) ?_
  rintro _ w₁ ⟨hw₁, hframed₁⟩
  have hempty : ∀ rel, w₁.content ((getClusterConfigDir ns uid).join rel) = none := by
    intro rel
    rw [hw₁, World.content_mkdirs, World.content, hcleared.join rel]
    rfl
  replace hframed₁ := hframed₀.trans hframed₁
  have h₁ := h.of_framed hframed₁
  refine Tries.seq (tries_wrap ((getValidPullSecret_works h₁).spec getValidPullSecret_reads)) ?_
  rintro psData w₁ ⟨rfl, hps⟩
  refine Tries.seq (tries_wrap ((getCABundle_works h₁).spec (getCABundle_reads E))) ?_
  rintro caBundle w₁ ⟨rfl, hca⟩
  have hmanifests := ((generateExtraManifests_works h₁).spec
    (generateExtraManifests_fills hempty)).framed (S := [.nothing, .file])
    (generateExtraManifests_uses (fun op h => by simp [h])
      (fun op (h : BuildFile (getClusterConfigDir ns uid) op) => by simp [h.target]) E
        inp.ns inp.spec)
  refine Tries.seq (tries_wrap hmanifests) ?_
  rintro _ w₂ ⟨⟨manifests, honly, -⟩, hframed₂⟩
  have h₂ := h₁.of_framed hframed₂
  have hshown₂ := (hshown.of_framed hframed₁).of_framed hframed₂
  rw [← sources_of_framed hframed₂] at hps hca
  refine Tries.seq (tries_wrap ((clusterIdentitySecrets_works _).spec
    (clusterIdentitySecrets_reads _))) ?_
  rintro idData w₂ ⟨rfl, hidentity⟩
  cases idData with
  | none => exact firstInstall_works hE h₂ hshown₂ hps hca honly
  | some idData =>
    refine Tries.seq (tries_wrap works_mkdirTemp) ?_
    rintro tmp w₃ ⟨⟨name, rfl, hnew, helsewhere⟩, hframed₃⟩
    rw [← sources_of_framed hframed₃] at hps hca
    have honly₃ : OnlyManifests (getClusterConfigDir ns uid) manifests w₃ :=
      honly.elsewhere fun p hp => helsewhere p (by simp [hp, getClusterConfigDir])
    exact works_deferRemoveAll (reinstall_works hE (h₂.of_framed hframed₃)
      (hshown₂.of_framed hframed₃) hps hca (by simp [getClusterConfigDir]) honly₃
      ⟨fun _ => hnew _, fun rel _ => hnew rel⟩ (identity_of_framed hframed₃ ▸ hidentity))

omit [DecidableEq B] in
theorem verifyIsoAndAuthExists_smooth (dir : Path) :
    Meets (Alone smooth) (verifyIsoAndAuthExists dir)
      (fun b w' => w' = w ∧ b = buildOutputs.all fun file => (w.fs (dir.join file)).isSome) w := by
  have hall : ∀ files : List (List String),
      Meets (Alone smooth) (files.allM fun file => fileExists (dir.join file))
        (fun b w' => w' = w ∧ b = files.all fun file => (w.fs (dir.join file)).isSome) w := by
    intro files
    induction files with
    | nil => exact meets_ret.2 ⟨rfl, rfl⟩
    | cons file files ih =>
      refine Meets.seq (Q := fun b w' => w' = w ∧ b = (w.fs (dir.join file)).isSome) ?_ ?_
      · refine Meets.bind (smooth_stat.2 ?_)
        cases w.fs (dir.join file) with
        | none => exact meets_ret.2 ⟨rfl, rfl⟩
        | some e => exact meets_ret.2 ⟨rfl, rfl⟩
      · rintro b w ⟨rfl, rfl⟩
        cases hfile : (w.fs (dir.join file)).isSome with
        | false => exact meets_ret.2 ⟨rfl, by simp [hfile]⟩
        | true => exact ih.mono fun b w' h => ⟨h.1, by simp [h.2, hfile]⟩
  exact hall buildOutputs

/-- The image is there, and the credentials are files. -/
structure Finished (dir : Path) (w : World B) : Prop where
  iso : (w.fs (dir.join isoPath)).isSome
  creds : ∀ file ∈ [kubeadminPasswordPath, kubeconfigPath, manifestPath],
    (w.content (dir.join file)).isSome

omit [DecidableEq B] in
theorem Finished.of_fs {w' : World B} (h : Finished dir w) (hfs : w'.fs = w.fs) : Finished dir w' :=
  ⟨hfs ▸ h.iso, by simpa only [World.content, hfs] using h.creds⟩

omit [DecidableEq B] in
theorem Finished.all (h : Finished dir w) :
    (buildOutputs.all fun file => (w.fs (dir.join file)).isSome) = true := by
  have hfs : ∀ file, (w.content (dir.join file)).isSome → (w.fs (dir.join file)).isSome :=
    fun file hfile => Option.isSome_of_isSome_bind hfile
  simp only [buildOutputs, List.all_cons, List.all_nil, Bool.and_true, Bool.and_eq_true]
  exact ⟨h.iso, hfs _ (h.creds _ (by simp)), hfs _ (h.creds _ (by simp)),
    hfs _ (h.creds _ (by simp))⟩

omit [DecidableEq B] in
theorem Missing.not_all (h : Missing dir w) :
    (buildOutputs.all fun file => (w.fs (dir.join file)).isSome) = false := by
  obtain ⟨file, hfile, hnone⟩ := h
  exact List.all_eq_false.2 ⟨file, hfile, by simp [hnone]⟩

/-- The image of a work directory is finished, or nothing stops its build. -/
def Obtainable (E : Env B) (inp : BuildInput) (dir : Path) (w : World B) : Prop :=
  Finished dir w ∨ Missing dir w ∧ ∃ ic ibc, Buildable E inp ic ibc w

theorem buildImage_works (hE : E.Lawful) (h : Obtainable E inp (getClusterConfigDir ns uid) w)
    (hshown : Shown inp.cdKey w) :
    Works (buildImage E inp (getClusterConfigDir ns uid)) (fun _ _ => True) w := by
  refine Tries.seq (Tries.lift (verifyIsoAndAuthExists_smooth _)) ?_
  rintro b w ⟨rfl, rfl⟩
  rcases h with hfinished | ⟨hmissing, ic, ibc, hbuildable⟩
  · rw [hfinished.all]
    exact ensureCreds_works hshown hfinished.creds
  · rw [hmissing.not_all]
    exact rebuild_works hE hbuildable hshown

/-- Nothing but the directories above the work directory and the lock file beside it. -/
structure OpenedOnly (dir : Path) (w w' : World B) : Prop where
  framed : Framed [.nothing, .file] w w'
  inside : ∀ file ∈ buildOutputs, w'.fs (dir.join file) = w.fs (dir.join file)

omit [DecidableEq B] in
theorem Obtainable.opened {w' : World B} (h : Obtainable E inp dir w) (hw : OpenedOnly dir w w') :
    Obtainable E inp dir w' := by
  rcases h with h | ⟨⟨file, hfile, hnone⟩, ic, ibc, hbuildable⟩
  · refine .inl ⟨?_, fun file hfile => ?_⟩
    · rw [hw.inside _ (by simp [buildOutputs])]
      exact h.iso
    · rw [World.content, hw.inside _ (List.mem_cons_of_mem _ hfile)]
      exact h.creds file hfile
  · exact .inr ⟨⟨file, hfile, (hw.inside file hfile).trans hnone⟩, ic, ibc,
      hbuildable.of_framed hw.framed⟩

omit [DecidableEq B] in
theorem OpenedOnly.trans {w₁ w₂ : World B} (h : OpenedOnly dir w w₁) (h' : OpenedOnly dir w₁ w₂) :
    OpenedOnly dir w w₂ :=
  ⟨h.framed.trans h'.framed, fun file hfile => (h'.inside file hfile).trans (h.inside file hfile)⟩

omit [DecidableEq B] in
theorem works_configDirs (ns uid : String) : Works (configDirs ns uid) (fun dirs w' =>
    dirs = (lockDirOf ns uid, (lockDirOf ns uid).join [filesDir]) ∧
    OpenedOnly (getClusterConfigDir ns uid) w w') w := by
  refine Tries.seq (works_mkdirAll.framed (S := [.nothing, .file])
    (Prog.uses_perform (by simp [Op.target]))) ?_
  rintro _ w₁ ⟨hw₁, hframed⟩
  refine tries_pure.2 ⟨rfl, hframed, fun file hfile => ?_⟩
  rw [hw₁]
  simp [World.mkdirs, Path.within, Path.join, getClusterConfigDir, lockDirOf]

omit [DecidableEq B] in
theorem works_lockForDir (ns uid : String) : Works (lockForDir E (lockDirOf ns uid)) (fun held w' =>
    held = true ∧ OpenedOnly (getClusterConfigDir ns uid) w w') w := by
  refine Tries.bind (tries_attempt (smooth_stat.2 ?_))
  cases w.fs ((lockDirOf ns uid).join ["lock"]) with
  | some e => exact smooth_tryLock.2 ⟨rfl, .refl .., fun _ _ => rfl⟩
  | none =>
    refine Tries.seq (works_writeFile.framed (S := [.nothing, .file])
      (Prog.uses_perform (by simp [Op.target]))) ?_
    rintro _ w₁ ⟨hw₁, hframed⟩
    refine smooth_tryLock.2 ⟨rfl, hframed, fun file hfile => ?_⟩
    rw [hw₁]
    simp [World.setEntry, Path.join, getClusterConfigDir, lockDirOf]

/-- The build goes through. -/
theorem writeInputData_works (hE : E.Lawful)
    (h : Obtainable E inp (getClusterConfigDir inp.ns uid) w) (hshown : Shown inp.cdKey w) :
    Works (writeInputData E inp uid) (fun res _ => res = {}) w := by
  refine Tries.seq (works_configDirs inp.ns uid) ?_
  rintro _ w₁ ⟨rfl, hopened⟩
  refine Tries.bind (Tries.lift (Meets.bind (Meets.mono (works_lockForDir inp.ns uid) ?_)))
  rintro (e | held) w₂ hlocked
  · exact hlocked.elim
  obtain ⟨rfl, hopened₂⟩ := hlocked
  have hopened := hopened.trans hopened₂
  refine Meets.bind (Meets.mono (buildImage_works hE (h.opened hopened)
    (hshown.of_framed hopened.framed)) ?_)
  rintro (e | _) w₃ hbuilt
  · exact hbuilt.elim
  · exact meets_ret.2 (tries_pure.2 rfl)

omit [DecidableEq B] in
theorem Shown.setSecret {cd key : NamespacedName} (h : Shown cd w) {s : Secret B}
    (hs : s.isCached = true) : Shown cd (w.setSecret key s) := by
  intro kind hkind s' hs'
  by_cases hkey : kind.key cd = key
  · obtain rfl : s = s' := by simpa [World.setSecret, hkey] using hs'
    exact hs
  · exact h kind hkind s' (by simpa [World.setSecret, hkey] using hs')

omit [DecidableEq B] in
theorem mutate_isCached (kind : IdentitySecret) (cd : NamespacedName) (cdUID : String) (content : B)
    (s : Secret B) : (kind.mutate E cd cdUID content s).isCached = true := by
  have hlabels := (kind.mutate_managed E cd cdUID content s).labels (secretResourceLabel, "true")
    (by simp [IdentitySecret.labels])
  simp [Secret.isCached, hlabels]

/-- The secrets a build stores are shown by the cache. -/
theorem writeInputData_shown (h : Shown inp.cdKey w) :
    Meets (Alone smooth) (writeInputData E inp uid).run (fun _ w' => Shown inp.cdKey w') w := by
  refine Meets.of_uses (writeInputData_stores E inp uid) (fun _ _ h hr => hr ▸ h) ?_ h
  rintro op w₁ r w₂ hop hI ⟨⟨c, hc⟩, -⟩
  refine ⟨trivial, ?_⟩
  rcases hop with hop | hop
  · intro kind hkind s hs
    rw [(answer_framed hc).secrets (by simpa using fun heq => by simp [← heq] at hop)] at hs
    exact hI kind hkind s hs
  · cases hop with
    | create hkind =>
      obtain rfl | ⟨rfl, -⟩ := answer_createSecret hc
      · exact hI.setSecret (mutate_isCached ..)
      · exact hI
    | update hkind =>
      obtain rfl | ⟨rfl, -⟩ := answer_updateSecret hc
      · exact hI.setSecret (mutate_isCached ..)
      · exact hI

omit [DecidableEq B] in
theorem ImageReady.finished {cd : NamespacedName} (h : ImageReady cd dir w) : Finished dir w := by
  have hholds : ∀ kind file, HoldsFile kind cd (dir.join file) w →
      (w.content (dir.join file)).isSome := by
    rintro kind file ⟨b, s, hb, -⟩
    simp [World.content, hb, Entry.content]
  refine ⟨h.iso, fun file hfile => ?_⟩
  simp only [List.mem_cons, List.not_mem_nil, or_false] at hfile
  rcases hfile with rfl | rfl | rfl
  · exact hholds _ _ h.creds.password
  · exact hholds _ _ h.creds.kubeconfig
  · exact hholds _ _ h.creds.manifest

/-- What the build leaves: the image and its credentials are in place, the cache shows them, and
nothing but files and secrets has changed. -/
theorem writeInputData_obtains (hE : E.Lawful)
    (h : Obtainable E inp (getClusterConfigDir inp.ns uid) w) (hshown : Shown inp.cdKey w) :
    Works (writeInputData E inp uid) (fun res w' => res = {} ∧
      ImageReady inp.cdKey (getClusterConfigDir inp.ns uid) w' ∧ Shown inp.cdKey w' ∧
      Framed [.nothing, .file, .secret, .iso] w w') w := by
  have hworks := ((writeInputData_works hE h hshown).and (writeInputData_spec E inp uid)).framed
    (writeInputData_targets E inp uid)
  refine Meets.mono (Meets.and hworks (writeInputData_shown hshown)) ?_
  rintro (e | res) w' ⟨hrun, hshown'⟩
  · exact hrun
  · obtain ⟨⟨rfl, hready⟩, hframed⟩ := hrun
    exact ⟨rfl, hready rfl, hshown', hframed⟩

end Build

end ImageBasedInstall

import ImageBasedInstall.Cluster.Frame
import ImageBasedInstall.Controllers.Monitor
import ImageBasedInstall.Controllers.Reconciler

/-!
# Footprints

Which calls each function can make, whatever the replies. A lemma `f_uses` is stated for an
arbitrary set `A` of calls: it holds as soon as `A` contains the reads (`hr`) and the kinds of
writes `f` makes (file writes `hf`, writes of secrets `hs`, and so on). Frames and invariants are
instances.
-/

namespace ImageBasedInstall

open Interactive

variable {B : Type} {α : Type} {A : Op B → Prop}

theorem uses_wrap {x : Act B α} {text : String} (h : x.run.Uses A) : (x.wrap text).run.Uses A :=
  uses_adapt h

theorem uses_attempt {x : Act B α} (h : x.run.Uses A) : x.attempt.run.Uses A := uses_lift h

theorem uses_ignore {x : Act B α} (h : x.run.Uses A) : x.ignore.Uses A := h.bind fun _ => trivial

theorem uses_liftExcept (x : Except Err α) : (liftExcept x : Act B α).run.Uses A := trivial

/-- The call does not write a whole secret, a file, an image or an `ImageClusterInstall`. -/
def Op.plain : Op B → Bool
  | .patchSecret .. => true
  | op => op.target ∈ [.nothing, .bmh, .dataImage, .configMap]

theorem plain_of_target {op : Op B} (h : op.target ∈ [.nothing, .bmh, .dataImage, .configMap]) :
    op.plain = true := by
  cases op <;> first | rfl | simpa [Op.plain] using h

/-- The file operations that remove the directory of an object. -/
inductive Tidies (E : Env B) (dir : Path) : Op B → Prop where
  | files : Tidies E dir (.mkdirAll (dir.join [filesDir]))
  | lock : Tidies E dir (.writeFile (dir.join ["lock"]) (E.ofString ""))
  | removal : Tidies E dir (.removeAll dir)

theorem Tidies.target {E : Env B} {dir : Path} {op : Op B} (h : Tidies E dir op) :
    op.target = .file := by
  cases h <;> rfl

def identitySecrets : List IdentitySecret :=
  [adminPasswordSecret, kubeconfigSecret, seedReconfigurationSecret]

/-- The call stores a file's content in an identity secret of the cluster deployment. -/
inductive StoresSecret (E : Env B) (cd : NamespacedName) (cdUID : String) : Op B → Prop where
  | create {kind : IdentitySecret} (hkind : kind ∈ identitySecrets) {content : B} :
    StoresSecret E cd cdUID (.createSecret (kind.key cd) (kind.mutate E cd cdUID content {}))
  | update {kind : IdentitySecret} (hkind : kind ∈ identitySecrets) {content : B} {s : Secret B} :
    StoresSecret E cd cdUID (.updateSecret (kind.key cd) (kind.mutate E cd cdUID content s))

theorem StoresSecret.target {E : Env B} {cd : NamespacedName} {cdUID : String} {op : Op B}
    (h : StoresSecret E cd cdUID op) : op.target = .secret := by
  cases h <;> rfl

/-- The call writes an install config: a file of that name outside the extra manifests. -/
def Op.writesInstallConfig : Op B → Bool
  | .writeFile path _ => path.rel.getLast? == some installConfigFilename &&
    path.rel.dropLast.getLast? != some extraManifestsDir
  | _ => false

/-- The call writes the install config of a build: its machine networks are the effective ones of
the spec, parsed. -/
inductive WritesNetworks (E : Env B) (inp : BuildInput) (dir : Path) : Op B → Prop where
  | mk {psData caBundle : String} {nets : List String}
    (h : Installer.parseNetworks E (Installer.getEffectiveMachineNetworks inp.spec) = .ok nets) :
    WritesNetworks E inp dir (.writeFile (dir.join [installConfigFilename])
      (E.marshalInstallConfig (Installer.installConfig inp.spec inp.cd psData caBundle nets)))

theorem WritesNetworks.target {E : Env B} {inp : BuildInput} {dir : Path} {op : Op B}
    (h : WritesNetworks E inp dir op) : op.target = .file := by
  cases h
  rfl

/-- The file operations of a build in the work directory `dir`, apart from its image and from the
install config. Temp directories hold config and state files only. -/
inductive BuildFile (dir : Path) : Op B → Prop where
  | files : BuildFile dir (.mkdirAll ⟨dir.root, [filesDir]⟩)
  | lock {content : B} : BuildFile dir (.writeFile ⟨dir.root, ["lock"]⟩ content)
  | subdir {elems : List String}
    (h : elems ∈ [[], [extraManifestsDir], [authDir], [clusterConfigDir]]) :
    BuildFile dir (.mkdirAll (dir.join elems))
  | extraManifest {name : String} {content : B} :
    BuildFile dir (.writeFile (dir.join [extraManifestsDir, name]) content)
  | scratch {tmp : Path} {name : String} (h : name ∈ [imageBasedConfigFilename, stateFileName])
    {content : B} : BuildFile dir (.writeFile (tmp.join [name]) content)
  | purge {tmp : Path} : BuildFile dir (.purge (Installer.consumed tmp))
  | removal {tmp : Path} : BuildFile dir (.removeAll tmp)
  | temp : BuildFile dir .mkdirTemp
  | output {elems : List String} (h : elems ∈ [kubeconfigPath, kubeadminPasswordPath, manifestPath])
    {content : B} : BuildFile dir (.writeFile (dir.join elems) content)

theorem BuildFile.target {dir : Path} {op : Op B} (h : BuildFile dir op) : op.target = .file := by
  cases h <;> rfl

theorem writesInstallConfig_join {dir : Path} {elems : List String} {content : B}
    (h : elems.getLast?.any (· != installConfigFilename) = true := by decide) :
    (Op.writeFile (dir.join elems) content).writesInstallConfig = false := by
  obtain ⟨name, hlast, hne⟩ := (Option.any_eq_true _ _).1 h
  simp only [Op.writesInstallConfig, Path.join, List.getLast?_append, hlast, Option.some_or]
  simp only [bne_iff_ne, ne_eq] at hne
  simp [hne]

theorem BuildFile.writesInstallConfig {dir : Path} {op : Op B} (h : BuildFile dir op) :
    op.writesInstallConfig = false := by
  have hscratch : ∀ name ∈ [imageBasedConfigFilename, stateFileName],
      [name].getLast?.any (· != installConfigFilename) = true := by decide
  have houtput : ∀ elems ∈ [kubeconfigPath, kubeadminPasswordPath, manifestPath],
      elems.getLast?.any (· != installConfigFilename) = true := by decide
  cases h with
  | lock => simp [Op.writesInstallConfig, installConfigFilename]
  | extraManifest => simp [Op.writesInstallConfig, Path.join]
  | scratch h => exact writesInstallConfig_join (hscratch _ h)
  | output h => exact writesInstallConfig_join (houtput _ h)
  | _ => rfl

section Reads

variable (hr : ∀ op : Op B, op.target = .nothing → A op)
include hr

/-! ## Secrets and inputs -/

theorem getSecretContent_uses (E : Env B) (ref : NamespacedName) (key : String) :
    (getSecretContent E ref key).run.Uses A := by
  refine uses_bind (uses_attempt (Prog.uses_perform (hr _ rfl))) fun r => ?_
  split
  · split <;> trivial
  · trivial

theorem seedReconfigSecretClusterIDs_uses (E : Env B) (cd : NamespacedName) :
    (seedReconfigSecretClusterIDs E cd).run.Uses A := by
  refine uses_bind (getSecretContent_uses hr ..) fun r => ?_
  split
  · trivial
  · split <;> trivial

theorem clusterIdentitySecrets_uses (E : Env B) (cd : NamespacedName) :
    (clusterIdentitySecrets E cd).run.Uses A := by
  refine uses_bind (getSecretContent_uses hr ..) fun kubeconfig => ?_
  split
  · trivial
  refine uses_bind (getSecretContent_uses hr ..) fun password => ?_
  split
  · trivial
  refine uses_bind (getSecretContent_uses hr ..) fun seed => ?_
  split <;> trivial

theorem getValidPullSecret_uses (E : Env B) (psRef : Option String) (ns : String) :
    (getValidPullSecret E psRef ns).run.Uses A := by
  unfold getValidPullSecret
  split
  · trivial
  split
  · trivial
  refine uses_bind (uses_wrap (Prog.uses_perform (hr _ rfl))) fun s => ?_
  split
  · trivial
  · exact uses_bind (uses_wrap (uses_liftExcept _)) fun _ => trivial

theorem getCABundle_uses (ref : Option String) (ns : String) :
    (getCABundle ref ns : Act B String).run.Uses A := by
  unfold getCABundle
  split
  · trivial
  refine uses_bind (uses_wrap (Prog.uses_perform (hr _ rfl))) fun cm => ?_
  split <;> trivial

theorem nmstateConfig_uses (E : Env B) (key : NamespacedName) (bmh : BareMetalHost) :
    (nmstateConfig E key bmh).run.Uses A := by
  unfold nmstateConfig
  split
  · trivial
  refine uses_bind (uses_wrap (Prog.uses_perform (hr _ rfl))) fun secret => ?_
  split
  · trivial
  · split <;> trivial

theorem imageSetRegistry_uses (E : Env B) (s : Spec) : (imageSetRegistry E s).run.Uses A :=
  uses_bind (uses_wrap (Prog.uses_perform (hr _ rfl))) fun _ => uses_liftExcept _

theorem verifyIsoAndAuthExists_uses (dir : Path) :
    (verifyIsoAndAuthExists dir : Program B Bool).Uses A := by
  refine uses_allM _ fun file => ?_
  exact (Prog.uses_perform (hr _ rfl)).bind fun r => by cases r <;> trivial

theorem fetchCD_uses (ns : String) (s : Spec) : (fetchCD ns s : Program B _).Uses A := by
  unfold fetchCD
  split
  · trivial
  exact (Prog.uses_perform (hr _ rfl)).bind fun r => by cases r <;> trivial

theorem spokeKubeconfig_uses (E : Env B) (req : NamespacedName) (ici : ImageClusterInstall) :
    (spokeKubeconfig E req ici).run.Uses A := by
  unfold spokeKubeconfig
  split
  · trivial
  split
  · trivial
  refine uses_bind (uses_wrap (Prog.uses_perform (hr _ rfl))) fun secret => ?_
  split
  · trivial
  · split <;> trivial

omit hr in
theorem chooseID_uses (current secret : String) {fresh : Program B String} (h : fresh.Uses A) :
    (chooseID current secret fresh).Uses A := by
  unfold chooseID
  split
  · trivial
  · split
    · trivial
    · exact h

theorem setClusterInstallMetadata_uses (E : Env B) (req : NamespacedName)
    (ici : ImageClusterInstall) (cdKey : NamespacedName) (cd : ClusterDeployment)
    (hp : ∀ m, A (.patchICI req ici
      { ici with spec := { ici.spec with clusterMetadata := some m } })) :
    (setClusterInstallMetadata E req ici cdKey cd).Uses A := by
  unfold setClusterInstallMetadata
  split
  · trivial
  · trivial
  refine (seedReconfigSecretClusterIDs_uses hr E cdKey).bind fun ids => ?_
  split
  · trivial
  refine (chooseID_uses _ _ ?_).bind fun clusterID => ?_
  · exact Prog.Uses.bind (Prog.uses_perform (hr _ rfl)) fun _ => trivial
  refine (chooseID_uses _ _ ?_).bind fun infraID => ?_
  · exact Prog.Uses.bind (Prog.uses_perform (hr _ rfl)) fun _ => trivial
  exact Prog.Uses.bind (Prog.uses_perform (hp _)) fun _ => trivial

/-! ## Files -/

section Files

variable {dir : Path} (hf : ∀ op : Op B, BuildFile dir op → A op)

theorem lockForDir_uses (E : Env B) (lockDir : Path)
    (hl : A (.writeFile (lockDir.join ["lock"]) (E.ofString ""))) :
    (lockForDir E lockDir).run.Uses A := by
  refine uses_bind (uses_attempt (Prog.uses_perform (hr _ rfl))) fun r => ?_
  split
  · exact Prog.uses_perform (hr _ rfl)
  · split
    · trivial
    · exact uses_bind (Prog.uses_perform hl) fun _ => Prog.uses_perform (hr _ rfl)

omit hr

theorem writeInstallConfig_uses (E : Env B) (s : Spec) (cd : ClusterDeployment)
    (psData caBundle : String) (file : Path)
    (hic : ∀ nets, Installer.parseNetworks E (Installer.getEffectiveMachineNetworks s) = .ok nets →
      A (.writeFile file (E.marshalInstallConfig
        (Installer.installConfig s cd psData caBundle nets)))) :
    (Installer.writeInstallConfig E s cd psData caBundle file).run.Uses A := by
  unfold Installer.writeInstallConfig
  cases hnets : Installer.parseNetworks E (Installer.getEffectiveMachineNetworks s) with
  | error e => trivial
  | ok nets => exact uses_wrap (Prog.uses_perform (hic nets hnets))

theorem fetchAndPersist_uses {saved persist : Act B Unit} (hs : saved.run.Uses A)
    (hp : persist.run.Uses A) : (Installer.fetchAndPersist saved persist).run.Uses A :=
  uses_bind (uses_attempt hs) fun _ => uses_bind hp fun _ => uses_liftExcept _

/-- The directory of an output. -/
theorem outputDir_eq (dir : Path) (elems : List String)
    (h : elems ∈ [kubeconfigPath, kubeadminPasswordPath, manifestPath]) :
    ∃ sub ∈ [[], [extraManifestsDir], [authDir], [clusterConfigDir]],
      (⟨(dir.join elems).root, (dir.join elems).rel.dropLast⟩ : Path) = dir.join sub := by
  simp only [List.mem_cons, List.not_mem_nil, or_false] at h
  rcases h with rfl | rfl | rfl
  · exact ⟨[authDir], by decide, by simp [Path.join, kubeconfigPath]⟩
  · exact ⟨[authDir], by decide, by simp [Path.join, kubeadminPasswordPath]⟩
  · exact ⟨[clusterConfigDir], by decide, by simp [Path.join, manifestPath]⟩

include hf

theorem installer_writeImageBaseConfig_uses (E : Env B) (s : Spec) (registry nmstate : String)
    (tmp : Path) : (Installer.writeImageBaseConfig E s registry nmstate
      (tmp.join [imageBasedConfigFilename])).run.Uses A := by
  refine uses_bind (uses_liftExcept _) fun config => ?_
  split
  · trivial
  · exact uses_wrap (Prog.uses_perform (hf _ (.scratch (by simp))))

theorem persistToFile_uses {elems : List String}
    (h : elems ∈ [kubeconfigPath, kubeadminPasswordPath, manifestPath]) (content : B) :
    (Installer.persistToFile (dir.join elems) content).run.Uses A := by
  obtain ⟨sub, hsub, heq⟩ := outputDir_eq dir _ h
  unfold Installer.persistToFile
  rw [heq]
  exact uses_bind (Prog.uses_perform (hf _ (.subdir hsub))) fun _ =>
    Prog.uses_perform (hf _ (.output h))

theorem writeAuth_uses {elems : List String}
    (h : elems ∈ [kubeconfigPath, kubeadminPasswordPath, manifestPath]) (data : B) :
    (Installer.writeAuth (dir.join elems) data).run.Uses A := by
  obtain ⟨sub, hsub, heq⟩ := outputDir_eq dir _ h
  unfold Installer.writeAuth
  rw [heq]
  exact uses_bind (uses_wrap (Prog.uses_perform (hf _ (.subdir hsub)))) fun _ =>
    uses_wrap (Prog.uses_perform (hf _ (.output h)))

theorem saveStateFile_uses (E : Env B) (tmp : Path) (draw : Draw) :
    (Installer.saveStateFile E tmp draw).run.Uses A :=
  Prog.uses_perform (hf _ (.scratch (by simp)))

include hr

theorem writeImageBaseConfig_uses (E : Env B) (s : Spec) (key : NamespacedName)
    (bmh : BareMetalHost) (tmp : Path) :
    (writeImageBaseConfig E s key bmh (tmp.join [imageBasedConfigFilename])).run.Uses A :=
  uses_bind (nmstateConfig_uses hr ..) fun _ =>
    uses_bind (imageSetRegistry_uses hr ..) fun _ => installer_writeImageBaseConfig_uses hf ..

theorem writeConfigFiles_uses (E : Env B) (inp : BuildInput) (psData caBundle : String)
    (tmp : Path) (hic : ∀ op, WritesNetworks E inp tmp op → A op) :
    (writeConfigFiles E inp psData caBundle tmp).run.Uses A :=
  uses_bind (uses_wrap (writeInstallConfig_uses _ _ _ _ _ _ fun _ h => hic _ (.mk h)))
    fun _ => uses_wrap (writeImageBaseConfig_uses hr hf ..)

omit hf in
theorem generateExtraManifests_uses_manifests (E : Env B) (ns : String) (s : Spec)
    (hm : A (.mkdirAll (dir.join [extraManifestsDir])))
    (hw : ∀ name content, A (.writeFile (dir.join [extraManifestsDir, name]) content)) :
    (generateExtraManifests E dir ns s).run.Uses A := by
  have hwrite : ∀ name content,
      A (.writeFile ((dir.join [extraManifestsDir]).join [name]) content) := by
    intro name content
    have hjoin : (dir.join [extraManifestsDir]).join [name] =
        dir.join [extraManifestsDir, name] := by simp [Path.join]
    exact hjoin ▸ hw name content
  refine uses_bind (Prog.uses_perform hm) fun _ => ?_
  refine uses_bind (uses_wrap (Prog.uses_perform (hwrite ..))) fun _ => ?_
  refine uses_bind (uses_wrap (Prog.uses_perform (hwrite ..))) fun _ => ?_
  refine uses_forM _ fun name _ => ?_
  refine uses_bind (uses_wrap (Prog.uses_perform (hr _ rfl))) fun cm => ?_
  refine uses_forM _ fun entry _ => ?_
  unfold writeManifest
  split
  · trivial
  · exact uses_wrap (Prog.uses_perform (hwrite ..))

theorem generateExtraManifests_uses (E : Env B) (ns : String) (s : Spec) :
    (generateExtraManifests E dir ns s).run.Uses A :=
  generateExtraManifests_uses_manifests hr E ns s (hf _ (.subdir (by simp)))
    fun _ _ => hf _ .extraManifest

/-! ## The installer -/

theorem createInstallationIso_uses (E : Env B) (s : Spec)
    (hiso : ∀ i, A (.writeIso (dir.join isoPath) i s)) :
    (Installer.createInstallationIso E s dir).run.Uses A := by
  refine uses_bind (Prog.uses_perform (hr _ rfl)) fun snap => ?_
  refine uses_bind (uses_lift (Prog.uses_perform (hr _ rfl))) fun draw => ?_
  refine uses_bind (uses_liftExcept _) fun fetched => ?_
  refine uses_bind (fetchAndPersist_uses ?_ (Prog.uses_perform (hiso _))) fun _ => ?_
  · exact uses_bind (saveStateFile_uses hf ..) fun _ => Prog.uses_perform (hf _ .purge)
  refine uses_bind (uses_liftExcept _) fun kubeconfig => ?_
  refine uses_bind (fetchAndPersist_uses (saveStateFile_uses hf ..)
    (persistToFile_uses hf (by simp) _)) fun _ => ?_
  refine uses_bind (fetchAndPersist_uses (saveStateFile_uses hf ..)
    (persistToFile_uses hf (by simp) _)) fun _ => ?_
  exact fetchAndPersist_uses (saveStateFile_uses hf ..) (persistToFile_uses hf (by simp) _)

theorem getBaseAssets_uses (E : Env B) (tmp : Path) :
    (Installer.getBaseAssets E tmp).run.Uses A := by
  refine uses_bind (uses_wrap (Prog.uses_perform (hr _ rfl))) fun snap => ?_
  refine uses_bind (uses_lift (Prog.uses_perform (hr _ rfl))) fun draw => ?_
  refine uses_bind (uses_wrap (uses_liftExcept _)) fun fetched => ?_
  refine uses_bind (uses_wrap ?_) fun _ => ?_
  · exact uses_bind (saveStateFile_uses hf ..) fun _ => Prog.uses_perform (hf _ .purge)
  refine uses_bind (uses_wrap (uses_liftExcept _)) fun _ => ?_
  refine uses_bind (uses_wrap (saveStateFile_uses hf ..)) fun _ => ?_
  exact uses_bind (uses_wrap (saveStateFile_uses hf ..)) fun _ => trivial

theorem writeReinstallData_uses (E : Env B) (tmp : Path) (idData : IdentityData B) :
    (Installer.writeReinstallData E tmp dir idData).run.Uses A := by
  refine uses_bind (getBaseAssets_uses hr hf ..) fun config => ?_
  split
  · trivial
  refine uses_bind (uses_wrap (uses_liftExcept _)) fun _ => ?_
  refine uses_bind ?_ fun _ => uses_bind (writeAuth_uses hf (by simp) _) fun _ =>
    writeAuth_uses hf (by simp) _
  obtain ⟨sub, hsub, heq⟩ := outputDir_eq dir manifestPath (by simp)
  unfold Installer.writeSeedReconfig
  dsimp only
  rw [heq]
  exact uses_bind (uses_wrap (Prog.uses_perform (hf _ (.subdir hsub)))) fun _ =>
    uses_wrap (Prog.uses_perform (hf _ (.output (by simp))))

omit hf in
theorem removeConfigDir_uses (E : Env B) (ns uid : String)
    (ht : ∀ op, Tidies E (lockDirOf ns uid) op → A op) : (removeConfigDir E ns uid).run.Uses A := by
  -- past the creation of the directories, whose paths the rest needs
  refine ⟨ht _ .files, fun r => ?_⟩
  cases r with
  | error e => trivial
  | ok _ =>
    refine uses_bind (uses_attempt (Prog.uses_perform (hr _ rfl))) fun r => ?_
    split
    · split <;> trivial
    refine uses_bind (uses_lift ((lockForDir_uses hr E _ (ht _ .lock)).bind fun r => ?_))
      fun r => ?_
    · split
      · trivial
      · trivial
      · exact (Prog.uses_perform (ht _ .removal)).bind fun _ => trivial
    · split <;> trivial

/-! ## The build -/

section Build

variable [DecidableEq B] (E : Env B)

omit hf in
theorem ensureSecret_uses {kind : IdentitySecret} (hkind : kind ∈ identitySecrets)
    (cd : NamespacedName) (uid : String) (file : Path)
    (hs : ∀ op : Op B, StoresSecret E cd uid op → A op) :
    (ensureSecret E kind cd uid file).run.Uses A := by
  refine uses_bind (uses_wrap (Prog.uses_perform (hr _ rfl))) fun content => ?_
  refine uses_bind ?_ fun valid => ?_
  · refine uses_bind (uses_attempt (Prog.uses_perform (hr _ rfl))) fun r => ?_
    split
    · split <;> trivial
    · trivial
  split
  · trivial
  refine uses_wrap (uses_bind (uses_attempt (Prog.uses_perform (hr _ rfl))) fun r => ?_)
  split
  · split
    · trivial
    · exact uses_wrap (Prog.uses_perform (hs _ (.create hkind)))
  · split
    · trivial
    · exact uses_wrap (Prog.uses_perform (hs _ (.update hkind)))

omit hf in
theorem ensureCreds_uses (cd : NamespacedName) (uid : String) (dir : Path)
    (hs : ∀ op : Op B, StoresSecret E cd uid op → A op) : (ensureCreds E cd uid dir).run.Uses A :=
  uses_bind (uses_wrap (ensureSecret_uses hr E (by simp [identitySecrets]) _ _ _ hs)) fun _ =>
    uses_bind (uses_wrap (ensureSecret_uses hr E (by simp [identitySecrets]) _ _ _ hs)) fun _ =>
      uses_wrap (ensureSecret_uses hr E (by simp [identitySecrets]) _ _ _ hs)

variable (inp : BuildInput) (hs : ∀ op : Op B, StoresSecret E inp.cdKey inp.cd.uid op → A op)
  (hiso : ∀ i, A (.writeIso (dir.join isoPath) i inp.spec))
  (hic : ∀ tmp op, WritesNetworks E inp tmp op → A op)
include hs hiso

theorem finishBuild_uses : (finishBuild E inp dir).run.Uses A :=
  uses_bind (uses_wrap (createInstallationIso_uses hr hf E _ hiso)) fun _ =>
    ensureCreds_uses hr E _ _ _ hs

include hic

theorem rebuild_uses : (rebuild E inp dir).run.Uses A := by
  have hjoin : dir.join [] = dir := by simp [Path.join]
  refine uses_bind (uses_attempt (Prog.uses_perform (hf _ .removal))) fun _ => ?_
  refine uses_bind (Prog.uses_perform (hjoin ▸ hf _ (.subdir (by simp)))) fun _ => ?_
  refine uses_bind (uses_wrap (getValidPullSecret_uses hr ..)) fun psData => ?_
  refine uses_bind (uses_wrap (getCABundle_uses hr ..)) fun caBundle => ?_
  refine uses_bind (uses_wrap (generateExtraManifests_uses hr hf ..)) fun _ => ?_
  refine uses_bind (uses_wrap (clusterIdentitySecrets_uses hr ..)) fun idData => ?_
  split
  · exact uses_bind (writeConfigFiles_uses hr hf _ _ _ _ _ (hic _)) fun _ =>
      finishBuild_uses hr hf E inp hs hiso
  refine uses_bind (uses_wrap (Prog.uses_perform (hf _ .temp))) fun tmp => ?_
  refine uses_bind (uses_attempt ?_) fun _ =>
    uses_bind (uses_attempt (Prog.uses_perform (hf _ .removal))) fun _ => uses_liftExcept _
  exact uses_bind (writeConfigFiles_uses hr hf _ _ _ _ _ (hic _)) fun _ =>
    uses_bind (uses_wrap (writeReinstallData_uses hr hf ..)) fun _ =>
      finishBuild_uses hr hf E inp hs hiso

theorem buildImage_uses : (buildImage E inp dir).run.Uses A := by
  refine uses_bind (uses_lift (verifyIsoAndAuthExists_uses hr ..)) fun exists' => ?_
  split
  · exact ensureCreds_uses hr E _ _ _ hs
  · exact rebuild_uses hr hf E inp hs hiso hic

end Build

omit hf

/-- The calls of a build, with the paths of its files. -/
theorem writeInputData_uses_files [DecidableEq B] (E : Env B) (inp : BuildInput) (uid : String)
    (hf : ∀ op : Op B, BuildFile (getClusterConfigDir inp.ns uid) op → A op)
    (hs : ∀ op : Op B, StoresSecret E inp.cdKey inp.cd.uid op → A op)
    (hiso : ∀ i, A (.writeIso ((getClusterConfigDir inp.ns uid).join isoPath) i inp.spec))
    (hic : ∀ tmp op, WritesNetworks E inp tmp op → A op) :
    (writeInputData E inp uid).run.Uses A := by
  -- past the creation of the directories, whose paths the rest needs
  refine ⟨hf _ .files, fun r => ?_⟩
  cases r with
  | error e => trivial
  | ok _ =>
    refine uses_bind (uses_lift ((lockForDir_uses hr E _ (hf _ .lock)).bind fun r => ?_))
      fun r => ?_
    · split
      · trivial
      · trivial
      · exact (buildImage_uses hr hf E inp hs hiso hic).bind fun _ => trivial
    · split <;> trivial

/-- The calls of a build, with the writes of the install config and of the secrets. -/
theorem writeInputData_uses_config [DecidableEq B]
    (hf : ∀ op : Op B, op.target = .file → op.writesInstallConfig = false → A op) (E : Env B)
    (inp : BuildInput) (uid : String)
    (hs : ∀ op : Op B, StoresSecret E inp.cdKey inp.cd.uid op → A op)
    (hiso : ∀ i, A (.writeIso ((getClusterConfigDir inp.ns uid).join isoPath) i inp.spec))
    (hic : ∀ tmp op, WritesNetworks E inp tmp op → A op) :
    (writeInputData E inp uid).run.Uses A :=
  writeInputData_uses_files hr E inp uid (fun op h => hf op h.target h.writesInstallConfig) hs hiso
    hic

theorem writeInputData_uses [DecidableEq B] (hf : ∀ op : Op B, op.target = .file → A op)
    (hs : ∀ op : Op B, op.target = .secret → A op) (E : Env B) (inp : BuildInput) (uid : String)
    (hiso : ∀ i, A (.writeIso ((getClusterConfigDir inp.ns uid).join isoPath) i inp.spec)) :
    (writeInputData E inp uid).run.Uses A :=
  writeInputData_uses_config hr (fun op h _ => hf op h) E inp uid (fun op h => hs op h.target) hiso
    fun _ op h => hf op h.target

omit hr in
/-- The kinds of object a build touches. -/
theorem writeInputData_targets [DecidableEq B] (E : Env B) (inp : BuildInput) (uid : String) :
    (writeInputData E inp uid).run.Uses fun op => op.target ∈ [.nothing, .file, .secret, .iso] :=
  writeInputData_uses (fun op h => by simp [h]) (fun op h => by simp [h]) (fun op h => by simp [h])
    E inp uid fun i => by simp [Op.target]

omit hr in
/-- The only secrets among them are those of the cluster's identity. -/
theorem writeInputData_stores [DecidableEq B] (E : Env B) (inp : BuildInput) (uid : String) :
    (writeInputData E inp uid).run.Uses fun op =>
      op.target ∈ [.nothing, .file, .iso] ∨ StoresSecret E inp.cdKey inp.cd.uid op :=
  writeInputData_uses_config (fun op h => .inl (by simp [h])) (fun op h _ => .inl (by simp [h]))
    E inp uid (fun op h => .inr h) (fun i => .inl (by simp [Op.target]))
    fun _ op h => .inl (by simp [h.target])

end Files

/-! ## Hosts and data images -/

section Hosts

variable (hb : ∀ key bmh labels, A (.patchBMH key bmh { bmh with labels }))

include hb in
theorem labelBMHForBackup_uses (key : NamespacedName) : (labelBMHForBackup key).run.Uses A := by
  refine uses_bind (Prog.uses_perform (hr _ rfl)) fun bmh => ?_
  split
  · trivial
  · exact uses_bind (Prog.uses_perform (hb ..)) fun _ => trivial

theorem labelConfigMapForBackup_uses (hc : ∀ op : Op B, op.target = .configMap → A op)
    (key : NamespacedName) : (labelConfigMapForBackup key).run.Uses A := by
  refine uses_bind (Prog.uses_perform (hr _ rfl)) fun cm => ?_
  split
  · trivial
  · exact uses_bind (Prog.uses_perform (hc _ rfl)) fun _ => trivial

theorem labelSecretForBackup_uses (hs : ∀ key base new, A (.patchSecret key base new))
    (key : NamespacedName) : (labelSecretForBackup key).run.Uses A := by
  refine uses_bind (Prog.uses_perform (hr _ rfl)) fun secret => ?_
  split
  · trivial
  · exact uses_bind (Prog.uses_perform (hs ..)) fun _ => trivial

include hb in
theorem labelReferencedObjectsForBackup_uses (hc : ∀ op : Op B, op.target = .configMap → A op)
    (hs : ∀ key base new, A (.patchSecret key base new)) (ns : String) (s : Spec)
    (cd : Option (NamespacedName × ClusterDeployment)) :
    (labelReferencedObjectsForBackup ns s cd : Program B Unit).Uses A := by
  refine uses_forM' _ fun target ht => uses_ignore ?_
  have hcm := labelConfigMapForBackup_uses hr hc
  have hsec := labelSecretForBackup_uses hr hs
  have hbmh := labelBMHForBackup_uses hr hb
  simp only [backupTargets, List.mem_append, List.mem_map, List.mem_flatMap, List.mem_cons] at ht
  rcases ht with (((⟨_, -, rfl⟩ | ⟨_, -, rfl⟩) | ⟨_, -, rfl | ⟨_, -, rfl⟩⟩) | ⟨_, -, rfl⟩) |
    ⟨_, -, rfl | ⟨_, -, rfl⟩⟩
  · exact hcm _
  · exact hcm _
  · exact hsec _
  · exact hsec _
  · exact hbmh _
  · exact hsec _
  · exact hsec _

end Hosts

section DataImages

variable (hd : ∀ key, A (.deleteDataImage key))
  (hreboot : ∀ key bmh, A (.patchBMH key bmh { bmh with
    annotations := (setAnnotationIfNotExists bmh.annotations rebootAnnotation
      rebootAnnotationValue).1 }))
include hd

theorem deleteDataImage_uses (key : NamespacedName) :
    (deleteDataImage key : Act B _).run.Uses A := by
  refine uses_bind (uses_attempt (Prog.uses_perform (hr _ rfl))) fun r => ?_
  split
  · split <;> trivial
  · exact uses_bind (Prog.uses_perform (hd _)) fun _ => trivial

include hreboot

theorem removeBMHDataImage_uses (key : NamespacedName) :
    (removeBMHDataImage key : Act B _).run.Uses A := by
  refine uses_bind (deleteDataImage_uses hr hd key) fun d => ?_
  split
  · trivial
  refine uses_bind (uses_attempt (Prog.uses_perform (hr _ rfl))) fun r => ?_
  split
  · split <;> trivial
  · next bmh =>
    refine uses_bind ?_ fun _ => trivial
    unfold rebootBMH
    dsimp only
    split
    · exact uses_bind (Prog.uses_perform (hreboot _ bmh)) fun _ => trivial
    · trivial

theorem handlePostCleanup_uses (ici : ImageClusterInstall) :
    (handlePostCleanup ici : Act B _).run.Uses A := by
  unfold handlePostCleanup
  split
  · trivial
  split
  · trivial
  refine uses_bind (uses_wrap (removeBMHDataImage_uses hr hd hreboot _)) fun _ => ?_
  refine uses_bind (uses_attempt (Prog.uses_perform (hr _ rfl))) fun r => ?_
  split
  · trivial
  · split <;> trivial

theorem removeHostDataImage_uses (s : Spec) : (removeHostDataImage s : Act B _).run.Uses A := by
  unfold removeHostDataImage
  split
  · trivial
  · exact uses_bind (uses_wrap (removeBMHDataImage_uses hr hd hreboot _)) fun _ => trivial

end DataImages

/-! ## Conditions -/

section Conditions

variable (key : NamespacedName) (ici : ImageClusterInstall)
  (hc : ∀ conditions, A (.patchICIStatus key ici (ici.withConditions conditions)))
include hc

theorem initializeConditions_uses : (initializeConditions key ici : Program B _).Uses A := by
  refine (uses_foldlM _ _ fun acc cond => ?_).bind fun acc => ?_
  · unfold initializeCondition
    split
    · trivial
    · exact (Prog.uses_perform (hr _ rfl)).bind fun _ => trivial
  · dsimp only
    split
    · trivial
    · exact (Prog.uses_perform (hc _)).bind fun _ => trivial

theorem setRequirementsMetCondition_uses (status : ConditionStatus) (reason msg : String) :
    (setRequirementsMetCondition key ici status reason msg : Program B _).Uses A := by
  refine (Prog.uses_perform (hr _ rfl)).bind fun t => ?_
  dsimp only
  split
  · trivial
  · exact Prog.Uses.bind ((Prog.uses_perform (hc _)).bind fun _ => trivial) fun _ => trivial

end Conditions

end Reads

end ImageBasedInstall

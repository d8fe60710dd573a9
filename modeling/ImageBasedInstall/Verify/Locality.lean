import ImageBasedInstall.Verify.Interleaving

/-!
# What a pass touches

A `Footprint` lists what belongs to one `ImageClusterInstall`: its host, its cluster deployment, the
secrets and config maps these refer to, and the directories of its files. If the stored objects
refer only to what the footprint lists (`Footprint.Covers`), then every call of a pass of either
controller stays inside it, whatever the replies. Here are the parts of a pass up to the build of
the image; the calls also show how the operator edits objects it does not own.
-/

namespace ImageBasedInstall

open Interactive Patch

variable {B : Type}

/-! ## Footprints -/

/-- What belongs to the object stored under `key`. The identity secrets of its cluster deployments
are among its secrets. -/
structure Footprint where
  key : NamespacedName
  cds : String → Prop
  hosts : NamespacedName → Prop
  secrets : NamespacedName → Prop
  configMaps : NamespacedName → Prop
  files : Root → Prop
  identity : ∀ name, cds name → ∀ kind ∈ identitySecrets, secrets (kind.key ⟨key.ns, name⟩)

/-- The object refers only to what the footprint lists. -/
structure Footprint.Admits (F : Footprint) (ici : ImageClusterInstall) : Prop where
  dir : F.files (.data F.key.ns ici.uid)
  cd : ∀ name, ici.spec.clusterDeploymentRef = some name → F.cds name
  host : ∀ host, ici.spec.bareMetalHostRef = some host → F.hosts host
  bootedHost : ∀ host, ici.status.bareMetalHostRef = some host → F.hosts host
  caBundle : ∀ name, ici.spec.caBundleRef = some name → F.configMaps ⟨F.key.ns, name⟩
  manifests : ∀ name ∈ ici.spec.extraManifestsRefs.items, F.configMaps ⟨F.key.ns, name⟩
  metadata : ∀ m, ici.spec.clusterMetadata = some m →
    F.secrets ⟨F.key.ns, m.adminKubeconfigSecretRef⟩ ∧
    ∀ name, m.adminPasswordSecretRef = some name → F.secrets ⟨F.key.ns, name⟩

def Footprint.AdmitsHost (F : Footprint) (host : NamespacedName) (bmh : BareMetalHost) : Prop :=
  bmh.preprovisioningNetworkDataName ≠ "" →
    F.secrets ⟨host.ns, bmh.preprovisioningNetworkDataName⟩

def Footprint.AdmitsCD (F : Footprint) (cd : ClusterDeployment) : Prop :=
  ∀ name, cd.pullSecretRef = some name → F.secrets ⟨F.key.ns, name⟩

/-- The stored objects refer only to what the footprint lists. -/
structure Footprint.Covers (F : Footprint) (w : World B) : Prop where
  object : ∀ ici, w.icis F.key = some ici → F.Admits ici
  hosts : ∀ host bmh, F.hosts host → w.bmhs host = some bmh → F.AdmitsHost host bmh
  cds : ∀ name cd, F.cds name → w.cds ⟨F.key.ns, name⟩ = some cd → F.AdmitsCD cd

/-- What the replies may be assumed to refer to. -/
def Footprint.Told (F : Footprint) : (op : Op B) → Resp op → Prop
  | .getICI key, .ok ici => key = F.key → F.Admits ici
  | .patchICI key _ _, .ok ici => key = F.key → F.Admits ici
  | .patchICIStatus key _ _, .ok ici => key = F.key → F.Admits ici
  | .getBMH host, .ok bmh => F.hosts host → F.AdmitsHost host bmh
  | .patchBMH host _ _, .ok bmh => F.hosts host → F.AdmitsHost host bmh
  | .getCD key, .ok cd => key.ns = F.key.ns → F.cds key.name → F.AdmitsCD cd
  | .mkdirTemp, .ok path => F.files path.root
  | _, _ => True

/-! ## Calls inside a footprint -/

/-- The operator's edits of a host. -/
inductive HostEdit (base : BareMetalHost) : BareMetalHost → Prop where
  | labelled :
    HostEdit base { base with labels := Function.update base.labels backupLabel (some "true") }
  | cleaningDisabled : HostEdit base { base with automatedCleaningMode := .disabled }
  | provisioned : HostEdit base { base with externallyProvisioned := true }
  | rebooted : HostEdit base { base with
      annotations := (setAnnotationIfNotExists base.annotations rebootAnnotation
        rebootAnnotationValue).1 }
  | booted (image : DataImage) : HostEdit base (base.booted image)

/-- The edits of a call of objects that belong to others are those of the operator. -/
def Op.Tame : Op B → Prop
  | .patchBMH _ base new => HostEdit base new
  | .patchConfigMap _ base new =>
    new = { base with labels := Function.update base.labels backupLabel (some "true") }
  | .patchSecret _ base new =>
    new = { base with labels := Function.update base.labels backupLabel (some "true") }
  | _ => True

/-- The call reads and writes only what the footprint lists, apart from cluster deployments and
image sets, which nobody writes. -/
def Footprint.Inside (F : Footprint) : Op B → Prop
  | .getICI key => key = F.key
  | .patchICI key _ new => key = F.key ∧ F.Admits new
  | .patchICIStatus key _ new => key = F.key ∧ F.Admits new
  | .getBMH host => F.hosts host
  | .patchBMH host _ _ => F.hosts host
  | .getDataImage host => F.hosts host
  | .createDataImage host _ => F.hosts host
  | .deleteDataImage host => F.hosts host
  | .getCD key => key.ns = F.key.ns ∧ F.cds key.name
  | .getConfigMap key => F.configMaps key
  | .patchConfigMap key _ _ => F.configMaps key
  | .getSecret _ key => F.secrets key
  | .createSecret key _ => F.secrets key
  | .updateSecret key _ => F.secrets key
  | .patchSecret key _ _ => F.secrets key
  | .mkdirAll path => F.files path.root
  | .stat path => F.files path.root
  | .readFile path => F.files path.root
  | .writeFile path _ => F.files path.root
  | .writeIso path _ _ => F.files path.root
  | .purge which => ∀ path, which path = true → F.files path.root
  | .removeAll path => F.files path.root
  | .loadDir path => F.files path.root
  | _ => True

/-- A call that stays inside the footprint and edits as the operator does. -/
structure Footprint.Call (F : Footprint) (op : Op B) : Prop where
  inside : F.Inside op
  tame : op.Tame

/-- Passes that work for the object of a footprint. -/
abbrev Footprint.Pass (F : Footprint) : Contract (Op B) Resp (Calls B) :=
  .logged F.Told fun _ op => F.Call op

variable {F : Footprint} {α : Type} {ici : ImageClusterInstall} {l : Calls B}

theorem local_of_uses {p : Program B α} (h : p.Uses F.Call) :
    Meets F.Pass p (fun _ _ => True) l :=
  logged_of_uses (h.mono fun _ hop _ => hop) (fun _ _ _ => trivial) trivial

theorem tries_local_of_uses {x : Act B α} (h : x.run.Uses F.Call) :
    Tries F.Pass x (fun _ _ => True) (fun _ _ => True) l :=
  (local_of_uses h).mono fun r _ _ => by cases r <;> trivial

/-! ## Edits of the object -/

namespace Footprint.Admits

/-- An edit that leaves the references alone. -/
theorem edit {new : ImageClusterInstall} (h : F.Admits ici) (huid : new.uid = ici.uid)
    (hspec : new.spec = ici.spec)
    (hhost : new.status.bareMetalHostRef = ici.status.bareMetalHostRef) : F.Admits new where
  dir := huid ▸ h.dir
  cd := hspec ▸ h.cd
  host := hspec ▸ h.host
  bootedHost := hhost ▸ h.bootedHost
  caBundle := hspec ▸ h.caBundle
  manifests := hspec ▸ h.manifests
  metadata := hspec ▸ h.metadata

theorem bootedAt (h : F.Admits ici) (t : Time) : F.Admits (ici.bootedAt t) :=
  { h with bootedHost := h.host }

/-- The metadata names identity secrets of the cluster deployment. -/
theorem withMetadata (h : F.Admits ici) {name : String} (hcd : F.cds name)
    (clusterID infraID : String) :
    F.Admits { ici with spec := { ici.spec with clusterMetadata := some {
      clusterID, infraID
      adminKubeconfigSecretRef := kubeconfigSecretName name
      adminPasswordSecretRef := some (kubeadminPasswordSecretName name) } } } := by
  have hkubeconfig := F.identity name hcd kubeconfigSecret (by simp [identitySecrets])
  have hpassword := F.identity name hcd adminPasswordSecret (by simp [identitySecrets])
  refine { h with metadata := fun m hm => ?_ }
  cases hm
  refine ⟨hkubeconfig, fun name' hname => ?_⟩
  cases hname
  exact hpassword

variable {base new stored : ImageClusterInstall}

/-- Each reference of a merged object is one of the patch or one of the stored object. -/
theorem merge (hnew : F.Admits new) (h : F.Admits stored) : F.Admits (.merge base new stored) where
  dir := h.dir
  cd := mergeField_elim (P := fun o => ∀ name, o = some name → F.cds name) hnew.cd h.cd
  host := mergeField_elim (P := fun o => ∀ host, o = some host → F.hosts host) hnew.host h.host
  bootedHost := h.bootedHost
  caBundle := mergeField_elim
    (P := fun o => ∀ name, o = some name → F.configMaps ⟨F.key.ns, name⟩) hnew.caBundle h.caBundle
  manifests := mergeField_elim
    (P := fun s : Slice String => ∀ name ∈ s.items, F.configMaps ⟨F.key.ns, name⟩) hnew.manifests
    h.manifests
  metadata := mergeField_elim (P := fun o : Option ClusterMetadata => ∀ m, o = some m →
    F.secrets ⟨F.key.ns, m.adminKubeconfigSecretRef⟩ ∧
    ∀ name, m.adminPasswordSecretRef = some name → F.secrets ⟨F.key.ns, name⟩) hnew.metadata
    h.metadata

theorem mergeStatus (hnew : F.Admits new) (h : F.Admits stored) :
    F.Admits (.mergeStatus base new stored) :=
  { h with
    bootedHost := mergeField_elim (P := fun o => ∀ host, o = some host → F.hosts host)
      hnew.bootedHost h.bootedHost }

end Footprint.Admits

/-! ## Reads and labels -/

section Uses

theorem getSecretContent_local (E : Env B) {ref : NamespacedName} (h : F.secrets ref)
    (key : String) : (getSecretContent E ref key).run.Uses F.Call := by
  refine uses_bind (uses_attempt (Prog.uses_perform ⟨h, trivial⟩)) fun r => ?_
  split
  · split <;> trivial
  · trivial

variable {cdName : String} (hcd : F.cds cdName)
include hcd

theorem identity_local {kind : IdentitySecret} (hkind : kind ∈ identitySecrets) :
    F.secrets (kind.key ⟨F.key.ns, cdName⟩) :=
  F.identity cdName hcd kind hkind

theorem seedReconfigSecretClusterIDs_local (E : Env B) :
    (seedReconfigSecretClusterIDs E ⟨F.key.ns, cdName⟩).run.Uses F.Call := by
  refine uses_bind (getSecretContent_local E (identity_local hcd (by simp [identitySecrets])) _)
    fun r => ?_
  split
  · trivial
  · split <;> trivial

theorem clusterIdentitySecrets_local (E : Env B) :
    (clusterIdentitySecrets E ⟨F.key.ns, cdName⟩).run.Uses F.Call := by
  have hread : ∀ kind ∈ identitySecrets, ∀ key,
      (getSecretContent E (kind.key ⟨F.key.ns, cdName⟩) key).run.Uses F.Call :=
    fun kind hkind key => getSecretContent_local E (identity_local hcd hkind) key
  refine uses_bind (hread kubeconfigSecret (by simp [identitySecrets]) _) fun kubeconfig => ?_
  split
  · trivial
  refine uses_bind (hread adminPasswordSecret (by simp [identitySecrets]) _) fun password => ?_
  split
  · trivial
  refine uses_bind (hread seedReconfigurationSecret (by simp [identitySecrets]) _) fun seed => ?_
  split <;> trivial

omit hcd

theorem getValidPullSecret_local (E : Env B) {cd : ClusterDeployment} (h : F.AdmitsCD cd) :
    (getValidPullSecret E cd.pullSecretRef F.key.ns).run.Uses F.Call := by
  unfold getValidPullSecret
  split
  · trivial
  · next name hname =>
    split
    · trivial
    refine uses_bind (uses_wrap (Prog.uses_perform ⟨h name hname, trivial⟩)) fun s => ?_
    split
    · trivial
    · exact uses_bind (uses_wrap (uses_liftExcept _)) fun _ => trivial

theorem getCABundle_local (h : F.Admits ici) :
    (getCABundle ici.spec.caBundleRef F.key.ns : Act B String).run.Uses F.Call := by
  unfold getCABundle
  split
  · trivial
  · next name hname =>
    refine uses_bind (uses_wrap (Prog.uses_perform ⟨h.caBundle name hname, trivial⟩)) fun cm => ?_
    split <;> trivial

theorem nmstateConfig_local (E : Env B) {host : NamespacedName} {bmh : BareMetalHost}
    (h : F.AdmitsHost host bmh) : (nmstateConfig E host bmh).run.Uses F.Call := by
  unfold nmstateConfig
  split
  · trivial
  · next hname =>
    refine uses_bind (uses_wrap (Prog.uses_perform ⟨h hname, trivial⟩)) fun secret => ?_
    split
    · trivial
    · split <;> trivial

theorem imageSetRegistry_local (E : Env B) (s : Spec) : (imageSetRegistry E s).run.Uses F.Call :=
  uses_bind (uses_wrap (Prog.uses_perform ⟨trivial, trivial⟩)) fun _ => uses_liftExcept _

theorem setBackupLabel_some {labels labels' : String → Option String}
    (h : setBackupLabel labels = some labels') :
    labels' = Function.update labels backupLabel (some "true") := by
  unfold setBackupLabel at h
  split at h
  · cases h
  · exact (Option.some.inj h).symm

theorem labelConfigMapForBackup_local {key : NamespacedName} (h : F.configMaps key) :
    (labelConfigMapForBackup key : Act B Unit).run.Uses F.Call := by
  refine uses_bind (Prog.uses_perform ⟨h, trivial⟩) fun cm => ?_
  split
  · trivial
  · next labels hlabels =>
    refine uses_bind (Prog.uses_perform ⟨h, ?_⟩) fun _ => trivial
    rw [setBackupLabel_some hlabels]
    exact rfl

theorem labelSecretForBackup_local {key : NamespacedName} (h : F.secrets key) :
    (labelSecretForBackup key : Act B Unit).run.Uses F.Call := by
  refine uses_bind (Prog.uses_perform ⟨h, trivial⟩) fun secret => ?_
  split
  · trivial
  · next labels hlabels =>
    refine uses_bind (Prog.uses_perform ⟨h, ?_⟩) fun _ => trivial
    rw [setBackupLabel_some hlabels]
    exact rfl

theorem labelBMHForBackup_local {host : NamespacedName} (h : F.hosts host) :
    (labelBMHForBackup host : Act B Unit).run.Uses F.Call := by
  refine uses_bind (Prog.uses_perform ⟨h, trivial⟩) fun bmh => ?_
  split
  · trivial
  · next labels hlabels =>
    refine uses_bind (Prog.uses_perform ⟨h, ?_⟩) fun _ => trivial
    rw [setBackupLabel_some hlabels]
    exact HostEdit.labelled

/-- What the cluster deployment that a pass has fetched refers to. -/
def Footprint.AdmitsFetched (F : Footprint) (cd : Option (NamespacedName × ClusterDeployment)) :
    Prop :=
  ∀ key cd', cd = some (key, cd') → key.ns = F.key.ns ∧ F.cds key.name ∧ F.AdmitsCD cd'

theorem labelReferencedObjectsForBackup_local (h : F.Admits ici)
    {cd : Option (NamespacedName × ClusterDeployment)} (hcd : F.AdmitsFetched cd) :
    (labelReferencedObjectsForBackup F.key.ns ici.spec cd : Program B Unit).Uses F.Call := by
  refine uses_forM' _ fun target ht => uses_ignore ?_
  simp only [backupTargets, List.mem_append, List.mem_map, List.mem_flatMap, List.mem_cons,
    Option.mem_toList, Prod.exists] at ht
  rcases ht with (((⟨name, hname, rfl⟩ | ⟨name, hname, rfl⟩) | ⟨key, cd', hkey, ht⟩) |
    ⟨host, hhost, rfl⟩) | ⟨m, hm, ht⟩
  · exact labelConfigMapForBackup_local (h.caBundle name hname)
  · exact labelConfigMapForBackup_local (h.manifests name hname)
  · obtain ⟨hns, hname, hpull⟩ := hcd key cd' hkey
    rcases ht with rfl | ⟨name, hpullName, rfl⟩
    · refine labelSecretForBackup_local ?_
      have hseed : F.secrets (seedReconfigurationSecret.key ⟨F.key.ns, key.name⟩) :=
        identity_local hname (by simp [identitySecrets])
      rwa [← hns] at hseed
    · exact labelSecretForBackup_local (hns ▸ hpull name hpullName)
  · exact labelBMHForBackup_local (h.host host hhost)
  · rcases ht with rfl | ⟨name, hname, rfl⟩
    · exact labelSecretForBackup_local (h.metadata m hm).1
    · exact labelSecretForBackup_local ((h.metadata m hm).2 name hname)

end Uses

/-! ## Files -/

section Files

variable (E : Env B) {dir : Path} (hdir : F.files dir.root)
include hdir

theorem lockForDir_local : (lockForDir E dir).run.Uses F.Call := by
  refine uses_bind (uses_attempt (Prog.uses_perform ⟨hdir, trivial⟩)) fun r => ?_
  split
  · exact Prog.uses_perform ⟨trivial, trivial⟩
  · split
    · trivial
    · exact uses_bind (Prog.uses_perform ⟨hdir, trivial⟩) fun _ =>
        Prog.uses_perform ⟨trivial, trivial⟩

theorem verifyIsoAndAuthExists_local :
    (verifyIsoAndAuthExists dir : Program B Bool).Uses F.Call := by
  refine uses_allM _ fun file => ?_
  exact (Prog.uses_perform ⟨hdir, trivial⟩).bind fun r => by cases r <;> trivial

omit hdir in
theorem removeConfigDir_local {ns uid : String} (h : F.files (.data ns uid)) :
    (removeConfigDir E ns uid).run.Uses F.Call := by
  -- past the creation of the directories, whose paths the rest needs
  refine ⟨⟨h, trivial⟩, fun r => ?_⟩
  cases r with
  | error e => trivial
  | ok _ =>
    have hlock : F.files (lockDirOf ns uid).root := h
    refine uses_bind (uses_attempt (Prog.uses_perform ⟨hlock, trivial⟩)) fun r => ?_
    split
    · split <;> trivial
    refine uses_bind (uses_lift ((lockForDir_local E hlock).bind fun r => ?_)) fun r => ?_
    · split
      · trivial
      · trivial
      · exact (Prog.uses_perform ⟨hlock, trivial⟩).bind fun _ => trivial
    · split <;> trivial

theorem generateExtraManifests_local (h : F.Admits ici) :
    (generateExtraManifests E dir F.key.ns ici.spec).run.Uses F.Call := by
  refine uses_bind (Prog.uses_perform ⟨hdir, trivial⟩) fun _ => ?_
  refine uses_bind (uses_wrap (Prog.uses_perform ⟨hdir, trivial⟩)) fun _ => ?_
  refine uses_bind (uses_wrap (Prog.uses_perform ⟨hdir, trivial⟩)) fun _ => ?_
  refine uses_forM _ fun name hname => ?_
  refine uses_bind (uses_wrap (Prog.uses_perform ⟨h.manifests name hname, trivial⟩)) fun cm => ?_
  refine uses_forM _ fun entry _ => ?_
  unfold writeManifest
  split
  · trivial
  · exact uses_wrap (Prog.uses_perform ⟨hdir, trivial⟩)

theorem consumed_local (path : Path) (h : Installer.consumed dir path = true) :
    F.files path.root := by
  simp only [Installer.consumed, Path.within, Bool.or_eq_true, beq_iff_eq, Bool.and_eq_true,
    decide_eq_true_eq] at h
  rcases h with ((rfl | rfl) | rfl) | ⟨⟨hroot, -⟩, -⟩
  · exact hdir
  · exact hdir
  · exact hdir
  · exact hroot ▸ hdir

theorem saveStateFile_local (draw : Draw) : (Installer.saveStateFile E dir draw).run.Uses F.Call :=
  Prog.uses_perform ⟨hdir, trivial⟩

theorem saveAndPurge_local (draw : Draw) :
    (do Installer.saveStateFile E dir draw; purge (Installer.consumed dir) : Act B Unit).run.Uses
      F.Call :=
  uses_bind (saveStateFile_local E hdir draw) fun _ =>
    Prog.uses_perform ⟨consumed_local hdir, trivial⟩

omit E in
theorem persistToFile_local (elems : List String) (content : B) :
    (Installer.persistToFile (dir.join elems) content).run.Uses F.Call :=
  uses_bind (Prog.uses_perform ⟨hdir, trivial⟩) fun _ => Prog.uses_perform ⟨hdir, trivial⟩

omit E in
theorem writeAuth_local (elems : List String) (data : B) :
    (Installer.writeAuth (dir.join elems) data).run.Uses F.Call :=
  uses_bind (uses_wrap (Prog.uses_perform ⟨hdir, trivial⟩)) fun _ =>
    uses_wrap (Prog.uses_perform ⟨hdir, trivial⟩)

theorem createInstallationIso_local (s : Spec) :
    (Installer.createInstallationIso E s dir).run.Uses F.Call := by
  refine uses_bind (Prog.uses_perform ⟨hdir, trivial⟩) fun snap => ?_
  refine uses_bind (uses_lift (Prog.uses_perform ⟨trivial, trivial⟩)) fun draw => ?_
  refine uses_bind (uses_liftExcept _) fun fetched => ?_
  refine uses_bind (fetchAndPersist_uses (saveAndPurge_local E hdir draw)
    (Prog.uses_perform ⟨hdir, trivial⟩)) fun _ => ?_
  refine uses_bind (uses_liftExcept _) fun kubeconfig => ?_
  have hsave := saveStateFile_local E hdir draw
  refine uses_bind (fetchAndPersist_uses hsave (persistToFile_local hdir _ _)) fun _ => ?_
  refine uses_bind (fetchAndPersist_uses hsave (persistToFile_local hdir _ _)) fun _ => ?_
  exact fetchAndPersist_uses hsave (persistToFile_local hdir _ _)

theorem getBaseAssets_local : (Installer.getBaseAssets E dir).run.Uses F.Call := by
  refine uses_bind (uses_wrap (Prog.uses_perform ⟨hdir, trivial⟩)) fun snap => ?_
  refine uses_bind (uses_lift (Prog.uses_perform ⟨trivial, trivial⟩)) fun draw => ?_
  refine uses_bind (uses_wrap (uses_liftExcept _)) fun fetched => ?_
  refine uses_bind (uses_wrap (saveAndPurge_local E hdir draw)) fun _ => ?_
  refine uses_bind (uses_wrap (uses_liftExcept _)) fun _ => ?_
  refine uses_bind (uses_wrap (saveStateFile_local E hdir draw)) fun _ => ?_
  exact uses_bind (uses_wrap (saveStateFile_local E hdir draw)) fun _ => trivial

theorem writeReinstallData_local {tmp : Path} (htmp : F.files tmp.root) (idData : IdentityData B) :
    (Installer.writeReinstallData E tmp dir idData).run.Uses F.Call := by
  refine uses_bind (getBaseAssets_local E htmp) fun config => ?_
  split
  · trivial
  refine uses_bind (uses_wrap (uses_liftExcept _)) fun _ => ?_
  refine uses_bind ?_ fun _ => uses_bind (writeAuth_local hdir _ _)
    fun _ => writeAuth_local hdir _ _
  exact uses_bind (uses_wrap (Prog.uses_perform ⟨hdir, trivial⟩)) fun _ =>
    uses_wrap (Prog.uses_perform ⟨hdir, trivial⟩)

end Files

/-! ## The build -/

section Build

variable [DecidableEq B] (E : Env B)

/-- The input of a build for the object of the footprint. -/
structure Footprint.AdmitsInput (F : Footprint) (inp : BuildInput) : Prop where
  ns : inp.ns = F.key.ns
  object : ∃ ici, F.Admits ici ∧ inp.spec = ici.spec
  cdKey : inp.cdKey = ⟨F.key.ns, inp.cdKey.name⟩
  cd : F.cds inp.cdKey.name
  pull : F.AdmitsCD inp.cd
  host : F.AdmitsHost inp.bmhKey inp.bmh

theorem ensureSecret_local {cdName : String} (hcd : F.cds cdName) {kind : IdentitySecret}
    (hkind : kind ∈ identitySecrets) (cdUID : String) {file : Path} (hfile : F.files file.root) :
    (ensureSecret E kind ⟨F.key.ns, cdName⟩ cdUID file).run.Uses F.Call := by
  have hkey := identity_local hcd hkind
  refine uses_bind (uses_wrap (Prog.uses_perform ⟨hfile, trivial⟩)) fun content => ?_
  refine uses_bind ?_ fun valid => ?_
  · refine uses_bind (uses_attempt (Prog.uses_perform ⟨hkey, trivial⟩)) fun r => ?_
    split
    · split <;> trivial
    · trivial
  split
  · trivial
  refine uses_wrap (uses_bind (uses_attempt (Prog.uses_perform ⟨hkey, trivial⟩)) fun r => ?_)
  split
  · split
    · trivial
    · exact uses_wrap (Prog.uses_perform ⟨hkey, trivial⟩)
  · split
    · trivial
    · exact uses_wrap (Prog.uses_perform ⟨hkey, trivial⟩)

variable {inp : BuildInput} (hinp : F.AdmitsInput inp)
include hinp

theorem ensureCreds_local {dir : Path} (hdir : F.files dir.root) :
    (ensureCreds E inp.cdKey inp.cd.uid dir).run.Uses F.Call := by
  have hsecret : ∀ kind ∈ identitySecrets, ∀ elems,
      (ensureSecret E kind inp.cdKey inp.cd.uid (dir.join elems)).run.Uses F.Call := by
    intro kind hkind elems
    rw [hinp.cdKey]
    exact ensureSecret_local E hinp.cd hkind _ hdir
  refine uses_bind (uses_wrap (hsecret adminPasswordSecret (by simp [identitySecrets]) _))
    fun _ => ?_
  refine uses_bind (uses_wrap (hsecret kubeconfigSecret (by simp [identitySecrets]) _)) fun _ => ?_
  exact uses_wrap (hsecret seedReconfigurationSecret (by simp [identitySecrets]) _)

omit [DecidableEq B] in
theorem writeConfigFiles_local (psData caBundle : String) {dir : Path} (hdir : F.files dir.root) :
    (writeConfigFiles E inp psData caBundle dir).run.Uses F.Call := by
  refine uses_bind (uses_wrap ?_) fun _ => uses_wrap ?_
  · unfold Installer.writeInstallConfig
    refine uses_bind (uses_liftExcept _) fun nets => ?_
    exact uses_wrap (Prog.uses_perform ⟨hdir, trivial⟩)
  · refine uses_bind (nmstateConfig_local E hinp.host) fun nmstate => ?_
    refine uses_bind (imageSetRegistry_local E _) fun registry => ?_
    refine uses_bind (uses_liftExcept _) fun config => ?_
    split
    · trivial
    · exact uses_wrap (Prog.uses_perform ⟨hdir, trivial⟩)

theorem finishBuild_local {dir : Path} (hdir : F.files dir.root) :
    (finishBuild E inp dir).run.Uses F.Call :=
  uses_bind (uses_wrap (createInstallationIso_local E hdir _)) fun _ =>
    ensureCreds_local E hinp hdir

theorem reinstall_local (psData caBundle : String) (idData : IdentityData B) {tmp dir : Path}
    (htmp : F.files tmp.root) (hdir : F.files dir.root) :
    (deferRemoveAll tmp (reinstall E inp psData caBundle idData tmp dir)).run.Uses F.Call := by
  refine uses_bind (uses_attempt ?_) fun _ =>
    uses_bind (uses_attempt (Prog.uses_perform ⟨htmp, trivial⟩)) fun _ => uses_liftExcept _
  refine uses_bind (writeConfigFiles_local E hinp _ _ htmp) fun _ => ?_
  exact uses_bind (uses_wrap (writeReinstallData_local E hdir htmp _)) fun _ =>
    finishBuild_local E hinp hdir

/-- A build. Its temp directory is the one it was given. -/
theorem rebuild_local {dir : Path} (hdir : F.files dir.root) :
    Tries F.Pass (rebuild E inp dir) (fun _ _ => True) (fun _ _ => True) l := by
  obtain ⟨ici, hici, hspec⟩ := hinp.object
  refine Tries.seq (tries_local_of_uses (uses_attempt (Prog.uses_perform ⟨hdir, trivial⟩)))
    fun _ l₁ _ => ?_
  refine Tries.seq (tries_local_of_uses (Prog.uses_perform ⟨hdir, trivial⟩)) fun _ l₂ _ => ?_
  refine Tries.seq (tries_local_of_uses (uses_wrap ?_)) fun psData l₃ _ => ?_
  · rw [hinp.cdKey]
    exact getValidPullSecret_local E hinp.pull
  refine Tries.seq (tries_local_of_uses (uses_wrap ?_)) fun caBundle l₄ _ => ?_
  · rw [hspec, hinp.ns]
    exact getCABundle_local hici
  refine Tries.seq (tries_local_of_uses (uses_wrap ?_)) fun _ l₅ _ => ?_
  · rw [hspec, hinp.ns]
    exact generateExtraManifests_local E hdir hici
  refine Tries.seq (tries_local_of_uses (uses_wrap ?_)) fun idData l₆ _ => ?_
  · rw [hinp.cdKey]
    exact clusterIdentitySecrets_local hinp.cd E
  cases idData with
  | none =>
    exact tries_local_of_uses (uses_bind (writeConfigFiles_local E hinp _ _ hdir) fun _ =>
      finishBuild_local E hinp hdir)
  | some idData =>
    refine Tries.bind (Tries.adapt (logged_perform fun r hr => ⟨⟨trivial, trivial⟩, ?_⟩))
    cases r with
    | error e => trivial
    | ok tmp => exact tries_local_of_uses (reinstall_local E hinp _ _ _ hr hdir)

theorem writeInputData_local {uid : String} (hdir : F.files (.data F.key.ns uid)) :
    Meets F.Pass (writeInputData E inp uid).run (fun _ _ => True) l := by
  have hroot : F.files (lockDirOf inp.ns uid).root := hinp.ns ▸ hdir
  have hbuild : ∀ l, Meets F.Pass (buildImage E inp
      (((lockDirOf inp.ns uid).join [filesDir]).join [clusterConfigDir])).run
        (fun _ _ => True) l := by
    intro l
    refine Meets.mono (Q := Outcome (fun _ _ => True) fun _ _ => True) ?_ fun _ _ _ => trivial
    refine Tries.seq (tries_local_of_uses (uses_lift (verifyIsoAndAuthExists_local hroot)))
      fun found l₁ _ => ?_
    split
    · exact tries_local_of_uses (ensureCreds_local E hinp hroot)
    · exact rebuild_local E hinp hroot
  refine Meets.mono (Q := Outcome (fun _ _ => True) fun _ _ => True) ?_ fun _ _ _ => trivial
  refine Tries.seq (Q := fun r _ => r =
    (lockDirOf inp.ns uid, (lockDirOf inp.ns uid).join [filesDir])) ?_ ?_
  · refine Tries.bind (logged_perform fun r _ => ⟨⟨hroot, trivial⟩, ?_⟩)
    cases r with
    | error e => trivial
    | ok _ => exact logged_ret.2 rfl
  rintro _ l₁ rfl
  refine Tries.seq (Q := fun _ _ => True) (Tries.lift ?_) fun locked l₂ _ => ?_
  · refine Meets.seq (local_of_uses (lockForDir_local E hroot)) fun r l₂ _ => ?_
    split
    · exact logged_ret.2 trivial
    · exact logged_ret.2 trivial
    · exact Meets.seq (hbuild l₂) fun _ _ _ => logged_ret.2 trivial
  · split <;> exact logged_ret.2 trivial

end Build

end ImageBasedInstall

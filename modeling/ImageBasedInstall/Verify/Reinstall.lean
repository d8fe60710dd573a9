import ImageBasedInstall.Installer.Symbolic
import ImageBasedInstall.Verify.Files

/-!
# What travels to a reinstalled cluster

A reinstall writes three files: the new configuration with the stored crypto, and the stored
credentials. Nothing is written before the stored configuration has been found to belong to the same
cluster, and what is written is a fixpoint.

Image digest mirrors travel through the install config, which has no place for the operator's source
policy.
-/

namespace ImageBasedInstall

open Interactive Installer

variable {B : Type}

/-! ## Image digest mirrors -/

/-- The source policy is lost, everything else survives. -/
theorem convertImageDigestMirrorSet_convertIDMToIDS (l : List ImageDigestMirrors) :
    convertImageDigestMirrorSet (convertIDMToIDS l) =
      l.map fun idm => { idm with mirrorSourcePolicy := "" } := by
  simp [convertImageDigestMirrorSet, convertIDMToIDS]

theorem roundTrip_iff (l : List ImageDigestMirrors) :
    convertImageDigestMirrorSet (convertIDMToIDS l) = l ↔
      ∀ idm ∈ l, idm.mirrorSourcePolicy = "" := by
  rw [convertImageDigestMirrorSet_convertIDMToIDS]
  constructor
  · intro h idm hidm
    rw [← h] at hidm
    obtain ⟨idm', -, rfl⟩ := List.mem_map.1 hidm
    rfl
  · intro h
    have hsame : ∀ idm ∈ l, ({ idm with mirrorSourcePolicy := "" } : ImageDigestMirrors) = idm := by
      intro idm hidm
      rw [← h idm hidm]
    rw [List.map_congr_left hsame, List.map_id']

/-- The mirrors of a spec, from its install config. -/
theorem items_of_installConfig (s : Spec) (cd : ClusterDeployment) (psData caBundle : String)
    (nets : List String) :
    (installConfig s cd psData caBundle nets).reloaded.imageDigestSources.items =
      convertIDMToIDS s.imageDigestSources.items := by
  cases hs : s.imageDigestSources with
  | none => simp [InstallConfig.reloaded, installConfig, Slice.items, hs, convertIDMToIDS]
  | some l =>
    cases l with
    | nil => simp [InstallConfig.reloaded, installConfig, Slice.items, hs, convertIDMToIDS,
        Option.filter]
    | cons idm l =>
      simp [InstallConfig.reloaded, installConfig, Slice.items, hs, convertIDMToIDS, Option.filter]

/-- Mirrors survive the trip through the install config exactly if none has a source policy; install
configs that are written alike then come from the same mirrors. -/
theorem mirrors_survive_iff (E : Env B) (hE : E.Lawful) :
    (∀ l, convertImageDigestMirrorSet (convertIDMToIDS l) = l ↔
      ∀ idm ∈ l, idm.mirrorSourcePolicy = "") ∧
    ∀ s s' cd cd' psData psData' caBundle caBundle' nets nets',
      (∀ idm ∈ s.imageDigestSources.items ++ s'.imageDigestSources.items,
        idm.mirrorSourcePolicy = "") →
      E.marshalInstallConfig (installConfig s cd psData caBundle nets) =
        E.marshalInstallConfig (installConfig s' cd' psData' caBundle' nets') →
      s.imageDigestSources.items = s'.imageDigestSources.items := by
  refine ⟨roundTrip_iff, ?_⟩
  intro s s' cd cd' psData psData' caBundle caBundle' nets nets' hpolicy hmarshal
  have hconfig := congrArg E.unmarshalInstallConfig hmarshal
  rw [hE.unmarshalInstallConfig_marshalInstallConfig,
    hE.unmarshalInstallConfig_marshalInstallConfig] at hconfig
  have hitems := congrArg (fun ic => convertImageDigestMirrorSet ic.imageDigestSources.items)
    (Option.some.inj hconfig)
  simp only [items_of_installConfig] at hitems
  have h : ∀ idm ∈ s.imageDigestSources.items, idm.mirrorSourcePolicy = "" := fun idm hidm =>
    hpolicy idm (List.mem_append_left _ hidm)
  have h' : ∀ idm ∈ s'.imageDigestSources.items, idm.mirrorSourcePolicy = "" := fun idm hidm =>
    hpolicy idm (List.mem_append_right _ hidm)
  rwa [(roundTrip_iff _).2 h, (roundTrip_iff _).2 h'] at hitems

theorem mirrors_survive_sample :
    convertImageDigestMirrorSet (convertIDMToIDS [⟨"quay.io", ["mirror:5000"], ""⟩]) =
      [⟨"quay.io", ["mirror:5000"], ""⟩] :=
  ((mirrors_survive_iff Env.symbolic Env.symbolic_lawful).1 _).2 (by decide)

/-- A spec that forbids to contact the source, and one that does not. -/
def neverContact : List ImageDigestMirrors := [⟨"quay.io", ["mirror:5000"], "NeverContactSource"⟩]
def mayContact : List ImageDigestMirrors := [⟨"quay.io", ["mirror:5000"], ""⟩]

/-- The policy is lost, and the install configs of the two specs are the same. -/
theorem sourcePolicy_lost :
    convertImageDigestMirrorSet (convertIDMToIDS neverContact) ≠ neverContact ∧
    neverContact ≠ mayContact ∧
    ∀ (s : Spec) (cd : ClusterDeployment) (psData caBundle : String) (nets : List String),
      installConfig { s with imageDigestSources := some neverContact } cd psData caBundle nets =
        installConfig { s with imageDigestSources := some mayContact } cd psData caBundle nets :=
  ⟨by decide, by decide, fun _ _ _ _ _ => rfl⟩

/-! ## Reinstall data -/

section ReinstallData

variable {E : Env B} {tmp iso q : Path} {idData : IdentityData B} {cs : List (Choice B)}
  {w w' : World B}

/-- The calls that generate the new configuration. -/
inductive InTemp (tmp : Path) : Op B → Prop where
  | read {op : Op B} (h : op.target = .nothing) : InTemp tmp op
  | state {b : B} : InTemp tmp (.writeFile (tmp.join [stateFileName]) b)
  | purge : InTemp tmp (.purge (consumed tmp))

theorem getBaseAssets_inTemp (E : Env B) (tmp : Path) :
    (getBaseAssets E tmp).run.Uses (InTemp tmp) := by
  have hsave : ∀ draw, (saveStateFile E tmp draw).run.Uses (InTemp tmp) := fun draw =>
    Prog.uses_perform .state
  refine uses_bind (uses_wrap (Prog.uses_perform (.read rfl))) fun snap => ?_
  refine uses_bind (uses_lift (Prog.uses_perform (.read rfl))) fun draw => ?_
  refine uses_bind (uses_wrap (uses_liftExcept _)) fun fetched => ?_
  refine uses_bind (uses_wrap (uses_bind (hsave draw) fun _ => Prog.uses_perform .purge))
    fun _ => ?_
  refine uses_bind (uses_wrap (uses_liftExcept _)) fun _ => ?_
  refine uses_bind (uses_wrap (hsave draw)) fun _ => ?_
  exact uses_bind (uses_wrap (hsave draw)) fun _ => trivial

theorem consumed_root (h : consumed tmp q = true) : q.root = tmp.root := by
  simp only [consumed, Bool.or_eq_true, Bool.and_eq_true, beq_iff_eq, Path.within,
    decide_eq_true_eq] at h
  rcases h with ((rfl | rfl) | rfl) | ⟨⟨h, -⟩, -⟩
  · rfl
  · rfl
  · rfl
  · exact h

/-- They leave everything outside the temp directory as it is. -/
theorem InTemp.fs {op : Op B} {c : Choice B} {r : Resp op} (h : InTemp tmp op)
    (hc : answer op c w = (r, w')) (hq : q.root ≠ tmp.root) : w'.fs q = w.fs q := by
  have hset : ∀ e : Entry B, (w.setEntry (tmp.join [stateFileName]) (some e)).fs q = w.fs q := by
    intro e
    refine Function.update_of_ne ?_ ..
    rintro rfl
    exact hq rfl
  have hprune : ∀ kept, (w.prune (consumed tmp) kept).fs q = w.fs q := by
    intro kept
    have hfalse : consumed tmp q = false := by
      rw [← Bool.not_eq_true]
      exact fun h => hq (consumed_root h)
    simp [World.prune, hfalse]
  cases h with
  | read htarget => rw [(answer_framed hc).fs (by simp [htarget]) (by simp [htarget])]
  | state =>
    obtain ⟨-, rfl⟩ | ⟨_, -, rfl | ⟨_, rfl⟩⟩ := answer_writeFile hc
    · exact hset _
    · rfl
    · exact hset _
  | purge =>
    obtain ⟨-, rfl⟩ | ⟨e, kept, -, rfl⟩ := Choice.removal_eq hc
    · exact hprune _
    · exact hprune _

/-- The transition changes something in a directory. -/
def ChangesIn (dir : Path) (t : Transition (Op B) Resp (World B) (Choice B)) : Prop :=
  ∃ q : Path, q.within dir = true ∧ t.after.fs q ≠ t.before.fs q

theorem getBaseAssets_changes {t : Transition (Op B) Resp (World B) (Choice B)}
    (hdirs : tmp.root ≠ iso.root) (ht : t ∈ (getBaseAssets E tmp).run.trace answer cs w) :
    ¬ChangesIn iso t := by
  have hmeets : Meets (Atomic (fun _ _ _ _ => True) fun w w' : World B =>
      ∀ q : Path, q.root ≠ tmp.root → w'.fs q = w.fs q) (getBaseAssets E tmp).run
        (fun _ _ => True) w := by
    refine Meets.of_uses (I := fun _ => True) (getBaseAssets_inTemp E tmp) (fun _ _ _ _ => trivial)
      ?_ trivial
    rintro op w₁ r w₂ hop - ⟨⟨c, hc⟩, -⟩
    exact ⟨fun q hq => hop.fs hc hq, trivial⟩
  rintro ⟨q, hq, hchange⟩
  have hroot : q.root = iso.root := by
    simp only [Path.within, Bool.and_eq_true, decide_eq_true_eq] at hq
    exact hq.1
  exact hchange (hmeets.trace cs (traceOk_true cs) t ht q (hroot ▸ hdirs.symm))

theorem validateReinstallConfig_ok {new secret : SeedReconfiguration} :
    validateReinstallConfig new secret = .ok () ↔
      new.baseDomain = secret.baseDomain ∧ new.clusterName = secret.clusterName := by
  unfold validateReinstallConfig
  by_cases hdomain : new.baseDomain = secret.baseDomain
  · by_cases hname : new.clusterName = secret.clusterName
    · simp [hdomain, hname]
    · simp [hdomain, hname]
  · simp [hdomain]

/-- The three files of a reinstall. -/
structure ReinstallFiles (iso : Path) (manifest kubeconfig password : B) (w : World B) : Prop where
  manifest : w.fs (iso.join manifestPath) = some (.file manifest)
  kubeconfig : w.fs (iso.join kubeconfigPath) = some (.file kubeconfig)
  password : w.fs (iso.join kubeadminPasswordPath) = some (.file password)

/-- `writeReinstallData` once the new configuration is generated. -/
def writeMerged (E : Env B) (iso : Path) (idData : IdentityData B) (new : SeedReconfiguration) :
    Act B Unit :=
  match E.unmarshalSeed idData.seedReconfig with
  | none => throw (.mk "failed to decode local seed reconfiguration")
  | some secret => do
    (liftExcept (validateReinstallConfig new secret)).wrap
      "cluster configuration is not valid for reinstall"
    writeSeedReconfig E iso (mergeIdentity new secret)
    writeAuth (iso.join kubeconfigPath) idData.kubeconfig
    writeAuth (iso.join kubeadminPasswordPath) idData.kubeadminPassword

theorem writeReinstallData_eq (E : Env B) (tmp iso : Path) (idData : IdentityData B) :
    writeReinstallData E tmp iso idData = getBaseAssets E tmp >>= writeMerged E iso idData := rfl

/-- The stored configuration can be decoded and is of the same cluster. -/
structure Compatible (E : Env B) (idData : IdentityData B) (new secret : SeedReconfiguration) :
    Prop where
  decodes : E.unmarshalSeed idData.seedReconfig = some secret
  baseDomain : new.baseDomain = secret.baseDomain
  clusterName : new.clusterName = secret.clusterName

section Merged

variable {new secret : SeedReconfiguration}

/-- Nothing is done before the check. -/
theorem writeMerged_compatible {t : Transition (Op B) Resp (World B) (Choice B)}
    (ht : t ∈ (writeMerged E iso idData new).run.trace answer cs w) :
    ∃ secret, Compatible E idData new secret := by
  unfold writeMerged at ht
  cases hdecode : E.unmarshalSeed idData.seedReconfig with
  | none =>
    rw [hdecode] at ht
    have hnil : t ∈ ([] : List (Transition (Op B) Resp (World B) (Choice B))) :=
      trace_ret answer _ cs w ▸ ht
    cases hnil
  | some secret =>
    rw [hdecode] at ht
    dsimp only at ht
    cases hvalid : validateReinstallConfig new secret with
    | error e =>
      rw [hvalid] at ht
      have hnil : t ∈ ([] : List (Transition (Op B) Resp (World B) (Choice B))) :=
        trace_ret answer _ cs w ▸ ht
      cases hnil
    | ok u =>
      obtain ⟨hdomain, hname⟩ := validateReinstallConfig_ok.1 hvalid
      exact ⟨secret, hdecode, hdomain, hname⟩

/-- What is written, and nothing else. -/
theorem writeMerged_content {ok : World B → (op : Op B) → Resp op → World B → Prop} :
    Tries (Alone ok) (writeMerged E iso idData new)
      (fun _ w' => ∃ secret, Compatible E idData new secret ∧
        w'.content = Function.update (Function.update (Function.update w.content
          (iso.join manifestPath) (some (E.marshalSeed (mergeIdentity new secret))))
          (iso.join kubeconfigPath) (some idData.kubeconfig))
          (iso.join kubeadminPasswordPath) (some idData.kubeadminPassword))
            (fun _ _ => True) w := by
  unfold writeMerged
  split
  · exact tries_throw.2 trivial
  next secret hdecode =>
  refine Tries.seq (Q := fun _ w' => w' = w ∧ validateReinstallConfig new secret = .ok ())
    (tries_wrap (tries_liftExcept.2 ?_)) ?_
  · cases hvalid : validateReinstallConfig new secret with
    | error e => trivial
    | ok u => exact ⟨rfl, rfl⟩
  rintro _ _ ⟨rfl, hvalid⟩
  obtain ⟨hdomain, hname⟩ := validateReinstallConfig_ok.1 hvalid
  refine Tries.seq tries_mkdir_write ?_
  rintro _ _ rfl
  refine Tries.seq tries_mkdir_write ?_
  rintro _ _ rfl
  refine Tries.mono tries_mkdir_write ?_ fun _ _ _ => trivial
  rintro _ _ rfl
  exact ⟨secret, ⟨hdecode, hdomain, hname⟩, by simp⟩

theorem writeMerged_files {ok : World B → (op : Op B) → Resp op → World B → Prop} :
    Tries (Alone ok) (writeMerged E iso idData new)
      (fun _ w' => ∃ secret, Compatible E idData new secret ∧
        ReinstallFiles iso (E.marshalSeed (mergeIdentity new secret)) idData.kubeconfig
          idData.kubeadminPassword w') (fun _ _ => True) w := by
  have hpaths : iso.join manifestPath ≠ iso.join kubeconfigPath ∧
      iso.join manifestPath ≠ iso.join kubeadminPasswordPath ∧
      iso.join kubeconfigPath ≠ iso.join kubeadminPasswordPath := by
    simp [Path.join, manifestPath, kubeconfigPath, kubeadminPasswordPath, clusterConfigDir, authDir,
      seedReconfigurationFileName, kubeconfigFile, kubeAdminFile]
  obtain ⟨hmk, hmp, hkp⟩ := hpaths
  refine Tries.mono writeMerged_content ?_ fun _ _ h => h
  rintro _ w' ⟨secret, hcompatible, hcontent⟩
  refine ⟨secret, hcompatible, ?_⟩
  constructor
  · apply World.fs_of_content
    simp [hcontent, Function.update_of_ne hmp, Function.update_of_ne hmk]
  · apply World.fs_of_content
    simp [hcontent, Function.update_of_ne hkp]
  · apply World.fs_of_content
    simp [hcontent]

/-- Directories can be made and files written. -/
def DiskWorks (_ : World B) (op : Op B) (r : Resp op) (_ : World B) : Prop :=
  match op, r with
  | .mkdirAll _, .error _ => False
  | .writeFile .., .error _ => False
  | _, _ => True

theorem tries_mkdir_write_works {dir path : Path} {b : B} {text text' : String} :
    Tries (Alone DiskWorks) (do (mkdirAll dir).wrap text; (writeFile path b).wrap text')
      (fun _ _ => True) (fun _ _ => False) w := by
  refine Tries.seq (Q := fun _ _ => True) (tries_wrap (meets_call fun c r w' hc hok => ?_))
    fun _ w₁ _ => tries_wrap (meets_call fun c r w' hc hok => ?_)
  · refine ⟨trivial, meets_ret.2 ?_⟩
    cases r with
    | ok u => trivial
    | error e => exact hok.elim
  · refine ⟨trivial, meets_ret.2 ?_⟩
    cases r with
    | ok u => trivial
    | error e => exact hok.elim

/-- A compatible configuration is refused by the disk only. -/
theorem writeMerged_works (h : Compatible E idData new secret) :
    Tries (Alone DiskWorks) (writeMerged E iso idData new) (fun _ _ => True)
      (fun _ _ => False) w := by
  unfold writeMerged
  rw [h.decodes]
  refine Tries.seq (Q := fun _ _ => True) (tries_wrap (tries_liftExcept.2 ?_)) fun _ w₁ _ => ?_
  · rw [validateReinstallConfig_ok.2 ⟨h.baseDomain, h.clusterName⟩]
    trivial
  refine Tries.seq tries_mkdir_write_works fun _ w₂ _ => ?_
  refine Tries.seq tries_mkdir_write_works fun _ w₃ _ => ?_
  exact tries_mkdir_write_works

/-- The merged configuration is compatible with the new one. -/
theorem Compatible.again (hE : ∀ s, E.unmarshalSeed (E.marshalSeed s) = some s)
    (new secret : SeedReconfiguration) :
    Compatible E { idData with seedReconfig := E.marshalSeed (mergeIdentity new secret) } new
      (mergeIdentity new secret) where
  decodes := hE _
  baseDomain := rfl
  clusterName := rfl

end Merged

/-- Applied to the new configuration and a manifest, `writeReinstallData` is stopped by the disk
only, and writes that manifest and the stored credentials. -/
def WritesAgain (E : Env B) (iso : Path) (idData : IdentityData B) (manifest : B)
    (new : SeedReconfiguration) : Prop :=
  ∀ tmp cs w r, ((getBaseAssets E tmp).run.exec answer cs w).2 = some (.ok new) →
    ((writeReinstallData E tmp iso { idData with seedReconfig := manifest }).run.exec
      answer cs w).2 = some r →
    (TraceOk answer DiskWorks
      (writeReinstallData E tmp iso { idData with seedReconfig := manifest }).run cs w →
      r = .ok ()) ∧
    (r = .ok () → ReinstallFiles iso manifest idData.kubeconfig idData.kubeadminPassword
      ((writeReinstallData E tmp iso { idData with seedReconfig := manifest }).run.exec
        answer cs w).1)

theorem writesAgain (hE : ∀ s, E.unmarshalSeed (E.marshalSeed s) = some s)
    (new secret : SeedReconfiguration) :
    WritesAgain E iso idData (E.marshalSeed (mergeIdentity new secret)) new := by
  intro tmp cs w r hnew hr
  have hsame : Compatible E { idData with seedReconfig := E.marshalSeed (mergeIdentity new secret) }
      new (mergeIdentity new secret) := .again hE new secret
  -- the second call sees the merged identity as the Secret's
  let again := { idData with seedReconfig := E.marshalSeed (mergeIdentity new secret) }
  obtain ⟨cs₂, hexec, htrace⟩ := exec_bind_of answer (p := (getBaseAssets E tmp).run)
    (f := ExceptT.bindCont (writeMerged E iso again)) hnew
  change (writeReinstallData E tmp iso _).run.exec answer cs w = _ at hexec
  change (writeReinstallData E tmp iso _).run.trace answer cs w = _ at htrace
  rw [hexec] at hr ⊢
  constructor
  · intro hworks
    have hok : TraceOk answer DiskWorks (writeMerged E iso again new).run cs₂
        ((getBaseAssets E tmp).run.exec answer cs w).1 := by
      intro t ht
      refine hworks t ?_
      rw [htrace]
      exact List.mem_append_right _ ht
    have hpost := (writeMerged_works hsame).exec cs₂ hok hr
    cases r with
    | ok u => rfl
    | error e => exact hpost.elim
  · rintro rfl
    have hmeets : Tries (Alone fun _ _ _ _ => True) (writeMerged E iso again new) _ _
        ((getBaseAssets E tmp).run.exec answer cs w).1 := writeMerged_files
    obtain ⟨secret', h, hfiles⟩ := hmeets.exec cs₂ (traceOk_true cs₂) hr
    obtain rfl : mergeIdentity new secret = secret' :=
      Option.some.inj ((hE _).symm.trans h.decodes)
    exact hfiles

/-- The work directory is written to only for a compatible stored configuration. On success it holds
the new configuration with the stored crypto, and the stored credentials; and doing it again changes
nothing. -/
theorem reinstall_merges_identity (E : Env B)
    (hE : ∀ s, E.unmarshalSeed (E.marshalSeed s) = some s) (tmp iso : Path)
    (hdirs : tmp.root ≠ iso.root) (idData : IdentityData B) (cs : List (Choice B)) (w : World B) :
    (∀ t ∈ (writeReinstallData E tmp iso idData).run.trace answer cs w, ChangesIn iso t →
      ∃ new secret, ((getBaseAssets E tmp).run.exec answer cs w).2 = some (.ok new) ∧
        E.unmarshalSeed idData.seedReconfig = some secret ∧
        new.baseDomain = secret.baseDomain ∧ new.clusterName = secret.clusterName) ∧
    ∀ w', (writeReinstallData E tmp iso idData).run.exec answer cs w = (w', some (.ok ())) →
      ∃ new secret manifest, ((getBaseAssets E tmp).run.exec answer cs w).2 = some (.ok new) ∧
        E.unmarshalSeed idData.seedReconfig = some secret ∧
        E.unmarshalSeed manifest = some { new with
          kubeadminPasswordHash := secret.kubeadminPasswordHash
          kubeconfigCryptoRetention := secret.kubeconfigCryptoRetention } ∧
        ReinstallFiles iso manifest idData.kubeconfig idData.kubeadminPassword w' ∧
        WritesAgain E iso idData manifest new := by
  constructor
  · intro t ht hchange
    rw [writeReinstallData_eq] at ht
    rcases mem_trace_bind_ok ht with ht | ⟨cs₁, cs₂, new, w₁, rfl, hbase, ht⟩
    · exact absurd hchange (getBaseAssets_changes hdirs ht)
    · obtain ⟨secret, h⟩ := writeMerged_compatible ht
      have hnew := congrArg Prod.snd (exec_append answer hbase cs₂)
      exact ⟨new, secret, hnew, h.decodes, h.baseDomain, h.clusterName⟩
  · intro w' hexec
    rw [writeReinstallData_eq] at hexec
    obtain ⟨cs₁, cs₂, new, w₁, rfl, hbase, hrest⟩ := exec_bind_ok hexec
    have hnew := congrArg Prod.snd (exec_append answer hbase cs₂)
    have hmeets : Tries (Alone fun _ _ _ _ => True) (writeMerged E iso idData new) _ _ w₁ :=
      writeMerged_files
    obtain ⟨secret, h, hfiles⟩ := hmeets.exec cs₂ (traceOk_true cs₂) (congrArg Prod.snd hrest)
    rw [hrest] at hfiles
    exact ⟨new, secret, _, hnew, h.decodes, hE _, hfiles, writesAgain hE new secret⟩

/-- The seed reconfiguration of a cluster installed before, and its credentials. -/
def sampleSeed : SeedReconfiguration :=
  ⟨1, "example.com", "id", "sno", "", "old-name", "infra", "old hash",
    ⟨"lb", "localhost", "service", "admin", "ingress", "cn"⟩, [], "", "quay.io", "", none, "", ""⟩

def sampleIdentity : IdentityData Doc :=
  ⟨.kubeconfig "sno" sampleSeed.kubeconfigCryptoRetention "key", .text "old password",
    .seed sampleSeed⟩

def sampleTemp : Path := ⟨.temp "asset-generation", []⟩
def sampleIso : Path := ⟨.data "spokes" "8f2c", ["files", clusterConfigDir]⟩

/-- The config files of its reinstallation under another host name. -/
def reinstallWorld : World Doc where
  fs p :=
    if p = sampleTemp.join [installConfigFilename] then
      some (.file (.installConfig ⟨"example.com", "sno", "", "pull", none, "", [], none⟩))
    else if p = sampleTemp.join [imageBasedConfigFilename] then
      some (.file (.imageBasedConfig ⟨"new-name", "quay.io", [], "", "id", "infra"⟩))
    else none

theorem reinstall_merges_identity_sample :
    ∃ (new secret : SeedReconfiguration) (manifest : Doc) (w' : World Doc),
      (writeReinstallData Env.symbolic sampleTemp sampleIso sampleIdentity).run.exec answer
        (List.replicate 20 {}) reinstallWorld = (w', some (.ok ())) ∧
      new.hostname = "new-name" ∧ secret = sampleSeed ∧
      Env.symbolic.unmarshalSeed manifest = some { new with
        kubeadminPasswordHash := secret.kubeadminPasswordHash
        kubeconfigCryptoRetention := secret.kubeconfigCryptoRetention } ∧
      ReinstallFiles sampleIso manifest sampleIdentity.kubeconfig sampleIdentity.kubeadminPassword
        w' := by
  have hok : ((writeReinstallData Env.symbolic sampleTemp sampleIso sampleIdentity).run.exec answer
      (List.replicate 20 {}) reinstallWorld).2 = some (.ok ()) := by decide +kernel
  obtain ⟨new, secret, manifest, hnew, hsecret, hmanifest, hfiles, -⟩ :=
    (reinstall_merges_identity Env.symbolic (fun _ => rfl) sampleTemp sampleIso (by decide)
      sampleIdentity (List.replicate 20 {}) reinstallWorld).2 _ (Prod.ext rfl hok)
  have hhost : ((getBaseAssets Env.symbolic sampleTemp).run.exec answer (List.replicate 20 {})
      reinstallWorld).2.map (Except.map SeedReconfiguration.hostname) =
      some (.ok "new-name") := by decide +kernel
  rw [hnew] at hhost
  exact ⟨new, secret, manifest, _, Prod.ext rfl hok, Except.ok.inj (Option.some.inj hhost),
    (Option.some.inj hsecret).symm, hmanifest, hfiles⟩

end ReinstallData

end ImageBasedInstall

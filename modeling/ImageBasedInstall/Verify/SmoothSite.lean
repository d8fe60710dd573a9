import ImageBasedInstall.Verify.SmoothBuild
import ImageBasedInstall.Verify.Conditions
import ImageBasedInstall.Verify.ClusterIDs

/-!
# An installation that nothing stands in the way of

`Healthy`: the object waits for its installation to start, the host can be booted, and the image is
there or can be built. The steps of a pass that only change labels, annotations, conditions or the
cluster metadata succeed if no call fails, and it stays healthy.
-/

namespace ImageBasedInstall

open Interactive Installer

variable {B : Type} {α : Type}

/-! ## Labels -/

/-- The host without its labels. -/
def BareMetalHost.unlabelled (bmh : BareMetalHost) : BareMetalHost :=
  { bmh with labels := fun _ => none }

/-- Nothing but labels has changed, and not the label by which the cache selects secrets. -/
structure Relabelled (w w' : World B) : Prop where
  framed : Framed [.nothing, .bmh, .secret, .configMap] w w'
  bmhs : ∀ key, (w'.bmhs key).map BareMetalHost.unlabelled =
    (w.bmhs key).map BareMetalHost.unlabelled
  secrets : ∀ key, (w'.secrets key).map (fun s => (s.data, s.isCached)) =
    (w.secrets key).map fun s => (s.data, s.isCached)
  configMaps : ∀ key, (w'.configMaps key).map ConfigMap.data = (w.configMaps key).map ConfigMap.data

section Labels

variable {w w' w'' : World B}

theorem Relabelled.refl (w : World B) : Relabelled w w :=
  ⟨.refl .., fun _ => rfl, fun _ => rfl, fun _ => rfl⟩

theorem Relabelled.trans (h : Relabelled w w') (h' : Relabelled w' w'') : Relabelled w w'' where
  framed := h.framed.trans h'.framed
  bmhs key := (h'.bmhs key).trans (h.bmhs key)
  secrets key := (h'.secrets key).trans (h.secrets key)
  configMaps key := (h'.configMaps key).trans (h.configMaps key)

/-- An entry that is replaced by one that looks the same. -/
theorem map_update_eq {κ β γ : Type} [DecidableEq κ] {f : κ → Option β} {key : κ} {old new : β}
    {g : β → γ} (h : f key = some old) (hg : g new = g old) (k : κ) :
    (Function.update f key (some new) k).map g = (f k).map g := by
  by_cases hk : k = key
  · subst hk
    simp [h, hg]
  · simp [hk]

theorem Relabelled.configMap {key : NamespacedName} {cm : ConfigMap}
    (h : w.configMaps key = some cm) (labels : String → Option String) :
    Relabelled w (w.setConfigMap key { cm with labels }) where
  framed := (Framed.setConfigMap ..).mono (by simp)
  bmhs _ := rfl
  secrets _ := rfl
  configMaps := map_update_eq h rfl

theorem Relabelled.host {key : NamespacedName} {bmh : BareMetalHost} (h : w.bmhs key = some bmh)
    (labels : String → Option String) : Relabelled w (w.setBMH key { bmh with labels }) where
  framed := (Framed.setBMH ..).mono (by simp)
  bmhs := map_update_eq h rfl
  secrets _ := rfl
  configMaps _ := rfl

theorem Relabelled.secret {key : NamespacedName} {s : Secret B} (h : w.secrets key = some s)
    {labels : String → Option String}
    (hl : labels secretResourceLabel = s.labels secretResourceLabel) :
    Relabelled w (w.setSecret key { s with labels }) where
  framed := (Framed.setSecret ..).mono (by simp)
  bmhs _ := rfl
  secrets := map_update_eq h (by simp [Secret.isCached, hl])
  configMaps _ := rfl

end Labels

/-! ## Nothing stands in the way -/

/-- The object waits for its installation to start. -/
structure Unstarted (host : NamespacedName) (cdName : String)
    (ici : ImageClusterInstall) : Prop where
  undeleted : ici.deletionTimestamp = none
  running : installationCompleted ici = false
  settled : iciIsBeingRestored ici = false
  unstarted : ici.status.bootTime = none
  unbooted : ici.status.bareMetalHostRef = none
  cdRef : ici.spec.clusterDeploymentRef = some cdName
  hostRef : ici.spec.bareMetalHostRef = some host
  password : ∀ m, ici.spec.clusterMetadata = some m → m.adminPasswordSecretRef ≠ none

/-- The host passes its validation, and it is managed already or can be booted. -/
structure Installable (E : Env B) (s : Spec) (host : NamespacedName)
    (bmh : BareMetalHost) : Prop where
  valid : ∀ cond, validateBMH E s host bmh cond = (cond, .ok {})
  bootable : annotationExists bmh.annotations ibioManagedBMH = true ∨
    bmh.provisioningState = .available ∨ bmh.provisioningState = .externallyProvisioned

/-- What the pass over an object finds. -/
structure Site (E : Env B) (key host : NamespacedName) (cdName : String) (ici : ImageClusterInstall)
    (cd : ClusterDeployment) (bmh : BareMetalHost) (image : Option DataImage) (w : World B) :
    Prop where
  stored : w.icis key = some ici
  cdStored : w.cds ⟨key.ns, cdName⟩ = some cd
  hostStored : w.bmhs host = some bmh
  unstarted : Unstarted host cdName ici
  installable : Installable E ici.spec host bmh
  /-- With any cluster IDs, the image is there or can be built. -/
  obtainable : ∀ m : ClusterMetadata, m.clusterID ≠ "" → m.infraID ≠ "" →
    Obtainable E ⟨key.ns, { ici.spec with clusterMetadata := some m }, ⟨key.ns, cdName⟩,
      cd, host, bmh⟩ (getClusterConfigDir key.ns ici.uid) w
  shown : Shown ⟨key.ns, cdName⟩ w
  /-- The IDs are set, or a stored manifest they are taken from can be read. -/
  seed : metadataIsCurrent cdName ici.spec.clusterMetadata = .ok true ∨
    ∀ b, w.payload E seedReconfigurationSecret ⟨key.ns, cdName⟩ = some b →
    (E.unmarshalSeed b).isSome
  imageStored : w.dataImages host = image
  imageStays : ∀ d, image = some d → d.deletionTimestamp = none ∧ d.creationTimestamp ≤ w.clock
  /-- An image that is there is the object's own. -/
  imageOwn : ∀ d, image = some d → d.url = imageURL E key.ns ici.uid

section Site

variable {E : Env B} {key host : NamespacedName} {cdName : String} {ici ici' : ImageClusterInstall}
  {cd : ClusterDeployment} {bmh bmh' : BareMetalHost} {image : Option DataImage} {w w' : World B}

theorem Obtainable.congr {inp inp' : BuildInput} {dir : Path} (h : Obtainable E inp dir w)
    (hsame : SameInputs E inp inp' w w') (hfs : w'.fs = w.fs) : Obtainable E inp' dir w' := by
  rcases h with h | ⟨⟨file, hfile, hnone⟩, ic, ibc, hbuildable⟩
  · exact .inl (h.of_fs hfs)
  · exact .inr ⟨⟨file, hfile, hfs ▸ hnone⟩, ic, ibc, hbuildable.congr hsame⟩

/-- Specs that differ in the cluster metadata only. -/
theorem Spec.with_metadata {s s' : Spec} (h : s'.configured = s.configured) (m : ClusterMetadata) :
    { s' with clusterMetadata := some m } = { s with clusterMetadata := some m } := by
  have hm := congrArg (fun t : Spec => { t with clusterMetadata := some m }) h
  exact hm

/-- Apart from objects and hosts, nothing a pass reads has changed. -/
structure SameSupply (w w' : World B) : Prop where
  cds : w'.cds = w.cds
  imageSets : w'.imageSets = w.imageSets
  dataImages : w'.dataImages = w.dataImages
  secrets : ∀ key, (w'.secrets key).map (fun s => (s.data, s.isCached)) =
    (w.secrets key).map fun s => (s.data, s.isCached)
  configMaps : ∀ key, (w'.configMaps key).map ConfigMap.data = (w.configMaps key).map ConfigMap.data
  fs : w'.fs = w.fs
  clock : w.clock ≤ w'.clock

theorem Relabelled.undisturbed (h : Relabelled w w') : SameSupply w w' where
  cds := h.framed.cds
  imageSets := h.framed.imageSets
  dataImages := h.framed.dataImages (by decide)
  secrets := h.secrets
  configMaps := h.configMaps
  fs := h.framed.fs (by decide) (by decide)
  clock := h.framed.clock

theorem SameSupply.setICI (w : World B) (key : NamespacedName) (o : Option ImageClusterInstall) :
    SameSupply w (w.setICI key o) :=
  ⟨rfl, rfl, rfl, fun _ => rfl, fun _ => rfl, rfl, Int.le_refl _⟩

theorem SameSupply.setBMH (w : World B) (key : NamespacedName) (bmh : BareMetalHost) :
    SameSupply w (w.setBMH key bmh) :=
  ⟨rfl, rfl, rfl, fun _ => rfl, fun _ => rfl, rfl, Int.le_refl _⟩

theorem SameSupply.wait (w : World B) (d : Nat) :
    SameSupply w { w with clock := w.clock + d } :=
  ⟨rfl, rfl, rfl, fun _ => rfl, fun _ => rfl, rfl,
    Int.le_add_of_nonneg_right (Int.natCast_nonneg _)⟩

theorem SameSupply.secretText (h : SameSupply w w') (key : NamespacedName) (dataKey : String) :
    w'.secretText E key dataKey = w.secretText E key dataKey := by
  have hdata := congrArg (Option.map Prod.fst) (h.secrets key)
  simp only [Option.map_map, Function.comp_def] at hdata
  have hbind : ∀ o : Option (Secret B), (o.bind fun s => s.get dataKey) =
      (o.map fun s => s.data).bind fun data => data.lookup dataKey := by
    intro o
    cases o <;> rfl
  rw [World.secretText, World.secretText, hbind, hbind, hdata]

theorem SameSupply.payload (h : SameSupply w w') (kind : IdentitySecret) (cd : NamespacedName) :
    w'.payload E kind cd = w.payload E kind cd := by
  have hpayload : ∀ o : Option (Secret B), ((o.filter Secret.isCached).bind fun s =>
      (s.get kind.dataKey).filter fun b => !E.isEmpty b) =
      ((o.map fun s => (s.data, s.isCached)).filter Prod.snd).bind fun p =>
        (p.1.lookup kind.dataKey).filter fun b => !E.isEmpty b := by
    intro o
    cases o with
    | none => rfl
    | some s => cases hs : s.isCached <;> simp [Option.filter, hs, Secret.get]
  rw [World.payload, World.payload, hpayload, hpayload, h.secrets]

theorem SameSupply.sameInputs (h : SameSupply w w') {inp : BuildInput}
    (hnet : bmh'.preprovisioningNetworkDataName = inp.bmh.preprovisioningNetworkDataName) :
    SameInputs E inp { inp with bmh := bmh' } w w' where
  ns := rfl
  spec := rfl
  cdKey := rfl
  cd := rfl
  network := hnet
  sources := by
    have hlookup : ∀ key, ((w'.configMaps key).bind fun cm => cm.data.lookup caBundleFileName) =
        (w.configMaps key).bind fun cm => cm.data.lookup caBundleFileName := by
      intro key
      have hbind : ∀ o : Option ConfigMap, (o.bind fun cm => cm.data.lookup caBundleFileName) =
          (o.map ConfigMap.data).bind fun data => data.lookup caBundleFileName := by
        intro o
        cases o <;> rfl
      rw [hbind, hbind, h.configMaps]
    simp only [BuildInput.sources, h.secretText, h.imageSets, h.configMaps, hlookup, hnet]
  identity := by simp only [World.identity, h.payload]
  configMaps := h.configMaps

theorem SameSupply.shown {cd : NamespacedName} (h : SameSupply w w') (hshown : Shown cd w) :
    Shown cd w' := by
  intro kind hkind s' hs'
  have hs := h.secrets (kind.key cd)
  rw [hs', Option.map_some, eq_comm, Option.map_eq_some_iff] at hs
  obtain ⟨s, hs, heq⟩ := hs
  have hcached : s.isCached = s'.isCached := congrArg Prod.snd heq
  exact hcached ▸ hshown kind hkind s hs

theorem Site.update (h : Site E key host cdName ici cd bmh image w) (hw : SameSupply w w')
    (hstored : w'.icis key = some ici') (hunstarted : Unstarted host cdName ici')
    (huid : ici'.uid = ici.uid) (hspec : ici'.spec.configured = ici.spec.configured)
    (hseed : ici'.spec.clusterMetadata = ici.spec.clusterMetadata ∨
      metadataIsCurrent cdName ici'.spec.clusterMetadata = .ok true)
    (hhost : w'.bmhs host = some bmh') (hinstallable : Installable E ici'.spec host bmh')
    (hnet : bmh'.preprovisioningNetworkDataName = bmh.preprovisioningNetworkDataName) :
    Site E key host cdName ici' cd bmh' image w' where
  stored := hstored
  cdStored := hw.cds ▸ h.cdStored
  hostStored := hhost
  unstarted := hunstarted
  installable := hinstallable
  obtainable m hID hinfra := by
    have hobtainable := (h.obtainable m hID hinfra).congr (hw.sameInputs hnet) hw.fs
    rw [huid, Spec.with_metadata hspec]
    exact hobtainable
  shown := hw.shown h.shown
  seed := by
    rcases hseed with hseed | hseed
    · rw [hseed, hw.payload]
      exact h.seed
    · exact .inl hseed
  imageStored := hw.dataImages ▸ h.imageStored
  imageStays d hd := by
    obtain ⟨hdeletion, hcreation⟩ := h.imageStays d hd
    exact ⟨hdeletion, Int.le_trans hcreation hw.clock⟩
  imageOwn := huid ▸ h.imageOwn

theorem Installable.of_spec {s s' : Spec} (h : Installable E s host bmh)
    (hspec : s'.configured = s.configured) : Installable E s' host bmh := by
  have hnetwork := congrArg Spec.machineNetwork hspec
  have hnetworks := congrArg Spec.machineNetworks hspec
  simp only [Spec.configured] at hnetwork hnetworks
  refine ⟨fun cond => ?_, h.bootable⟩
  have hvalid := h.valid cond
  simp only [validateBMH] at hvalid ⊢
  rw [hnetwork, hnetworks]
  exact hvalid

theorem Site.setICI (h : Site E key host cdName ici cd bmh image w)
    (hunstarted : Unstarted host cdName ici') (huid : ici'.uid = ici.uid)
    (hspec : ici'.spec.configured = ici.spec.configured)
    (hseed : ici'.spec.clusterMetadata = ici.spec.clusterMetadata ∨
      metadataIsCurrent cdName ici'.spec.clusterMetadata = .ok true) :
    Site E key host cdName ici' cd bmh image (w.setICI key (some ici')) :=
  h.update (.setICI ..) (Function.update_self ..) hunstarted huid hspec hseed h.hostStored
    (h.installable.of_spec hspec) rfl

theorem Site.setBMH (h : Site E key host cdName ici cd bmh image w)
    (hinstallable : Installable E ici.spec host bmh')
    (hnet : bmh'.preprovisioningNetworkDataName = bmh.preprovisioningNetworkDataName) :
    Site E key host cdName ici cd bmh' image (w.setBMH host bmh') :=
  h.update (.setBMH ..) h.stored h.unstarted rfl rfl (.inl rfl)
    (Function.update_self ..) hinstallable hnet

theorem Site.wait (h : Site E key host cdName ici cd bmh image w) (d : Nat) :
    Site E key host cdName ici cd bmh image { w with clock := w.clock + d } :=
  h.update (.wait w d) h.stored h.unstarted rfl rfl (.inl rfl) h.hostStored h.installable rfl

theorem Site.relabelled (h : Site E key host cdName ici cd bmh image w) (hw : Relabelled w w') :
    ∃ bmh', Site E key host cdName ici cd bmh' image w' := by
  have hhost := hw.bmhs host
  rw [h.hostStored, Option.map_some, Option.map_eq_some_iff] at hhost
  obtain ⟨bmh', hbmh', heq⟩ := hhost
  obtain ⟨labels, rfl⟩ : ∃ labels, bmh' = { bmh with labels } := by
    refine ⟨bmh'.labels, ?_⟩
    have hlabels := congrArg (fun b : BareMetalHost => { b with labels := bmh'.labels }) heq
    exact hlabels
  refine ⟨_, h.update hw.undisturbed ?_ h.unstarted rfl rfl (.inl rfl) hbmh' ?_ rfl⟩
  · rw [hw.framed.icis (by decide)]
    exact h.stored
  · exact ⟨h.installable.valid, h.installable.bootable⟩

end Site

/-! ## The object -/

/-- Time has passed, and nothing else. -/
def Waited (w w' : World B) : Prop := ∃ d : Nat, w' = { w with clock := w.clock + d }

section Object

variable {E : Env B} {key host : NamespacedName} {cdName : String} {ici ici' : ImageClusterInstall}
  {cd : ClusterDeployment} {bmh : BareMetalHost} {image : Option DataImage} {w w' : World B}
  {cs cs' : List Condition}

theorem Waited.refl (w : World B) : Waited w w := ⟨0, by simp⟩

theorem Waited.trans {w'' : World B} (h : Waited w w') (h' : Waited w' w'') : Waited w w'' := by
  obtain ⟨d, rfl⟩ := h
  obtain ⟨d', rfl⟩ := h'
  exact ⟨d + d', by simp [Int.add_assoc]⟩

theorem Site.waited (h : Site E key host cdName ici cd bmh image w) (hw : Waited w w') :
    Site E key host cdName ici cd bmh image w' := by
  obtain ⟨d, rfl⟩ := hw
  exact h.wait d

theorem initializeCondition_smooth (todo : List Condition) (acc : List Condition × Bool) :
    Meets (Alone smooth) (todo.foldlM initializeCondition acc)
      (fun acc' w' => Adds todo acc.1 acc'.1 ∧ Waited w w') w := by
  induction todo generalizing acc w with
  | nil => exact meets_ret.2 ⟨.nil _, .refl w⟩
  | cons c todo ih =>
    rw [List.foldlM_cons]
    cases hc : findCondition acc.1 c.type with
    | some c' =>
      have heq : (initializeCondition acc c : Program B _) = .ret acc := by
        simp [initializeCondition, hc]
      rw [heq]
      refine Meets.mono (ih acc) fun acc' _ h => ⟨.skip ?_ h.1, h.2⟩
      rw [hc]
      rfl
    | none =>
      have heq : (initializeCondition acc c : Program B _) = (now >>= fun t =>
          .ret ((setClusterInstallCondition t acc.1 c).1,
            acc.2 || (setClusterInstallCondition t acc.1 c).2)) := by
        simp [initializeCondition, hc]
      rw [heq]
      refine Meets.bind (Meets.bind (smooth_now.2 fun d => meets_ret.2 ?_))
      exact Meets.mono (ih _) fun acc' _ h => ⟨.cons _ hc h.1, .trans ⟨d, rfl⟩ h.2⟩

theorem meets_smooth_patchICI {base new : ImageClusterInstall}
    {Q : ImageClusterInstall × Except Err Unit → World B → Prop} (h : w.icis key = some base)
    (hnew : new.uid = base.uid ∧ new.deletionTimestamp = base.deletionTimestamp ∧
      new.status = base.status) (hdeletion : base.deletionTimestamp = none)
    (hQ : Q (new, .ok ()) (w.setICI key (some new))) :
    Meets (Alone smooth) (patchICI key base new) Q w := by
  refine Meets.bind ((smooth_patchICI h hnew).2 (meets_ret.2 ?_))
  have hremains : new.remains = some new := by
    simp [ImageClusterInstall.remains, hnew.2.1, hdeletion]
  rw [hremains]
  exact hQ

theorem meets_smooth_patchICIStatus {base : ImageClusterInstall} {status : Status}
    {Q : ImageClusterInstall × Except Err Unit → World B → Prop} (h : w.icis key = some base)
    (hQ : Q ({ base with status }, .ok ()) (w.setICI key (some { base with status }))) :
    Meets (Alone smooth) (patchICIStatus key base { base with status }) Q w :=
  Meets.bind ((smooth_patchICIStatus h).2 (meets_ret.2 hQ))

theorem ReconcilerEdit.running (h : ReconcilerEdit ici.status.conditions cs)
    (hrunning : installationCompleted ici = false) :
    installationCompleted (ici.withConditions cs) = false := by
  unfold installationCompleted at hrunning ⊢
  have hcs : (ici.withConditions cs).status.conditions = cs := rfl
  rw [hcs]
  rcases h.install (T := .completed) (by decide) with hsame | ⟨-, c, hc, hstatus, -⟩
  · rw [hsame]
    exact hrunning
  · rw [hc]
    simp [hstatus, initialCondition]

theorem Unstarted.withConditions (h : Unstarted host cdName ici)
    (hedit : ReconcilerEdit ici.status.conditions cs)
    (hfind : (findCondition cs .requirementsMet).isSome) :
    Unstarted host cdName (ici.withConditions cs) where
  undeleted := h.undeleted
  running := hedit.running h.running
  settled := by
    have hne : cs.isEmpty = false := by
      cases cs with
      | nil => cases hfind
      | cons c cs => rfl
    have hcs : (ici.withConditions cs).status.conditions = cs := rfl
    simp [iciIsBeingRestored, hcs, hne]
  unstarted := h.unstarted
  unbooted := h.unbooted
  cdRef := h.cdRef
  hostRef := h.hostRef
  password := h.password

theorem Site.withConditions (h : Site E key host cdName ici cd bmh image w)
    (hedit : ReconcilerEdit ici.status.conditions cs)
    (hfind : (findCondition cs .requirementsMet).isSome) :
    Site E key host cdName (ici.withConditions cs) cd bmh image
      (w.setICI key (some (ici.withConditions cs))) :=
  h.setICI (h.unstarted.withConditions hedit hfind) rfl rfl (.inl rfl)

/-- The outcome of a step that changes the object: it succeeds, and the pass can go on. -/
structure GoesOn (E : Env B) (key host : NamespacedName) (cdName : String)
    (ici : ImageClusterInstall) (cd : ClusterDeployment) (bmh : BareMetalHost)
    (image : Option DataImage) (r : ImageClusterInstall × Except Err Unit) (w' : World B) :
    Prop where
  ok : r.2 = .ok ()
  site : Site E key host cdName r.1 cd bmh image w'
  uid : r.1.uid = ici.uid
  finalizers : r.1.finalizers = ici.finalizers

theorem ensureAnnotated_smooth (h : Site E key host cdName ici cd bmh image w)
    (name value : String) :
    Meets (Alone smooth) (ensureAnnotated key ici name value)
      (GoesOn E key host cdName ici cd bmh image) w := by
  unfold ensureAnnotated
  dsimp only
  split
  · exact meets_ret.2 ⟨rfl, h, rfl, rfl⟩
  · refine meets_smooth_patchICI h.stored ⟨rfl, rfl, rfl⟩ h.unstarted.undeleted ⟨rfl, ?_, rfl, rfl⟩
    refine h.setICI ?_ rfl rfl (.inl rfl)
    obtain ⟨hdel, hrun, hset, hstart, hboot, hcd, hhost, hpass⟩ := h.unstarted
    exact ⟨hdel, hrun, hset, hstart, hboot, hcd, hhost, hpass⟩

theorem initializeConditions_smooth (h : Site E key host cdName ici cd bmh image w) :
    Meets (Alone smooth) (initializeConditions key ici)
      (GoesOn E key host cdName ici cd bmh image) w := by
  refine Meets.seq (initializeCondition_smooth _ _) ?_
  rintro ⟨conditions, needToPatch⟩ w₁ ⟨hadds, hw₁⟩
  have h₁ := h.waited hw₁
  dsimp only
  split
  · exact meets_ret.2 ⟨rfl, h₁, rfl, rfl⟩
  · refine meets_smooth_patchICIStatus h₁.stored ⟨rfl, h₁.withConditions (.init hadds) ?_, rfl, rfl⟩
    cases hfind : findCondition ici.status.conditions .requirementsMet with
    | some c => simp [hadds.kept hfind]
    | none =>
      obtain ⟨c, hc, -⟩ := hadds.added hfind (by decide)
      simp [hc]

theorem prepare_smooth (h : Site E key host cdName ici cd bmh image w) :
    Meets (Alone smooth) (prepare key ici) (GoesOn E key host cdName ici cd bmh image) w := by
  refine Meets.seq (ensureAnnotated_smooth h _ _) ?_
  rintro ⟨ici₁, r⟩ w₁ ⟨rfl, h₁, huid₁, hfin₁⟩
  refine Meets.seq (ensureAnnotated_smooth h₁ _ _) ?_
  rintro ⟨ici₂, r⟩ w₂ ⟨rfl, h₂, huid₂, hfin₂⟩
  refine (initializeConditions_smooth h₂).mono ?_
  rintro ⟨ici₃, r⟩ w₃ ⟨rfl, h₃, huid₃, hfin₃⟩
  exact ⟨rfl, h₃, huid₃.trans (huid₂.trans huid₁), hfin₃.trans (hfin₂.trans hfin₁)⟩

/-! ### Cluster metadata -/

theorem seedReconfigSecretClusterIDs_works {cdKey : NamespacedName}
    (h : ∀ b, w.payload E seedReconfigurationSecret cdKey = some b → (E.unmarshalSeed b).isSome) :
    Works (seedReconfigSecretClusterIDs E cdKey) (fun _ w' => w' = w) w := by
  refine Tries.seq ((getSecretContent_works _ _).spec
    (payload_reads seedReconfigurationSecret cdKey)) ?_
  rintro o w ⟨rfl, ho⟩
  cases o with
  | none => exact tries_pure.2 rfl
  | some b =>
    obtain ⟨seed, hseed⟩ := Option.isSome_iff_exists.1 (h b ho)
    dsimp only
    rw [hseed]
    exact tries_pure.2 rfl

theorem chooseID_smooth {current secret : String} {fresh : Program B String}
    (h : Meets (Alone smooth) fresh (fun id w' => id ≠ "" ∧ w' = w) w) :
    Meets (Alone smooth) (chooseID current secret fresh) (fun id w' => id ≠ "" ∧ w' = w) w := by
  unfold chooseID
  split
  · next hne => exact meets_ret.2 ⟨hne, rfl⟩
  split
  · next hne => exact meets_ret.2 ⟨hne, rfl⟩
  · exact h

theorem newUUID_smooth :
    Meets (Alone smooth) (newUUID : Program B String) (fun id w' => id ≠ "" ∧ w' = w) w :=
  Meets.bind (smooth_call.2 fun c _ => meets_ret.2 ⟨c.uuid.property, rfl⟩)

theorem generateInfraID_smooth (base : String) :
    Meets (Alone smooth) (generateInfraID base : Program B String)
      (fun id w' => id ≠ "" ∧ w' = w) w := by
  refine Meets.bind (smooth_call.2 fun c _ => meets_ret.2 ⟨fun hempty => ?_, rfl⟩)
  have hlength := congrArg String.length hempty
  simp at hlength

theorem metadataIsCurrent_ok (h : Unstarted host cdName ici) :
    ∃ current, metadataIsCurrent cdName ici.spec.clusterMetadata = .ok current := by
  cases hm : ici.spec.clusterMetadata with
  | none => exact ⟨false, rfl⟩
  | some m =>
    obtain ⟨name, hname⟩ := Option.ne_none_iff_exists'.1 (h.password m hm)
    unfold metadataIsCurrent
    dsimp only
    rw [hname]
    split
    · exact ⟨_, rfl⟩
    · exact ⟨_, rfl⟩

theorem setClusterInstallMetadata_smooth (h : Site E key host cdName ici cd bmh image w) :
    Meets (Alone smooth) (setClusterInstallMetadata E key ici ⟨key.ns, cdName⟩ cd)
      (fun r w' => GoesOn E key host cdName ici cd bmh image r w' ∧ MetadataSet cdName r.1) w := by
  obtain ⟨current, hcurrent⟩ := metadataIsCurrent_ok h.unstarted
  unfold setClusterInstallMetadata
  dsimp only
  rw [hcurrent]
  cases current with
  | true => exact meets_ret.2 ⟨⟨rfl, h, rfl, rfl⟩, metadataSet_of_current hcurrent rfl⟩
  | false =>
    have hseed := h.seed.resolve_left (by simp [hcurrent])
    refine Meets.bind (Meets.mono (seedReconfigSecretClusterIDs_works hseed) ?_)
    rintro (e | ⟨secretClusterID, secretInfraID⟩) w₁ hids
    · exact hids.elim
    obtain rfl := hids
    refine Meets.seq (chooseID_smooth newUUID_smooth) ?_
    rintro clusterID w ⟨hID, rfl⟩
    refine Meets.seq (chooseID_smooth (generateInfraID_smooth _)) ?_
    rintro infraID w ⟨hinfra, rfl⟩
    refine meets_smooth_patchICI h.stored ⟨rfl, rfl, rfl⟩ h.unstarted.undeleted ?_
    have hmetadata : MetadataSet cdName { ici with spec := { ici.spec with
        clusterMetadata := some ⟨clusterID, infraID, kubeconfigSecretName cdName,
          some (kubeadminPasswordSecretName cdName)⟩ } } :=
      ⟨_, rfl, hID, hinfra, rfl, rfl⟩
    refine ⟨⟨rfl, h.setICI ?_ rfl rfl (.inr (metadataIsCurrent_of_set hmetadata)), rfl, rfl⟩,
      hmetadata⟩
    obtain ⟨hdel, hrun, hset, hstart, hboot, hcd, hhost, -⟩ := h.unstarted
    refine ⟨hdel, hrun, hset, hstart, hboot, hcd, hhost, fun m hm => ?_⟩
    cases hm
    simp

end Object

end ImageBasedInstall

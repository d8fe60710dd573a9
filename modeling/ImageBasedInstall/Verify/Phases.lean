import ImageBasedInstall.Verify.Calls

/-!
# The phases of a pass

What each phase establishes when the pass runs alone, and that its calls are those of `Calls`. The
object in memory and the stored one differ in their conditions only (`Synced`), since a failed patch
of anything else ends the pass.
-/

namespace ImageBasedInstall

open Interactive Patch

variable {B : Type} {ok guar : World B → (op : Op B) → Resp op → World B → Prop}
  {w₀ w w' : World B} {E : Env B} {req : NamespacedName} {ici : ImageClusterInstall}

/-! ## Patches of a synced object -/

theorem core_eq_iff {a b : ImageClusterInstall} : a.core = b.core ↔
    a.uid = b.uid ∧ a.annotations = b.annotations ∧ a.labels = b.labels ∧
      a.finalizers = b.finalizers ∧ a.deletionTimestamp = b.deletionTimestamp ∧ a.spec = b.spec ∧
      a.status.installRestarts = b.status.installRestarts ∧
      a.status.bareMetalHostRef = b.status.bareMetalHostRef ∧
      a.status.bootTime = b.status.bootTime := by
  obtain ⟨_, _, _, _, _, _, _⟩ := a
  obtain ⟨_, _, _, _, _, _, _⟩ := b
  simp [ImageClusterInstall.core, ImageClusterInstall.withConditions]

theorem Spec.merge_current (base new : Spec) : Spec.merge base new base = new := by
  simp [Spec.merge]

theorem core_merge {base new stored : ImageClusterInstall} (h : stored.core = base.core)
    (huid : new.uid = base.uid) (hdel : new.deletionTimestamp = base.deletionTimestamp)
    (hstatus : new.status = base.status) :
    (ImageClusterInstall.merge base new stored).core = new.core := by
  rw [core_eq_iff] at h ⊢
  obtain ⟨h₁, h₂, h₃, h₄, h₅, h₆, h₇, h₈, h₉⟩ := h
  simp only [ImageClusterInstall.merge]
  rw [h₂, h₃, h₄, h₆, hstatus, huid, hdel, Spec.merge_current]
  simp [*]

theorem core_mergeStatus {base new stored : ImageClusterInstall} (h : stored.core = base.core)
    (hnew : ({ new with status := base.status } : ImageClusterInstall) = base) :
    (ImageClusterInstall.mergeStatus base new stored).core = new.core := by
  rw [core_eq_iff] at h ⊢
  obtain ⟨h₁, h₂, h₃, h₄, h₅, h₆, h₇, h₈, h₉⟩ := h
  rw [← hnew] at h₁ h₂ h₃ h₄ h₅ h₆
  simp only [ImageClusterInstall.mergeStatus, Status.merge]
  rw [h₇, h₈, h₉]
  simp [*]

theorem Synced.set {stored : ImageClusterInstall} (h : stored.core = ici.core) :
    Synced req ici (w.setICI req (some stored)) :=
  ⟨stored, by simp [World.setICI], h⟩

theorem Synced.of_eq (h : Synced req ici w) (hw : w'.icis = w.icis) : Synced req ici w' := by
  obtain ⟨stored, hs, hc⟩ := h
  exact ⟨stored, by rw [hw, hs], hc⟩

theorem InHand.of_eq (h : InHand req w₀ w ici) (hw : w'.icis = w.icis) : InHand req w₀ w' ici :=
  ⟨h.origin, h.synced.of_eq hw, h.undeleted, h.finalizer⟩

/-- A patch that changes neither the configured spec nor the finalizers. -/
theorem InHand.patched {new ici' : ImageClusterInstall} (h : InHand req w₀ w ici)
    (hsync : Synced req ici' w') (hcore : ici'.core = new.core) (huid : new.uid = ici.uid)
    (hdel : new.deletionTimestamp = ici.deletionTimestamp) (hfin : new.finalizers = ici.finalizers)
    (hspec : new.spec.configured = ici.spec.configured) : InHand req w₀ w' ici' := by
  obtain ⟨ici₀, hs₀, hu, huid₀, hspec₀⟩ := h.origin
  obtain ⟨huid', -, -, hfin', hdel', hspec', -⟩ := core_eq_iff.1 hcore
  refine ⟨⟨ici₀, hs₀, hu, ?_, ?_⟩, hsync, ?_, ?_⟩
  · rw [huid', huid, huid₀]
  · rw [hspec', hspec, hspec₀]
  · rw [hdel', hdel, h.undeleted]
  · rw [hfin', hfin]
    exact h.finalizer

theorem InHand.of_core {ici' : ImageClusterInstall} (h : InHand req w₀ w ici)
    (hsync : Synced req ici' w') (hcore : ici'.core = ici.core) : InHand req w₀ w' ici' :=
  h.patched hsync hcore rfl rfl rfl rfl

/-- A successful patch of the main resource stores the new object. -/
theorem patchICI_synced (new : ImageClusterInstall) (hsync : Synced req ici w)
    (huid : new.uid = ici.uid) (hdel : new.deletionTimestamp = ici.deletionTimestamp)
    (hnone : ici.deletionTimestamp = none) (hstatus : new.status = ici.status) :
    Meets (Alone ok) (patchICI req ici new)
      (fun r w' => r.2 = .ok () → Synced req r.1 w' ∧ r.1.core = new.core) w := by
  obtain ⟨stored, hs, hc⟩ := hsync
  refine meets_patchICI .free ?_ fun _ h => nomatch h
  intro stored' hs'
  obtain rfl : stored = stored' := Option.some.inj (hs.symm.trans hs')
  refine ⟨fun _ => ?_, fun _ h => nomatch h⟩
  have hmerge := core_merge hc huid hdel hstatus
  have hremains : (ImageClusterInstall.merge ici new stored).remains =
      some (ImageClusterInstall.merge ici new stored) := by
    have hd : (ImageClusterInstall.merge ici new stored).deletionTimestamp = none := by
      rw [(core_eq_iff.1 hmerge).2.2.2.2.1, hdel, hnone]
    simp [ImageClusterInstall.remains, hd]
  rw [hremains]
  exact ⟨.set rfl, hmerge⟩

/-- A patch of the conditions keeps the object synced, however it ends. -/
theorem patchConditions_synced (hsync : Synced req ici w) (conditions : List Condition) :
    Meets (Alone ok) (patchICIStatus req ici (ici.withConditions conditions))
      (fun r w' => Synced req r.1 w' ∧ r.1.core = ici.core) w := by
  obtain ⟨stored, hs, hc⟩ := hsync
  refine meets_patchICIStatus .free ?_ fun _ => ⟨⟨stored, hs, hc⟩, rfl⟩
  intro stored' hs'
  obtain rfl : stored = stored' := Option.some.inj (hs.symm.trans hs')
  have hmerge : (ImageClusterInstall.mergeStatus ici (ici.withConditions conditions) stored).core =
      ici.core := core_mergeStatus hc rfl
  exact ⟨⟨.set rfl, hmerge⟩, fun _ => ⟨.set hmerge, rfl⟩⟩

/-! ## Conditions -/

section Conditions

variable [DecidableEq B] (rules : Guarded E req w₀ ok guar) (h : InHand req w₀ w ici)
include rules h

theorem patchConditions_pass (conditions : List Condition) :
    Meets (Running ok guar) (patchICIStatus req ici (ici.withConditions conditions))
      (fun r w' => Framed [.ici] w w' ∧ InHand req w₀ w' r.1 ∧ r.1.core = ici.core) w :=
  (meets_once rules (.conditions h.installs conditions)
    (patchConditions_synced h.synced conditions)).mono fun _ _ hr =>
      ⟨hr.1, h.of_core hr.2.1 hr.2.2, hr.2.2⟩

theorem setRequirementsMetCondition_pass (status : ConditionStatus) (reason msg : String) :
    Meets (Running ok guar) (setRequirementsMetCondition req ici status reason msg)
      (fun ici' w' => Framed [.ici] w w' ∧ InHand req w₀ w' ici' ∧ ici'.core = ici.core) w := by
  refine Meets.seq (meets_reads rules (Prog.uses_perform rfl) (meets_true _)) ?_
  rintro t w₁ ⟨hf, -⟩
  have h := h.of_eq (hf.icis (by decide))
  have hf : Framed [.ici] w w₁ := hf.mono (by simp)
  dsimp only
  split
  · exact meets_ret.2 ⟨hf, h, rfl⟩
  · refine Meets.seq (patchConditions_pass rules h _) fun r w₂ hr => meets_ret.2 ?_
    exact ⟨hf.trans hr.1, hr.2⟩

theorem initializeConditions_pass :
    Meets (Running ok guar) (initializeConditions req ici)
      (fun r w' => Framed [.ici] w w' ∧ InHand req w₀ w' r.1 ∧ r.1.core = ici.core) w := by
  have hfold : (initialConditions.foldlM initializeCondition (ici.status.conditions, false) :
      Program B _).Uses fun op => op.target = .nothing := by
    refine uses_foldlM _ _ fun acc cond => ?_
    unfold initializeCondition
    split
    · trivial
    · exact Prog.Uses.bind (Prog.uses_perform rfl) fun _ => trivial
  refine Meets.seq (meets_reads rules hfold (meets_true _)) ?_
  rintro acc w₁ ⟨hf, -⟩
  have h := h.of_eq (hf.icis (by decide))
  have hf : Framed [.ici] w w₁ := hf.mono (by simp)
  dsimp only
  split
  · exact meets_ret.2 ⟨hf, h, rfl⟩
  · exact (patchConditions_pass rules h _).mono fun _ _ hr => ⟨hf.trans hr.1, hr.2⟩

end Conditions

/-! ## Preparation -/

theorem setAnnotationIfNotExists_exists (annotations : String → Option String)
    (key value : String) :
    annotationExists (setAnnotationIfNotExists annotations key value).1 key = true := by
  unfold setAnnotationIfNotExists annotationExists
  split
  · next h => simp [h]
  · simp

theorem setAnnotationIfNotExists_mono {annotations : String → Option String} {k : String}
    (key value : String) (h : annotationExists annotations k = true) :
    annotationExists (setAnnotationIfNotExists annotations key value).1 k = true := by
  unfold setAnnotationIfNotExists annotationExists at *
  split
  · exact h
  · by_cases hk : k = key
    · simp [hk]
    · simpa [hk] using h

section Prepare

variable [DecidableEq B] (rules : Guarded E req w₀ ok guar)
include rules

/-- What a step of the preparation keeps: the object stays in hand, and no annotation is lost. -/
structure Progress (req : NamespacedName) (w₀ : World B) (ici ici' : ImageClusterInstall)
    (w : World B) : Prop where
  inHand : InHand req w₀ w ici'
  spec : ici'.spec = ici.spec
  annotations : ∀ k, annotationExists ici.annotations k = true →
    annotationExists ici'.annotations k = true

theorem ensureAnnotated_pass (h : InHand req w₀ w ici) (key value : String) :
    Meets (Running ok guar) (ensureAnnotated req ici key value)
      (fun r w' => Framed [.ici] w w' ∧ (r.2 = .ok () → Progress req w₀ ici r.1 w' ∧
        annotationExists r.1.annotations key = true)) w := by
  have hexists := setAnnotationIfNotExists_exists ici.annotations key value
  have hmono : ∀ k, annotationExists ici.annotations k = true →
      annotationExists (setAnnotationIfNotExists ici.annotations key value).1 k = true :=
    fun k => setAnnotationIfNotExists_mono key value
  unfold ensureAnnotated
  dsimp only
  split
  · next hset =>
    -- the annotation is there already
    refine meets_ret.2 ⟨.refl .., fun _ => ⟨⟨h, rfl, fun _ h => h⟩, ?_⟩⟩
    unfold setAnnotationIfNotExists at hset
    split at hset
    · next hv => simp [annotationExists, hv]
    · cases hset
  · refine Meets.mono (meets_once rules (.annotate h)
      (patchICI_synced _ h.synced rfl rfl h.undeleted rfl)) ?_
    rintro r w' ⟨hf, hr⟩
    refine ⟨hf, fun hok => ?_⟩
    obtain ⟨hsync, hcore⟩ := hr hok
    have hann := (core_eq_iff.1 hcore).2.1
    have hspec := (core_eq_iff.1 hcore).2.2.2.2.2.1
    refine ⟨⟨h.patched hsync hcore rfl rfl rfl rfl, hspec, fun k hk => ?_⟩, ?_⟩
    · rw [hann]
      exact hmono k hk
    · rw [hann]
      exact hexists

/-- The preparation leaves an annotated object. -/
theorem prepare_pass (h : InHand req w₀ w ici) :
    Meets (Running ok guar) (prepare req ici)
      (fun r w' => Framed [.ici] w w' ∧ (r.2 = .ok () → InHand req w₀ w' r.1 ∧
        r.1.spec = ici.spec ∧ Annotated r.1)) w := by
  refine Meets.seq (ensureAnnotated_pass rules h _ _) ?_
  rintro ⟨ici₁, r₁⟩ w₁ ⟨hf₁, h₁⟩
  match r₁ with
  | .error e => exact meets_ret.2 ⟨hf₁, fun h => nomatch h⟩
  | .ok () =>
    obtain ⟨hp₁, hrestore⟩ := h₁ rfl
    refine Meets.seq (ensureAnnotated_pass rules hp₁.inHand _ _) ?_
    rintro ⟨ici₂, r₂⟩ w₂ ⟨hf₂, h₂⟩
    match r₂ with
    | .error e => exact meets_ret.2 ⟨hf₁.trans hf₂, fun h => nomatch h⟩
    | .ok () =>
      obtain ⟨hp₂, hcleanup⟩ := h₂ rfl
      refine (initializeConditions_pass rules hp₂.inHand).mono ?_
      rintro ⟨ici₃, r₃⟩ w₃ ⟨hf₃, h₃, hcore⟩
      have hann := (core_eq_iff.1 hcore).2.1
      have hspec := (core_eq_iff.1 hcore).2.2.2.2.2.1
      refine ⟨(hf₁.trans hf₂).trans hf₃, fun _ => ⟨h₃, ?_, h₃.undeleted, h₃.finalizer, ?_, ?_⟩⟩
      · rw [hspec, hp₂.spec, hp₁.spec]
      · rw [hann]
        exact hp₂.annotations _ hrestore
      · rw [hann]
        exact hcleanup

end Prepare

/-! ## Cluster metadata -/

section Metadata

variable {cdKey : NamespacedName} {cd : ClusterDeployment}

theorem metadataSet_of_current {m : Option ClusterMetadata} {cdName : String}
    (h : metadataIsCurrent cdName m = .ok true) (hm : ici.spec.clusterMetadata = m) :
    MetadataSet cdName ici := by
  unfold metadataIsCurrent at h
  split at h
  · cases h
  next m =>
  split at h
  · next hc =>
    split at h
    · cases h
    · next name hname =>
      have hname' : name = kubeadminPasswordSecretName cdName := by simpa using h
      exact ⟨m, hm, hc.1, hc.2.1, hc.2.2, by rw [hname, hname']⟩
  · cases h

/-- The payload of a secret, as the cache shows it. -/
theorem getSecretContent_spec (ref : NamespacedName) (key : String) :
    Tries (Alone ok) (getSecretContent E ref key)
      (fun o w' => w' = w ∧ o = ((w.secrets ref).filter Secret.isCached).bind fun s =>
        (s.get key).filter fun b => !E.isEmpty b) (fun _ w' => w' = w) w := by
  refine Tries.bind (tries_attempt (tries_getSecret .free ?_ ?_ ?_))
  · intro s hs
    have hs : (w.secrets ref).filter Secret.isCached = some s := hs
    exact tries_pure.2 ⟨rfl, by rw [hs]; rfl⟩
  · intro hs
    have hs : (w.secrets ref).filter Secret.isCached = none := hs
    exact tries_pure.2 ⟨rfl, by rw [hs]; rfl⟩
  · exact fun e => tries_throw.2 rfl

theorem seedReconfigSecretClusterIDs_spec (cd : NamespacedName) :
    Tries (Alone ok) (seedReconfigSecretClusterIDs E cd)
      (fun ids w' => w' = w ∧ seedIDs E cd w = some ids) (fun _ w' => w' = w) w := by
  refine Tries.seq (getSecretContent_spec _ _) ?_
  rintro o _ ⟨rfl, ho⟩
  unfold seedIDs
  rw [← ho]
  cases o with
  | none => exact tries_pure.2 ⟨rfl, rfl⟩
  | some data =>
    dsimp only
    cases hseed : E.unmarshalSeed data with
    | none => exact tries_throw.2 rfl
    | some seed => exact tries_pure.2 ⟨rfl, rfl⟩

/-- What is read through the cache depends on what it shows. -/
theorem bind_of_shown {α : Type} {s s' : Option (Secret B)}
    (h : s'.map Secret.shown = s.map Secret.shown) (f : List (String × B) → Option α) :
    (s'.filter Secret.isCached).bind (fun s => f s.data) =
      (s.filter Secret.isCached).bind fun s => f s.data := by
  cases s' with
  | none =>
    cases s with
    | none => rfl
    | some s => cases h
  | some s' =>
    cases s with
    | none => cases h
    | some s =>
      obtain ⟨hdata, hcached⟩ := Prod.mk.inj (Option.some.inj h)
      simp only [Option.filter_some, hcached]
      split
      · simp only [Option.bind_some, hdata]
      · rfl

theorem seedIDs_of_shown
    (h : (w'.secrets (seedReconfigurationSecret.key cdKey)).map Secret.shown =
      (w.secrets (seedReconfigurationSecret.key cdKey)).map Secret.shown) :
    seedIDs E cdKey w' = seedIDs E cdKey w := by
  have hcontent := bind_of_shown h fun data =>
    (data.lookup seedReconfigurationFileName).filter fun b => !E.isEmpty b
  unfold seedIDs Secret.get
  rw [hcontent]

theorem chooseID_spec {current secret : String} {fresh : Program B String}
    (hfresh : Meets (Alone ok) fresh (fun id w' => id ≠ "" ∧ w' = w) w) :
    Meets (Alone ok) (chooseID current secret fresh)
      (fun id w' => Chosen current secret id ∧ w' = w) w := by
  unfold chooseID
  split
  · next h => exact meets_ret.2 ⟨⟨h, fun _ => rfl, fun h' => absurd h' h⟩, rfl⟩
  next h =>
  split
  · next h' => exact meets_ret.2 ⟨⟨h', fun hc => absurd hc h, fun _ _ => rfl⟩, rfl⟩
  · next h' =>
    exact hfresh.mono fun id w' hid =>
      ⟨⟨hid.1, fun hc => absurd hc h, fun _ hs => absurd hs h'⟩, hid.2⟩

theorem newUUID_spec : Meets (Alone ok) newUUID (fun id w' => id ≠ "" ∧ w' = w) w := by
  refine meets_call fun c r w' hc _ => ⟨trivial, meets_ret.2 ?_⟩
  cases hc
  exact ⟨c.uuid.2, rfl⟩

theorem generateInfraID_spec (base : String) :
    Meets (Alone ok) (generateInfraID base) (fun id w' => id ≠ "" ∧ w' = w) w := by
  refine meets_call fun c r w' hc _ => ⟨trivial, meets_ret.2 ?_⟩
  cases hc
  refine ⟨fun h => ?_, rfl⟩
  have hlen := congrArg String.length h
  simp at hlen

theorem Annotated.of_core {ici' : ImageClusterInstall} (hc : ici'.core = ici.core)
    (h : Annotated ici) : Annotated ici' := by
  have ha : Annotated ici.core := ⟨h.undeleted, h.finalizer, h.restoreStatus, h.postCleanup⟩
  rw [← hc] at ha
  exact ⟨ha.undeleted, ha.finalizer, ha.restoreStatus, ha.postCleanup⟩

theorem MetadataSet.of_core {ici' : ImageClusterInstall} {cdName : String}
    (h : MetadataSet cdName ici) (hc : ici'.core = ici.core) : MetadataSet cdName ici' := by
  have hm : MetadataSet cdName ici.core := h
  rw [← hc] at hm
  exact hm

/-- What the object is once its metadata is set. -/
structure Described (req : NamespacedName) (w₀ : World B) (cdName : String)
    (ici ici' : ImageClusterInstall) (w : World B) : Prop where
  inHand : InHand req w₀ w ici'
  annotated : Annotated ici → Annotated ici'
  metadata : MetadataSet cdName ici'
  configured : ici'.spec.configured = ici.spec.configured

theorem setClusterInstallMetadata_pass [DecidableEq B] (rules : Guarded E req w₀ ok guar)
    (h : InHand req w₀ w ici) (hns : cdKey.ns = req.ns)
    (href : ici.spec.clusterDeploymentRef = some cdKey.name) :
    Meets (Running ok guar) (setClusterInstallMetadata E req ici cdKey cd)
      (fun r w' => Framed [.ici] w w' ∧
        (r.2 = .ok () → Described req w₀ cdKey.name ici r.1 w')) w := by
  unfold setClusterInstallMetadata
  split
  · exact meets_ret.2 ⟨.refl .., fun h => nomatch h⟩
  · next hm =>
    exact meets_ret.2 ⟨.refl .., fun _ => ⟨h, id, metadataSet_of_current hm rfl, rfl⟩⟩
  next hnew =>
  -- the metadata is incomplete: reads, two IDs, and one patch
  refine Meets.seq (meets_reads rules (seedReconfigSecretClusterIDs_uses (fun _ h => h) E cdKey)
    (seedReconfigSecretClusterIDs_spec cdKey)) ?_
  rintro (e | ⟨secretClusterID, secretInfraID⟩) w₁ ⟨hf, hids⟩
  · exact meets_ret.2 ⟨hf.mono (by simp), fun h => nomatch h⟩
  obtain ⟨rfl, hids⟩ := hids
  dsimp only
  refine Meets.seq (meets_reads rules (chooseID_uses _ _ ?_) (chooseID_spec newUUID_spec)) ?_
  · exact Prog.Uses.bind (Prog.uses_perform rfl) fun _ => trivial
  rintro clusterID _ ⟨-, hclusterID, rfl⟩
  refine Meets.seq (meets_reads rules (chooseID_uses _ _ ?_)
    (chooseID_spec (generateInfraID_spec _))) ?_
  · exact Prog.Uses.bind (Prog.uses_perform rfl) fun _ => trivial
  rintro infraID w₁ ⟨-, hinfraID, rfl⟩
  refine Meets.mono (meets_once rules
    (.describe h hns href hnew ⟨⟨_, hids, hclusterID, hinfraID⟩, rfl, rfl⟩)
    (patchICI_synced _ h.synced rfl rfl h.undeleted rfl)) ?_
  rintro r w' ⟨hf, hr⟩
  refine ⟨hf, fun hok => ?_⟩
  obtain ⟨hsync, hcore⟩ := hr hok
  have hspec := (core_eq_iff.1 hcore).2.2.2.2.2.1
  refine ⟨h.patched hsync hcore rfl rfl rfl rfl, fun ha => ?_, ?_, ?_⟩
  · exact .of_core hcore ⟨ha.undeleted, ha.finalizer, ha.restoreStatus, ha.postCleanup⟩
  · exact MetadataSet.of_core ⟨_, rfl, hclusterID.nonempty, hinfraID.nonempty, rfl, rfl⟩ hcore
  · rw [hspec]
    rfl

end Metadata

/-! ## The host -/

section Host

variable {key : NamespacedName} {bmh : BareMetalHost} {cond : Condition}

/-- A successful patch made from a current copy of a host stores the new version. -/
theorem patchBMH_stored {new : BareMetalHost} (hb : w.bmhs key = some bmh)
    (hmerge : BareMetalHost.merge bmh new bmh = new) :
    Meets (Alone ok) (patchBMH key bmh new)
      (fun r w' => r.2 = .ok () → r.1 = new ∧ w'.bmhs key = some new) w := by
  refine meets_patchBMH .free (fun stored hs => ?_) fun _ h => nomatch h
  obtain rfl : bmh = stored := Option.some.inj (hb.symm.trans hs)
  rw [hmerge]
  exact ⟨fun _ => ⟨rfl, by simp [World.setBMH]⟩, fun _ h => nomatch h⟩

theorem HostsKept.refl (w : World B) : HostsKept w w := fun _ => rfl

theorem HostsKept.of_eq (h : HostsKept w₀ w) (hw : w'.bmhs = w.bmhs) : HostsKept w₀ w' := by
  unfold HostsKept
  rw [hw]
  exact h

theorem HostsKept.setBMH {new : BareMetalHost} (h : HostsKept w₀ w) (hb : w.bmhs key = some bmh)
    (hnew : new.inspected = bmh.inspected) : HostsKept w₀ (w.setBMH key new) := by
  intro k
  by_cases hk : k = key
  · subst hk
    rw [← h k, hb]
    simp [World.setBMH, hnew]
  · simpa [World.setBMH, hk] using h k

theorem patchBMH_kept {new : BareMetalHost} (h : HostsKept w₀ w) (hb : w.bmhs key = some bmh)
    (hnew : (BareMetalHost.merge bmh new bmh).inspected = bmh.inspected) :
    Meets (Alone ok) (patchBMH key bmh new) (fun _ w' => HostsKept w₀ w') w := by
  refine meets_patchBMH .free (fun stored hs => ?_) fun _ => h
  obtain rfl : bmh = stored := Option.some.inj (hb.symm.trans hs)
  have hset := h.setBMH hb hnew
  exact ⟨hset, fun _ => hset⟩

/-- The host as it was when the pass started. -/
theorem HostsKept.origin (h : HostsKept w₀ w) (hb : w.bmhs key = some bmh) :
    ∃ bmh₀, w₀.bmhs key = some bmh₀ ∧ bmh₀.inspected = bmh.inspected := by
  have hk := h key
  rw [hb, Option.map_some, eq_comm, Option.map_eq_some_iff] at hk
  exact hk

theorem inspected_eq_iff {a b : BareMetalHost} (h : a.inspected = b.inspected) :
    a.annotations = b.annotations ∧ a.externallyProvisioned = b.externallyProvisioned ∧
      a.hardwareDetails = b.hardwareDetails := by
  obtain ⟨⟩ := a
  obtain ⟨⟩ := b
  simp only [BareMetalHost.inspected, BareMetalHost.mk.injEq] at h
  exact ⟨h.1, h.2.2.2.1, h.2.2.2.2.2.2.2.2⟩

theorem HostChecked.of_inspected {s : Spec} {bmh' : BareMetalHost} (h : HostChecked E s bmh)
    (hb : bmh'.inspected = bmh.inspected) : HostChecked E s bmh' := by
  obtain ⟨hann, hext, hhw⟩ := inspected_eq_iff hb
  unfold HostChecked isInspectionEnabled at *
  rw [hann, hext, hhw]
  exact h

variable [DecidableEq B] (rules : Guarded E req w₀ ok guar) (h : InHand req w₀ w ici)
include rules h

theorem validateConfiguration_pass (hkept : HostsKept w₀ w)
    (cd : Option (NamespacedName × ClusterDeployment)) :
    Meets (Running ok guar) (validateConfiguration req ici.spec cd cond)
      (fun r w' => Framed [.bmh] w w' ∧ r.1.status = cond.status ∧
        ∀ key bmh, r.2 = .ok (some (key, bmh)) → ici.spec.bareMetalHostRef = some key ∧
          w'.bmhs key = some bmh ∧ bmh.automatedCleaningMode = .disabled ∧ HostsKept w₀ w') w := by
  unfold validateConfiguration
  split
  · split <;> exact meets_ret.2 ⟨.refl .., rfl, fun _ _ h => by cases h⟩
  · exact meets_ret.2 ⟨.refl .., rfl, fun _ _ h => by cases h⟩
  next key href =>
  have href : ici.spec.bareMetalHostRef = some key := Option.eq_some_of_filter_eq_some href
  refine Meets.seq (tries_getBMH (Q := fun bmh w' => w' = w ∧ w.bmhs key = some bmh)
    (R := fun _ w' => w' = w) (rules.call (.read rfl)) (fun _ h => ⟨rfl, h⟩) (fun _ => rfl)
    fun _ => rfl) ?_
  rintro (e | bmh) w₁ hr
  · obtain rfl : w₁ = w := hr
    exact meets_ret.2 ⟨.refl .., rfl, fun _ _ h => by cases h⟩
  obtain ⟨rfl, hb⟩ := hr
  dsimp only
  split
  · next hmode =>
    refine meets_ret.2 ⟨.refl .., rfl, fun _ _ heq => ?_⟩
    cases heq
    exact ⟨href, hb, hmode, hkept⟩
  · refine Meets.seq (meets_once rules (.disableCleaning h href hb)
      (Meets.and (patchBMH_stored hb (by simp [BareMetalHost.merge]))
        (patchBMH_kept hkept hb (by simp [BareMetalHost.merge, BareMetalHost.inspected])))) ?_
    rintro ⟨bmh', r⟩ w₂ ⟨hf, h₂, hkept₂⟩
    cases r with
    | error e => exact meets_ret.2 ⟨hf, rfl, fun _ _ h => by cases h⟩
    | ok _ =>
      obtain ⟨rfl, hb₂⟩ := h₂ rfl
      refine meets_ret.2 ⟨hf, rfl, fun _ _ heq => ?_⟩
      cases heq
      exact ⟨href, hb₂, rfl, hkept₂⟩

omit [DecidableEq B] rules h in
theorem validateBMH_status (E : Env B) (s : Spec) (key : NamespacedName) (bmh : BareMetalHost)
    (cond : Condition) : (validateBMH E s key bmh cond).1.status = cond.status := by
  unfold validateBMH
  repeat' split
  all_goals rfl

omit [DecidableEq B] rules h in
/-- A host that may go on has been checked. -/
theorem hostChecked_of_validateBMH {s : Spec} {cond' : Condition} {res : Result}
    (hv : validateBMH E s key bmh cond = (cond', .ok res)) (hres : res.isZero = true) :
    HostChecked E s bmh := by
  unfold validateBMH at hv
  split at hv
  · next hext => exact .inl hext
  split at hv
  · next hins => exact .inr (.inl (by simpa using hins))
  split at hv
  · cases hv
    cases hres
  split at hv
  · cases hv
    cases hres
  next nics hnics =>
  split at hv
  · cases hv
  · next hok => exact .inr (.inr ⟨nics, hnics, hok⟩)

/-- The host is externally provisioned once it passed, and its cleaning mode is kept. -/
theorem validateHost_pass (href : ici.spec.bareMetalHostRef = some key)
    (hb : w.bmhs key = some bmh) :
    Meets (Running ok guar) (validateHost E ici.spec key bmh cond)
      (fun r w' => Framed [.bmh] w w' ∧ r.2.1.status = cond.status ∧
        ∀ res, r.2.2 = .ok res → res.isZero = true → HostChecked E ici.spec bmh ∧
          w'.bmhs key = some r.1 ∧ r.1 = { bmh with externallyProvisioned := true }) w := by
  have hstatus := validateBMH_status E ici.spec key bmh cond
  unfold validateHost
  split
  · next cond' e heq =>
    rw [heq] at hstatus
    exact meets_ret.2 ⟨.refl .., hstatus, fun _ h => by cases h⟩
  next cond' res heq =>
  rw [heq] at hstatus
  split
  · next hres =>
    refine meets_ret.2 ⟨.refl .., hstatus, fun _ h hz => ?_⟩
    cases h
    rw [hz] at hres
    cases hres
  next hres =>
  have hcheck := hostChecked_of_validateBMH heq (by simpa using hres)
  split
  · next hext =>
    refine meets_ret.2 ⟨.refl .., hstatus, fun _ _ _ => ⟨hcheck, hb, ?_⟩⟩
    rw [← hext]
  next hext =>
  refine Meets.seq (meets_once rules (.provision h href hb (by simpa using hext) hcheck)
    (patchBMH_stored hb (by simp [BareMetalHost.merge]))) ?_
  rintro ⟨bmh', r⟩ w₂ ⟨hf, h₂⟩
  cases r with
  | error e => exact meets_ret.2 ⟨hf, hstatus, fun _ h => by cases h⟩
  | ok _ =>
    obtain ⟨rfl, hb₂⟩ := h₂ rfl
    exact meets_ret.2 ⟨hf, hstatus, fun _ _ _ => ⟨hcheck, hb₂, rfl⟩⟩

end Host

end ImageBasedInstall

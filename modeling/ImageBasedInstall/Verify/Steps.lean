import ImageBasedInstall.Verify.Build

/-!
# What one call of a pass can do

`PassStep E req w w'` is the inventory of the changes that a single call of a reconciler pass over
`req` can make, when the pass runs alone: a host becomes managed, and a boot time is set, only when
everything is in place (`Prepared`); a `DataImage` appears only for the host the object names, under
the object's own URL; specs, UIDs and deletion marks are kept; the deprovision finalizer goes only
after the cleanup (`Cleaned`); an ISO appears only in the object's work directory, built from its
spec. Calls that do none of this whatever the world are *quiet*.
-/

namespace ImageBasedInstall

open Interactive Patch

variable {B : Type} {α : Type}

/-! ## Assertions -/

/-- The object without its conditions. -/
def ImageClusterInstall.core (ici : ImageClusterInstall) : ImageClusterInstall :=
  ici.withConditions []

/-- The object in memory is the stored one, up to the conditions. -/
def Synced (req : NamespacedName) (ici : ImageClusterInstall) (w : World B) : Prop :=
  ∃ stored, w.icis req = some stored ∧ stored.core = ici.core

/-- The host carries the managed annotation. -/
def Managed (host : NamespacedName) (w : World B) : Prop :=
  ∃ bmh, w.bmhs host = some bmh ∧ annotationExists bmh.annotations ibioManagedBMH = true

/-- The host's disk is not cleaned and the host is externally provisioned. -/
def HostReady (host : NamespacedName) (w : World B) : Prop :=
  ∃ bmh, w.bmhs host = some bmh ∧ bmh.automatedCleaningMode = .disabled ∧
    bmh.externallyProvisioned = true

/-- The host has a `DataImage` that stays and has cooled down. -/
def Attached (E : Env B) (host : NamespacedName) (w : World B) : Prop :=
  ∃ d, w.dataImages host = some d ∧ d.deletionTimestamp = none ∧
    d.creationTimestamp + E.dataImageCoolDownPeriod ≤ w.clock

/-- The metadata is complete and names the two secrets of the cluster deployment. -/
def MetadataSet (cdName : String) (ici : ImageClusterInstall) : Prop :=
  ∃ m, ici.spec.clusterMetadata = some m ∧ m.clusterID ≠ "" ∧ m.infraID ≠ "" ∧
    m.adminKubeconfigSecretRef = kubeconfigSecretName cdName ∧
    m.adminPasswordSecretRef = some (kubeadminPasswordSecretName cdName)

/-- The object carries its finalizer and both annotations. -/
structure Annotated (ici : ImageClusterInstall) : Prop where
  undeleted : ici.deletionTimestamp = none
  finalizer : clusterInstallFinalizerName ∈ ici.finalizers
  restoreStatus : annotationExists ici.annotations restoreStatusAnnotation = true
  postCleanup : annotationExists ici.annotations postCleanupAnnotation = true

/-- The object names the host and the cluster deployment and is complete. -/
structure ObjectReady (host : NamespacedName) (cdName : String) (ici : ImageClusterInstall) : Prop
    extends Annotated ici where
  metadata : MetadataSet cdName ici
  hostRef : ici.spec.bareMetalHostRef = some host
  cdRef : ici.spec.clusterDeploymentRef = some cdName

/-- Everything the installation of `req` on `host` needs is in place. -/
structure Prepared (E : Env B) (req host : NamespacedName) (w : World B) : Prop where
  object : ∃ ici cdName, w.icis req = some ici ∧ ObjectReady host cdName ici ∧
    ImageReady ⟨req.ns, cdName⟩ (getClusterConfigDir req.ns ici.uid) w
  hostReady : HostReady host w
  attached : Attached E host w

/-- Everything below the directory of an object is gone. -/
def DirGone (ns uid : String) (w : World B) : Prop :=
  ∀ p : Path, p.within (lockDirOf ns uid) = true → w.fs p = none

/-- The `DataImage` of a host is gone, or marked for deletion. -/
def ImageGone (host : NamespacedName) (w : World B) : Prop :=
  ∀ d, w.dataImages host = some d → d.deletionTimestamp.isSome = true

theorem ImageGone.of_delete {w w' : World B} {host : NamespacedName} {t : Time}
    (h : w'.dataImages host = (w.dataImages host).bind (·.delete t)) : ImageGone host w' := by
  intro d' hd'
  rw [h] at hd'
  obtain ⟨d, -, hdelete⟩ := Option.bind_eq_some_iff.1 hd'
  rw [DataImage.delete_some hdelete]
  rfl

theorem ImageGone.delete {w : World B} {host : NamespacedName} {image : DataImage}
    (h : w.dataImages host = some image) :
    ImageGone host (w.setDataImage host (image.delete w.clock)) :=
  .of_delete (w := w) (t := w.clock) (by simp [World.setDataImage, h])

/-- The directory of the object and the `DataImage` of the host it names are gone. -/
structure Cleaned (req : NamespacedName) (ici : ImageClusterInstall) (w : World B) : Prop where
  directory : DirGone req.ns ici.uid w
  dataImage : ∀ host, ici.spec.bareMetalHostRef = some host → ImageGone host w

/-! ## The inventory -/

/-- A boot time appears only on a managed host with everything in place, and the finalizer goes only
after the cleanup. -/
structure IciStep (E : Env B) (req : NamespacedName) (w w' : World B) : Prop where
  kept : ∀ k ici', w'.icis k = some ici' → ∃ ici, w.icis k = some ici ∧ ici'.uid = ici.uid ∧
    ici'.spec.configured = ici.spec.configured ∧ ici'.deletionTimestamp = ici.deletionTimestamp ∧
    (ici'.status.bootTime = ici.status.bootTime ∨
      k = req ∧ ∃ host, Prepared E req host w' ∧ Managed host w')
  finalizer : ∀ k ici, w.icis k = some ici → clusterInstallFinalizerName ∈ ici.finalizers →
    (∃ ici', w'.icis k = some ici' ∧ clusterInstallFinalizerName ∈ ici'.finalizers) ∨
      k = req ∧ Cleaned req ici w'

/-- A host becomes managed only with everything in place. -/
def HostStep (E : Env B) (req : NamespacedName) (w w' : World B) : Prop :=
  ∀ host, Managed host w' → Managed host w ∨ Prepared E req host w'

/-- A `DataImage` is kept, marked, or created for the host the object names. -/
def ImageStep (E : Env B) (req : NamespacedName) (w w' : World B) : Prop :=
  ∀ host d', w'.dataImages host = some d' → w.dataImages host = some d' ∨
    (∃ d, w.dataImages host = some d ∧ d'.url = d.url ∧ d'.deletionTimestamp.isSome = true) ∨
    ∃ ici, w'.icis req = some ici ∧ d'.url = imageURL E req.ns ici.uid ∧
      ici.spec.bareMetalHostRef = some host ∧ clusterInstallFinalizerName ∈ ici.finalizers

/-- The ISO of an object. -/
def isoFile (ns uid : String) : Path := (getClusterConfigDir ns uid).join isoPath

/-- An ISO is kept, or built from the object's spec in its work directory. -/
def IsoStep (req : NamespacedName) (w w' : World B) : Prop :=
  ∀ p i b, w'.fs p = some (.iso i b) → w.fs p = some (.iso i b) ∨
    ∃ ici, w'.icis req = some ici ∧ p = isoFile req.ns ici.uid ∧
      b.configured = ici.spec.configured

structure PassStep (E : Env B) (req : NamespacedName) (w w' : World B) : Prop where
  icis : IciStep E req w w'
  hosts : HostStep E req w w'
  dataImages : ImageStep E req w w'
  isos : IsoStep req w w'

section Inventory

variable {E : Env B} {req : NamespacedName} {w w' : World B}

theorem IciStep.of_eq (h : w'.icis = w.icis) : IciStep E req w w' where
  kept _ ici' hk := ⟨ici', h ▸ hk, rfl, rfl, rfl, .inl rfl⟩
  finalizer _ ici hk hf := .inl ⟨ici, h ▸ hk, hf⟩

theorem HostStep.of_eq (h : w'.bmhs = w.bmhs) : HostStep E req w w' := by
  rintro host ⟨bmh, hb, hm⟩
  exact .inl ⟨bmh, h ▸ hb, hm⟩

theorem ImageStep.of_eq (h : w'.dataImages = w.dataImages) : ImageStep E req w w' :=
  fun _ _ hd => .inl (h ▸ hd)

/-- Only the parts a call targets have to be looked at. -/
theorem PassStep.of_framed {S : List Target} (h : Framed S w w')
    (hici : .ici ∈ S → IciStep E req w w') (hbmh : .bmh ∈ S → HostStep E req w w')
    (himg : .dataImage ∈ S → ImageStep E req w w') (hiso : .iso ∈ S → IsoStep req w w') :
    PassStep E req w w' where
  icis := by
    by_cases hS : .ici ∈ S
    · exact hici hS
    · exact .of_eq (h.icis hS)
  hosts := by
    by_cases hS : .bmh ∈ S
    · exact hbmh hS
    · exact .of_eq (h.bmhs hS)
  dataImages := by
    by_cases hS : .dataImage ∈ S
    · exact himg hS
    · exact .of_eq (h.dataImages hS)
  isos := by
    by_cases hS : .iso ∈ S
    · exact hiso hS
    · exact fun p i b hp => .inl (h.isos hS p i b hp)

end Inventory

/-! ## Quiet calls -/

/-- Calls that boot nothing, attach nothing and build nothing, whatever the world: reads, writes of
plain files, secrets and config maps, removals of `DataImage`s, and patches that keep the configured
spec and the finalizer, the boot time, or the managed annotation. -/
def Op.Quiet : Op B → Prop
  | .patchICI _ base new =>
    new.spec.configured = base.spec.configured ∧ clusterInstallFinalizerName ∈ new.finalizers
  | .patchICIStatus _ base new => new.status.bootTime = base.status.bootTime
  | .patchBMH _ base new => new.annotations ibioManagedBMH = base.annotations ibioManagedBMH
  | .createDataImage .. | .writeIso .. => False
  | _ => True

theorem quiet_of_target {op : Op B}
    (h : op.target ∈ [.nothing, .file, .secret, .configMap]) : op.Quiet := by
  cases op <;> trivial

/-- The form in which footprints ask for it. -/
theorem quiet_in {S : List Target} {T : Target} (hT : T ∈ [.nothing, .file, .secret, .configMap])
    (hS : T ∈ S) (op : Op B) (h : op.target = T) : op.Quiet ∧ op.target ∈ S :=
  ⟨quiet_of_target (h ▸ hT), h ▸ hS⟩

theorem Spec.merge_configured {base new : Spec} (h : new.configured = base.configured)
    (stored : Spec) : (Spec.merge base new stored).configured = stored.configured := by
  obtain ⟨⟩ := base
  obtain ⟨⟩ := new
  simp only [Spec.configured, Spec.mk.injEq, true_and] at h
  simp [Spec.configured, Spec.merge, h]

section Quiet

variable {E : Env B} {req : NamespacedName} {w w' : World B} {key : NamespacedName}

theorem IciStep.patch {base new : ImageClusterInstall} {stored : ImageClusterInstall}
    (hs : w.icis key = some stored) (hspec : new.spec.configured = base.spec.configured)
    (hfin : clusterInstallFinalizerName ∈ new.finalizers) :
    IciStep E req w (w.setICI key (ImageClusterInstall.merge base new stored).remains) := by
  have hmerged : clusterInstallFinalizerName ∈ stored.finalizers →
      clusterInstallFinalizerName ∈ (ImageClusterInstall.merge base new stored).finalizers := by
    intro h
    rcases mergeField_cases base.finalizers new.finalizers stored.finalizers with ⟨-, he⟩ | ⟨-, he⟩
    · simpa [ImageClusterInstall.merge, he] using h
    · simpa [ImageClusterInstall.merge, he] using hfin
  constructor
  · intro k ici' hk
    simp only [World.setICI, Function.update_apply] at hk
    split at hk
    · next heq =>
      subst heq
      have : ici' = ImageClusterInstall.merge base new stored := by
        unfold ImageClusterInstall.remains at hk
        split at hk
        · cases hk
        · exact (Option.some.inj hk).symm
      subst this
      exact ⟨stored, hs, rfl, Spec.merge_configured hspec _, rfl, .inl rfl⟩
    · exact ⟨ici', hk, rfl, rfl, rfl, .inl rfl⟩
  · intro k ici hk hf
    by_cases heq : k = key
    · subst heq
      obtain rfl : stored = ici := Option.some.inj (hs.symm.trans hk)
      refine .inl ⟨_, ?_, hmerged hf⟩
      have hne : (ImageClusterInstall.merge base new stored).finalizers ≠ [] :=
        List.ne_nil_of_mem (hmerged hf)
      simp [World.setICI, ImageClusterInstall.remains, hne]
    · exact .inl ⟨ici, by simpa [World.setICI, heq] using hk, hf⟩

theorem IciStep.patchStatus {base new : ImageClusterInstall} {stored : ImageClusterInstall}
    (hs : w.icis key = some stored)
    (hboot : (ImageClusterInstall.mergeStatus base new stored).status.bootTime =
        stored.status.bootTime ∨
      key = req ∧ ∃ host,
        Prepared E req host (w.setICI key (some (.mergeStatus base new stored))) ∧
        Managed host (w.setICI key (some (.mergeStatus base new stored)))) :
    IciStep E req w (w.setICI key (some (.mergeStatus base new stored))) := by
  constructor
  · intro k ici' hk
    by_cases heq : k = key
    · subst heq
      obtain rfl : ImageClusterInstall.mergeStatus base new stored = ici' := by
        simpa [World.setICI] using hk
      exact ⟨stored, hs, rfl, rfl, rfl, hboot⟩
    · exact ⟨ici', by simpa [World.setICI, heq] using hk, rfl, rfl, rfl, .inl rfl⟩
  · intro k ici hk hf
    by_cases heq : k = key
    · subst heq
      obtain rfl : stored = ici := Option.some.inj (hs.symm.trans hk)
      exact .inl ⟨.mergeStatus base new stored, by simp [World.setICI], hf⟩
    · exact .inl ⟨ici, by simpa [World.setICI, heq] using hk, hf⟩

theorem HostStep.patch {base new stored : BareMetalHost} (hs : w.bmhs key = some stored)
    (hm : new.annotations ibioManagedBMH = base.annotations ibioManagedBMH) :
    HostStep E req w (w.setBMH key (.merge base new stored)) := by
  rintro host ⟨bmh, hb, hb'⟩
  by_cases heq : host = key
  · subst heq
    obtain rfl : BareMetalHost.merge base new stored = bmh := by simpa [World.setBMH] using hb
    refine .inl ⟨stored, hs, ?_⟩
    simpa [annotationExists, BareMetalHost.merge, mergeMap_apply, hm] using hb'
  · exact .inl ⟨bmh, by simpa [World.setBMH, heq] using hb, hb'⟩

theorem ImageStep.delete {image : DataImage} (hs : w.dataImages key = some image) :
    ImageStep E req w (w.setDataImage key (image.delete w.clock)) := by
  intro host d' hd
  by_cases heq : host = key
  · subst heq
    have hd : image.delete w.clock = some d' := by simpa [World.setDataImage] using hd
    obtain rfl := DataImage.delete_some hd
    exact .inr (.inl ⟨image, hs, rfl, rfl⟩)
  · exact .inl (by simpa [World.setDataImage, heq] using hd)

/-- A quiet call is in the inventory of every pass. -/
theorem passStep_of_quiet {op : Op B} {c : Choice B} {r : Resp op} (h : answer op c w = (r, w'))
    (hq : op.Quiet) : PassStep E req w w' := by
  cases op with
  | patchICI key base new =>
    refine .of_framed (answer_framed h) (fun _ => ?_) ?_ ?_ ?_
    · cases answer_patchICI h with
      | stored a ha => exact .patch ha hq.1 hq.2
      | lost a ha e => exact .patch ha hq.1 hq.2
      | failed e => exact .of_eq rfl
    all_goals simp [Op.target]
  | patchICIStatus key base new =>
    refine .of_framed (answer_framed h) (fun _ => ?_) ?_ ?_ ?_
    · have hboot : ∀ stored : ImageClusterInstall,
          (ImageClusterInstall.mergeStatus base new stored).status.bootTime =
            stored.status.bootTime := fun stored => by
        simp only [ImageClusterInstall.mergeStatus, Status.merge]
        rw [show new.status.bootTime = base.status.bootTime from hq, mergeField_unchanged]
      cases answer_patchICIStatus h with
      | stored a ha => exact .patchStatus ha (.inl (hboot a))
      | lost a ha e => exact .patchStatus ha (.inl (hboot a))
      | failed e => exact .of_eq rfl
    all_goals simp [Op.target]
  | patchBMH key base new =>
    refine .of_framed (answer_framed h) ?_ (fun _ => ?_) ?_ ?_
    · simp [Op.target]
    · cases answer_patchBMH h with
      | stored a ha => exact .patch ha hq
      | lost a ha e => exact .patch ha hq
      | failed e => exact .of_eq rfl
    all_goals simp [Op.target]
  | deleteDataImage key =>
    refine .of_framed (answer_framed h) ?_ ?_ (fun _ => ?_) ?_
    · simp [Op.target]
    · simp [Op.target]
    · obtain ⟨image, hi, rfl⟩ | ⟨rfl, -⟩ := answer_deleteDataImage h
      · exact .delete hi
      · exact .of_eq rfl
    · simp [Op.target]
  | createDataImage key url => exact hq.elim
  | writeIso path image builtFrom => exact hq.elim
  | _ => refine .of_framed (answer_framed h) ?_ ?_ ?_ ?_ <;> simp [Op.target]

end Quiet

/-- The contract of a pass over `req` that runs alone. -/
abbrev Pass (E : Env B) (req : NamespacedName)
    (ok : World B → (op : Op B) → Resp op → World B → Prop) : Contract (Op B) Resp (World B) :=
  Atomic ok (PassStep E req)

end ImageBasedInstall

import ImageBasedInstall.Verify.Steps

/-!
# The calls of a pass

`PassCall E req w₀ w op`: a pass over `req` that started in `w₀` and runs alone can make the call
`op` in `w`. Each constructor is one place of the source, with what the pass knows there: what it
read at its start, that its copy of the object is the stored one, what it has checked. The build of
the image is one block, entered from `BuildStart`. `Guarded` says that every such call and block
meets a guarantee; the modules that follow carry it through the pass once and for all, and each
property of passes is an instance.
-/

namespace ImageBasedInstall

open Interactive Patch

variable {B : Type} {α : Type}

/-! ## What a pass knows -/

/-- The pass goes on with the installation of the object it read. -/
structure Undertaken (ici : ImageClusterInstall) : Prop where
  undeleted : ici.deletionTimestamp = none
  finalizer : clusterInstallFinalizerName ∈ ici.finalizers
  incomplete : installationCompleted ici = false
  unrestored : iciIsBeingRestored ici = false

/-- The object read at the start is one whose installation goes on. -/
def Installs (req : NamespacedName) (w₀ : World B) : Prop :=
  ∃ ici₀, w₀.icis req = some ici₀ ∧ Undertaken ici₀

/-- The copy in memory: it goes back to the object read, and is the stored one up to conditions. -/
structure InHand (req : NamespacedName) (w₀ w : World B) (ici : ImageClusterInstall) : Prop where
  origin : ∃ ici₀, w₀.icis req = some ici₀ ∧ Undertaken ici₀ ∧ ici.uid = ici₀.uid ∧
    ici.spec.configured = ici₀.spec.configured
  synced : Synced req ici w
  undeleted : ici.deletionTimestamp = none
  finalizer : clusterInstallFinalizerName ∈ ici.finalizers

theorem InHand.installs {req : NamespacedName} {w₀ w : World B} {ici : ImageClusterInstall}
    (h : InHand req w₀ w ici) : Installs req w₀ := by
  obtain ⟨ici₀, hs, hu, -⟩ := h.origin
  exact ⟨ici₀, hs, hu⟩

/-- The object read names the host and is being deleted, or is completed and asks for the
cleanup. -/
def Discards (req host : NamespacedName) (w₀ : World B) : Prop :=
  ∃ ici, w₀.icis req = some ici ∧ ici.spec.bareMetalHostRef = some host ∧
    (ici.deletionTimestamp.isSome = true ∨
      installationCompleted ici = true ∧
        annotationExists ici.annotations postCleanupAnnotation = true)

/-- The host passes its validation, or is exempt from it. -/
def HostChecked (E : Env B) (s : Spec) (bmh : BareMetalHost) : Prop :=
  bmh.externallyProvisioned = true ∨ isInspectionEnabled bmh = false ∨
    ∃ nics, bmh.hardwareDetails = some nics ∧
      validateBMHMachineNetworks E s.machineNetwork s.machineNetworks nics = .ok ()

/-- The host as its validation sees it. -/
def BareMetalHost.inspected (bmh : BareMetalHost) : BareMetalHost :=
  { bmh with labels := fun _ => none, automatedCleaningMode := .disabled }

/-- Hosts differ in their labels and cleaning modes at most. -/
def HostsKept (w₀ w : World B) : Prop :=
  ∀ key, (w.bmhs key).map BareMetalHost.inspected = (w₀.bmhs key).map BareMetalHost.inspected

/-- What the cache shows of a secret: its data, if it is labelled. -/
def Secret.shown (s : Secret B) : List (String × B) × Bool := (s.data, s.isCached)

/-- The cache shows the same of every secret. -/
def ShownKept (w₀ w : World B) : Prop :=
  ∀ key, (w.secrets key).map Secret.shown = (w₀.secrets key).map Secret.shown

/-- The IDs that the cache shows in the seed reconfiguration secret, empty if there is none; `none`
if the secret cannot be decoded. -/
def seedIDs (E : Env B) (cd : NamespacedName) (w : World B) : Option (String × String) :=
  match ((w.secrets (seedReconfigurationSecret.key cd)).filter Secret.isCached).bind fun s =>
      (s.get seedReconfigurationFileName).filter fun b => !E.isEmpty b with
  | none => some ("", "")
  | some data => (E.unmarshalSeed data).map fun seed => (seed.clusterID, seed.infraID)

/-- An ID: the current one, else the recorded one, else any that is not empty. -/
structure Chosen (current recorded id : String) : Prop where
  nonempty : id ≠ ""
  kept : current ≠ "" → id = current
  restored : current = "" → recorded ≠ "" → id = recorded

/-- The metadata `m` completes that of the object. -/
structure Describes (E : Env B) (cd : NamespacedName) (old : Option ClusterMetadata)
    (m : ClusterMetadata) (w : World B) : Prop where
  ids : ∃ ids, seedIDs E cd w = some ids ∧
    Chosen ((old.map (·.clusterID)).getD "") ids.1 m.clusterID ∧
    Chosen ((old.map (·.infraID)).getD "") ids.2 m.infraID
  kubeconfig : m.adminKubeconfigSecretRef = kubeconfigSecretName cd.name
  password : m.adminPasswordSecretRef = some (kubeadminPasswordSecretName cd.name)

/-! ## The calls -/

/-- The calls outside the build. -/
inductive PassCall (E : Env B) (req : NamespacedName) (w₀ w : World B) : Op B → Prop where
  | read {op : Op B} (h : op.target = .nothing) : PassCall E req w₀ w op
  | addFinalizer {ici : ImageClusterInstall} (hs : w.icis req = some ici)
    (hdel : ici.deletionTimestamp = none) :
    PassCall E req w₀ w (.patchICI req ici
      { ici with finalizers := ici.finalizers ++ [clusterInstallFinalizerName] })
  | tidy {op : Op B} {ici : ImageClusterInstall} (hs : w.icis req = some ici)
    (hdel : ici.deletionTimestamp.isSome = true) (h : Tidies E (lockDirOf req.ns ici.uid) op) :
    PassCall E req w₀ w op
  | removeFinalizer {ici : ImageClusterInstall} (hs : w.icis req = some ici)
    (hdel : ici.deletionTimestamp.isSome = true) (hclean : Cleaned req ici w) :
    PassCall E req w₀ w (.patchICI req ici
      { ici with finalizers := ici.finalizers.filter (· ≠ clusterInstallFinalizerName) })
  | deleteImage {host : NamespacedName} {d : DataImage} (hwhy : Discards req host w₀)
    (hw : w.dataImages = w₀.dataImages) (hd : w.dataImages host = some d) :
    PassCall E req w₀ w (.deleteDataImage host)
  | reboot {host : NamespacedName} {bmh : BareMetalHost} {d : DataImage}
    (hwhy : Discards req host w₀) (hd : w₀.dataImages host = some d) (hgone : ImageGone host w)
    (hb : w.bmhs host = some bmh) (hno : bmh.annotations rebootAnnotation = none) :
    PassCall E req w₀ w (.patchBMH host bmh { bmh with
      annotations := Function.update bmh.annotations rebootAnnotation
        (some rebootAnnotationValue) })
  | labelConfigMap {key : NamespacedName} {cm : ConfigMap} {labels : String → Option String}
    (hs : w.configMaps key = some cm) (hl : setBackupLabel cm.labels = some labels) :
    PassCall E req w₀ w (.patchConfigMap key cm { cm with labels })
  | labelSecret {key : NamespacedName} {s : Secret B} {labels : String → Option String}
    (hs : w.secrets key = some s) (hl : setBackupLabel s.labels = some labels) :
    PassCall E req w₀ w (.patchSecret key s { s with labels })
  | labelHost {key : NamespacedName} {bmh : BareMetalHost} {labels : String → Option String}
    (hs : w.bmhs key = some bmh) (hl : setBackupLabel bmh.labels = some labels) :
    PassCall E req w₀ w (.patchBMH key bmh { bmh with labels })
  | annotate {ici : ImageClusterInstall} {annotations : String → Option String}
    (h : InHand req w₀ w ici) : PassCall E req w₀ w (.patchICI req ici { ici with annotations })
  | conditions {ici : ImageClusterInstall} (h : Installs req w₀) (conds : List Condition) :
    PassCall E req w₀ w (.patchICIStatus req ici (ici.withConditions conds))
  | disableCleaning {ici : ImageClusterInstall} {host : NamespacedName} {bmh : BareMetalHost}
    (h : InHand req w₀ w ici) (href : ici.spec.bareMetalHostRef = some host)
    (hb : w.bmhs host = some bmh) :
    PassCall E req w₀ w (.patchBMH host bmh { bmh with automatedCleaningMode := .disabled })
  | provision {ici : ImageClusterInstall} {host : NamespacedName} {bmh : BareMetalHost}
    (h : InHand req w₀ w ici) (href : ici.spec.bareMetalHostRef = some host)
    (hb : w.bmhs host = some bmh) (hnew : bmh.externallyProvisioned = false)
    (hcheck : HostChecked E ici.spec bmh) :
    PassCall E req w₀ w (.patchBMH host bmh { bmh with externallyProvisioned := true })
  | describe {ici : ImageClusterInstall} {cd : NamespacedName} {m : ClusterMetadata}
    (h : InHand req w₀ w ici) (hns : cd.ns = req.ns)
    (href : ici.spec.clusterDeploymentRef = some cd.name)
    (hnew : metadataIsCurrent cd.name ici.spec.clusterMetadata = .ok false)
    (hm : Describes E cd ici.spec.clusterMetadata m w) :
    PassCall E req w₀ w (.patchICI req ici
      { ici with spec := { ici.spec with clusterMetadata := some m } })
  | createImage {ici : ImageClusterInstall} {host : NamespacedName} (h : InHand req w₀ w ici)
    (href : ici.spec.bareMetalHostRef = some host) :
    PassCall E req w₀ w (.createDataImage host (imageURL E req.ns ici.uid))
  | manage {ici : ImageClusterInstall} {host : NamespacedName} {bmh : BareMetalHost}
    {d : DataImage} (h : InHand req w₀ w ici) (hprep : Prepared E req host w)
    (hb : w.bmhs host = some bmh)
    (hnew : annotationExists bmh.annotations ibioManagedBMH = false) :
    PassCall E req w₀ w (.patchBMH host bmh (bmh.booted d))
  | boot {ici : ImageClusterInstall} {host : NamespacedName} {t : Time} (h : InHand req w₀ w ici)
    (href : ici.spec.bareMetalHostRef = some host) (hprep : Prepared E req host w)
    (hman : Managed host w) (hnew : ici.status.bareMetalHostRef = none)
    (ht : ∀ t', ici.status.bootTime = some t' → t = t') :
    PassCall E req w₀ w (.patchICIStatus req ici { ici with
      status := { ici.status with
        bareMetalHostRef := ici.spec.bareMetalHostRef
        bootTime := some t } })

/-- What holds when the build of the image starts. -/
structure BuildStart (E : Env B) (req : NamespacedName) (w₀ w : World B) (inp : BuildInput)
    (uid : String) : Prop where
  ns : inp.ns = req.ns
  cdNs : inp.cdKey.ns = req.ns
  object : ∃ ici, InHand req w₀ w ici ∧ inp.spec = ici.spec ∧ uid = ici.uid ∧
    ObjectReady inp.bmhKey inp.cdKey.name ici
  host : w.bmhs inp.bmhKey = some inp.bmh
  provisioned : inp.bmh.externallyProvisioned = true
  checked : ∃ bmh, w₀.bmhs inp.bmhKey = some bmh ∧ HostChecked E inp.spec bmh ∧
    bmh.hardwareDetails = inp.bmh.hardwareDetails
  files : w.fs = w₀.fs

/-- Every call of a pass over `req` from `w₀` meets the guarantee. -/
structure Guarded [DecidableEq B] (E : Env B) (req : NamespacedName) (w₀ : World B)
    (ok guar : World B → (op : Op B) → Resp op → World B → Prop) : Prop where
  call : ∀ {w op}, PassCall E req w₀ w op → Permits ok guar w op
  build : ∀ {w inp uid}, BuildStart E req w₀ w inp uid →
    Meets (Running ok guar) (writeInputData E inp uid).run (fun _ _ => True) w

/-! ## Rules -/

section Rules

variable [DecidableEq B] {E : Env B} {req : NamespacedName} {w₀ w : World B}
  {ok guar : World B → (op : Op B) → Resp op → World B → Prop} {p : Program B α}
  {Q Q' : α → World B → Prop}

omit [DecidableEq B] in
/-- What a program establishes does not depend on its guarantee. -/
theorem meets_alone (h : Meets (Running ok guar) p Q w) (h' : Meets (Alone ok) p Q' w) :
    Meets (Running ok guar) p (fun a w' => Q a w' ∧ Q' a w') w :=
  (Meets.both h h').guar_mono fun _ _ _ _ hg => hg.1

omit [DecidableEq B] in
/-- A program all of whose calls meet the guarantee. -/
theorem meets_permitted {A : Op B → Prop} {I : World B → Prop} (hp : p.Uses A)
    (hA : ∀ w op, I w → A op → Permits ok guar w op)
    (hI : ∀ {w op c r w'}, I w → A op → answer op c w = (r, w') → I w') (hw : I w) :
    Meets (Running ok guar) p (fun _ w' => I w') w := by
  refine Meets.of_uses hp (fun _ _ h hr => hr ▸ h) ?_ hw
  rintro op w₁ r w₂ hop hw₁ ⟨⟨c, hc⟩, ho⟩
  exact ⟨hA w₁ op hw₁ hop _ _ _ hc ho, hI hw₁ hop hc⟩

omit [DecidableEq B] in
/-- A program that only reads. -/
theorem meets_reading (hr : ∀ {w op}, op.target = .nothing → Permits ok guar w op)
    (hp : p.Uses fun op => op.target = .nothing) (hQ : Meets (Alone ok) p Q w) :
    Meets (Running ok guar) p (fun a w' => Framed [] w w' ∧ Q a w') w := by
  refine meets_alone (meets_permitted (I := fun w' => Framed [] w w') hp
    (fun _ _ _ h => hr h) (fun hI ht hc => ?_) (.refl ..)) hQ
  exact hI.trans ((answer_framed hc).of_nothing ht)

/-- A program all of whose calls are calls of the pass. -/
theorem meets_calls (rules : Guarded E req w₀ ok guar) {A : Op B → Prop} {I : World B → Prop}
    (hp : p.Uses A) (hA : ∀ w op, I w → A op → PassCall E req w₀ w op)
    (hI : ∀ {w op c r w'}, I w → A op → answer op c w = (r, w') → I w') (hw : I w) :
    Meets (Running ok guar) p (fun _ w' => I w') w :=
  meets_permitted hp (fun w op hw hop => rules.call (hA w op hw hop)) hI hw

theorem meets_reads (rules : Guarded E req w₀ ok guar)
    (hp : p.Uses fun op => op.target = .nothing) (hQ : Meets (Alone ok) p Q w) :
    Meets (Running ok guar) p (fun a w' => Framed [] w w' ∧ Q a w') w :=
  meets_reading (fun h => rules.call (.read h)) hp hQ

/-- One call of the pass, and nothing after it. -/
theorem meets_once (rules : Guarded E req w₀ ok guar) {op : Op B} {k : Resp op → Program B α}
    (hop : PassCall E req w₀ w op) (hQ : Meets (Alone ok) (.call op k) Q w)
    (hk : ∀ r, (k r).Uses fun _ => False := by exact fun _ => trivial) :
    Meets (Running ok guar) (.call op k) (fun a w' => Framed [op.target] w w' ∧ Q a w') w := by
  refine meets_alone (meets_call fun c r w' hc ho => ⟨rules.call hop _ _ _ hc ho, ?_⟩) hQ
  refine Meets.of_uses (I := fun w' => Framed [op.target] w w') (hk r) (fun _ _ h hr => hr ▸ h)
    (fun _ _ _ _ h => h.elim) (answer_framed hc)

/-- A guarantee of the calls that every file, secret or ISO operation gives as well. -/
theorem Guarded.of_calls (hcall : ∀ {w op}, PassCall E req w₀ w op → Permits ok guar w op)
    (hbuild : ∀ {w op}, op.target ∈ [.nothing, .file, .secret, .iso] → Permits ok guar w op) :
    Guarded E req w₀ ok guar := by
  refine ⟨hcall, fun {w inp uid} _ => ?_⟩
  exact meets_permits (writeInputData_targets E inp uid) fun _ _ hop => hbuild hop

end Rules

end ImageBasedInstall

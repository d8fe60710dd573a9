import ImageBasedInstall.Verify.Boot
import ImageBasedInstall.Verify.Interleaving

/-!
# Cluster IDs

`setClusterInstallMetadata` keeps the IDs of the object, else takes those of the seed
reconfiguration secret of the cluster deployment, else makes new ones. The secret is read through
the cache, which shows labelled secrets only; the operator labels the secrets it writes and never
takes the label off.
-/

namespace ImageBasedInstall

open Interactive Patch

variable {B : Type} {E : Env B} {req cd : NamespacedName} {w₀ w w' : World B}

/-! ## A nil return -/

theorem metadataIsCurrent_of_set {cdName : String} {ici : ImageClusterInstall}
    (h : MetadataSet cdName ici) :
    metadataIsCurrent cdName ici.spec.clusterMetadata = .ok true := by
  obtain ⟨m, hm, hcluster, hinfra, hkubeconfig, hpassword⟩ := h
  simp [metadataIsCurrent, hm, hcluster, hinfra, hkubeconfig, hpassword]

/-- With the metadata set, the image-based config can be made. -/
theorem imageBasedConfig_of_set {cdName : String} {ici : ImageClusterInstall}
    (h : MetadataSet cdName ici) (releaseRegistry nmstate : String) :
    ∃ config, Installer.imageBasedConfig ici.spec releaseRegistry nmstate = .ok config := by
  obtain ⟨m, hm, hcluster, hinfra, -⟩ := h
  simp [Installer.imageBasedConfig, hm, hcluster, hinfra]

/-! ## The IDs of an object -/

/-- No object loses or changes an ID. -/
def IDsKept (w w' : World B) : Prop :=
  ∀ k ici ici' m, w.icis k = some ici → ici.spec.clusterMetadata = some m →
    w'.icis k = some ici' → ∃ m', ici'.spec.clusterMetadata = some m' ∧
      (m.clusterID ≠ "" → m'.clusterID = m.clusterID) ∧ (m.infraID ≠ "" → m'.infraID = m.infraID)

/-- What a call of a pass makes of the metadata of an object: it leaves them, or completes them. -/
theorem metadata_of_call {op : Op B} {c : Choice B} {r : Resp op} {k : NamespacedName}
    {ici' : ImageClusterInstall} (h : PassCall E req w₀ w op) (hc : answer op c w = (r, w'))
    (hici' : w'.icis k = some ici') :
    ∃ ici, w.icis k = some ici ∧ (ici'.spec.clusterMetadata = ici.spec.clusterMetadata ∨
      k = req ∧ ∃ cd m, cd.ns = req.ns ∧ ici.spec.clusterDeploymentRef = some cd.name ∧
        Describes E cd ici.spec.clusterMetadata m w ∧ ici'.spec.clusterMetadata = some m) := by
  cases iciAfter_stored hc hici' with
  | kept hk => exact ⟨ici', hk, .inl rfl⟩
  | statusPatched hs => exact ⟨_, hs, .inl rfl⟩
  | @patched base new stored hs =>
    refine ⟨stored, hs, ?_⟩
    have hsame : new.spec.clusterMetadata = base.spec.clusterMetadata →
        (ImageClusterInstall.merge base new stored).spec.clusterMetadata =
          stored.spec.clusterMetadata := by
      intro heq
      simp [ImageClusterInstall.merge, Spec.merge, heq]
    cases h with
    | read hn => cases hn
    | tidy _ _ ht => cases ht
    | addFinalizer => exact .inl (hsame rfl)
    | removeFinalizer => exact .inl (hsame rfl)
    | annotate => exact .inl (hsame rfl)
    | @describe _ cd m hin hns href hnew hm =>
      -- the copy is the stored object, so the merge takes the new metadata
      obtain ⟨stored', hs', hcore⟩ := hin.synced
      obtain rfl : stored = stored' := Option.some.inj (hs.symm.trans hs')
      have hspec : stored.spec = base.spec := (core_eq_iff.1 hcore).2.2.2.2.2.1
      refine .inr ⟨rfl, cd, m, hns, by rw [hspec, href], by rw [hspec]; exact hm, ?_⟩
      simp [ImageClusterInstall.merge, hspec, Spec.merge]

theorem idsKept_of_call {op : Op B} {c : Choice B} {r : Resp op} (h : PassCall E req w₀ w op)
    (hc : answer op c w = (r, w')) : IDsKept w w' := by
  intro k ici ici' m hici hm hici'
  obtain ⟨stored, hs, heq | ⟨-, cd, m', -, -, hd, hm'⟩⟩ := metadata_of_call h hc hici'
  · obtain rfl : ici = stored := Option.some.inj (hici.symm.trans hs)
    exact ⟨m, heq.trans hm, fun _ => rfl, fun _ => rfl⟩
  · obtain rfl : ici = stored := Option.some.inj (hici.symm.trans hs)
    obtain ⟨ids, -, hcluster, hinfra⟩ := hd.ids
    rw [hm] at hcluster hinfra
    exact ⟨m', hm', hcluster.kept, hinfra.kept⟩

theorem IDsKept.of_eq (h : w'.icis = w.icis) : IDsKept w w' := by
  intro k ici ici' m hici hm hici'
  rw [h, hici] at hici'
  exact ⟨m, Option.some.inj hici' ▸ hm, fun _ => rfl, fun _ => rfl⟩

/-! ## The seed reconfiguration secret -/

/-- The cache shows the seed reconfiguration secret of the cluster deployment, if there is one. -/
def SeedCached (cd : NamespacedName) (w : World B) : Prop :=
  ∀ s, w.secrets (seedReconfigurationSecret.key cd) = some s → s.isCached = true

/-- The IDs in the seed reconfiguration secret, if it has content that can be decoded. -/
def recordedIDs (E : Env B) (cd : NamespacedName) (w : World B) : Option (String × String) :=
  (w.secrets (seedReconfigurationSecret.key cd)).bind fun s =>
    ((s.get seedReconfigurationFileName).filter fun b => !E.isEmpty b).bind fun data =>
      (E.unmarshalSeed data).map fun seed => (seed.clusterID, seed.infraID)

theorem seedIDs_of_recorded {ids : String × String} (hcached : SeedCached cd w)
    (h : recordedIDs E cd w = some ids) : seedIDs E cd w = some ids := by
  unfold recordedIDs at h
  obtain ⟨s, hs, h⟩ := Option.bind_eq_some_iff.1 h
  obtain ⟨data, hdata, h⟩ := Option.bind_eq_some_iff.1 h
  have hfilter : (w.secrets (seedReconfigurationSecret.key cd)).filter Secret.isCached =
      some s := by
    rw [hs, Option.filter_some, if_pos (hcached s hs)]
  unfold seedIDs
  rw [hfilter]
  simp only [Option.bind_some, hdata]
  exact h

theorem isCached_mutate (E : Env B) (kind : IdentitySecret) (cd : NamespacedName) (uid : String)
    (content : B) (s : Secret B) : (kind.mutate E cd uid content s).isCached = true := by
  have hpreserve : secretResourceLabel ≠ "siteconfig.open-cluster-management.io/preserve" := by
    decide
  have hbackup : secretResourceLabel ≠ "cluster.open-cluster-management.io/backup" := by decide
  simp [Secret.isCached, IdentitySecret.mutate, IdentitySecret.labels,
    Function.update_of_ne hpreserve, Function.update_of_ne hbackup]

theorem SeedCached.of_shown (hcached : SeedCached cd w)
    (h : (w'.secrets (seedReconfigurationSecret.key cd)).map Secret.shown =
      (w.secrets (seedReconfigurationSecret.key cd)).map Secret.shown) : SeedCached cd w' := by
  intro s' hs'
  rw [hs', Option.map_some, eq_comm, Option.map_eq_some_iff] at h
  obtain ⟨s, hs, hshown⟩ := h
  rw [← (Prod.mk.inj hshown).2]
  exact hcached s hs

/-- Outside the build, a pass changes only labels of secrets, and not the one of the cache. -/
theorem shown_of_call {op : Op B} {c : Choice B} {r : Resp op} (h : PassCall E req w₀ w op)
    (hc : answer op c w = (r, w')) (k : NamespacedName) :
    (w'.secrets k).map Secret.shown = (w.secrets k).map Secret.shown := by
  by_cases ht : op.target = .secret
  · cases h with
    | read hn => rw [hn] at ht; cases ht
    | tidy _ _ htidy => rw [htidy.target] at ht; cases ht
    | labelSecret hs hl => exact shown_of_label hs hl hc k
    | _ => cases ht
  · rw [(answer_framed hc).secrets (by simpa using fun h => ht h.symm)]

/-- A secret that a build stores is labelled. -/
theorem seedCached_of_store {op : Op B} {c : Choice B} {r : Resp op} {cd' : NamespacedName}
    {uid : String} (h : StoresSecret E cd' uid op) (hc : answer op c w = (r, w'))
    (hcached : SeedCached cd w) : SeedCached cd w' := by
  have hset : ∀ key s, s.isCached = true → SeedCached cd (w.setSecret key s) := by
    intro key s hlabel s' hs'
    by_cases heq : seedReconfigurationSecret.key cd = key
    · obtain rfl : s = s' := by simpa [World.setSecret, heq] using hs'
      exact hlabel
    · exact hcached s' (by simpa [World.setSecret, heq] using hs')
  cases h with
  | create =>
    obtain rfl | ⟨rfl, -⟩ := answer_createSecret hc
    · exact hset _ _ (isCached_mutate ..)
    · exact hcached
  | update =>
    obtain rfl | ⟨rfl, -⟩ := answer_updateSecret hc
    · exact hset _ _ (isCached_mutate ..)
    · exact hcached

/-! ## An object without metadata -/

/-- The metadata have the recorded IDs, as far as those are not empty. -/
structure IDsFrom (ids : String × String) (m : ClusterMetadata) : Prop where
  clusterID : ids.1 ≠ "" → m.clusterID = ids.1
  infraID : ids.2 ≠ "" → m.infraID = ids.2

/-- The object has the IDs of the secret, or none yet, and then the secret still has them. -/
structure Restoring (E : Env B) (req cd : NamespacedName) (ids : String × String) (w : World B) :
    Prop where
  named : ∀ ici, w.icis req = some ici → ici.spec.clusterDeploymentRef = some cd.name
  missing : ∀ ici, w.icis req = some ici → ici.spec.clusterMetadata = none →
    seedIDs E cd w = some ids
  chosen : ∀ ici m, w.icis req = some ici → ici.spec.clusterMetadata = some m → IDsFrom ids m

theorem clusterDeploymentRef_eq_of_configured {s t : Spec} (h : s.configured = t.configured) :
    s.clusterDeploymentRef = t.clusterDeploymentRef :=
  show s.configured.clusterDeploymentRef = t.configured.clusterDeploymentRef from by rw [h]

/-- The metadata that complete those of the object have the recorded IDs. -/
theorem Restoring.describes {ids : String × String} {ici : ImageClusterInstall}
    {m : ClusterMetadata} (h : Restoring E req cd ids w) (hs : w.icis req = some ici)
    (hd : Describes E cd ici.spec.clusterMetadata m w) : IDsFrom ids m := by
  obtain ⟨ids', hids', hcluster, hinfra⟩ := hd.ids
  cases hold : ici.spec.clusterMetadata with
  | none =>
    rw [h.missing ici hs hold] at hids'
    obtain rfl := Option.some.inj hids'
    rw [hold] at hcluster hinfra
    exact ⟨hcluster.restored rfl, hinfra.restored rfl⟩
  | some old =>
    have hfrom := h.chosen ici old hs hold
    rw [hold] at hcluster hinfra
    constructor
    · intro hne
      rw [← hfrom.clusterID hne]
      exact hcluster.kept (by simpa [hfrom.clusterID hne] using hne)
    · intro hne
      rw [← hfrom.infraID hne]
      exact hinfra.kept (by simpa [hfrom.infraID hne] using hne)

theorem Restoring.of_call {ids : String × String} {op : Op B} {c : Choice B} {r : Resp op}
    (hns : cd.ns = req.ns) (hop : PassCall E req w₀ w op) (hc : answer op c w = (r, w'))
    (h : Restoring E req cd ids w) : Restoring E req cd ids w' := by
  have hseed : seedIDs E cd w' = seedIDs E cd w := seedIDs_of_shown (shown_of_call hop hc _)
  constructor
  · intro ici' hs'
    obtain ⟨ici, hs, -, hconf, -⟩ := (passStep_of_call hop hc).icis.kept req ici' hs'
    rw [clusterDeploymentRef_eq_of_configured hconf]
    exact h.named ici hs
  · intro ici' hs' hnone
    obtain ⟨ici, hs, heq | ⟨-, _, m, -, -, -, hm⟩⟩ := metadata_of_call hop hc hs'
    · rw [hseed]
      exact h.missing ici hs (heq ▸ hnone)
    · rw [hnone] at hm
      cases hm
  · intro ici' m hs' hm
    obtain ⟨ici, hs, heq | ⟨-, cd', m', hns', href, hd, hm'⟩⟩ := metadata_of_call hop hc hs'
    · exact h.chosen ici m hs (heq ▸ hm)
    · obtain rfl : m = m' := Option.some.inj (hm.symm.trans hm')
      have hname : cd'.name = cd.name := Option.some.inj (href.symm.trans (h.named ici hs))
      obtain rfl : cd' = cd := by
        cases cd'
        cases cd
        simp_all
      exact h.describes hs hd

/-- Objects that have their metadata: the secret does not matter any more. -/
theorem Restoring.of_eq {ids : String × String} (h : Restoring E req cd ids w)
    (hicis : w'.icis = w.icis)
    (hset : ∀ ici, w.icis req = some ici → ici.spec.clusterMetadata ≠ none) :
    Restoring E req cd ids w' := by
  refine ⟨?_, fun ici hs hnone => ?_, ?_⟩
  · rw [hicis]
    exact h.named
  · rw [hicis] at hs
    exact absurd hnone (hset ici hs)
  · rw [hicis]
    exact h.chosen

variable [DecidableEq B]

/-- Throughout a pass over an object without metadata, what is stored has the recorded IDs. -/
theorem reconcile_restoring (ids : String × String) (hns : cd.ns = req.ns) (w₀ : World B) :
    Meets (Running (fun _ _ _ _ => True)
        fun w _ _ w' => Restoring E req cd ids w → Restoring E req cd ids w')
      (reconcile E req) (ReportTrue E req) w₀ := by
  refine reconcile_guarded ⟨fun hop c r w' hc _ => .of_call hns hop hc,
    fun {w inp uid} hstart => ?_⟩
  -- a build starts once the metadata are set, and leaves the objects alone
  obtain ⟨ici, hin, -, -, hready⟩ := hstart.object
  obtain ⟨stored, hs, hcore⟩ := hin.synced
  obtain ⟨m, hm, -⟩ := hready.metadata
  have hset : ∀ ici', w.icis req = some ici' → ici'.spec.clusterMetadata ≠ none := by
    intro ici' hs'
    obtain rfl : stored = ici' := Option.some.inj (hs.symm.trans hs')
    rw [(core_eq_iff.1 hcore).2.2.2.2.2.1, hm]
    exact nofun
  refine meets_beside (writeInputData_targets E inp uid)
    (fun op hop => ne_of_mem_of_not_mem hop (by decide)) fun w₁ op hop hI c r w₂ hc _ h => ?_
  have hframe : Framed [.nothing, .file, .secret, .iso] w₁ w₂ :=
    (answer_framed hc).mono (by simpa using hop)
  exact h.of_eq (hframe.icis (by decide)) (hI ▸ hset)

/-! ## Runs -/

/-- Users do not edit `ClusterMetadata` or the seed reconfiguration secret. -/
def LeavesIDs (cd : NamespacedName) (w : World B) : Event B → World B → Prop
  | .create _ ici, _ => ici.spec.clusterMetadata = none
  | .update key spec, _ => ∀ ici, w.icis key = some ici →
    spec.clusterMetadata = ici.spec.clusterMetadata
  | .others, w' => w'.secrets (seedReconfigurationSecret.key cd) =
    w.secrets (seedReconfigurationSecret.key cd)
  | .pass .., _ => True
  | .delete _, _ => True

/-- Runs over any objects, some of them for the cluster deployment `cd`. -/
abbrev IDRun (E : Env B) (cd : NamespacedName) : World B → Prop :=
  Reaches (fun w ev w' => Event.Fires E w ev w' ∧ LeavesIDs cd w ev w') (fun _ _ => True)
    fun w => Initial w ∧ SeedCached cd w

/-- A pass leaves the seed reconfiguration secret labelled. -/
theorem reconcile_seedCached (w₀ : World B) :
    Meets (Running (fun _ _ _ _ => True) fun w _ _ w' => SeedCached cd w → SeedCached cd w')
      (reconcile E req) (ReportTrue E req) w₀ := by
  refine reconcile_guarded ⟨fun hop c r w' hc _ h => h.of_shown (shown_of_call hop hc _),
    fun {w inp uid} _ => ?_⟩
  refine meets_permits (writeInputData_stores E inp uid) fun w₁ op hop c r w₂ hc _ h => ?_
  rcases hop with hop | hop
  · have hframe : Framed [.nothing, .file, .iso] w₁ w₂ :=
      (answer_framed hc).mono (by simpa using hop)
    exact h.of_shown (by rw [hframe.secrets (by decide)])
  · exact seedCached_of_store hop hc h

theorem IDRun.seedCached (h : IDRun E cd w) : SeedCached cd w := by
  refine h.invariant (fun w hw => hw.2) fun w ev w' hI _ hs => ?_
  obtain ⟨hfires, hkeeps⟩ := hs
  cases ev with
  | pass req cs =>
    cases hfires
    exact (reconcile_seedCached w).last cs (traceOk_true cs) (fun _ _ _ _ h hg => hg h) hI
  | create key ici =>
    obtain ⟨-, -, rfl⟩ := hfires
    exact hI
  | update key spec =>
    obtain ⟨ici, -, -, rfl⟩ := hfires
    exact hI
  | delete key =>
    obtain ⟨ici, -, rfl⟩ := hfires
    exact hI
  | others => exact hI.of_shown (by rw [hkeeps])

/-- No call of a pass changes the IDs of an object. -/
theorem idsKept_of_trace {cs : List (Choice B)} {t : Transition (Op B) Resp (World B) (Choice B)}
    (ht : t ∈ (reconcile E req).trace answer cs w) : IDsKept t.before t.after := by
  have hpass : Meets (Running (fun _ _ _ _ => True) fun w _ _ w' => IDsKept w w')
      (reconcile E req) (ReportTrue E req) w := by
    refine reconcile_guarded (.of_calls (fun hop c r w' hc _ => idsKept_of_call hop hc) ?_)
    intro w op hop c r w' hc _
    have hframe : Framed [.nothing, .file, .secret, .iso] w w' :=
      (answer_framed hc).mono (by simpa using hop)
    exact .of_eq (hframe.icis (by decide))
  exact hpass.trace cs (traceOk_true cs) t ht

/-- What `setClusterInstallMetadata` leaves when it returns nil, for the copy a pass has in hand. -/
theorem metadata_set {w₁ : World B} {ici ici' : ImageClusterInstall} {d : ClusterDeployment}
    {cs : List (Choice B)} (hin : InHand req w₀ w₁ ici) (hns : cd.ns = req.ns)
    (href : ici.spec.clusterDeploymentRef = some cd.name)
    (hexec : (setClusterInstallMetadata E req ici cd d).exec answer cs w₁ =
      (w', some (ici', .ok ()))) :
    InHand req w₀ w' ici' ∧ MetadataSet cd.name ici' := by
  have htriv : Guarded E req w₀ (fun _ _ _ _ => True) (fun _ _ _ _ => True) :=
    ⟨fun _ => .free, fun _ => Meets.triv fun _ _ _ _ => trivial⟩
  have hmeets : Meets _ (setClusterInstallMetadata E req ici cd d) _ w₁ :=
    setClusterInstallMetadata_pass htriv hin hns href
  have hpost := hmeets.exec cs (traceOk_true cs) (congrArg Prod.snd hexec)
  rw [congrArg Prod.fst hexec] at hpost
  have hd := hpost.2 rfl
  exact ⟨hd.inHand, hd.metadata⟩

/-- The IDs are chosen once and kept. A nil return of `setClusterInstallMetadata` leaves non-empty
IDs in the stored object and in the copy the pass goes on with, for which the image-based config can
then be made and a second call does nothing; no call of a pass changes an ID that is set; and an
object without metadata gets the IDs that the seed reconfiguration secret holds. -/
theorem cluster_ids_kept (E : Env B) (cd : NamespacedName) (w : World B) (h : IDRun E cd w) :
    (∀ req w₀ w₁ w' ici ici' d cs, InHand req w₀ w₁ ici → cd.ns = req.ns →
      ici.spec.clusterDeploymentRef = some cd.name →
      (setClusterInstallMetadata E req ici cd d).exec answer cs w₁ = (w', some (ici', .ok ())) →
      (∃ stored m, w'.icis req = some stored ∧ stored.spec = ici'.spec ∧
        stored.spec.clusterMetadata = some m ∧ m.clusterID ≠ "" ∧ m.infraID ≠ "") ∧
      (∀ releaseRegistry nmstate, ∃ config,
        Installer.imageBasedConfig ici'.spec releaseRegistry nmstate = .ok config) ∧
      setClusterInstallMetadata E req ici' cd d = .ret (ici', .ok ())) ∧
    (∀ req cs, ∀ t ∈ (reconcile E req).trace answer cs w, IDsKept t.before t.after) ∧
    (∀ req ici ids, w.icis req = some ici → ici.spec.clusterMetadata = none → cd.ns = req.ns →
      ici.spec.clusterDeploymentRef = some cd.name → recordedIDs E cd w = some ids →
      ∀ cs, ∀ t ∈ (reconcile E req).trace answer cs w, ∀ ici' m, t.after.icis req = some ici' →
        ici'.spec.clusterMetadata = some m → IDsFrom ids m) := by
  refine ⟨?_, fun req cs t ht => idsKept_of_trace ht, ?_⟩
  · intro req w₀ w₁ w' ici ici' d cs hin hns href hexec
    obtain ⟨hin', hset⟩ := metadata_set hin hns href hexec
    obtain ⟨stored, hs, hcore⟩ := hin'.synced
    have hspec : stored.spec = ici'.spec := (core_eq_iff.1 hcore).2.2.2.2.2.1
    have hsecond : setClusterInstallMetadata E req ici' cd d = .ret (ici', .ok ()) := by
      unfold setClusterInstallMetadata
      rw [metadataIsCurrent_of_set hset]
      rfl
    refine ⟨?_, imageBasedConfig_of_set hset, hsecond⟩
    obtain ⟨m, hm, hcluster, hinfra, -⟩ := hset
    exact ⟨stored, m, hs, hspec, by rw [hspec, hm], hcluster, hinfra⟩
  · intro req ici ids hici hnone hns href hids cs t ht ici' m hici' hm
    have hstart : Restoring E req cd ids w := by
      have hseed := seedIDs_of_recorded h.seedCached hids
      refine ⟨fun ici₁ hs => ?_, fun _ _ _ => hseed, fun ici₁ m₁ hs hm₁ => ?_⟩
      · obtain rfl : ici = ici₁ := Option.some.inj (hici.symm.trans hs)
        exact href
      · obtain rfl : ici = ici₁ := Option.some.inj (hici.symm.trans hs)
        rw [hnone] at hm₁
        cases hm₁
    have hpass := reconcile_restoring (E := E) ids hns w
    have hbefore := hpass.before cs (traceOk_true cs) (fun _ _ _ _ h hg => hg h) hstart t ht
    exact (hpass.trace cs (traceOk_true cs) t ht hbefore).chosen ici' m hici' hm

theorem IDRun.pass (h : IDRun E cd w) (req : NamespacedName) (cs : List (Choice B)) :
    IDRun E cd ((reconcile E req).exec answer cs w).1 := by
  have hfires : Event.Fires E w (.pass req cs) ((reconcile E req).exec answer cs w).1 := rfl
  exact .next h trivial ⟨hfires, trivial⟩

theorem IDRun.create {key : NamespacedName} {ici : ImageClusterInstall} (h : IDRun E cd w)
    (hfresh : Fresh E key ici w) (hvalid : validateCreate E.parsers ici = .ok ())
    (hnone : ici.spec.clusterMetadata = none) : IDRun E cd (w.setICI key (some ici)) := by
  have hfires : Event.Fires E w (.create key ici) (w.setICI key (some ici)) := ⟨hfresh, hvalid, rfl⟩
  exact .next h trivial ⟨hfires, hnone⟩

/-- The sample cluster, installed before under other IDs. -/
def installedBefore : World Doc :=
  let seed : SeedReconfiguration :=
    Installer.generateClusterConfiguration Env.symbolic
      { baseDomain := "example.com", name := "sno", sshKey := "", pullSecret := "", proxy := none,
        additionalTrustBundle := "", machineNetwork := [], imageDigestSources := none }
      { hostname := "sno", releaseRegistry := "quay.io", additionalNTPSources := [],
        networkConfig := "", clusterID := "cluster", infraID := "infra" }
      ({} : Choice Doc).draw
  sampleWorld.setSecret (seedReconfigurationSecret.key sampleKey)
    (seedReconfigurationSecret.mutate Env.symbolic sampleKey "3b1d" (.seed seed) {})

theorem cluster_ids_kept_sample :
    let w := samplePass sampleKey instantly (installedBefore.setICI sampleKey (some sampleICI))
    ∃ t ∈ (reconcile Env.symbolic sampleKey).trace answer instantly w, ∃ ici m,
      t.after.icis sampleKey = some ici ∧ ici.spec.clusterMetadata = some m ∧
      IDsFrom ("cluster", "infra") m := by
  intro w
  have hinitial : Initial installedBefore := ⟨fun _ => rfl, fun _ => rfl, fun _ => rfl⟩
  have hstart : IDRun Env.symbolic sampleKey installedBefore := by
    refine .start ⟨hinitial, fun s hs => ?_⟩
    simp only [installedBefore, World.setSecret, Function.update_self, Option.some.injEq] at hs
    rw [← hs]
    exact isCached_mutate ..
  have hfresh : Fresh Env.symbolic sampleKey sampleICI installedBefore :=
    hinitial.fresh (by decide) rfl rfl
  have hreach : IDRun Env.symbolic sampleKey w :=
    (hstart.create hfresh rfl rfl).pass sampleKey instantly
  have hbare : (w.icis sampleKey).any fun ici => decide (ici.spec.clusterMetadata = none ∧
      ici.spec.clusterDeploymentRef = some sampleKey.name) := by decide +kernel
  have hset : ∃ t ∈ (reconcile Env.symbolic sampleKey).trace answer instantly w,
      (t.after.icis sampleKey).any fun ici => ici.spec.clusterMetadata.isSome := by decide +kernel
  obtain ⟨ici, hici, hnone⟩ := (Option.any_eq_true _ _).1 hbare
  obtain ⟨hnone, href⟩ := of_decide_eq_true hnone
  obtain ⟨t, ht, hset⟩ := hset
  obtain ⟨ici', hici', hset⟩ := (Option.any_eq_true _ _).1 hset
  obtain ⟨m, hm⟩ := Option.isSome_iff_exists.1 hset
  have hids : recordedIDs Env.symbolic sampleKey w = some ("cluster", "infra") := by decide +kernel
  exact ⟨t, ht, ici', m, hici', hm, (cluster_ids_kept Env.symbolic sampleKey w hreach).2.2 sampleKey
    ici _ hici hnone rfl href hids instantly t ht ici' m hici' hm⟩

end ImageBasedInstall

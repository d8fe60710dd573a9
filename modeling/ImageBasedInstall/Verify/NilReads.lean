import ImageBasedInstall.Installer.Symbolic
import ImageBasedInstall.Interactive.May
import ImageBasedInstall.Verify.Aborts
import ImageBasedInstall.Verify.Boot
import ImageBasedInstall.Verify.SmoothSite

/-!
# Passes that abort

`setClusterInstallMetadata` compares the optional password reference of the cluster metadata without
looking whether it is there, and `getValidPullSecret` asserts that the `auth` fields of the pull
secret are strings. A pass that gets that far returns, whatever the replies, iff neither goes wrong.
-/

namespace ImageBasedInstall

open Interactive

variable {B : Type}

/-- The host is exempt from its validation, or passes it. -/
def HostAdmitted (E : Env B) (s : Spec) (bmh : BareMetalHost) : Prop :=
  bmh.externallyProvisioned = true ∨ isInspectionEnabled bmh = false ∨
    bmh.provisioningState = .available ∧ ∃ nics, bmh.hardwareDetails = some nics ∧
      validateBMHMachineNetworks E s.machineNetwork s.machineNetworks nics = .ok ()

/-- A pass over `req` gets to the cluster metadata of its object, which names the cluster deployment
`name`: the installation goes on, the cluster deployment and the host are there, and the host is
admitted. -/
structure ReachesMetadata (E : Env B) (req : NamespacedName) (w : World B)
    (ici : ImageClusterInstall) (name : String) (cd : ClusterDeployment) : Prop where
  stored : w.icis req = some ici
  undertaken : Undertaken ici
  cdRef : ici.spec.clusterDeploymentRef = some name
  named : name ≠ ""
  deployment : w.cds ⟨req.ns, name⟩ = some cd
  host : ∃ host bmh, ici.spec.bareMetalHostRef = some host ∧ host.name ≠ "" ∧
    w.bmhs host = some bmh ∧ HostAdmitted E ici.spec bmh

/-- Whatever the replies, a pass returns: neither a nil pointer nor a type assertion aborts it. -/
def ReturnsCalmly [DecidableEq B] (E : Env B) (req : NamespacedName) (w : World B) : Prop :=
  ∀ cs : Nat → Choice B, ∃ n rep,
    ((reconcile E req).exec answer (firstChoices cs n) w).2 = some rep ∧
      rep.err.any Err.aborts = false

/-- Everything that is compared before the password reference matches. -/
def ClusterMetadata.ComparesPassword (name : String) (m : ClusterMetadata) : Prop :=
  m.clusterID ≠ "" ∧ m.infraID ≠ "" ∧ m.adminKubeconfigSecretRef = kubeconfigSecretName name

/-- The metadata are complete, or the IDs can be read from the seed reconfiguration secret. -/
def MetadataSettable (E : Env B) (cdKey : NamespacedName) (m : Option ClusterMetadata)
    (w : World B) : Prop :=
  metadataIsCurrent cdKey.name m = .ok true ∨ (seedIDs E cdKey w).isSome = true

/-- What a pass reads of the metadata and of the pull secret. -/
structure ReadsSafely (E : Env B) (cdKey : NamespacedName) (cd : ClusterDeployment)
    (metadata : Option ClusterMetadata) (w : World B) : Prop where
  /-- The metadata name the password secret, if it is compared. -/
  password : ∀ m, metadata = some m → m.ComparesPassword cdKey.name →
    m.adminPasswordSecretRef ≠ none
  /-- The `auth` fields of the pull secret are strings, if it is read. -/
  pullSecret : MetadataSettable E cdKey metadata w → PullSecretTyped E cd.pullSecretRef cdKey.ns w

section Conditions

variable {E : Env B} {name : String} {metadata : Option ClusterMetadata} {cdKey : NamespacedName}
  {cd : ClusterDeployment} {w₀ w : World B}

theorem metadataIsCurrent_panic_iff :
    metadataIsCurrent name metadata = .error .panic ↔
      ∃ m, metadata = some m ∧ m.ComparesPassword name ∧ m.adminPasswordSecretRef = none := by
  cases metadata with
  | none => simp [metadataIsCurrent]
  | some m =>
    simp only [metadataIsCurrent, Option.some.injEq, exists_eq_left',
      ClusterMetadata.ComparesPassword]
    split
    · next hmatch =>
      cases hpassword : m.adminPasswordSecretRef with
      | none => simpa using hmatch
      | some name => simp
    · next hmatch => simp [hmatch]

/-- The comparison gives an answer, or dereferences a nil pointer. -/
theorem metadataIsCurrent_cases (name : String) (metadata : Option ClusterMetadata) :
    metadataIsCurrent name metadata = .error .panic ∨
      ∃ b, metadataIsCurrent name metadata = .ok b := by
  unfold metadataIsCurrent
  split
  · exact .inr ⟨_, rfl⟩
  split
  · split
    · exact .inl rfl
    · exact .inr ⟨_, rfl⟩
  · exact .inr ⟨_, rfl⟩

theorem not_readsSafely_iff : ¬ReadsSafely E cdKey cd metadata w ↔
    metadataIsCurrent cdKey.name metadata = .error .panic ∨
      MetadataSettable E cdKey metadata w ∧ ¬PullSecretTyped E cd.pullSecretRef cdKey.ns w := by
  rw [metadataIsCurrent_panic_iff]
  constructor
  · intro h
    by_contra hnone
    rw [not_or] at hnone
    refine h ⟨fun m hm hcompares hpassword => ?_, fun hsettable => ?_⟩
    · exact hnone.1 ⟨m, hm, hcompares, hpassword⟩
    · by_contra htyped
      exact hnone.2 ⟨hsettable, htyped⟩
  · rintro (⟨m, hm, hcompares, hpassword⟩ | ⟨hsettable, htyped⟩) h
    · exact h.password m hm hcompares hpassword
    · exact htyped (h.pullSecret hsettable)

theorem ReadsSafely.of_kept (h : ReadsSafely E cdKey cd metadata w₀) (hkept : ShownKept w₀ w) :
    ReadsSafely E cdKey cd metadata w := by
  refine ⟨h.password, fun hsettable => (h.pullSecret ?_).of_kept hkept⟩
  unfold MetadataSettable at *
  rwa [seedIDs_of_shown (hkept _)] at hsettable

end Conditions

/-! ## The validation of the host -/

section Hosts

variable {E : Env B} {s : Spec} {key : NamespacedName} {bmh : BareMetalHost} {cond : Condition}

theorem validateBMH_zero_iff :
    (∃ res, (validateBMH E s key bmh cond).2 = .ok res ∧ res.isZero = true) ↔
      HostAdmitted E s bmh := by
  unfold validateBMH HostAdmitted
  cases hext : bmh.externallyProvisioned with
  | true => simp [Result.isZero]
  | false =>
    cases hins : isInspectionEnabled bmh with
    | false => simp [Result.isZero]
    | true =>
      by_cases hstate : bmh.provisioningState = .available
      · cases hnics : bmh.hardwareDetails with
        | none => simp [hstate, Result.isZero]
        | some nics =>
          cases hnets : validateBMHMachineNetworks E s.machineNetwork s.machineNetworks nics with
          | error e => simp [hstate, hnets]
          | ok u => simp [hstate, hnets, Result.isZero]
      · simp [hstate, Result.isZero]

theorem HostAdmitted.of_inspected {bmh' : BareMetalHost} (h : HostAdmitted E s bmh)
    (hb : bmh'.inspected = bmh.inspected) : HostAdmitted E s bmh' := by
  obtain ⟨hann, hext, hhw⟩ := inspected_eq_iff hb
  have hstate : bmh'.inspected.provisioningState = bmh.inspected.provisioningState := by rw [hb]
  change bmh'.provisioningState = bmh.provisioningState at hstate
  unfold HostAdmitted isInspectionEnabled at *
  rw [hann, hext, hhw, hstate]
  exact h

/-- A pass goes on past the validation only with an admitted host. -/
theorem validateHost_admitted :
    (validateHost E s key bmh cond).Yields fun r =>
      ∀ res, r.2.2 = .ok res → res.isZero = true → HostAdmitted E s bmh := by
  unfold validateHost
  split
  · exact nofun
  next cond' res hv =>
  split
  · next hres =>
    intro res' heq hzero
    cases heq
    rw [hzero] at hres
    cases hres
  next hres =>
  have hadmitted : HostAdmitted E s bmh :=
    validateBMH_zero_iff.1 ⟨res, congrArg Prod.snd hv, by simpa using hres⟩
  split
  · exact fun _ _ _ => hadmitted
  · refine Prog.yields_bind fun r => ?_
    split
    · exact fun _ _ _ => hadmitted
    · exact nofun

/-- The host of the spec, by a name that is not empty. -/
theorem validateConfiguration_named {req : NamespacedName}
    {cd : Option (NamespacedName × ClusterDeployment)} :
    (validateConfiguration req s cd cond : Program B _).Yields fun r =>
      ∀ key bmh, r.2 = .ok (some (key, bmh)) → key.name ≠ "" := by
  unfold validateConfiguration
  split
  · split
    · exact fun _ _ heq => by cases heq
    · exact fun _ _ heq => by cases heq
  · exact fun _ _ heq => by cases heq
  next key href =>
  have hname : key.name ≠ "" := by simpa using (Option.filter_eq_some_iff.1 href).2
  refine Prog.yields_bind fun r => ?_
  split
  · exact fun _ _ heq => by cases heq
  split
  · intro key' bmh' heq
    cases heq
    exact hname
  refine Prog.yields_bind fun r => ?_
  split
  · intro key' bmh' heq
    cases heq
    exact hname
  · exact fun _ _ heq => by cases heq

end Hosts

/-! ## A pass that aborts -/

section Aborts

variable [DecidableEq B] {E : Env B} {req key : NamespacedName} {ici : ImageClusterInstall}
  {bmh : BareMetalHost} {cond : Condition} {w₀ w : World B}

omit [DecidableEq B] in
/-- The metadata are set only if they can be. -/
theorem setClusterInstallMetadata_settable (cd : NamespacedName × ClusterDeployment) :
    Meets (Alone fun _ _ _ _ => True) (setClusterInstallMetadata E req ici cd.1 cd.2)
      (fun r _ => r.2 = .ok () → MetadataSettable E cd.1 ici.spec.clusterMetadata w) w := by
  unfold setClusterInstallMetadata
  split
  · exact meets_ret.2 nofun
  · next hcurrent => exact meets_ret.2 fun _ => .inl hcurrent
  refine Meets.seq (seedReconfigSecretClusterIDs_spec cd.1) fun r w₁ hr => ?_
  cases r with
  | error e => exact meets_ret.2 nofun
  | ok ids => exact Meets.mono (meets_true _) fun _ _ _ _ => .inr (by rw [hr.2]; rfl)

/-- The calls of a pass are not restricted. -/
theorem guarded_free (E : Env B) (req : NamespacedName) :
    Guarded E req w₀ (fun _ _ _ _ => True) fun _ _ _ _ => True :=
  .of_calls (fun _ => .free) fun _ => .free

/-- Once the host is admitted, the phases abort only on the metadata or the pull secret. -/
theorem hostPhases_aborts (hE : E.NeverAborts) (cd : NamespacedName × ClusterDeployment)
    (h : InHand req w₀ w ici) (href : ici.spec.bareMetalHostRef = some key)
    (hb : w.bmhs key = some bmh) :
    Meets (Alone fun _ _ _ _ => True) (hostPhases E req ici cd key bmh cond)
      (fun out _ => out.err.any Err.aborts = true → HostAdmitted E ici.spec bmh ∧
        ¬ReadsSafely E cd.1 cd.2 ici.spec.clusterMetadata w) w := by
  refine Meets.seq ((Meets.and (validateHost_calm _)
    (validateHost_pass (guarded_free E req) h href hb)).yields validateHost_admitted) ?_
  rintro ⟨bmh', cond', r⟩ w₁ ⟨⟨hcalm, hf₁, -⟩, hadmitted⟩
  cases r with
  | error e => exact meets_ret.2 (elim_of_calm hcalm)
  | ok res =>
  dsimp only
  split
  · exact meets_ret.2 nofun
  next hres =>
  have hadmitted := hadmitted res rfl (by simpa using hres)
  have hkept₁ : ShownKept w w₁ := (ShownKept.refl w).of_eq (hf₁.secrets (by decide))
  have hrisk : ¬ReadsSafely E cd.1 cd.2 ici.spec.clusterMetadata w₁ →
      ¬ReadsSafely E cd.1 cd.2 ici.spec.clusterMetadata w := fun hnot h => hnot (h.of_kept hkept₁)
  refine Meets.seq (Meets.and (setClusterInstallMetadata_aborts cd.1 cd.2)
    (Meets.and (setClusterInstallMetadata_settable cd)
      (meets_secrets (setClusterInstallMetadata_uses (fun _ h => by simp [h]) E req ici cd.1 cd.2
        fun m => by simp [Op.target])))) ?_
  rintro ⟨ici', r⟩ w₂ ⟨hr, hsettable, hsecrets⟩
  have hpanic : aborted r = true → ¬ReadsSafely E cd.1 cd.2 ici.spec.clusterMetadata w := by
    intro habort
    refine hrisk (not_readsSafely_iff.2 (.inl ?_))
    rcases metadataIsCurrent_cases cd.1.name ici.spec.clusterMetadata with hp | ⟨b, hok⟩
    · exact hp
    · have hcurrent := hr habort
      rw [hok] at hcurrent
      cases hcurrent
  split
  · next heq =>
    cases heq
    exact meets_ret.2 fun habort => ⟨hadmitted, hpanic habort⟩
  · next heq =>
    cases heq
    exact meets_ret.2 fun habort => ⟨hadmitted, hpanic habort⟩
  · next heq =>
    cases heq
    refine (imagePhases_aborts hE cd).mono fun _ _ hout habort => ⟨hadmitted, hrisk ?_⟩
    refine not_readsSafely_iff.2 (.inr ⟨hsettable rfl, fun htyped => hout habort ?_⟩)
    exact htyped.of_kept fun _ => by rw [hsecrets]

/-- The phases abort on the metadata or the pull secret, once the host is admitted. -/
def AbortsAt (E : Env B) (w₀ w : World B) (s : Spec)
    (cd : Option (NamespacedName × ClusterDeployment)) : Prop :=
  ∃ cdKey d, cd = some (cdKey, d) ∧ ¬ReadsSafely E cdKey d s.clusterMetadata w ∧
    ∃ host bmh, s.bareMetalHostRef = some host ∧ host.name ≠ "" ∧ w₀.bmhs host = some bmh ∧
      HostAdmitted E s bmh

theorem runPhases_aborts (hE : E.NeverAborts) (h : InHand req w₀ w ici) (hkept : HostsKept w₀ w)
    (cd : Option (NamespacedName × ClusterDeployment)) :
    Meets (Alone fun _ _ _ _ => True) (runPhases E req ici cd)
      (fun out _ => out.err.any Err.aborts = true → AbortsAt E w₀ w ici.spec cd) w := by
  refine Meets.seq ((Meets.and (validateConfiguration_calm _ _)
    (validateConfiguration_pass (guarded_free E req) h hkept cd)).yields
      validateConfiguration_named) ?_
  rintro ⟨cond', r⟩ w₁ ⟨⟨hcalm, hf₁, -, hhost⟩, hname⟩
  match cd, r with
  | none, .error e => exact meets_ret.2 (elim_of_calm hcalm)
  | some cd, .error e => exact meets_ret.2 (elim_of_calm hcalm)
  | none, .ok _ => exact meets_ret.2 nofun
  | some cd, .ok none => exact meets_ret.2 nofun
  | some cd, .ok (some (host, bmh)) =>
    obtain ⟨href, hb, -, hkept₁⟩ := hhost _ _ rfl
    obtain ⟨bmh₀, hb₀, hsame⟩ := hkept₁.origin hb
    refine (hostPhases_aborts hE cd (h.of_eq (hf₁.icis (by decide))) href hb).mono ?_
    intro out _ hout habort
    obtain ⟨hadmitted, hrisk⟩ := hout habort
    refine ⟨cd.1, cd.2, rfl, fun hsafe => hrisk ?_, host, bmh₀, href, hname _ _ rfl, hb₀,
      hadmitted.of_inspected hsame⟩
    exact hsafe.of_kept ((ShownKept.refl w).of_eq (hf₁.secrets (by decide)))

omit [DecidableEq B] in
/-- A cluster deployment that is found is stored under the name of the spec. -/
theorem fetchCD_stored (s : Spec) :
    Meets (Alone fun _ _ _ _ => True) (fetchCD req.ns s) (fun cd _ => ∀ key d, cd = some (key, d) →
      ∃ name, key = ⟨req.ns, name⟩ ∧ s.clusterDeploymentRef = some name ∧ name ≠ "" ∧
        w.cds key = some d) w := by
  unfold fetchCD
  split
  · exact meets_ret.2 nofun
  next name hname =>
  obtain ⟨href, hne⟩ := Option.filter_eq_some_iff.1 hname
  refine Meets.seq (tries_getCD (Q := fun d _ => w.cds ⟨req.ns, name⟩ = some d)
    (R := fun _ _ => True) .free (fun _ h => h) (fun _ => trivial) fun _ => trivial) ?_
  rintro (e | d) w₁ hd
  · exact meets_ret.2 nofun
  · refine meets_ret.2 fun key d' heq => ?_
    cases heq
    exact ⟨name, rfl, href, by simpa using hne, hd⟩

theorem reconcileInstall_aborts (hE : E.NeverAborts)
    {cd : Option (NamespacedName × ClusterDeployment)} (hs : w₀.icis req = some ici)
    (hl : Labelled w₀ w) (hdel : ici.deletionTimestamp = none)
    (hfin : clusterInstallFinalizerName ∈ ici.finalizers)
    (hrun : installationCompleted ici = false) :
    Meets (Alone fun _ _ _ _ => True) (reconcileInstall E req ici cd)
      (fun rep _ => rep.err.any Err.aborts = true →
        Undertaken ici ∧ AbortsAt E w₀ w₀ ici.spec cd) w := by
  refine Meets.seq (checkStarted_pass (guarded_free E req) hs (hl.framed.icis (by decide)) hdel hfin
    hrun) ?_
  rintro ⟨ici₁, b⟩ w₁ ⟨hf₁, hspec₁, h₁⟩
  cases b with
  | true => exact meets_ret.2 nofun
  | false =>
  dsimp only
  split
  · exact meets_ret.2 nofun
  next hrestored =>
  have hhand := h₁ (by simpa using hrestored)
  have hundertaken : Undertaken ici := by
    obtain ⟨ici₀, hs₀, hu, -⟩ := hhand.origin
    obtain rfl : ici = ici₀ := Option.some.inj (hs.symm.trans hs₀)
    exact hu
  refine Meets.seq (Meets.and prepare_calm (prepare_pass (guarded_free E req) hhand)) ?_
  rintro ⟨ici₂, r⟩ w₂ ⟨hcalm, hf₂, h₂⟩
  cases r with
  | error e => exact meets_ret.2 (elim_of_calm hcalm)
  | ok u =>
  obtain ⟨hhand₂, hspec₂, -⟩ := h₂ rfl
  have hf : Framed [.ici] w w₂ := hf₁.trans hf₂
  have hspec : ici₂.spec = ici.spec := hspec₂.trans hspec₁
  refine Meets.seq (runPhases_aborts hE hhand₂ (hl.hosts.of_eq (hf.bmhs (by decide))) cd) ?_
  intro out w₃ hout
  refine Meets.seq (meets_true _) fun _ w₄ _ => meets_ret.2 fun habort => ⟨hundertaken, ?_⟩
  obtain ⟨cdKey, d, hcd, hrisk, hhost⟩ := hout habort
  rw [hspec] at hrisk hhost
  refine ⟨cdKey, d, hcd, fun hsafe => hrisk (hsafe.of_kept ?_), hhost⟩
  exact hl.secrets.of_eq (hf.secrets (by decide))

/-- A pass aborts only on the metadata or the pull secret that it gets to. -/
theorem reconcile_aborts (hE : E.NeverAborts) :
    Meets (Alone fun _ _ _ _ => True) (reconcile E req) (fun rep _ =>
      rep.err.any Err.aborts = true → ∃ ici name cd, ReachesMetadata E req w₀ ici name cd ∧
        ¬ReadsSafely E ⟨req.ns, name⟩ cd ici.spec.clusterMetadata w₀) w₀ := by
  refine Meets.seq (tries_getICI .free (Q := fun ici w' => w' = w₀ ∧ w₀.icis req = some ici)
    (R := fun e _ => e.aborts = false) (fun _ hs => ⟨rfl, hs⟩) (fun _ => rfl) fun _ => rfl) ?_
  rintro (e | ici) w₁ hr
  · refine meets_ret.2 fun habort => ?_
    dsimp only at habort
    split at habort
    · cases habort
    · exact elim_of_calm hr habort
  obtain ⟨rfl, hs⟩ := hr
  refine Meets.seq (Meets.and handleFinalizer_calm
    (handleFinalizer_pass (guarded_free E req) hs)) ?_
  rintro ⟨ici₁, _ | ⟨result, err⟩⟩ w₂ ⟨hcalm, h₂⟩
  on_goal 2 => exact meets_ret.2 (elim_of_calm (hcalm _ _ rfl))
  obtain ⟨rfl, rfl, hdel, hfin⟩ := h₂ rfl
  refine Meets.seq (meets_reading (fun _ => .free) (fetchCD_uses (fun _ h => h) _ _)
    (fetchCD_stored ici₁.spec)) ?_
  rintro cd w₃ ⟨hf₃, hcd⟩
  refine Meets.seq (labelReferencedObjectsForBackup_pass (guarded_free E req) (.of_reads hf₃) _ _ _)
    fun _ w₄ hl₄ => ?_
  split
  · refine Meets.seq handlePostCleanup_calm fun r w₅ hr => ?_
    cases r with
    | ok result => exact meets_ret.2 nofun
    | error e => exact meets_ret.2 (elim_of_calm hr)
  next hrun =>
  refine (reconcileInstall_aborts hE hs hl₄ hdel hfin (by simpa using hrun)).mono ?_
  intro rep w₅ hrep habort
  obtain ⟨hundertaken, cdKey, d, hcdeq, hrisk, hhost⟩ := hrep habort
  obtain ⟨name, rfl, href, hne, hd⟩ := hcd cdKey d hcdeq
  exact ⟨ici₁, name, d, ⟨hs, hundertaken, href, hne, hd, hhost⟩, hrisk⟩

end Aborts

/-! ## A pass that may abort -/

section Mays

variable {E : Env B} {req key : NamespacedName} {ici : ImageClusterInstall} {bmh : BareMetalHost}
  {cond : Condition} {w₀ w : World B}

/-- A call that fails without a trace. -/
def failing : Choice B := { ending := .fail "" }

theorem answer_failing (op : Op B) (w : World B) : (answer op failing w).2 = w := by
  have hclock : ({ w with clock := w.clock + (failing : Choice B).elapsed } : World B) = w := by
    simp [failing]
  have hprune : ∀ which, w.prune which (failing : Choice B).kept = w := by
    intro which
    simp [World.prune, failing]
  cases op with
  | now => exact hclock
  | purge which => exact hprune which
  | removeAll path => exact hprune _
  | createDataImage key url =>
    simp only [answer]
    split
    · rfl
    · exact hclock
  | deleteDataImage | createSecret | updateSecret =>
    simp only [answer]
    split <;> rfl
  | patchICI | patchICIStatus | patchBMH | patchConfigMap | patchSecret =>
    simp only [answer, Choice.patch]
    split <;> rfl
  | _ => rfl

theorem may_idle {α : Type} (p : Program B α) : May answer p (fun _ w' => w' = w) w :=
  May.idle fun op w => ⟨failing, answer_failing op w⟩

theorem may_fetchCD {name : String} {d : ClusterDeployment} {s : Spec}
    (href : s.clusterDeploymentRef = some name) (hname : name ≠ "")
    (hd : w.cds ⟨req.ns, name⟩ = some d) :
    May answer (fetchCD req.ns s) (fun cd w' => cd = some (⟨req.ns, name⟩, d) ∧ w' = w) w := by
  have hfilter : s.clusterDeploymentRef.filter (· ≠ "") = some name := by simp [href, hname]
  have hreply : answer (.getCD ⟨req.ns, name⟩) {} w = (.ok d, w) := by
    simp [answer, Choice.read, orNotFound, hd]
  unfold fetchCD
  rw [hfilter]
  exact May.call {} hreply ⟨rfl, rfl⟩

/-- A report that cannot be stored. -/
theorem may_setRequirementsMetCondition (status : ConditionStatus) (reason msg : String) :
    May answer (setRequirementsMetCondition req ici status reason msg)
      (fun ici' w' => w' = w ∧ ici'.status.bootTime = ici.status.bootTime) w := by
  have hpatch : ∀ new, answer (.patchICIStatus req ici new) failing w = (.error (.api ""), w) := by
    intro new
    simp only [answer, Choice.patch]
    split <;> rfl
  refine May.seq (may_idle now) fun t w' hw' => ?_
  subst hw'
  dsimp only
  split
  · exact ⟨rfl, rfl⟩
  · exact May.call failing (hpatch _) ⟨rfl, rfl⟩

/-- A started installation whose files cannot be seen is taken up again. -/
theorem may_checkStarted (h : iciIsBeingRestored ici = false) :
    May answer (checkStarted req ici)
      (fun r w' => r.2 = false ∧ w' = w ∧ iciIsBeingRestored r.1 = false) w := by
  unfold checkStarted
  split
  · exact ⟨rfl, rfl, h⟩
  next hboot =>
  refine May.seq (Q := fun ici' w' => w' = w ∧ ici'.status.bootTime = ici.status.bootTime) ?_ ?_
  · unfold restoreRequirementsMet
    split
    · split
      · exact may_setRequirementsMetCondition ..
      · exact ⟨rfl, rfl⟩
    · exact ⟨rfl, rfl⟩
  · rintro ici' _ ⟨rfl, htime⟩
    refine May.call failing rfl ⟨rfl, rfl, ?_⟩
    simp [iciIsBeingRestored, htime, hboot]

/-- A patch of the stored object succeeds. -/
theorem may_patchICI {stored : ImageClusterInstall} (hs : w.icis req = some stored)
    (new : ImageClusterInstall) :
    May answer (patchICI req ici new) (fun r _ => r.2 = .ok ()) w := by
  have hreply : answer (.patchICI req ici new) {} w =
      (.ok (.merge ici new stored),
        w.setICI req (ImageClusterInstall.merge ici new stored).remains) := by
    simp [answer, Choice.patch, Choice.write, hs]
  exact May.call {} hreply rfl

theorem may_patchICIStatus {stored : ImageClusterInstall} (hs : w.icis req = some stored)
    (new : ImageClusterInstall) :
    May answer (patchICIStatus req ici new) (fun r _ => r.2 = .ok ()) w := by
  have hreply : answer (.patchICIStatus req ici new) {} w =
      (.ok (.mergeStatus ici new stored),
        w.setICI req (some (ImageClusterInstall.mergeStatus ici new stored))) := by
    simp [answer, Choice.patch, Choice.write, hs]
  exact May.call {} hreply rfl

theorem may_patchBMH (hb : w.bmhs key = some bmh) (new : BareMetalHost) :
    May answer (patchBMH key bmh new) (fun r _ => r.2 = .ok ()) w := by
  have hreply : answer (.patchBMH key bmh new) {} w =
      (.ok (.merge bmh new bmh), w.setBMH key (.merge bmh new bmh)) := by
    simp [answer, Choice.patch, Choice.write, hb]
  exact May.call {} hreply rfl

theorem may_annotate (h : InHand req w₀ w ici) (key value : String) :
    May answer (ensureAnnotated req ici key value) (fun r _ => r.2 = .ok ()) w := by
  obtain ⟨stored, hs, -⟩ := h.synced
  unfold ensureAnnotated
  dsimp only
  split
  · exact rfl
  · exact may_patchICI hs _

variable [DecidableEq B]

theorem may_prepare (E : Env B) (h : InHand req w₀ w ici) :
    May answer (prepare req ici) (fun r _ => r.2 = .ok ()) w := by
  have hfree : ∀ (w : World B) (op : Op B) (r : Resp op) (w' : World B), True :=
    fun _ _ _ _ => trivial
  refine May.seq ((may_annotate h _ _).and_meets
    (ensureAnnotated_pass (guarded_free E req) h _ _) hfree) ?_
  rintro ⟨ici₁, e | u⟩ w₁ ⟨hok, -, h₁⟩
  · cases hok
  refine May.seq ((may_annotate (h₁ rfl).1.inHand _ _).and_meets
    (ensureAnnotated_pass (guarded_free E req) (h₁ rfl).1.inHand _ _) hfree) ?_
  rintro ⟨ici₂, e | u⟩ w₂ ⟨hok, -, h₂⟩
  · cases hok
  obtain ⟨stored, hs, -⟩ := (h₂ rfl).1.inHand.synced
  refine May.seq (may_idle _) fun acc w₃ hw₃ => ?_
  subst hw₃
  dsimp only
  split
  · exact rfl
  · exact may_patchICIStatus hs _

omit [DecidableEq B] in
theorem may_validateConfiguration {s : Spec} {cd : NamespacedName × ClusterDeployment}
    (href : s.bareMetalHostRef = some key) (hname : key.name ≠ "") (hb : w.bmhs key = some bmh) :
    May answer (validateConfiguration req s (some cd) cond)
      (fun r _ => ∃ bmh', r.2 = .ok (some (key, bmh'))) w := by
  have hfilter : s.bareMetalHostRef.filter (·.name ≠ "") = some key := by simp [href, hname]
  have hreply : answer (.getBMH key) {} w = (.ok bmh, w) := by
    simp [answer, Choice.read, orNotFound, hb]
  unfold validateConfiguration
  rw [hfilter]
  refine May.call {} hreply ?_
  change May answer (if bmh.automatedCleaningMode = .disabled then _ else _) _ w
  split
  · exact ⟨bmh, rfl⟩
  refine May.seq (may_patchBMH hb _) ?_
  rintro ⟨bmh', e | u⟩ w₁ hok
  · cases hok
  · exact ⟨bmh', rfl⟩

omit [DecidableEq B] in
theorem may_validateHost {s : Spec} (h : HostAdmitted E s bmh) (hb : w.bmhs key = some bmh) :
    May answer (validateHost E s key bmh cond)
      (fun r _ => ∃ res, r.2.2 = .ok res ∧ res.isZero = true) w := by
  have hpasses : ∃ res, (validateBMH E s key bmh cond).2 = .ok res ∧ res.isZero = true :=
    validateBMH_zero_iff.2 h
  obtain ⟨res, hv, hzero⟩ := hpasses
  unfold validateHost
  split
  · next heq =>
    rw [heq] at hv
    cases hv
  next cond' res' heq =>
  obtain rfl : res' = res := by
    rw [heq] at hv
    exact Except.ok.inj hv
  rw [hzero]
  split
  · next h => cases h
  split
  · exact ⟨{}, rfl, rfl⟩
  refine May.seq (may_patchBMH hb _) ?_
  rintro ⟨bmh', e | u⟩ w₁ hok
  · cases hok
  · exact ⟨{}, rfl, rfl⟩

omit [DecidableEq B] in
/-- What works when no call fails is possible. -/
theorem may_works {α : Type} {x : Act B α} {Q : α → World B → Prop} (h : Works x Q w) :
    May answer x.run (fun r w' => ∃ a, r = .ok a ∧ Q a w') w := by
  refine May.of_meets (Meets.mono h fun r w' hr => ?_)
    fun op w => ⟨{}, smooth_of_choice ⟨rfl, rfl⟩ w op⟩
  cases r with
  | ok a => exact ⟨a, rfl, hr⟩
  | error e => exact hr.elim

omit [DecidableEq B] in
theorem may_setClusterInstallMetadata {cdKey : NamespacedName} {cd : ClusterDeployment}
    (h : InHand req w₀ w ici)
    (hsettable : MetadataSettable E cdKey ici.spec.clusterMetadata w)
    (hcompared : metadataIsCurrent cdKey.name ici.spec.clusterMetadata ≠ .error .panic) :
    May answer (setClusterInstallMetadata E req ici cdKey cd) (fun r _ => r.2 = .ok ()) w := by
  obtain ⟨stored, hs, -⟩ := h.synced
  obtain hpanic | ⟨b, hb⟩ := metadataIsCurrent_cases cdKey.name ici.spec.clusterMetadata
  · exact absurd hpanic hcompared
  unfold setClusterInstallMetadata
  rw [hb]
  cases b with
  | true => exact rfl
  | false =>
    have hseed : ∀ b, w.payload E seedReconfigurationSecret cdKey = some b →
        (E.unmarshalSeed b).isSome := by
      rcases hsettable with hcurrent | hids
      · cases hb.symm.trans hcurrent
      · intro b hpayload
        have hcontent : (((w.secrets (seedReconfigurationSecret.key cdKey)).filter
            Secret.isCached).bind fun s => (s.get seedReconfigurationFileName).filter
              fun b => !E.isEmpty b) = some b := hpayload
        rw [seedIDs, hcontent] at hids
        simpa using hids
    refine May.seq (may_works (seedReconfigSecretClusterIDs_works hseed)) ?_
    rintro _ _ ⟨ids, rfl, rfl⟩
    refine May.seq (may_idle _) fun clusterID w₁ h₁ => ?_
    refine May.seq (may_idle _) fun infraID w₂ h₂ => ?_
    subst h₁ h₂
    exact may_patchICI hs _

omit [DecidableEq B] in
theorem may_bind {α β : Type} {x : Act B α} {f : α → Act B β} {Q : α → World B → Prop}
    {R : Except Err β → World B → Prop}
    (hx : May answer x.run (fun r w' => ∃ a, r = .ok a ∧ Q a w') w)
    (hf : ∀ a w', Q a w' → May answer (f a).run R w') : May answer (x >>= f).run R w := by
  refine May.seq hx ?_
  rintro _ w' ⟨a, rfl, h⟩
  exact hf a w' h

omit [DecidableEq B] in
/-- An abort ends what follows, and no text is put before it. -/
theorem may_assertion {α β : Type} {x : Act B α} {f : α → Act B β} {text : String}
    (hx : May answer x.run (fun r _ => r = .error .badAssertion) w) :
    May answer (x.wrap text >>= f).run (fun r _ => r = .error .badAssertion) w := by
  refine May.seq (Q := fun r _ => r = .error .badAssertion) (May.seq hx ?_) ?_
  · rintro _ w' rfl
    exact rfl
  · rintro _ w' rfl
    exact rfl

omit [DecidableEq B] in
theorem may_getValidPullSecret {psRef : Option String} {ns : String}
    (h : ¬PullSecretTyped E psRef ns w) :
    May answer (getValidPullSecret E psRef ns).run (fun r _ => r = .error .badAssertion) w := by
  unfold PullSecretTyped at h
  push Not at h
  obtain ⟨name, s, psData, rfl, hname, hns, hs, hdata, hbad⟩ := h
  have hvalid : validatePullSecret E (E.toString psData) = .error .badAssertion := by
    rcases validatePullSecret_cases E (E.toString psData) with ⟨-, hv⟩ | ⟨htyped, -⟩ | ⟨htyped, -⟩
    · exact hv
    · exact absurd htyped hbad
    · exact absurd htyped hbad
  have hreply : answer (.getSecret false ⟨ns, name⟩) {} w = (.ok s, w) := by
    simp [answer, Choice.read, orNotFound, hs, Option.filter]
  simp only [getValidPullSecret, hname, hns, or_self, if_false]
  refine may_bind (Q := fun s' _ => s' = s) (May.call {} hreply ⟨s, rfl, rfl⟩) ?_
  rintro _ w' rfl
  rw [hdata]
  refine may_assertion ?_
  rw [hvalid]
  exact rfl

/-- With files that cannot be seen, a build starts over and gets to the pull secret. -/
theorem may_buildImage {inp : BuildInput} {dir : Path}
    (h : ¬PullSecretTyped E inp.cd.pullSecretRef inp.cdKey.ns w) :
    May answer (buildImage E inp dir).run (fun r _ => r = .error .badAssertion) w := by
  have hunseen : May answer (verifyIsoAndAuthExists dir : Program B Bool)
      (fun b w' => b = false ∧ w' = w) w :=
    May.call failing rfl ⟨rfl, rfl⟩
  refine may_bind (Q := fun b w' => b = false ∧ w' = w) (May.seq hunseen ?_) ?_
  · rintro _ _ ⟨rfl, rfl⟩
    exact ⟨false, rfl, rfl, rfl⟩
  rintro _ w₀ ⟨rfl, rfl⟩
  refine may_bind (Q := fun _ w' => w' = w₀) (May.seq (may_idle _) ?_) ?_
  · rintro r _ rfl
    exact ⟨r, rfl, rfl⟩
  rintro _ _ rfl
  refine may_bind (may_works (works_mkdirAll.framed (S := [.file])
    (Prog.uses_perform (by simp [Op.target])))) ?_
  rintro _ w₁ ⟨-, hf⟩
  refine may_assertion (may_getValidPullSecret fun htyped => h (htyped.of_kept fun key => ?_))
  rw [hf.secrets (by decide)]

/-- Some replies lead a build to the pull secret. -/
theorem may_createImage {uid : String} {inp : BuildInput}
    (h : ¬PullSecretTyped E inp.cd.pullSecretRef inp.cdKey.ns w) :
    May answer (createImage E req uid inp cond) (fun r _ => aborted r.2 = true) w := by
  refine May.seq (Q := fun r _ => r = .error .badAssertion) ?_ ?_
  · refine may_bind (may_works (works_configDirs inp.ns uid)) ?_
    rintro _ w₁ ⟨rfl, hopened₁⟩
    refine May.seq (Q := fun r _ => r = .ok (.ran (.error .badAssertion))) (May.seq
      (Q := fun r _ => r = .ran (.error .badAssertion)) (May.seq
        (may_works (works_lockForDir inp.ns uid)) ?_) ?_) ?_
    · rintro _ w₂ ⟨_, rfl, rfl, hopened₂⟩
      refine May.seq (may_buildImage fun htyped => h (htyped.of_kept fun key => ?_)) ?_
      · rw [hopened₂.framed.secrets (by decide), hopened₁.framed.secrets (by decide)]
      · rintro _ w₃ rfl
        exact rfl
    · rintro _ w₃ rfl
      exact rfl
    · rintro _ w₃ rfl
      exact rfl
  · rintro _ w₁ rfl
    exact rfl

/-- Some replies lead the phases to the metadata and the pull secret. -/
theorem may_runPhases {cd : NamespacedName × ClusterDeployment} (h : InHand req w₀ w ici)
    (hkept : HostsKept w₀ w) (href : ici.spec.bareMetalHostRef = some key)
    (hname : key.name ≠ "") (hb : w₀.bmhs key = some bmh) (hadmitted : HostAdmitted E ici.spec bmh)
    (hrisk : ¬ReadsSafely E cd.1 cd.2 ici.spec.clusterMetadata w) :
    May answer (runPhases E req ici (some cd)) (fun out _ => out.err.any Err.aborts = true) w := by
  obtain ⟨bmh₁, hb₁, hsame₁⟩ : ∃ bmh₁, w.bmhs key = some bmh₁ ∧ bmh₁.inspected = bmh.inspected := by
    have hk := hkept key
    rw [hb, Option.map_some, Option.map_eq_some_iff] at hk
    exact hk
  refine May.seq ((may_validateConfiguration href hname hb₁).and_meets
    (validateConfiguration_pass (guarded_free E req) h hkept (some cd)) fun _ _ _ _ => trivial) ?_
  rintro ⟨cond', r⟩ w₁ ⟨⟨bmh₂, hr⟩, hf₁, -, hhost⟩
  obtain rfl : r = .ok (some (key, bmh₂)) := hr
  obtain ⟨-, hb₂, -, hkept₂⟩ := hhost key bmh₂ rfl
  obtain ⟨bmh₀, hb₀, hsame₂⟩ := hkept₂.origin hb₂
  obtain rfl : bmh = bmh₀ := Option.some.inj (hb.symm.trans hb₀)
  have h₁ : InHand req w₀ w₁ ici := h.of_eq (hf₁.icis (by decide))
  refine May.seq ((may_validateHost (hadmitted.of_inspected hsame₂.symm) hb₂).and_meets
    (validateHost_pass (guarded_free E req) h₁ href hb₂) fun _ _ _ _ => trivial) ?_
  rintro ⟨bmh₃, cond₃, r⟩ w₂ ⟨⟨res, hr, hzero⟩, hf₂, -⟩
  obtain rfl : r = .ok res := hr
  have h₂ : InHand req w₀ w₂ ici := h₁.of_eq (hf₂.icis (by decide))
  have hsecrets : w.secrets = w₂.secrets :=
    ((hf₂.secrets (by decide)).trans (hf₁.secrets (by decide))).symm
  have hrisk : ¬ReadsSafely E cd.1 cd.2 ici.spec.clusterMetadata w₂ := fun hsafe =>
    hrisk (hsafe.of_kept ((ShownKept.refl w₂).of_eq hsecrets))
  dsimp only
  rw [hzero]
  by_cases hpanic : metadataIsCurrent cd.1.name ici.spec.clusterMetadata = .error .panic
  · have hmetadata : (setClusterInstallMetadata E req ici cd.1 cd.2 : Program B _) =
        .ret (ici, .error .panic) := by
      unfold setClusterInstallMetadata
      rw [hpanic]
      rfl
    rw [hmetadata]
    exact rfl
  obtain ⟨hsettable, htyped⟩ := (not_readsSafely_iff.1 hrisk).resolve_left hpanic
  refine May.seq ((may_setClusterInstallMetadata h₂ hsettable hpanic).and_meets
    (meets_secrets (setClusterInstallMetadata_uses (fun _ h => by simp [h]) E req ici cd.1 cd.2
      fun m => by simp [Op.target])) fun _ _ _ _ => trivial) ?_
  rintro ⟨ici₃, r⟩ w₃ ⟨hok, hsecrets₃⟩
  obtain rfl : r = .ok () := hok
  refine May.seq (may_createImage fun h => htyped (h.of_kept fun key => by rw [hsecrets₃])) ?_
  rintro ⟨cond₄, e | u⟩ w₄ habort
  · exact habort
  · cases habort

/-- Some replies lead a pass to the metadata and the pull secret. -/
theorem reconcile_may_abort {name : String} {cd : ClusterDeployment}
    (h : ReachesMetadata E req w ici name cd)
    (hrisk : ¬ReadsSafely E ⟨req.ns, name⟩ cd ici.spec.clusterMetadata w) :
    May answer (reconcile E req) (fun rep _ => rep.err.any Err.aborts = true) w := by
  obtain ⟨hs, hundertaken, hcdRef, hnamed, hd, host, bmh, href, hname, hb, hadmitted⟩ := h
  have hreply : answer (.getICI req) {} w = (.ok ici, w) := by
    simp [answer, Choice.read, orNotFound, hs]
  have hfinalizer : handleFinalizer E req ici = .ret (ici, none) := by
    simp [handleFinalizer, hundertaken.undeleted, hundertaken.finalizer]
  refine May.call {} hreply ?_
  change May answer (handleFinalizer E req ici >>= _) _ w
  rw [hfinalizer, Prog.ret_bind]
  refine May.seq (may_fetchCD hcdRef hnamed hd) ?_
  rintro cd _ ⟨rfl, rfl⟩
  refine May.seq (may_idle _) fun _ w' hw' => ?_
  subst hw'
  rw [hundertaken.incomplete]
  -- the installation goes on
  refine May.seq ((may_checkStarted hundertaken.unrestored).and_meets
    (checkStarted_pass (guarded_free E req) hs rfl hundertaken.undeleted hundertaken.finalizer
      hundertaken.incomplete) fun _ _ _ _ => trivial) ?_
  rintro ⟨ici₁, b⟩ w₁ ⟨⟨hb₁, hw₁, hrestored⟩, -, hspec₁, h₁⟩
  obtain rfl : b = false := hb₁
  subst hw₁
  dsimp only at hrestored ⊢
  rw [hrestored]
  have hhand := h₁ hrestored
  refine May.seq ((may_prepare E hhand).and_meets (prepare_pass (guarded_free E req) hhand)
    fun _ _ _ _ => trivial) ?_
  rintro ⟨ici₂, r⟩ w₂ ⟨hok, hf₂, h₂⟩
  obtain rfl : r = .ok () := hok
  obtain ⟨hhand₂, hspec₂, -⟩ := h₂ rfl
  have hspec : ici₂.spec = ici.spec := hspec₂.trans hspec₁
  have hsecrets := (hf₂.secrets (by decide)).symm
  refine May.seq (may_runPhases hhand₂ ((HostsKept.refl _).of_eq (hf₂.bmhs (by decide)))
    (hspec ▸ href) hname hb (hspec ▸ hadmitted) fun hsafe => hrisk ?_) fun out w₃ hout => ?_
  · rw [hspec] at hsafe
    exact hsafe.of_kept ((ShownKept.refl _).of_eq hsecrets)
  · exact May.seq (may_idle _) fun _ _ _ => hout

end Mays

/-- A pass returns, whatever the replies, exactly if the metadata it gets to name the password
secret wherever that is compared, and the pull secret it gets to has no `auth` field that is not a
string. -/
theorem pass_returns_iff [DecidableEq B] (E : Env B) (hE : E.NeverAborts) (req : NamespacedName)
    (w : World B) :
    ReturnsCalmly E req w ↔ ∀ ici name cd, ReachesMetadata E req w ici name cd →
      ReadsSafely E ⟨req.ns, name⟩ cd ici.spec.clusterMetadata w := by
  constructor
  · intro hreturns ici name cd hreaches
    by_contra hrisk
    obtain ⟨cs, rep, w', hexec, habort⟩ := (reconcile_may_abort hreaches hrisk).exec
    obtain ⟨n, rep', hrep', hcalm⟩ := hreturns fun i => cs.getD i {}
    have hrep : ((reconcile E req).exec answer
        (firstChoices (fun i => cs.getD i {}) cs.length) w).2 = some rep := by
      rw [firstChoices_getD, hexec]
    rw [exec_unique hrep' hrep, habort] at hcalm
    cases hcalm
  · intro hsafe cs
    have htotal : ∃ n rep, ((reconcile E req).exec answer (firstChoices cs n) w).2 = some rep :=
      exec_total cs
    obtain ⟨n, rep, hrep⟩ := htotal
    refine ⟨n, rep, hrep, Bool.eq_false_iff.2 fun habort => ?_⟩
    obtain ⟨ici, name, cd, hreaches, hrisk⟩ :=
      (reconcile_aborts hE).exec _ (traceOk_true _) hrep habort
    exact hrisk (hsafe ici name cd hreaches)

theorem Env.symbolic_neverAborts : Env.symbolic.NeverAborts where
  imageRegistry _ := rfl
  resolveWithState _ _ _ := rfl
  kubeconfig _ _ _ fetched h := by cases h

theorem Env.symbolic_authsAreStrings (s : String) : AuthsAreStrings Env.symbolic s := by
  have hname : isAuths "auths" = true := by decide +kernel
  have hdecode : decodePullSecret Env.symbolic s = some [(s, [("auth", .str s)])] := by
    simp [decodePullSecret, Env.symbolic, unmarshalPullSecret, unmarshalAuths, unmarshalMap, mapSet,
      hname]
  intro auths hauths entry hentry field hfield
  rw [hdecode] at hauths
  cases hauths
  obtain rfl := List.mem_singleton.1 hentry
  cases hfield
  exact ⟨s, rfl⟩

/-- The sample object once two passes have given it its finalizer and its metadata. -/
def namedWorld : World Doc :=
  samplePass sampleKey instantly (samplePass sampleKey instantly sampleStart)

theorem pass_returns_sample :
    (∃ ici cd, ReachesMetadata Env.symbolic sampleKey namedWorld ici "sno" cd ∧
      MetadataSettable Env.symbolic ⟨"spokes", "sno"⟩ ici.spec.clusterMetadata namedWorld) ∧
    ReturnsCalmly Env.symbolic sampleKey namedWorld := by
  have hobject : (namedWorld.icis sampleKey).any fun ici =>
      decide (ici.deletionTimestamp = none) &&
      decide (clusterInstallFinalizerName ∈ ici.finalizers) && !installationCompleted ici &&
      !iciIsBeingRestored ici && decide (ici.spec.clusterDeploymentRef = some "sno") &&
      decide (ici.spec.bareMetalHostRef = some sampleHost) &&
      (ici.spec.clusterMetadata.any fun m => m.adminPasswordSecretRef.isSome &&
        decide (metadataIsCurrent "sno" (some m) = .ok true)) := by decide +kernel
  have hhost : (namedWorld.bmhs sampleHost).any BareMetalHost.externallyProvisioned := by
    decide +kernel
  have hcd : (namedWorld.cds ⟨"spokes", "sno"⟩).isSome := by decide +kernel
  simp only [Option.any_eq_true, Bool.and_eq_true, Bool.not_eq_true', decide_eq_true_eq]
    at hobject hhost
  obtain ⟨ici, hs, ⟨⟨⟨⟨⟨hdel, hfin⟩, hrun⟩, hrestored⟩, hcdRef⟩, href⟩, m, hm,
    hpassword, hcurrent⟩ := hobject
  obtain ⟨bmh, hb, hexternal⟩ := hhost
  obtain ⟨cd, hcd⟩ := Option.isSome_iff_exists.1 hcd
  constructor
  · refine ⟨ici, cd, ⟨hs, ⟨hdel, hfin, hrun, hrestored⟩, hcdRef, by decide, hcd,
      sampleHost, bmh, href, by decide, hb, .inl hexternal⟩, .inl ?_⟩
    rw [hm]
    exact hcurrent
  · refine (pass_returns_iff Env.symbolic Env.symbolic_neverAborts sampleKey namedWorld).2 ?_
    intro ici' name cd' hreaches
    obtain rfl : ici = ici' := Option.some.inj (hs.symm.trans hreaches.stored)
    refine ⟨fun m' hm' _ hnone => ?_, fun _ _ _ psData _ _ _ _ _ => ?_⟩
    · obtain rfl : m = m' := Option.some.inj (hm.symm.trans hm')
      rw [hnone] at hpassword
      cases hpassword
    · exact Env.symbolic_authsAreStrings _

/-! ## Metadata without a password reference -/

/-- An object that was given its IDs and the name of the kubeconfig secret. -/
def describedICI : ImageClusterInstall :=
  { sampleICI with
    spec := { sampleICI.spec with
      clusterMetadata := some
        { clusterID := "id", infraID := "infra",
          adminKubeconfigSecretRef := "sno-admin-kubeconfig", adminPasswordSecretRef := none } } }

/-- The world once it is created and has its finalizer. -/
def describedWorld : World Doc :=
  samplePass sampleKey instantly (sampleWorld.setICI sampleKey (some describedICI))

theorem describedWorld_reached : Reached Env.symbolic (fun _ _ => True) describedWorld := by
  have hstart : Reached Env.symbolic (fun _ _ => True) sampleWorld :=
    .start sampleWorld_initial
  have hfresh : Fresh Env.symbolic sampleKey describedICI sampleWorld :=
    sampleWorld_initial.fresh (by decide) rfl rfl
  have hcreate : (Event.create sampleKey describedICI).Fires Env.symbolic sampleWorld
      (sampleWorld.setICI sampleKey (some describedICI)) := ⟨hfresh, rfl, rfl⟩
  have hcreated : Reached Env.symbolic (fun _ _ => True)
      (sampleWorld.setICI sampleKey (some describedICI)) := .next hstart trivial hcreate
  exact hcreated.pass sampleKey instantly trivial

/-- The webhook admits the object, and the pass over it dereferences a nil pointer. -/
theorem missing_password_aborts :
    validateCreate Env.symbolic.parsers describedICI = .ok () ∧
    Reached Env.symbolic (fun _ _ => True) describedWorld ∧
    (∃ rep, ((reconcile Env.symbolic sampleKey).exec answer instantly describedWorld).2 = some rep ∧
      rep.err = some .panic) ∧
    ¬ReturnsCalmly Env.symbolic sampleKey describedWorld := by
  have hpanic : ((reconcile Env.symbolic sampleKey).exec answer instantly describedWorld).2.any
      (fun rep => decide (rep.err = some .panic)) = true := by decide +kernel
  obtain ⟨rep, hrep, herr⟩ := (Option.any_eq_true _ _).1 hpanic
  have herr : rep.err = some .panic := of_decide_eq_true herr
  refine ⟨rfl, describedWorld_reached, ⟨rep, hrep, herr⟩, fun hreturns => ?_⟩
  obtain ⟨n, rep', hrep', hcalm⟩ := hreturns fun _ => {}
  have hinstantly : firstChoices (fun _ => ({} : Choice Doc)) 200 = instantly := by
    simp [firstChoices, instantly, List.map_const']
  rw [← hinstantly] at hrep
  rw [exec_unique hrep' hrep, herr] at hcalm
  cases hcalm

end ImageBasedInstall

import ImageBasedInstall.Verify.Locality

/-!
# What the passes touch

The calls of the hosts' part of a pass, of its phases and of the passes themselves stay inside the
footprint of their object (`controllerPass_local`).
-/

namespace ImageBasedInstall

open Interactive

variable {B : Type} {F : Footprint} {ici : ImageClusterInstall} {l : Calls B}

/-! ## Hosts and data images -/

section Hosts

variable {host : NamespacedName} (hhost : F.hosts host)
include hhost

theorem removeBMHDataImage_local : (removeBMHDataImage host : Act B _).run.Uses F.Call := by
  refine uses_bind ?_ fun deleted => ?_
  · refine uses_bind (uses_attempt (Prog.uses_perform ⟨hhost, trivial⟩)) fun r => ?_
    split
    · split <;> trivial
    · exact uses_bind (Prog.uses_perform ⟨hhost, trivial⟩) fun _ => trivial
  split
  · trivial
  refine uses_bind (uses_attempt (Prog.uses_perform ⟨hhost, trivial⟩)) fun r => ?_
  split
  · split <;> trivial
  · refine uses_bind ?_ fun _ => trivial
    unfold rebootBMH
    dsimp only
    split
    · exact uses_bind (Prog.uses_perform ⟨hhost, HostEdit.rebooted⟩) fun _ => trivial
    · trivial

theorem ensureBMHDataImage_local (url : String) :
    (ensureBMHDataImage host url : Act B _).run.Uses F.Call := by
  refine uses_bind (uses_attempt (Prog.uses_perform ⟨hhost, trivial⟩)) fun r => ?_
  split
  · split <;> trivial
  split
  · trivial
  · exact uses_bind (uses_wrap (Prog.uses_perform ⟨hhost, trivial⟩)) fun _ =>
      uses_bind (Prog.uses_perform ⟨hhost, trivial⟩) fun _ => trivial

theorem updateBMHProvisioningState_local (bmh : BareMetalHost) (image : DataImage) :
    (updateBMHProvisioningState host bmh image : Program B _).Uses F.Call := by
  unfold updateBMHProvisioningState
  split
  · trivial
  split
  · trivial
  · exact Prog.Uses.bind (Prog.uses_perform ⟨hhost, HostEdit.booted image⟩) fun _ => trivial

end Hosts

theorem handlePostCleanup_local (h : F.Admits ici) :
    (handlePostCleanup ici : Act B _).run.Uses F.Call := by
  unfold handlePostCleanup
  split
  · trivial
  split
  · trivial
  · next host hhost =>
    have hhost := h.host host hhost
    refine uses_bind (uses_wrap (removeBMHDataImage_local hhost)) fun _ => ?_
    refine uses_bind (uses_attempt (Prog.uses_perform ⟨hhost, trivial⟩)) fun r => ?_
    split
    · trivial
    · split <;> trivial

theorem finalize_local (E : Env B) (h : F.Admits ici) :
    (finalize E F.key ici).run.Uses F.Call := by
  refine uses_bind (removeConfigDir_local E h.dir) fun removed => ?_
  split
  · trivial
  refine uses_bind ?_ fun gone => ?_
  · unfold removeHostDataImage
    split
    · trivial
    · next host hhost =>
      exact uses_bind (uses_wrap (removeBMHDataImage_local (h.host host hhost))) fun _ => trivial
  split
  · trivial
  refine uses_bind ?_ fun _ => trivial
  unfold removeFinalizer
  split
  · refine uses_bind (uses_lift ?_) fun r => uses_liftExcept _
    exact Prog.Uses.bind (Prog.uses_perform ⟨⟨rfl, h.edit rfl rfl rfl⟩, trivial⟩) fun _ => trivial
  · trivial

/-! ## The object -/

section Object

variable {new : ImageClusterInstall} (h : F.Admits ici)

theorem patchICI_local (hnew : F.Admits new) :
    Meets F.Pass (patchICI F.key ici new) (fun r _ => F.Admits r.1) l := by
  refine Meets.bind (logged_perform fun r hr => ⟨⟨⟨rfl, hnew⟩, trivial⟩, logged_ret.2 ?_⟩)
  cases r with
  | error e => exact hnew
  | ok stored => exact hr rfl

theorem patchICIStatus_local (hnew : F.Admits new) :
    Meets F.Pass (patchICIStatus F.key ici new) (fun r _ => F.Admits r.1) l := by
  refine Meets.bind (logged_perform fun r hr => ⟨⟨⟨rfl, hnew⟩, trivial⟩, logged_ret.2 ?_⟩)
  cases r with
  | error e => exact hnew
  | ok stored => exact hr rfl

include h

theorem ensureAnnotated_local (key value : String) :
    Meets F.Pass (ensureAnnotated F.key ici key value) (fun r _ => F.Admits r.1) l := by
  unfold ensureAnnotated
  dsimp only
  split
  · exact logged_ret.2 h
  · exact patchICI_local (h.edit rfl rfl rfl)

theorem initializeConditions_local :
    Meets F.Pass (initializeConditions F.key ici) (fun r _ => F.Admits r.1) l := by
  refine Meets.seq (local_of_uses (uses_foldlM _ _ fun acc cond => ?_)) fun acc l₁ _ => ?_
  · unfold initializeCondition
    split
    · trivial
    · exact (Prog.uses_perform ⟨trivial, trivial⟩).bind fun _ => trivial
  · dsimp only
    split
    · exact logged_ret.2 h
    · exact patchICIStatus_local (h.edit rfl rfl rfl)

theorem setRequirementsMetCondition_local (status : ConditionStatus) (reason msg : String) :
    Meets F.Pass (setRequirementsMetCondition F.key ici status reason msg)
      (fun r _ => F.Admits r) l := by
  refine Meets.bind (logged_perform fun t _ => ⟨⟨trivial, trivial⟩, ?_⟩)
  dsimp only
  split
  · exact logged_ret.2 h
  · exact Meets.seq (patchICIStatus_local (h.edit rfl rfl rfl)) fun r _ hr => logged_ret.2 hr

theorem prepare_local : Meets F.Pass (prepare F.key ici) (fun r _ => F.Admits r.1) l := by
  refine Meets.seq (ensureAnnotated_local h _ _) ?_
  rintro ⟨ici₁, r₁⟩ l₁ h₁
  cases r₁ with
  | error e => exact logged_ret.2 h₁
  | ok _ =>
    refine Meets.seq (ensureAnnotated_local h₁ _ _) ?_
    rintro ⟨ici₂, r₂⟩ l₂ h₂
    cases r₂ with
    | error e => exact logged_ret.2 h₂
    | ok _ => exact initializeConditions_local h₂

theorem checkStarted_local : Meets F.Pass (checkStarted F.key ici) (fun r _ => F.Admits r.1) l := by
  unfold checkStarted
  split
  · exact logged_ret.2 h
  have hrestore : Meets F.Pass (restoreRequirementsMet F.key ici) (fun r _ => F.Admits r) l := by
    unfold restoreRequirementsMet
    split
    · split
      · exact setRequirementsMetCondition_local h _ _ _
      · exact logged_ret.2 h
    · exact logged_ret.2 h
  refine Meets.seq hrestore fun ici₁ l₁ h₁ => ?_
  exact Meets.seq (local_of_uses (verifyIsoAndAuthExists_local h₁.dir)) fun _ _ _ => logged_ret.2 h₁

theorem setClusterInstallMetadata_local (E : Env B) {cdName : String} (hcd : F.cds cdName)
    (cd : ClusterDeployment) :
    Meets F.Pass (setClusterInstallMetadata E F.key ici ⟨F.key.ns, cdName⟩ cd)
      (fun r _ => F.Admits r.1) l := by
  have hfresh : ∀ current secret (fresh : Program B String), fresh.Uses F.Call →
      (chooseID current secret fresh).Uses F.Call := fun current secret fresh =>
    chooseID_uses current secret
  unfold setClusterInstallMetadata
  split
  · exact logged_ret.2 h
  · exact logged_ret.2 h
  refine Meets.seq (local_of_uses (seedReconfigSecretClusterIDs_local hcd E)) fun ids l₁ _ => ?_
  split
  · exact logged_ret.2 h
  refine Meets.seq (local_of_uses (hfresh _ _ _ ?_)) fun clusterID l₂ _ => ?_
  · exact Prog.Uses.bind (Prog.uses_perform ⟨trivial, trivial⟩) fun _ => trivial
  refine Meets.seq (local_of_uses (hfresh _ _ _ ?_)) fun infraID l₃ _ => ?_
  · exact Prog.Uses.bind (Prog.uses_perform ⟨trivial, trivial⟩) fun _ => trivial
  exact patchICI_local (h.withMetadata hcd clusterID infraID)

end Object

/-! ## The phases -/

section Phases

variable (E : Env B) (h : F.Admits ici)

theorem patchBMH_local {host : NamespacedName} {bmh new : BareMetalHost} (hhost : F.hosts host)
    (hnew : F.AdmitsHost host new) (hedit : HostEdit bmh new) :
    Meets F.Pass (patchBMH host bmh new) (fun r _ => F.AdmitsHost host r.1) l := by
  refine Meets.bind (logged_perform fun r hr => ⟨⟨hhost, hedit⟩, logged_ret.2 ?_⟩)
  cases r with
  | error e => exact hnew
  | ok stored => exact hr hhost

theorem validateHost_local (s : Spec) {host : NamespacedName} {bmh : BareMetalHost}
    (hhost : F.hosts host) (hbmh : F.AdmitsHost host bmh) (cond : Condition) :
    Meets F.Pass (validateHost E s host bmh cond) (fun r _ => F.AdmitsHost host r.1) l := by
  unfold validateHost
  split
  · exact logged_ret.2 hbmh
  split
  · exact logged_ret.2 hbmh
  split
  · exact logged_ret.2 hbmh
  refine Meets.seq (patchBMH_local hhost hbmh .provisioned) ?_
  rintro ⟨bmh₁, r⟩ l₁ h₁
  cases r <;> exact logged_ret.2 h₁

include h

theorem validateConfiguration_local (cd : Option (NamespacedName × ClusterDeployment))
    (cond : Condition) :
    Meets F.Pass (validateConfiguration F.key ici.spec cd cond)
      (fun r _ => ∀ host bmh, r.2 = .ok (some (host, bmh)) →
        F.hosts host ∧ F.AdmitsHost host bmh) l := by
  unfold validateConfiguration
  split
  · split <;> exact logged_ret.2 (by simp)
  · exact logged_ret.2 (by simp)
  · next key hkey =>
    have hhost : F.hosts key := h.host key (Option.filter_eq_some_iff.1 hkey).1
    refine Meets.bind (logged_perform fun r hr => ⟨⟨hhost, trivial⟩, ?_⟩)
    cases r with
    | error e => exact logged_ret.2 (by simp)
    | ok bmh =>
      have hbmh : F.AdmitsHost key bmh := hr hhost
      dsimp only
      split
      · refine logged_ret.2 fun host bmh' heq => ?_
        cases heq
        exact ⟨hhost, hbmh⟩
      · refine Meets.seq (patchBMH_local hhost hbmh .cleaningDisabled) ?_
        rintro ⟨bmh₁, r⟩ l₁ h₁
        cases r with
        | error e => exact logged_ret.2 (by simp)
        | ok _ =>
          refine logged_ret.2 fun host bmh' heq => ?_
          cases heq
          exact ⟨hhost, h₁⟩

theorem recordBoot_local (cond : Condition) :
    Meets F.Pass (recordBoot F.key ici cond) (fun out _ => F.Admits out.ici) l := by
  unfold recordBoot
  split
  · exact logged_ret.2 h
  have htime : (bootTimeOf ici.status : Program B Time).Uses F.Call := by
    unfold bootTimeOf
    split
    · trivial
    · exact Prog.uses_perform ⟨trivial, trivial⟩
  refine Meets.seq (local_of_uses htime) fun t l₁ _ => ?_
  refine Meets.seq (patchICIStatus_local (h.bootedAt t)) ?_
  rintro ⟨ici₁, r⟩ l₂ h₂
  cases r <;> exact logged_ret.2 h₂

theorem configureHost_local (url : String) {host : NamespacedName} (hhost : F.hosts host)
    (bmh : BareMetalHost) (cond : Condition) :
    Meets F.Pass (configureHost E F.key ici url host bmh cond)
      (fun out _ => F.Admits out.ici) l := by
  refine Meets.seq (local_of_uses (ensureBMHDataImage_local hhost url)) fun r l₁ _ => ?_
  split
  · exact logged_ret.2 h
  split
  · exact logged_ret.2 h
  refine Meets.bind (logged_perform fun t _ => ⟨⟨trivial, trivial⟩, ?_⟩)
  split
  · exact logged_ret.2 h
  refine Meets.seq (local_of_uses (updateBMHProvisioningState_local hhost _ _)) fun r l₂ _ => ?_
  split
  · exact logged_ret.2 h
  split
  · exact logged_ret.2 h
  · exact recordBoot_local h cond

variable [DecidableEq B]

theorem imagePhases_local {cdName : String} (hcd : F.cds cdName) {cd : ClusterDeployment}
    (hpull : F.AdmitsCD cd) {host : NamespacedName} (hhost : F.hosts host) {bmh : BareMetalHost}
    (hbmh : F.AdmitsHost host bmh) (cond : Condition) :
    Meets F.Pass (imagePhases E F.key ici (⟨F.key.ns, cdName⟩, cd) host bmh cond)
      (fun out _ => F.Admits out.ici) l := by
  have hinp : F.AdmitsInput ⟨F.key.ns, ici.spec, ⟨F.key.ns, cdName⟩, cd, host, bmh⟩ :=
    ⟨rfl, ⟨ici, h, rfl⟩, rfl, hcd, hpull, hbmh⟩
  have himage : ∀ cond, Meets F.Pass (createImage E F.key ici.uid
      ⟨F.key.ns, ici.spec, ⟨F.key.ns, cdName⟩, cd, host, bmh⟩ cond) (fun _ _ => True) l := by
    intro cond
    refine Meets.seq (writeInputData_local E hinp h.dir) fun r l₁ _ => ?_
    split
    · exact logged_ret.2 trivial
    · exact logged_ret.2 trivial
    · exact logged_ret.2 trivial
    split
    · exact logged_ret.2 trivial
    split <;> exact logged_ret.2 trivial
  refine Meets.seq (himage _) fun r l₁ _ => ?_
  split
  · exact logged_ret.2 h
  split
  · exact logged_ret.2 h
  refine Meets.seq (configureHost_local E h _ hhost _ _) fun out l₂ h₂ => ?_
  split <;> exact logged_ret.2 h₂

theorem runPhases_local {cd : Option (NamespacedName × ClusterDeployment)}
    (hcd : F.AdmitsFetched cd) :
    Meets F.Pass (runPhases E F.key ici cd) (fun out _ => F.Admits out.ici) l := by
  refine Meets.seq (validateConfiguration_local h cd _) ?_
  rintro ⟨cond, r⟩ l₁ h₁
  split
  · next cd' cond' host bmh heq =>
    obtain ⟨hhost, hbmh⟩ := h₁ host bmh (by rw [(Prod.mk.inj heq).2])
    obtain ⟨⟨ns, cdName⟩, cd''⟩ := cd'
    obtain ⟨rfl, hname, hpull⟩ := hcd _ _ rfl
    refine Meets.seq (validateHost_local E _ hhost hbmh _) ?_
    rintro ⟨bmh₂, cond₂, r₂⟩ l₂ h₂
    cases r₂ with
    | error e => exact logged_ret.2 h
    | ok res =>
      dsimp only
      split
      · exact logged_ret.2 h
      refine Meets.seq (setClusterInstallMetadata_local h E hname cd'') ?_
      rintro ⟨ici₃, r₃⟩ l₃ h₃
      split
      · next heq₃ => cases heq₃; exact logged_ret.2 h₃
      · next heq₃ => cases heq₃; exact logged_ret.2 h₃
      · next heq₃ => cases heq₃; exact imagePhases_local E h₃ hname hpull hhost h₂ _
  · exact logged_ret.2 h

end Phases

/-! ## The passes -/

section Passes

variable (E : Env B)

theorem setInstallConditions_local (h : F.Admits ici) (conds : List Condition) :
    (setInstallConditions F.key ici conds : Program B _).Uses F.Call := by
  refine (uses_foldlM _ _ fun acc cond => ?_).bind fun acc => ?_
  · exact (Prog.uses_perform ⟨trivial, trivial⟩).bind fun _ => trivial
  · dsimp only
    split
    · trivial
    · exact Prog.Uses.bind (Prog.uses_perform ⟨⟨rfl, h.edit rfl rfl rfl⟩, trivial⟩)
        fun _ => trivial

theorem handleDataImageDeletion_local (h : F.Admits ici) {host : NamespacedName}
    (hhost : F.hosts host) :
    (handleDataImageDeletion F.key ici host : Act B _).run.Uses F.Call := by
  refine uses_bind (uses_attempt (Prog.uses_perform ⟨hhost, trivial⟩)) fun r => ?_
  split
  · split <;> trivial
  split
  · trivial
  · exact uses_bind (uses_lift (setInstallConditions_local h _)) fun _ => trivial

theorem reportProgress_local (h : F.Admits ici) (message : String) :
    (reportProgress E F.key ici message).run.Uses F.Call := by
  refine uses_bind ?_ fun expired => ?_
  · unfold handleClusterTimeout
    split
    · trivial
    refine uses_bind (uses_liftExcept _) fun timeout => ?_
    refine uses_bind (uses_lift (Prog.uses_perform ⟨trivial, trivial⟩)) fun t => ?_
    split
    · exact uses_bind (uses_lift (setInstallConditions_local h _)) fun _ => trivial
    · trivial
  split
  · trivial
  · exact uses_bind (uses_lift (setInstallConditions_local h _)) fun _ => trivial

theorem checkClusterStatus_local (h : F.Admits ici) {host : NamespacedName} (hhost : F.hosts host) :
    (checkClusterStatus E F.key ici host).run.Uses F.Call := by
  refine uses_bind (handleDataImageDeletion_local h hhost) fun r => ?_
  split
  · trivial
  refine uses_bind ?_ fun kubeconfig => ?_
  · unfold spokeKubeconfig
    split
    · trivial
    · next m hm =>
      split
      · trivial
      refine uses_bind (uses_wrap (Prog.uses_perform ⟨(h.metadata m hm).1, trivial⟩))
        fun secret => ?_
      split
      · trivial
      · split <;> trivial
  refine uses_bind (uses_wrap (Prog.uses_perform ⟨trivial, trivial⟩)) fun status => ?_
  split
  · refine uses_bind (removeBMHDataImage_local hhost) fun _ => ?_
    refine uses_bind (handleDataImageDeletion_local h hhost) fun r => ?_
    split
    · trivial
    · exact uses_bind (uses_lift (setInstallConditions_local h _)) fun _ =>
        uses_bind (uses_liftExcept _) fun _ => trivial
  · exact reportProgress_local E h _

/-- A pass of the monitor. -/
theorem monitor_local : Meets F.Pass (monitor E F.key).run (fun _ _ => True) l := by
  refine Meets.bind (Meets.bind (logged_perform fun r hr => ⟨⟨rfl, trivial⟩, logged_ret.2 ?_⟩))
  cases r with
  | error e =>
    dsimp only [ExceptT.bindCont]
    split <;> exact logged_ret.2 trivial
  | ok ici =>
    have h : F.Admits ici := hr rfl
    dsimp only [ExceptT.bindCont]
    split
    · exact logged_ret.2 trivial
    split
    · exact logged_ret.2 trivial
    refine local_of_uses ?_
    unfold monitorInstallationProgress
    split
    · trivial
    · next host hhost =>
      have hhost := h.bootedHost host hhost
      refine uses_bind (Prog.uses_perform ⟨hhost, trivial⟩) fun bmh => ?_
      split
      · exact checkClusterStatus_local E h hhost
      · exact reportProgress_local E h _

theorem handleFinalizer_local (h : F.Admits ici) :
    Meets F.Pass (handleFinalizer E F.key ici) (fun r _ => F.Admits r.1) l := by
  unfold handleFinalizer
  split
  · split
    · exact logged_ret.2 h
    · exact Meets.seq (patchICI_local (h.edit rfl rfl rfl)) fun r _ hr => logged_ret.2 hr
  · refine Meets.seq (local_of_uses (finalize_local E h)) fun r l₁ _ => ?_
    split <;> exact logged_ret.2 h

theorem fetchCD_local (h : F.Admits ici) :
    Meets F.Pass (fetchCD F.key.ns ici.spec : Program B _) (fun cd _ => F.AdmitsFetched cd) l := by
  unfold fetchCD
  split
  · exact logged_ret.2 fun _ _ heq => by cases heq
  · next name hname =>
    have hcd : F.cds name := h.cd name (Option.filter_eq_some_iff.1 hname).1
    refine Meets.bind (logged_perform fun r hr => ⟨⟨⟨rfl, hcd⟩, trivial⟩, ?_⟩)
    cases r with
    | error e => exact logged_ret.2 fun _ _ heq => by cases heq
    | ok cd =>
      refine logged_ret.2 fun key cd' heq => ?_
      cases heq
      exact ⟨rfl, hcd, hr rfl hcd⟩

variable [DecidableEq B]

theorem reconcileInstall_local (h : F.Admits ici)
    {cd : Option (NamespacedName × ClusterDeployment)} (hcd : F.AdmitsFetched cd) :
    Meets F.Pass (reconcileInstall E F.key ici cd) (fun _ _ => True) l := by
  refine Meets.seq (checkStarted_local h) ?_
  rintro ⟨ici₁, started⟩ l₁ h₁
  cases started with
  | true => exact logged_ret.2 trivial
  | false =>
    dsimp only
    split
    · exact logged_ret.2 trivial
    refine Meets.seq (prepare_local h₁) ?_
    rintro ⟨ici₂, r₂⟩ l₂ h₂
    cases r₂ with
    | error e => exact logged_ret.2 trivial
    | ok _ =>
      refine Meets.seq (runPhases_local E h₂ hcd) fun out l₃ h₃ => ?_
      exact Meets.seq (setRequirementsMetCondition_local h₃ _ _ _) fun _ _ _ => logged_ret.2 trivial

/-- A pass of the reconciler. -/
theorem reconcile_local : Meets F.Pass (reconcile E F.key) (fun _ _ => True) l := by
  refine Meets.bind (logged_perform fun r hr => ⟨⟨rfl, trivial⟩, ?_⟩)
  cases r with
  | error e => exact logged_ret.2 trivial
  | ok ici =>
    refine Meets.seq (handleFinalizer_local E (hr rfl)) ?_
    rintro ⟨ici₁, r₁⟩ l₁ h₁
    cases r₁ with
    | some stop => exact logged_ret.2 trivial
    | none =>
      refine Meets.seq (fetchCD_local h₁) fun cd l₂ hcd => ?_
      refine Meets.seq (local_of_uses (labelReferencedObjectsForBackup_local h₁ hcd))
        fun _ l₃ _ => ?_
      split
      · refine Meets.seq (local_of_uses (handlePostCleanup_local h₁)) fun r l₄ _ => ?_
        cases r <;> exact logged_ret.2 trivial
      · exact reconcileInstall_local E h₁ hcd

/-- A pass of either controller stays inside the footprint of its object. -/
theorem controllerPass_local (controller : Controller) :
    Meets F.Pass (controllerPass E ⟨controller, F.key⟩) (fun _ _ => True) l := by
  cases controller with
  | reconciler => exact Meets.seq (reconcile_local E) fun _ _ _ => logged_ret.2 trivial
  | monitor => exact Meets.seq (monitor_local E) fun _ _ _ => logged_ret.2 trivial

end Passes

end ImageBasedInstall

import ImageBasedInstall.Verify.Phases

/-!
# The phases together

The last two phases, and the four in sequence: what they establish when the pass runs alone, and
that their calls are those of `Calls`. Phases that report their requirements as met end with
everything in place.
-/

namespace ImageBasedInstall

open Interactive Patch

variable {B : Type} [DecidableEq B]
  {ok guar : World B → (op : Op B) → Resp op → World B → Prop} {w₀ w w' : World B} {E : Env B}
  {req key : NamespacedName} {ici : ImageClusterInstall} {bmh : BareMetalHost} {cond : Condition}

/-! ## The image -/

theorem createImage_pass (rules : Guarded E req w₀ ok guar) {inp : BuildInput} {uid : String}
    (h : BuildStart E req w₀ w inp uid) :
    Meets (Running ok guar) (createImage E req uid inp cond)
      (fun r w' => Framed [.nothing, .file, .secret, .iso] w w' ∧ r.1.status = cond.status ∧
        ∀ url res, r.2 = .ok (url, res) → res.isZero = true →
          url = imageURL E req.ns uid ∧
          ImageReady inp.cdKey (getClusterConfigDir req.ns uid) w') w := by
  have hframe : Meets (Alone ok) (writeInputData E inp uid).run
      (fun _ w' => Framed [.nothing, .file, .secret, .iso] w w') w :=
    (meets_framed (writeInputData_targets E inp uid)).guar_mono fun _ _ _ _ _ => trivial
  have hready : Tries (Alone ok) (writeInputData E inp uid)
      (fun res w' => res.isZero = true →
        ImageReady inp.cdKey (getClusterConfigDir req.ns uid) w') (fun _ _ => True) w :=
    h.ns ▸ writeInputData_spec E inp uid
  refine Meets.seq (meets_alone (rules.build h) (hframe.and hready)) ?_
  rintro (e | res) w₁ ⟨-, hf, h⟩
  · cases e <;> exact meets_ret.2 ⟨hf, rfl, fun _ _ h => by cases h⟩
  dsimp only
  split
  · next hz =>
    refine meets_ret.2 ⟨hf, rfl, fun _ _ heq hzero => ?_⟩
    cases heq
    rw [hzero] at hz
    cases hz
  · next hz =>
    split
    · refine meets_ret.2 ⟨hf, rfl, fun _ _ heq _ => ?_⟩
      cases heq
      exact ⟨rfl, h (by simpa using hz)⟩
    · exact meets_ret.2 ⟨hf, rfl, fun _ _ h => by cases h⟩

/-! ## The data image -/

/-- The `DataImage` found or created stays on the host. -/
theorem ensureBMHDataImage_pass (rules : Guarded E req w₀ ok guar) (h : InHand req w₀ w ici)
    (href : ici.spec.bareMetalHostRef = some key) :
    Tries (Running ok guar) (ensureBMHDataImage key (imageURL E req.ns ici.uid))
      (fun r w' => Framed [.dataImage] w w' ∧ (r.2.isZero = true →
        w'.dataImages key = some r.1 ∧ r.1.deletionTimestamp = none))
      (fun _ w' => Framed [.dataImage] w w') w := by
  refine Tries.bind (tries_attempt (tries_getDataImage (rules.call (.read rfl)) ?_ ?_ ?_))
  · intro d hd
    dsimp only
    split
    · exact tries_pure.2 ⟨.refl _ _, fun h => nomatch h⟩
    · next h => exact tries_pure.2 ⟨.refl _ _, fun _ => ⟨hd, by simpa using h⟩⟩
  · intro hnone
    refine Tries.bind (tries_wrap (meets_call fun c r w₁ hc ho => ?_))
    refine ⟨rules.call (.createImage h href) _ _ _ hc ho, meets_ret.2 ?_⟩
    have hframe : Framed [.dataImage] w w₁ := answer_framed hc
    match r with
    | .error e => exact hframe
    | .ok () =>
      obtain ⟨t, -, -, rfl⟩ | ⟨e, t, h, -, -⟩ := answer_createDataImage hc
      · refine Tries.bind (tries_getDataImage (rules.call (.read rfl)) ?_ ?_ ?_)
        · intro d hd
          obtain rfl : { url := imageURL E req.ns ici.uid, creationTimestamp := t } = d := by
            simpa [World.setDataImage] using hd
          exact tries_pure.2 ⟨hframe, fun _ => ⟨hd, rfl⟩⟩
        · exact fun _ => hframe
        · exact fun _ => hframe
      · cases h
  · exact fun e => tries_throw.2 (.refl _ _)

/-! ## Booting the host -/

omit [DecidableEq B] in
theorem ObjectReady.of_status {ici' : ImageClusterInstall} {cdName : String}
    (h : ObjectReady key cdName ici)
    (hici : ({ ici' with status := ici.status } : ImageClusterInstall) = ici) :
    ObjectReady key cdName ici' := by
  rw [← hici] at h
  exact ⟨⟨h.undeleted, h.finalizer, h.restoreStatus, h.postCleanup⟩, h.metadata, h.hostRef, h.cdRef⟩

omit [DecidableEq B] in
/-- A patch of the status leaves everything in place. -/
theorem Prepared.setStatus {stored new : ImageClusterInstall} (h : Prepared E req key w)
    (hs : w.icis req = some stored)
    (hnew : ({ new with status := stored.status } : ImageClusterInstall) = stored) :
    Prepared E req key (w.setICI req (some new)) := by
  obtain ⟨⟨ici, cdName, hici, hobj, himg⟩, hhost, hatt⟩ := h
  obtain rfl : stored = ici := Option.some.inj (hs.symm.trans hici)
  have huid : new.uid = stored.uid := by rw [← hnew]
  refine ⟨⟨new, cdName, by simp [World.setICI], hobj.of_status hnew, ?_⟩, hhost, hatt⟩
  rw [huid]
  exact himg.of_eq (fun _ _ => rfl) rfl

omit [DecidableEq B] in
/-- What only reads leaves everything in place. -/
theorem Prepared.of_framed (h : Prepared E req key w) (hf : Framed [] w w') :
    Prepared E req key w' := by
  obtain ⟨⟨ici, cdName, hici, hobj, himg⟩, ⟨bmh, hb, hbr⟩, d, hd, hdel, hcool⟩ := h
  refine ⟨⟨ici, cdName, ?_, hobj, ?_⟩, ⟨bmh, ?_, hbr⟩, d, ?_, hdel, Int.le_trans hcool hf.clock⟩
  · rw [hf.icis (by decide), hici]
  · exact himg.of_eq (fun p _ => congrFun (hf.fs (by decide) (by decide)) p)
      (hf.secrets (by decide))
  · rw [hf.bmhs (by decide), hb]
  · rw [hf.dataImages (by decide), hd]

omit [DecidableEq B] in
/-- A patch of the host that keeps it ready leaves everything in place. -/
theorem Prepared.setBMH {host : BareMetalHost} (h : Prepared E req key w)
    (hmode : host.automatedCleaningMode = .disabled) (hext : host.externallyProvisioned = true) :
    Prepared E req key (w.setBMH key host) := by
  obtain ⟨⟨ici, cdName, hici, hobj, himg⟩, -, hatt⟩ := h
  exact ⟨⟨ici, cdName, hici, hobj, himg.of_eq (fun _ _ => rfl) rfl⟩,
    ⟨host, by simp [World.setBMH], hmode, hext⟩, hatt⟩

omit [DecidableEq B] in
theorem merge_booted (bmh : BareMetalHost) (d : DataImage) :
    BareMetalHost.merge bmh (bmh.booted d) bmh = bmh.booted d := by
  simp [BareMetalHost.merge, BareMetalHost.booted]

/-- The host becomes managed only with everything in place, and everything stays in place. -/
theorem updateBMHProvisioningState_pass (rules : Guarded E req w₀ ok guar) {d : DataImage}
    (h : InHand req w₀ w ici) (hprep : Prepared E req key w) (hb : w.bmhs key = some bmh) :
    Meets (Running ok guar) (updateBMHProvisioningState key bmh d)
      (fun r w' => Framed [.bmh] w w' ∧ (r.2 = .ok () → Prepared E req key w' ∧
        w'.bmhs key = some r.1)) w := by
  unfold updateBMHProvisioningState
  split
  · exact meets_ret.2 ⟨.refl .., fun _ => ⟨hprep, hb⟩⟩
  next hnew =>
  split
  · exact meets_ret.2 ⟨.refl .., fun _ => ⟨hprep, hb⟩⟩
  refine meets_patchBMH (rules.call (.manage h hprep hb (by simpa using hnew)))
    (fun stored hs => ?_) fun _ => ⟨.refl .., fun h => nomatch h⟩
  obtain rfl : bmh = stored := Option.some.inj (hb.symm.trans hs)
  obtain ⟨bmh', hb', hmode, hext⟩ := hprep.hostReady
  obtain rfl : bmh = bmh' := Option.some.inj (hb.symm.trans hb')
  rw [merge_booted]
  have hprep' : Prepared E req key (w.setBMH key (bmh.booted d)) := hprep.setBMH hmode hext
  exact ⟨⟨.setBMH .., fun _ => ⟨hprep', by simp [World.setBMH]⟩⟩, fun _ =>
    ⟨.setBMH .., fun h => nomatch h⟩⟩

/-- The boot time is set on a managed host with everything in place. -/
theorem recordBoot_pass (rules : Guarded E req w₀ ok guar) (h : InHand req w₀ w ici)
    (href : ici.spec.bareMetalHostRef = some key) (hprep : Prepared E req key w)
    (hman : Managed key w) :
    Meets (Running ok guar) (recordBoot req ici cond)
      (fun out w' => out.cond.status = cond.status ∧
        (out.continues = true → Prepared E req key w')) w := by
  unfold recordBoot
  split
  · exact meets_ret.2 ⟨rfl, fun _ => hprep⟩
  next hnew =>
  refine Meets.seq (Q := fun t w' => Framed [] w w' ∧
    ∀ t', ici.status.bootTime = some t' → t = t') ?_ ?_
  · unfold bootTimeOf
    split
    · next t' ht' =>
      refine meets_ret.2 ⟨.refl .., fun t ht => ?_⟩
      exact Option.some.inj (ht'.symm.trans ht)
    · next hnone =>
      refine meets_now (rules.call (.read rfl)) fun t ht => ⟨.tick ht [], fun t' ht' => ?_⟩
      rw [hnone] at ht'
      cases ht'
  rintro t w₁ ⟨hf, ht⟩
  have h := h.of_eq (hf.icis (by decide))
  have hprep := hprep.of_framed hf
  have hman : Managed key w₁ := by
    obtain ⟨bmh, hb, hm⟩ := hman
    exact ⟨bmh, by rw [hf.bmhs (by decide), hb], hm⟩
  refine Meets.seq (Q := fun r w' => r.2 = .ok () → Prepared E req key w') ?_ ?_
  · refine meets_patchICIStatus (rules.call (.boot h href hprep hman hnew ht)) (fun stored hs => ?_)
      fun _ h => nomatch h
    exact ⟨fun _ => hprep.setStatus hs rfl, fun _ h => nomatch h⟩
  · rintro ⟨ici', r⟩ w₂ h₂
    match r with
    | .error e => exact meets_ret.2 ⟨rfl, fun h => nomatch h⟩
    | .ok () => exact meets_ret.2 ⟨rfl, fun _ => h₂ rfl⟩

/-! ## The phases together -/

/-- The object and the host are as the last two phases need them. -/
structure Staged (E : Env B) (req key : NamespacedName) (w₀ : World B) (cdName : String)
    (ici : ImageClusterInstall) (bmh : BareMetalHost) (w : World B) : Prop where
  inHand : InHand req w₀ w ici
  object : ObjectReady key cdName ici
  host : w.bmhs key = some bmh
  mode : bmh.automatedCleaningMode = .disabled
  provisioned : bmh.externallyProvisioned = true

omit [DecidableEq B] in
theorem Staged.of_framed {cdName : String} {S : List Target}
    (h : Staged E req key w₀ cdName ici bmh w) (hf : Framed S w w') (hici : .ici ∉ S)
    (hbmh : .bmh ∉ S) : Staged E req key w₀ cdName ici bmh w' :=
  ⟨h.inHand.of_eq (hf.icis hici), h.object, hf.bmhs hbmh ▸ h.host, h.mode, h.provisioned⟩

omit [DecidableEq B] in
theorem ObjectReady.of_core {stored : ImageClusterInstall} {cdName : String}
    (h : ObjectReady key cdName ici) (hcore : stored.core = ici.core) :
    ObjectReady key cdName stored := by
  have hc : ObjectReady key cdName ici.core := h.of_status rfl
  rw [← hcore] at hc
  exact hc.of_status rfl

omit [DecidableEq B] in
/-- The assertions of the phases make up `Prepared` once the image has cooled down. -/
theorem Staged.prepared {cdName : String} {d : DataImage}
    (h : Staged E req key w₀ cdName ici bmh w)
    (himg : ImageReady ⟨req.ns, cdName⟩ (getClusterConfigDir req.ns ici.uid) w)
    (hd : w.dataImages key = some d) (hdel : d.deletionTimestamp = none)
    (hcool : d.creationTimestamp + E.dataImageCoolDownPeriod ≤ w.clock) :
    Prepared E req key w := by
  obtain ⟨stored, hs, hcore⟩ := h.inHand.synced
  have huid : stored.uid = ici.uid := (core_eq_iff.1 hcore).1
  refine ⟨⟨stored, cdName, hs, h.object.of_core hcore, huid ▸ himg⟩, ?_, d, hd, hdel, hcool⟩
  exact ⟨bmh, h.host, h.mode, h.provisioned⟩

theorem bootHost_pass (rules : Guarded E req w₀ ok guar) {cdName : String} {d : DataImage}
    (hst : Staged E req key w₀ cdName ici bmh w)
    (himg : ImageReady ⟨req.ns, cdName⟩ (getClusterConfigDir req.ns ici.uid) w)
    (hd : w.dataImages key = some d) (hdel : d.deletionTimestamp = none) :
    Meets (Running ok guar) (bootHost E req ici key bmh d cond)
      (fun out w' => out.cond.status = cond.status ∧
        (out.continues = true → Prepared E req key w')) w := by
  refine Meets.bind (meets_now (rules.call (.read rfl)) fun t ht => ?_)
  split
  · exact meets_ret.2 ⟨rfl, fun h => nomatch h⟩
  next hcool =>
  have hst : Staged E req key w₀ cdName ici bmh { w with clock := t } :=
    hst.of_framed (Framed.tick ht []) (by simp) (by simp)
  have hprep : Prepared E req key { w with clock := t } :=
    hst.prepared (himg.of_eq (fun _ _ => rfl) rfl) hd hdel (Int.not_lt.1 hcool)
  refine Meets.seq (updateBMHProvisioningState_pass rules hst.inHand hprep hst.host) ?_
  rintro ⟨bmh', r⟩ w₁ ⟨hf, h⟩
  match r with
  | .error e => exact meets_ret.2 ⟨rfl, fun h => nomatch h⟩
  | .ok () =>
    obtain ⟨hprep₁, hb₁⟩ := h rfl
    dsimp only
    split
    · exact meets_ret.2 ⟨rfl, fun h => nomatch h⟩
    next hman =>
    exact recordBoot_pass rules (hst.inHand.of_eq (hf.icis (by decide))) hst.object.hostRef hprep₁
      ⟨bmh', hb₁, by simpa using hman⟩

theorem configureHost_pass (rules : Guarded E req w₀ ok guar) {cdName : String}
    (hst : Staged E req key w₀ cdName ici bmh w)
    (himg : ImageReady ⟨req.ns, cdName⟩ (getClusterConfigDir req.ns ici.uid) w) :
    Meets (Running ok guar)
      (configureHost E req ici (imageURL E req.ns ici.uid) key bmh cond)
      (fun out w' => out.cond.status = cond.status ∧
        (out.continues = true → Prepared E req key w')) w := by
  refine Meets.seq (ensureBMHDataImage_pass rules hst.inHand hst.object.hostRef) ?_
  rintro (e | ⟨d, res⟩) w₁ h
  · exact meets_ret.2 ⟨rfl, fun h => nomatch h⟩
  obtain ⟨hf, hd⟩ := h
  dsimp only
  split
  · exact meets_ret.2 ⟨rfl, fun h => nomatch h⟩
  next hz =>
  obtain ⟨hd, hdel⟩ := hd (by simpa using hz)
  refine bootHost_pass rules (hst.of_framed hf (by decide) (by decide)) ?_ hd hdel
  exact himg.of_eq (fun p _ => congrFun (hf.fs (by decide) (by decide)) p) (hf.secrets (by decide))

theorem imagePhases_pass (rules : Guarded E req w₀ ok guar)
    {cd : NamespacedName × ClusterDeployment} (hcd : cd.1.ns = req.ns)
    (hst : Staged E req key w₀ cd.1.name ici bmh w)
    (hcheck : ∃ bmh₀, w₀.bmhs key = some bmh₀ ∧ HostChecked E ici.spec bmh₀ ∧
      bmh₀.hardwareDetails = bmh.hardwareDetails)
    (hfs : w.fs = w₀.fs) (hcond : cond.status = .false) :
    Meets (Running ok guar) (imagePhases E req ici cd key bmh cond)
      (fun out w' => out.cond.status = .true → Prepared E req key w') w := by
  have hstart : BuildStart E req w₀ w ⟨req.ns, ici.spec, cd.1, cd.2, key, bmh⟩ ici.uid :=
    ⟨rfl, hcd, ⟨ici, hst.inHand, rfl, rfl, hst.object⟩, hst.host, hst.provisioned, hcheck, hfs⟩
  refine Meets.seq (createImage_pass rules hstart) ?_
  rintro ⟨cond₁, r⟩ w₁ ⟨hf, hstatus, h⟩
  have hfalse : ¬cond₁.status = .true := by
    rw [show cond₁.status = cond.status from hstatus, hcond]
    decide
  match r with
  | .error e => exact meets_ret.2 fun h => absurd h hfalse
  | .ok (url, res) =>
    dsimp only
    split
    · exact meets_ret.2 fun h => absurd h hfalse
    next hz =>
    obtain ⟨rfl, himg⟩ := h url res rfl (by simpa using hz)
    have hkey : cd.1 = ⟨req.ns, cd.1.name⟩ := by rw [← hcd]
    have himg : ImageReady ⟨req.ns, cd.1.name⟩ (getClusterConfigDir req.ns ici.uid) w₁ :=
      hkey ▸ himg
    have hst₁ := hst.of_framed hf (by decide) (by decide)
    refine Meets.seq (configureHost_pass rules hst₁ himg) ?_
    rintro out w₂ ⟨hstatus₂, hout⟩
    split
    · refine meets_ret.2 fun h => absurd ?_ hfalse
      exact hstatus₂.symm.trans h
    · next hcont => exact meets_ret.2 fun _ => hout (by simpa using hcont)

/-- The cluster deployment in hand is the one the object names. -/
def CDOf (req : NamespacedName) (s : Spec)
    (cd : Option (NamespacedName × ClusterDeployment)) : Prop :=
  ∀ key d, cd = some (key, d) → key.ns = req.ns ∧ s.clusterDeploymentRef = some key.name

theorem hostPhases_pass (rules : Guarded E req w₀ ok guar)
    {cd : NamespacedName × ClusterDeployment} (h : InHand req w₀ w ici)
    (hcd : CDOf req ici.spec (some cd)) (ha : Annotated ici)
    (href : ici.spec.bareMetalHostRef = some key) (hb : w.bmhs key = some bmh)
    (hmode : bmh.automatedCleaningMode = .disabled) (hkept : HostsKept w₀ w) (hfs : w.fs = w₀.fs)
    (hcond : cond.status = .false) :
    Meets (Running ok guar) (hostPhases E req ici cd key bmh cond)
      (fun out w' => out.cond.status = .true → Prepared E req key w') w := by
  obtain ⟨hns, hcdRef⟩ := hcd cd.1 cd.2 rfl
  refine Meets.seq (validateHost_pass rules h href hb) ?_
  rintro ⟨bmh₁, cond₁, r⟩ w₁ ⟨hf, hstatus, hr⟩
  have hfalse : cond₁.status = .false := hstatus.trans hcond
  have hnot : ∀ c : Condition, c.status = cond₁.status → ¬c.status = .true := fun c hc => by
    rw [hc, hfalse]
    decide
  match r with
  | .error e => exact meets_ret.2 fun h => absurd h (hnot _ rfl)
  | .ok res =>
    dsimp only
    split
    · exact meets_ret.2 fun h => absurd h (hnot _ rfl)
    next hz =>
    obtain ⟨hcheck, hb₁, rfl⟩ := hr res rfl (by simpa using hz)
    have h₁ : InHand req w₀ w₁ ici := h.of_eq (hf.icis (by decide))
    refine Meets.seq (setClusterInstallMetadata_pass rules h₁ hns hcdRef) ?_
    rintro ⟨ici₂, r₂⟩ w₂ ⟨hf₂, h₂⟩
    match r₂ with
    | .error e => cases e <;> exact meets_ret.2 fun h => absurd h (hnot _ rfl)
    | .ok () =>
      have hd := h₂ rfl
      have hconf : ∀ {β : Type} (f : Spec → β), (∀ s, f s.configured = f s) →
          f ici₂.spec = f ici.spec := fun f hf => by
        rw [← hf ici₂.spec, ← hf ici.spec, hd.configured]
      have hst : Staged E req key w₀ cd.1.name ici₂ { bmh with externallyProvisioned := true }
          w₂ := by
        refine ⟨hd.inHand, ⟨hd.annotated ha, hd.metadata, ?_, ?_⟩, ?_, hmode, rfl⟩
        · rw [hconf Spec.bareMetalHostRef fun _ => rfl, href]
        · rw [hconf Spec.clusterDeploymentRef fun _ => rfl, hcdRef]
        · rw [hf₂.bmhs (by decide)]
          exact hb₁
      refine imagePhases_pass rules hns hst ?_ ?_ hfalse
      · obtain ⟨bmh₀, hb₀, hins⟩ := hkept.origin hb
        refine ⟨bmh₀, hb₀, ?_, (inspected_eq_iff hins).2.2⟩
        unfold HostChecked
        rw [hconf Spec.machineNetwork fun _ => rfl, hconf Spec.machineNetworks fun _ => rfl]
        exact hcheck.of_inspected hins
      · rw [hf₂.fs (by decide) (by decide), hf.fs (by decide) (by decide), hfs]

theorem runPhases_pass (rules : Guarded E req w₀ ok guar)
    {cd : Option (NamespacedName × ClusterDeployment)} (h : InHand req w₀ w ici)
    (hcd : CDOf req ici.spec cd) (ha : Annotated ici) (hkept : HostsKept w₀ w)
    (hfs : w.fs = w₀.fs) :
    Meets (Running ok guar) (runPhases E req ici cd)
      (fun out w' => out.cond.status = .true → ∃ host, Prepared E req host w') w := by
  refine Meets.seq (validateConfiguration_pass rules h hkept cd) ?_
  rintro ⟨cond₁, r⟩ w₁ ⟨hf, hstatus, hr⟩
  have hnot : ¬cond₁.status = .true := by
    rw [show cond₁.status = .false from hstatus]
    decide
  have h₁ : InHand req w₀ w₁ ici := h.of_eq (hf.icis (by decide))
  match cd, r with
  | none, r => exact meets_ret.2 fun h => absurd h hnot
  | some cd, .error e => exact meets_ret.2 fun h => absurd h hnot
  | some cd, .ok none => exact meets_ret.2 fun h => absurd h hnot
  | some cd, .ok (some (key, bmh)) =>
    obtain ⟨href, hb, hmode, hkept₁⟩ := hr key bmh rfl
    have hfs₁ : w₁.fs = w₀.fs := (hf.fs (by decide) (by decide)).trans hfs
    exact (hostPhases_pass rules h₁ hcd ha href hb hmode hkept₁ hfs₁ hstatus).mono
      fun _ _ h hc => ⟨key, h hc⟩

/-- The report leaves everything in place. Its copy may be a stale one: a failed patch leaves the
modified copy in memory. -/
theorem setRequirementsMetCondition_prepared (rules : Guarded E req w₀ ok guar)
    (hi : Installs req w₀) {status : ConditionStatus} {reason msg : String} {P : Prop}
    (hprep : P → ∃ host, Prepared E req host w) :
    Meets (Running ok guar) (setRequirementsMetCondition req ici status reason msg)
      (fun _ w' => P → ∃ host, Prepared E req host w') w := by
  refine Meets.bind (meets_now (rules.call (.read rfl)) fun t ht => ?_)
  have hprep : P → ∃ host, Prepared E req host { w with clock := t } := fun hP => by
    obtain ⟨host, h⟩ := hprep hP
    exact ⟨host, h.of_framed (.tick ht [])⟩
  dsimp only
  split
  · exact meets_ret.2 hprep
  · refine Meets.seq (Q := fun _ w' => P → ∃ host, Prepared E req host w') ?_
      fun _ _ h => meets_ret.2 h
    refine meets_patchICIStatus (rules.call (.conditions hi _)) (fun stored hs => ?_) fun _ => hprep
    have hset : ∀ conds, P → ∃ host, Prepared E req host (({ w with clock := t } : World B).setICI
        req (some (.mergeStatus ici (ici.withConditions conds) stored))) := fun conds hP => by
      obtain ⟨host, h⟩ := hprep hP
      exact ⟨host, h.setStatus hs rfl⟩
    exact ⟨hset _, fun _ => hset _⟩

theorem reportPhases_pass (rules : Guarded E req w₀ ok guar)
    {cd : Option (NamespacedName × ClusterDeployment)} (h : InHand req w₀ w ici)
    (hcd : CDOf req ici.spec cd) (ha : Annotated ici) (hkept : HostsKept w₀ w)
    (hfs : w.fs = w₀.fs) :
    Meets (Running ok guar) (reportPhases E req ici cd)
      (fun rep w' => (∃ c, rep.reported = some c ∧ c.status = .true) →
        ∃ host, Prepared E req host w') w := by
  refine Meets.seq (runPhases_pass rules h hcd ha hkept hfs) fun out w₁ h₁ => ?_
  refine Meets.seq (setRequirementsMetCondition_prepared rules h.installs h₁)
    fun _ w₂ h₂ => meets_ret.2 ?_
  rintro ⟨c, hc, hstatus⟩
  cases hc
  exact h₂ hstatus

end ImageBasedInstall

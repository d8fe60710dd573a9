import ImageBasedInstall.Verify.Labels
import ImageBasedInstall.Verify.Ownership
import ImageBasedInstall.Verify.Reboots

/-!
# Passes that go through

A pass in which no call fails, over a healthy object. `reconcile_advances`: it adds the finalizer
and asks to be repeated, or it waits for the `DataImage` to cool down, or it boots the host from the
object's own image and records that.
-/

namespace ImageBasedInstall

open Interactive Installer

variable {B : Type} {α : Type}

/-! ## The phases -/

/-- Time does not go back. -/
theorem meets_clocked {p : Program B α} {Q : α → World B → Prop} {w : World B}
    (h : Meets (Alone smooth) p Q w) :
    Meets (Alone smooth) p (fun a w' => Q a w' ∧ w.clock ≤ w'.clock) w := by
  refine h.and ?_
  clear h
  induction p generalizing w with
  | ret a => exact meets_ret.2 (Int.le_refl _)
  | call op k ih =>
    refine meets_call fun c r w' hc _ => ⟨trivial, (ih r).mono fun _ w'' hclock => ?_⟩
    exact Int.le_trans (answer_framed hc).clock hclock

section Phases

variable {E : Env B} {key host : NamespacedName} {cdName : String} {ici ici' : ImageClusterInstall}
  {cd : ClusterDeployment} {bmh : BareMetalHost} {image : Option DataImage} {w w' : World B}

theorem meets_smooth_patchBMH {base new : BareMetalHost}
    {Q : BareMetalHost × Except Err Unit → World B → Prop} (h : w.bmhs key = some base)
    (hnew : new.preprovisioningNetworkDataName = base.preprovisioningNetworkDataName ∧
      new.provisioningState = base.provisioningState ∧ new.poweredOn = base.poweredOn ∧
      new.hardwareDetails = base.hardwareDetails) (hQ : Q (new, .ok ()) (w.setBMH key new)) :
    Meets (Alone smooth) (patchBMH key base new) Q w :=
  Meets.bind ((smooth_patchBMH h hnew).2 (meets_ret.2 hQ))

theorem validateConfiguration_smooth (h : Site E key host cdName ici cd bmh image w)
    (hhost : host.name ≠ "") (cond : Condition) :
    Meets (Alone smooth) (validateConfiguration key ici.spec (some (⟨key.ns, cdName⟩, cd)) cond)
      (fun r w' => ∃ bmh', r = (cond, .ok (some (host, bmh'))) ∧
        Site E key host cdName ici cd bmh' image w') w := by
  have href : ici.spec.bareMetalHostRef.filter (·.name ≠ "") = some host := by
    simp [h.unstarted.hostRef, Option.filter, hhost]
  unfold validateConfiguration
  rw [href]
  refine Meets.bind (smooth_getBMH.2 ?_)
  rw [h.hostStored]
  dsimp only [orNotFound]
  split
  · exact meets_ret.2 ⟨bmh, rfl, h⟩
  · refine Meets.bind (meets_smooth_patchBMH h.hostStored ⟨rfl, rfl, rfl, rfl⟩ ?_)
    exact meets_ret.2 ⟨_, rfl, h.setBMH ⟨h.installable.valid, h.installable.bootable⟩ rfl⟩

theorem validateHost_smooth (h : Site E key host cdName ici cd bmh image w) (cond : Condition) :
    Meets (Alone smooth) (validateHost E ici.spec host bmh cond)
      (fun r w' => ∃ bmh', r = (bmh', cond, .ok {}) ∧
        Site E key host cdName ici cd bmh' image w') w := by
  unfold validateHost
  rw [h.installable.valid cond]
  dsimp only
  split
  · next hzero => cases hzero
  split
  · exact meets_ret.2 ⟨bmh, rfl, h⟩
  · refine Meets.bind (meets_smooth_patchBMH h.hostStored ⟨rfl, rfl, rfl, rfl⟩ ?_)
    refine meets_ret.2 ⟨_, rfl, h.setBMH ⟨fun cond => ?_, h.installable.bootable⟩ rfl⟩
    simp [validateBMH]

variable [DecidableEq B]

theorem createImage_smooth (hE : E.Lawful) (h : Site E key host cdName ici cd bmh image w)
    (hurl : E.baseURLParses = true) (hset : MetadataSet cdName ici) (cond : Condition) :
    Meets (Alone smooth)
      (createImage E key ici.uid ⟨key.ns, ici.spec, ⟨key.ns, cdName⟩, cd, host, bmh⟩ cond)
      (fun r w' => r = (cond, .ok (imageURL E key.ns ici.uid, {})) ∧
        Site E key host cdName ici cd bmh image w' ∧
        Finished (getClusterConfigDir key.ns ici.uid) w') w := by
  have hcurrent := metadataIsCurrent_of_set hset
  obtain ⟨m, hm, hID, hinfra, -⟩ := hset
  have hspec : { ici.spec with clusterMetadata := some m } = ici.spec := by rw [← hm]
  have hobtainable := h.obtainable m hID hinfra
  rw [hspec] at hobtainable
  refine Meets.bind (Meets.mono (writeInputData_obtains hE hobtainable h.shown) ?_)
  rintro (e | res) w₁ hbuilt
  · exact hbuilt.elim
  obtain ⟨rfl, hready, hshown, hframed⟩ := hbuilt
  dsimp only
  split
  · next hzero => cases hzero
  refine meets_ret.2 ⟨rfl, ?_, hready.finished⟩
  constructor
  · rw [hframed.icis (by decide)]
    exact h.stored
  · rw [hframed.cds]
    exact h.cdStored
  · rw [hframed.bmhs (by decide)]
    exact h.hostStored
  · exact h.unstarted
  · exact h.installable
  · exact fun _ _ _ => .inl hready.finished
  · exact hshown
  · exact .inl hcurrent
  · rw [hframed.dataImages (by decide)]
    exact h.imageStored
  · exact fun d hd => ⟨(h.imageStays d hd).1, Int.le_trans (h.imageStays d hd).2 hframed.clock⟩
  · exact h.imageOwn

omit [DecidableEq B] in
theorem Site.setDataImage {d : DataImage} (h : Site E key host cdName ici cd bmh image w)
    (hdeletion : d.deletionTimestamp = none) (hcreation : d.creationTimestamp ≤ w.clock)
    (hurl : d.url = imageURL E key.ns ici.uid) :
    Site E key host cdName ici cd bmh (some d) (w.setDataImage host (some d)) where
  stored := h.stored
  cdStored := h.cdStored
  hostStored := h.hostStored
  unstarted := h.unstarted
  installable := h.installable
  obtainable m hID hinfra :=
    (h.obtainable m hID hinfra).congr ⟨⟨rfl, rfl, rfl, rfl, rfl, rfl, fun _ => rfl⟩, rfl⟩ rfl
  shown := h.shown
  seed := h.seed
  imageStored := Function.update_self ..
  imageStays d' hd' := by
    cases hd'
    exact ⟨hdeletion, hcreation⟩
  imageOwn d' hd' := by
    cases hd'
    exact hurl

omit [DecidableEq B] in
/-- The `DataImage` that is there, or a new one. -/
theorem ensureBMHDataImage_smooth (h : Site E key host cdName ici cd bmh image w) :
    Works (ensureBMHDataImage host (imageURL E key.ns ici.uid)) (fun r w' => ∃ d, r = (d, {}) ∧
      (∀ d', image = some d' → d = d') ∧ Site E key host cdName ici cd bmh (some d) w' ∧
      w'.fs = w.fs) w := by
  refine Tries.bind (tries_attempt (smooth_getDataImage.2 ?_))
  rw [h.imageStored]
  cases himage : image with
  | some d =>
    subst himage
    have hdeletion := (h.imageStays d rfl).1
    dsimp only [orNotFound, Outcome]
    split
    · next hdeleted => simp [hdeletion] at hdeleted
    · exact tries_pure.2 ⟨d, rfl, fun d' hd' => Option.some.inj hd', h, rfl⟩
  | none =>
    refine Tries.bind (tries_wrap
      ((smooth_createDataImage (h.imageStored.trans himage)).2 fun e => ?_))
    refine Tries.bind (smooth_getDataImage.2 ?_)
    simp only [World.setDataImage, Function.update_self, orNotFound]
    refine tries_pure.2 ⟨_, rfl, by simp, (h.wait e).setDataImage rfl (Int.le_refl _) rfl, rfl⟩

/-- The host is booted from its image, and the object says so. -/
structure Underway (E : Env B) (key host : NamespacedName) (ici : ImageClusterInstall)
    (w : World B) :
    Prop where
  stored : w.icis key = some ici
  undeleted : ici.deletionTimestamp = none
  running : installationCompleted ici = false
  bootTime : ici.status.bootTime.isSome
  hostRef : ici.status.bareMetalHostRef = some host
  managed : Managed host w
  attached : Attached E host w
  finished : Finished (getClusterConfigDir key.ns ici.uid) w

omit [DecidableEq B] in
/-- A managed host, or one that becomes managed. -/
theorem updateBMHProvisioningState_smooth (hstored : w.bmhs host = some bmh)
    (hbootable : annotationExists bmh.annotations ibioManagedBMH = true ∨
      bmh.provisioningState = .available ∨ bmh.provisioningState = .externallyProvisioned)
    (d : DataImage) :
    Meets (Alone smooth) (updateBMHProvisioningState host bmh d) (fun r w' => r.2 = .ok () ∧
      annotationExists r.1.annotations ibioManagedBMH = true ∧ Managed host w' ∧
      Framed [.bmh] w w') w := by
  unfold updateBMHProvisioningState
  split
  · next hmanaged => exact meets_ret.2 ⟨rfl, hmanaged, ⟨bmh, hstored, hmanaged⟩, .refl ..⟩
  next hunmanaged =>
  have hstate := hbootable.resolve_left hunmanaged
  split
  · next hother => exact absurd hstate (by simpa using hother)
  refine meets_smooth_patchBMH hstored ⟨rfl, rfl, rfl, rfl⟩
    ⟨rfl, booted_managed bmh d, ?_, .setBMH ..⟩
  exact ⟨bmh.booted d, Function.update_self .., booted_managed bmh d⟩

omit [DecidableEq B] in
theorem HasOwnImage.of_framed {S : List Target} (h : HasOwnImage E key host w) (hw : Framed S w w')
    (hici : .ici ∉ S) (himage : .dataImage ∉ S) : HasOwnImage E key host w' := by
  unfold HasOwnImage
  rw [hw.icis hici, hw.dataImages himage]
  exact h

omit [DecidableEq B] in
/-- An edit of the object that keeps its host. -/
theorem HasOwnImage.setICI (h : HasOwnImage E key host w) (hs : w.icis key = some ici)
    (huid : ici'.uid = ici.uid) (hspec : ici'.spec = ici.spec) :
    HasOwnImage E key host (w.setICI key (some ici')) := by
  obtain ⟨stored, d, hstored, href, hd, hurl⟩ := h
  obtain rfl : ici = stored := Option.some.inj (hs.symm.trans hstored)
  exact ⟨ici', d, Function.update_self .., hspec ▸ href, hd, huid ▸ hurl⟩

omit [DecidableEq B] in
theorem recordBoot_smooth (hstored : w.icis key = some ici) (hunstarted : Unstarted host cdName ici)
    (hmanaged : Managed host w) (hattached : Attached E host w) (hown : HasOwnImage E key host w)
    (hfinished : Finished (getClusterConfigDir key.ns ici.uid) w) (cond : Condition) :
    Meets (Alone smooth) (recordBoot key ici cond) (fun out w' => out.err = none ∧
      out.result = {} ∧ out.continues = true ∧ out.ici.finalizers = ici.finalizers ∧
      Underway E key host out.ici w' ∧ HasOwnImage E key host w') w := by
  unfold recordBoot
  rw [hunstarted.unbooted]
  refine Meets.seq (Q := fun _ w' => Waited w w') ?_ ?_
  · unfold bootTimeOf
    rw [hunstarted.unstarted]
    exact smooth_now.2 fun d => ⟨d, rfl⟩
  rintro bootTime _ ⟨d, rfl⟩
  refine Meets.bind (meets_smooth_patchICIStatus hstored (meets_ret.2 ⟨rfl, rfl, rfl, rfl, ?_⟩))
  obtain ⟨image, himage, hdeletion, hcool⟩ := hattached
  have hown₁ : HasOwnImage E key host { w with clock := w.clock + d } := hown
  exact ⟨⟨Function.update_self .., hunstarted.undeleted, hunstarted.running, rfl,
    hunstarted.hostRef, hmanaged, ⟨image, himage, hdeletion,
    Int.le_trans hcool (Int.le_add_of_nonneg_right (Int.natCast_nonneg _))⟩, hfinished.of_fs rfl⟩,
    hown₁.setICI hstored rfl rfl⟩

/-- How the phases end, started in `w` on an object `ici` and a host with that `DataImage`: they
wait for the image to cool down, or the installation is under way. -/
inductive Ends (E : Env B) (key host : NamespacedName) (cdName : String) (ici : ImageClusterInstall)
    (cd : ClusterDeployment) (image : Option DataImage) (w : World B) (out : PhaseOutcome)
    (w' : World B) : Prop where
  | waits {bmh : BareMetalHost} {d : DataImage}
      (hresult : out.result = { requeueAfter := E.dataImageCoolDownPeriod })
      (hcontinues : out.continues = false) (hperiod : 0 < E.dataImageCoolDownPeriod)
      (himage : ∀ d', image = some d' → d' = d)
      (hcooling : w.clock < d.creationTimestamp + E.dataImageCoolDownPeriod)
      (hsite : Site E key host cdName out.ici cd bmh (some d) w')
      (hfinalizers : out.ici.finalizers = ici.finalizers)
  | boots (hresult : out.result = {}) (hcontinues : out.continues = true)
      (hunderway : Underway E key host out.ici w') (hown : HasOwnImage E key host w')
      (hfinalizers : out.ici.finalizers = ici.finalizers)

omit [DecidableEq B] in
/-- What an earlier step did before. -/
theorem Ends.after {image' : Option DataImage} {w₁ : World B} {out : PhaseOutcome}
    (h : Ends E key host cdName ici' cd image' w₁ out w') (hclock : w.clock ≤ w₁.clock)
    (himage : ∀ d, image = some d → image' = some d)
    (hfinalizers : ici'.finalizers = ici.finalizers) :
    Ends E key host cdName ici cd image w out w' := by
  cases h with
  | waits hresult hcontinues hperiod himage' hcooling hsite hfin =>
    exact .waits hresult hcontinues hperiod (fun d' hd' => himage' d' (himage d' hd'))
      (Int.lt_of_le_of_lt hclock hcooling) hsite (hfin.trans hfinalizers)
  | boots hresult hcontinues hunderway hown hfin =>
    exact .boots hresult hcontinues hunderway hown (hfin.trans hfinalizers)

omit [DecidableEq B] in
theorem bootHost_smooth {d : DataImage} (h : Site E key host cdName ici cd bmh (some d) w)
    (hfinished : Finished (getClusterConfigDir key.ns ici.uid) w) (cond : Condition) :
    Meets (Alone smooth) (bootHost E key ici host bmh d cond)
      (fun out w' => out.err = none ∧ Ends E key host cdName ici cd (some d) w out w') w := by
  refine Meets.bind (smooth_now.2 fun e => ?_)
  have hwait : w.clock ≤ w.clock + e := Int.le_add_of_nonneg_right (Int.natCast_nonneg _)
  split
  · next hcooling =>
    have hcreation := (h.imageStays d rfl).2
    refine meets_ret.2 ⟨rfl, .waits rfl rfl ?_ (fun _ hd => (Option.some.inj hd).symm)
      (Int.lt_of_le_of_lt hwait hcooling) (h.wait e) rfl⟩
    have hlt := Int.lt_of_le_of_lt (Int.le_trans hcreation hwait) hcooling
    exact Int.lt_of_add_lt_add_left (a := d.creationTimestamp) (by simpa using hlt)
  next hcool =>
  have hattached : Attached E host { w with clock := w.clock + e } :=
    ⟨d, h.imageStored, (h.imageStays d rfl).1, by simpa using hcool⟩
  refine Meets.seq (updateBMHProvisioningState_smooth (w := { w with clock := w.clock + e })
    h.hostStored h.installable.bootable d) ?_
  rintro ⟨bmh', r⟩ w₂ ⟨rfl, hannotated, hmanaged, hframed⟩
  dsimp only
  split
  · next hunmanaged => simp [hannotated] at hunmanaged
  have hattached₂ : Attached E host w₂ := by
    obtain ⟨image, himage, hdeletion, hold⟩ := hattached
    refine ⟨image, ?_, hdeletion, Int.le_trans hold hframed.clock⟩
    rw [hframed.dataImages (by decide)]
    exact himage
  have hown : HasOwnImage E key host { w with clock := w.clock + e } :=
    ⟨ici, d, h.stored, h.unstarted.hostRef, h.imageStored, h.imageOwn d rfl⟩
  have hown₂ : HasOwnImage E key host w₂ := hown.of_framed hframed (by decide) (by decide)
  have hfinished₂ : Finished (getClusterConfigDir key.ns ici.uid) w₂ :=
    hfinished.of_fs (hframed.fs (by decide) (by decide))
  have hstored₂ : w₂.icis key = some ici := by
    rw [hframed.icis (by decide)]
    exact h.stored
  refine (recordBoot_smooth hstored₂ h.unstarted hmanaged hattached₂ hown₂ hfinished₂ cond).mono ?_
  rintro out w₃ ⟨herr, hresult, hcontinues, hfinalizers, hunderway, hown₃⟩
  exact ⟨herr, .boots hresult hcontinues hunderway hown₃ hfinalizers⟩

omit [DecidableEq B] in
theorem configureHost_smooth (h : Site E key host cdName ici cd bmh image w)
    (hfinished : Finished (getClusterConfigDir key.ns ici.uid) w) (cond : Condition) :
    Meets (Alone smooth) (configureHost E key ici (imageURL E key.ns ici.uid) host bmh cond)
      (fun out w' => out.err = none ∧ Ends E key host cdName ici cd image w out w') w := by
  refine Meets.bind (Meets.mono (meets_clocked (ensureBMHDataImage_smooth h)) ?_)
  rintro (e | r) w₁ ⟨himage, hclock⟩
  · exact himage.elim
  obtain ⟨d, rfl, hd, h₁, hfs⟩ := himage
  dsimp only
  split
  · next hzero => cases hzero
  refine (bootHost_smooth h₁ (hfinished.of_fs hfs) cond).mono ?_
  rintro out w₂ ⟨herr, hends⟩
  exact ⟨herr, hends.after hclock (fun d' hd' => by rw [hd d' hd']) rfl⟩

theorem imagePhases_smooth (hE : E.Lawful) (h : Site E key host cdName ici cd bmh image w)
    (hurl : E.baseURLParses = true) (hset : MetadataSet cdName ici) (cond : Condition) :
    Meets (Alone smooth) (imagePhases E key ici (⟨key.ns, cdName⟩, cd) host bmh cond)
      (fun out w' => out.err = none ∧ (out.continues = true → out.cond.status = .true) ∧
        Ends E key host cdName ici cd image w out w') w := by
  refine Meets.seq (meets_clocked (createImage_smooth hE h hurl hset _)) ?_
  rintro _ w₁ ⟨⟨rfl, h₁, hfinished⟩, hclock⟩
  dsimp only
  split
  · next hzero => cases hzero
  refine Meets.seq (configureHost_smooth h₁ hfinished _) ?_
  rintro out w₂ ⟨herr, hends⟩
  have hends' := hends.after hclock (fun _ hd => hd) rfl
  split
  · next hstops =>
    exact meets_ret.2 ⟨herr, fun hcontinues => by simp [hcontinues] at hstops, hends'⟩
  · refine meets_ret.2 ⟨herr, fun _ => rfl, ?_⟩
    cases hends' with
    | waits hresult hcontinues hperiod himage hcooling hsite hfinalizers =>
      exact .waits hresult hcontinues hperiod himage hcooling hsite hfinalizers
    | boots hresult hcontinues hunderway hown hfinalizers =>
      exact .boots hresult hcontinues hunderway hown hfinalizers

/-- What the phases leave: no error, and a requirement that is met if the installation is under
way. -/
def PhasesEnd (E : Env B) (key host : NamespacedName) (cdName : String) (ici : ImageClusterInstall)
    (cd : ClusterDeployment) (image : Option DataImage) (w : World B) (out : PhaseOutcome)
    (w' : World B) : Prop :=
  out.err = none ∧ (out.continues = true → out.cond.status = .true) ∧
    Ends E key host cdName ici cd image w out w'

theorem hostPhases_smooth (hE : E.Lawful) (h : Site E key host cdName ici cd bmh image w)
    (hurl : E.baseURLParses = true) (cond : Condition) :
    Meets (Alone smooth) (hostPhases E key ici (⟨key.ns, cdName⟩, cd) host bmh cond)
      (PhasesEnd E key host cdName ici cd image w) w := by
  refine Meets.seq (meets_clocked (validateHost_smooth h _)) ?_
  rintro _ w₁ ⟨⟨bmh₁, rfl, h₁⟩, hclock₁⟩
  dsimp only
  split
  · next hzero => cases hzero
  refine Meets.seq (meets_clocked (setClusterInstallMetadata_smooth h₁)) ?_
  rintro ⟨ici₂, r⟩ w₂ ⟨⟨⟨rfl, h₂, -, hfinalizers⟩, hset⟩, hclock₂⟩
  refine (imagePhases_smooth hE h₂ hurl hset _).mono ?_
  rintro out w₃ ⟨herr, hmet, hends⟩
  exact ⟨herr, hmet, hends.after (Int.le_trans hclock₁ hclock₂) (fun _ hd => hd) hfinalizers⟩

theorem runPhases_smooth (hE : E.Lawful) (h : Site E key host cdName ici cd bmh image w)
    (hurl : E.baseURLParses = true) (hhost : host.name ≠ "") :
    Meets (Alone smooth) (runPhases E key ici (some (⟨key.ns, cdName⟩, cd)))
      (PhasesEnd E key host cdName ici cd image w) w := by
  refine Meets.seq (meets_clocked (validateConfiguration_smooth h hhost _)) ?_
  rintro _ w₁ ⟨⟨bmh₁, rfl, h₁⟩, hclock₁⟩
  refine (hostPhases_smooth hE h₁ hurl _).mono ?_
  rintro out w₂ ⟨herr, hmet, hends⟩
  exact ⟨herr, hmet, hends.after hclock₁ (fun _ hd => hd) rfl⟩

/-! ## The pass -/

omit [DecidableEq B] in
/-- A condition that is set is stored. -/
theorem setRequirementsMetCondition_smooth (hstored : w.icis key = some ici)
    (status : ConditionStatus) (reason message : String) :
    Meets (Alone smooth) (setRequirementsMetCondition key ici status reason message)
      (fun _ w' => ∃ t w₁, Waited w w₁ ∧ w' = w₁.setICI key (some (ici.withConditions
        (setClusterInstallCondition t ici.status.conditions
          { type := .requirementsMet, status, reason, message }).1))) w := by
  refine Meets.bind (smooth_now.2 fun d => ?_)
  dsimp only
  split
  · next hsame =>
    refine meets_ret.2 ⟨w.clock + d, _, ⟨d, rfl⟩, ?_⟩
    rw [set_unchanged (by simpa using hsame)]
    have hici : ici.withConditions ici.status.conditions = ici := rfl
    rw [hici, ← hstored]
    simp [World.setICI]
  · exact Meets.bind (meets_smooth_patchICIStatus hstored (meets_ret.2 ⟨_, _, ⟨d, rfl⟩, rfl⟩))

omit [DecidableEq B] in
theorem Underway.withConditions {w₁ : World B} {cs : List Condition} (h : Underway E key host ici w)
    (hw : Waited w w₁) (hedit : ReconcilerEdit ici.status.conditions cs) :
    Underway E key host (ici.withConditions cs) (w₁.setICI key (some (ici.withConditions cs))) := by
  obtain ⟨d, rfl⟩ := hw
  obtain ⟨image, himage, hdeletion, hold⟩ := h.attached
  exact ⟨Function.update_self .., h.undeleted, hedit.running h.running, h.bootTime,
    h.hostRef, h.managed, ⟨image, himage, hdeletion,
    Int.le_trans hold (Int.le_add_of_nonneg_right (Int.natCast_nonneg _))⟩, h.finished.of_fs rfl⟩

/-- The installation is under way, and reported so. -/
def Started (E : Env B) (key host : NamespacedName) (w : World B) : Prop :=
  ∃ ici cond, Underway E key host ici w ∧ clusterInstallFinalizerName ∈ ici.finalizers ∧
    findCondition ici.status.conditions .requirementsMet = some cond ∧ cond.status = .true

/-- What a pass over the object `ici` makes of `w`. -/
inductive Advance (E : Env B) (key host : NamespacedName) (cdName : String)
    (ici : ImageClusterInstall) (image : Option DataImage) (w : World B) (rep : Report)
    (w' : World B) : Prop where
  /-- It adds the finalizer. -/
  | registers {ici' : ImageClusterInstall} {cd : ClusterDeployment} {bmh : BareMetalHost}
      (hnew : clusterInstallFinalizerName ∉ ici.finalizers)
      (hresult : rep.result = { requeue := true })
      (hsite : Site E key host cdName ici' cd bmh image w')
      (hfinalizer : clusterInstallFinalizerName ∈ ici'.finalizers)
  /-- It waits for the `DataImage` to cool down. -/
  | waits {ici' : ImageClusterInstall} {cd : ClusterDeployment} {bmh : BareMetalHost}
      {d : DataImage} (hold : clusterInstallFinalizerName ∈ ici.finalizers)
      (hresult : rep.result = { requeueAfter := E.dataImageCoolDownPeriod })
      (hperiod : 0 < E.dataImageCoolDownPeriod) (himage : ∀ d', image = some d' → d' = d)
      (hcooling : w.clock < d.creationTimestamp + E.dataImageCoolDownPeriod)
      (hsite : Site E key host cdName ici' cd bmh (some d) w')
      (hfinalizer : clusterInstallFinalizerName ∈ ici'.finalizers)
  /-- It boots the host. -/
  | boots (hresult : rep.result = {}) (hstarted : Started E key host w')
      (hown : HasOwnImage E key host w')

theorem reportPhases_smooth (hE : E.Lawful) (h : Site E key host cdName ici cd bmh image w)
    (hurl : E.baseURLParses = true) (hhost : host.name ≠ "")
    (hfinalizer : clusterInstallFinalizerName ∈ ici.finalizers) :
    Meets (Alone smooth) (reportPhases E key ici (some (⟨key.ns, cdName⟩, cd)))
      (fun rep w' => rep.err = none ∧ Advance E key host cdName ici image w rep w') w := by
  refine Meets.seq (runPhases_smooth hE h hurl hhost) ?_
  rintro out w₁ ⟨herr, hmet, hends⟩
  cases hends with
  | waits hresult hcontinues hperiod himage hcooling hsite hfinalizers =>
    refine Meets.seq (setRequirementsMetCondition_smooth hsite.stored _ _ _) ?_
    rintro _ _ ⟨t, w₂, hw₂, rfl⟩
    refine meets_ret.2 ⟨herr, .waits hfinalizer hresult hperiod himage hcooling
      ((hsite.waited hw₂).withConditions (.requirements t _ _ _) ?_) (hfinalizers ▸ hfinalizer)⟩
    obtain ⟨c, hc, -⟩ := findCondition_set_self t out.ici.status.conditions
      { type := .requirementsMet, status := out.cond.status, reason := out.cond.reason,
        message := out.cond.message }
    exact Option.isSome_of_eq_some hc
  | boots hresult hcontinues hunderway hown hfinalizers =>
    refine Meets.seq (setRequirementsMetCondition_smooth hunderway.stored _ _ _) ?_
    rintro _ _ ⟨t, w₂, hw₂, rfl⟩
    have hown₂ : HasOwnImage E key host w₂ := by
      obtain ⟨d, rfl⟩ := hw₂
      exact hown
    have hstored₂ : w₂.icis key = some out.ici := by
      obtain ⟨d, rfl⟩ := hw₂
      exact hunderway.stored
    obtain ⟨c, hc, hstatus, -⟩ := findCondition_set_self t out.ici.status.conditions
      { type := .requirementsMet, status := out.cond.status, reason := out.cond.reason,
        message := out.cond.message }
    exact meets_ret.2 ⟨herr, .boots hresult ⟨_, c,
      hunderway.withConditions hw₂ (.requirements t _ _ _), hfinalizers ▸ hfinalizer, hc,
      hstatus.trans (hmet hcontinues)⟩ (hown₂.setICI hstored₂ rfl rfl)⟩

omit [DecidableEq B] in
theorem Advance.after {ici₁ : ImageClusterInstall} {w₁ : World B} {rep : Report}
    (h : Advance E key host cdName ici₁ image w₁ rep w') (hclock : w.clock ≤ w₁.clock)
    (hfinalizers : ici₁.finalizers = ici.finalizers) :
    Advance E key host cdName ici image w rep w' := by
  cases h with
  | registers hnew hresult hsite hfinalizer =>
    exact .registers (hfinalizers ▸ hnew) hresult hsite hfinalizer
  | waits hold hresult hperiod himage hcooling hsite hfinalizer =>
    exact .waits (hfinalizers ▸ hold) hresult hperiod himage
      (Int.lt_of_le_of_lt hclock hcooling) hsite hfinalizer
  | boots hresult hstarted hown => exact .boots hresult hstarted hown

theorem reconcileInstall_smooth (hE : E.Lawful) (h : Site E key host cdName ici cd bmh image w)
    (hurl : E.baseURLParses = true) (hhost : host.name ≠ "")
    (hfinalizer : clusterInstallFinalizerName ∈ ici.finalizers) :
    Meets (Alone smooth) (reconcileInstall E key ici (some (⟨key.ns, cdName⟩, cd)))
      (fun rep w' => rep.err = none ∧ Advance E key host cdName ici image w rep w') w := by
  refine Meets.seq (Q := fun r w' => r = (ici, false) ∧ w' = w) ?_ ?_
  · unfold checkStarted
    rw [h.unstarted.unstarted]
    exact meets_ret.2 ⟨rfl, rfl⟩
  rintro _ w ⟨rfl, rfl⟩
  dsimp only
  rw [h.unstarted.settled]
  refine Meets.seq (meets_clocked (prepare_smooth h)) ?_
  rintro ⟨ici₁, r⟩ w₁ ⟨⟨rfl, h₁, -, hfinalizers⟩, hclock⟩
  refine (reportPhases_smooth hE h₁ hurl hhost (hfinalizers ▸ hfinalizer)).mono ?_
  rintro rep w₂ ⟨herr, hadvance⟩
  exact ⟨herr, hadvance.after hclock hfinalizers⟩

omit [DecidableEq B] in
/-- A registered object that is not being deleted. -/
theorem handleFinalizer_registered (hundeleted : ici.deletionTimestamp = none)
    (hfinalizer : clusterInstallFinalizerName ∈ ici.finalizers) :
    handleFinalizer E key ici = pure (ici, none) := by
  simp [handleFinalizer, hundeleted, hfinalizer]

/-- A pass over an object whose installation nothing stands in the way of. -/
theorem reconcile_advances (hE : E.Lawful) (h : Site E key host cdName ici cd bmh image w)
    (hurl : E.baseURLParses = true) (hcd : cdName ≠ "") (hhost : host.name ≠ "") :
    Meets (Alone smooth) (reconcile E key)
      (fun rep w' => rep.err = none ∧ Advance E key host cdName ici image w rep w') w := by
  refine Meets.bind (smooth_getICI.2 ?_)
  rw [h.stored]
  dsimp only [orNotFound]
  by_cases hfinalizer : clusterInstallFinalizerName ∈ ici.finalizers
  · rw [handleFinalizer_registered h.unstarted.undeleted hfinalizer]
    refine Meets.bind (meets_ret.2 ?_)
    refine Meets.seq (Q := fun r w' => r = some (⟨key.ns, cdName⟩, cd) ∧ w' = w) ?_ ?_
    · have href : ici.spec.clusterDeploymentRef.filter (· ≠ "") = some cdName := by
        simp [h.unstarted.cdRef, Option.filter, hcd]
      unfold fetchCD
      rw [href]
      refine Meets.bind (smooth_getCD.2 ?_)
      rw [h.cdStored]
      exact meets_ret.2 ⟨rfl, rfl⟩
    rintro _ w ⟨rfl, rfl⟩
    refine Meets.seq (labelReferencedObjectsForBackup_relabels _ _ _) fun _ w₁ hw₁ => ?_
    obtain ⟨bmh₁, h₁⟩ := h.relabelled hw₁
    rw [h.unstarted.running]
    refine (reconcileInstall_smooth hE h₁ hurl hhost hfinalizer).mono ?_
    rintro rep w₂ ⟨herr, hadvance⟩
    exact ⟨herr, hadvance.after hw₁.framed.clock rfl⟩
  · refine Meets.seq (Q := fun r w' => ∃ ici', r = (ici', some ({ requeue := true }, none)) ∧
      Site E key host cdName ici' cd bmh image w' ∧
      clusterInstallFinalizerName ∈ ici'.finalizers) ?_ ?_
    · unfold handleFinalizer
      simp only [h.unstarted.undeleted, Option.isNone_none, if_true, if_neg hfinalizer]
      refine Meets.bind (meets_smooth_patchICI h.stored ⟨rfl, h.unstarted.undeleted.symm, rfl⟩
        h.unstarted.undeleted ?_)
      refine meets_ret.2 ⟨_, rfl, h.setICI ?_ rfl rfl (.inl rfl), by simp⟩
      obtain ⟨-, hrun, hset, hstart, hboot, hcdRef, hhostRef, hpass⟩ := h.unstarted
      exact ⟨rfl, hrun, hset, hstart, hboot, hcdRef, hhostRef, hpass⟩
    rintro _ w₁ ⟨ici', rfl, hsite, hadded⟩
    exact meets_ret.2 ⟨rfl, .registers hfinalizer rfl hsite hadded⟩

/-! ## Once the installation is under way -/

omit [DecidableEq B] in
theorem Underway.relabelled (h : Underway E key host ici w) (hw : Relabelled w w') :
    Underway E key host ici w' := by
  obtain ⟨image, himage, hdeletion, hold⟩ := h.attached
  obtain ⟨bmh, hbmh, hmanaged⟩ := h.managed
  refine ⟨?_, h.undeleted, h.running, h.bootTime, h.hostRef, ?_,
    ⟨image, ?_, hdeletion, Int.le_trans hold hw.framed.clock⟩,
    h.finished.of_fs (hw.framed.fs (by decide) (by decide))⟩
  · rw [hw.framed.icis (by decide)]
    exact h.stored
  · have hhost := hw.bmhs host
    rw [hbmh, Option.map_some, Option.map_eq_some_iff] at hhost
    obtain ⟨bmh', hbmh', heq⟩ := hhost
    have hannotations := congrArg BareMetalHost.annotations heq
    simp only [BareMetalHost.unlabelled] at hannotations
    exact ⟨bmh', hbmh', by rw [hannotations]; exact hmanaged⟩
  · rw [hw.framed.dataImages (by decide)]
    exact himage

/-- A pass over an installation that is under way only labels objects for backup, and nothing if
they are labelled. -/
theorem reconcile_settled (h : Started E key host w) :
    Meets (Alone smooth) (reconcile E key)
      (fun rep w' => rep = {} ∧ Started E key host w' ∧ Relabelled w w' ∧ AllLabelled key w' ∧
        (AllLabelled key w → w' = w)) w := by
  obtain ⟨ici, cond, hunderway, hfinalizer, hcond, hmet⟩ := h
  refine Meets.bind (smooth_getICI.2 ?_)
  rw [hunderway.stored]
  dsimp only [orNotFound]
  rw [handleFinalizer_registered hunderway.undeleted hfinalizer]
  refine Meets.bind (meets_ret.2 (Meets.seq (fetchCD_smooth _ _) ?_))
  rintro cd w ⟨rfl, rfl⟩
  refine Meets.seq (labelReferencedObjectsForBackup_labels hunderway.stored) ?_
  rintro _ w₁ ⟨hw₁, hlabels⟩
  have h₁ := hunderway.relabelled hw₁
  rw [hunderway.running]
  -- the condition is true and the files are there, so that the pass ends here
  refine Meets.seq (Q := fun r w' => r = (ici, true) ∧ w' = w₁) ?_ ?_
  · obtain ⟨bootTime, hbootTime⟩ := Option.isSome_iff_exists.1 hunderway.bootTime
    have hrestore : (restoreRequirementsMet key ici : Program B _) = pure ici := by
      simp [restoreRequirementsMet, hcond, hmet]
    unfold checkStarted
    rw [hbootTime, hrestore]
    refine Meets.bind (meets_ret.2 (Meets.seq (verifyIsoAndAuthExists_smooth _) ?_))
    rintro b _ ⟨rfl, rfl⟩
    exact meets_ret.2 ⟨by rw [h₁.finished.all], rfl⟩
  rintro _ _ ⟨rfl, rfl⟩
  exact meets_ret.2 ⟨rfl, ⟨ici, cond, h₁, hfinalizer, hcond, hmet⟩, hw₁, hlabels⟩

end Phases

end ImageBasedInstall

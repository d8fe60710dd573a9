import ImageBasedInstall.Verify.Boot
import ImageBasedInstall.Verify.PassFootprints

/-!
# Passes that wait for their host

A pass that returns no error and asks for no other pass relies on an event of the host it waits for.
The events of a host lead only to objects without a boot time, and a pass that waits leaves the boot
time as it found it: the host wakes the object iff the installation had not started.
-/

namespace ImageBasedInstall

open Interactive

variable {B : Type}

/-- The pass ended without an error and without a requeue, and reported that the host could not be
read or is in neither of the states it waits for. -/
def Report.WaitsForHost (host : NamespacedName) (rep : Report) : Prop :=
  rep.err = none ∧ rep.result = {} ∧ ∃ cond, rep.reported = some cond ∧ cond.status ≠ .true ∧
    (cond.message = "failed to get BareMetalHost " ++ host.text ∨
      ∃ state : ProvisioningState, state ≠ .available ∧ state ≠ .externallyProvisioned ∧
        cond.message = "waiting for BMH provisioning state to be StateAvailable or " ++
          "StateExternallyProvisioned, current state is: " ++ state.text)

/-- The field index on `spec.bareMetalHostRef`. -/
def Indexed (w : World B) (host : NamespacedName)
    (items : List (NamespacedName × ImageClusterInstall)) : Prop :=
  ∀ key ici, (key, ici) ∈ items ↔ w.icis key = some ici ∧ ici.spec.bareMetalHostRef = some host

/-- Once the host exists, an event of it leads to the object, which is stored as in `w`. -/
def WokenBy (host req : NamespacedName) (w : World B) : Prop :=
  ∀ (w' : World B) bmh items, w'.icis req = w.icis req → w'.bmhs host = some bmh →
    Indexed w' host items → req ∈ mapBMHToICI (.ok bmh) (.ok items)

/-! ## The boot time of the stored object -/

/-- The stored object is not being deleted and has this boot time and this host. -/
def Booked (req : NamespacedName) (boot : Option Time) (host : Option NamespacedName)
    (w : World B) : Prop :=
  ∃ stored, w.icis req = some stored ∧ stored.deletionTimestamp = none ∧
    stored.status.bootTime = boot ∧ stored.spec.bareMetalHostRef = host

theorem mem_mapBMHToICI {req : NamespacedName} {bmh : BareMetalHost}
    {items : List (NamespacedName × ImageClusterInstall)} :
    req ∈ mapBMHToICI (.ok bmh) (.ok items) ↔
      ∃ ici, (req, ici) ∈ items ∧ ici.status.bootTime = none := by
  simp [mapBMHToICI]

/-- The object is woken iff its stored boot time is unset. -/
theorem Booked.wokenBy_iff {req host : NamespacedName} {boot : Option Time} {w : World B}
    (h : Booked req boot (some host) w) : WokenBy host req w ↔ boot = none := by
  obtain ⟨stored, hs, -, hboot, hhost⟩ := h
  constructor
  · intro hwoken
    -- a world with this object alone, and with its host
    have hindexed : Indexed { w with
        icis := Function.update (fun _ => none) req (some stored)
        bmhs := fun _ => some {} } host [(req, stored)] := by
      intro key ici
      by_cases hkey : key = req
      · subst hkey
        simp only [List.mem_singleton, Prod.mk.injEq, true_and, Function.update_self,
          Option.some.injEq]
        exact ⟨fun h => ⟨h.symm, h ▸ hhost⟩, fun h => h.1.symm⟩
      · simp [hkey]
    obtain ⟨ici, hmem, hnone⟩ := mem_mapBMHToICI.1
      (hwoken _ {} _ (by simp [hs]) rfl hindexed)
    obtain rfl : ici = stored := by simpa using hmem
    exact hboot.symm.trans hnone
  · intro hnone w' bmh items hsame _ hindexed
    refine mem_mapBMHToICI.2 ⟨stored, (hindexed req stored).2 ⟨hsame.trans hs, hhost⟩, ?_⟩
    exact hboot.trans hnone

/-- Calls that leave the boot time, the host and the deletion mark of the object alone. -/
inductive SparesBoot (req : NamespacedName) : Op B → Prop where
  | other {op : Op B} (h : op.target ≠ .ici) : SparesBoot req op
  | status {base new : ImageClusterInstall} (h : new.status.bootTime = base.status.bootTime) :
    SparesBoot req (.patchICIStatus req base new)
  | object {base new : ImageClusterInstall} (h : new.spec.configured = base.spec.configured) :
    SparesBoot req (.patchICI req base new)

section Spared

variable {req : NamespacedName} {boot : Option Time} {host : Option NamespacedName}
  {w w' : World B} {op : Op B} {r : Resp op} {c : Choice B}

theorem Booked.set {stored : ImageClusterInstall} (hdel : stored.deletionTimestamp = none)
    (hboot : stored.status.bootTime = boot) (hhost : stored.spec.bareMetalHostRef = host) :
    Booked req boot host (w.setICI req (some stored)) :=
  ⟨stored, by simp [World.setICI], hdel, hboot, hhost⟩

theorem Booked.step (h : Booked req boot host w) (hop : SparesBoot req op)
    (hc : answer op c w = (r, w')) : Booked req boot host w' := by
  obtain ⟨stored, hs, hdel, hboot, hhost⟩ := h
  cases hop with
  | other htarget =>
    refine ⟨stored, ?_, hdel, hboot, hhost⟩
    rw [(answer_framed hc).icis (by simpa using fun he => htarget he.symm)]
    exact hs
  | @status base new hsame =>
    have hmerged : Booked req boot host
        (w.setICI req (some (ImageClusterInstall.mergeStatus base new stored))) := by
      refine .set hdel ?_ hhost
      simpa [ImageClusterInstall.mergeStatus, Status.merge, hsame] using hboot
    cases answer_patchICIStatus hc with
    | stored a ha => exact Option.some.inj (hs.symm.trans ha) ▸ hmerged
    | lost a ha => exact Option.some.inj (hs.symm.trans ha) ▸ hmerged
    | failed => exact ⟨stored, hs, hdel, hboot, hhost⟩
  | @object base new hsame =>
    have hremains : (ImageClusterInstall.merge base new stored).remains =
        some (ImageClusterInstall.merge base new stored) := by
      simp [ImageClusterInstall.remains, ImageClusterInstall.merge, hdel]
    have hmerged : Booked req boot host
        (w.setICI req (ImageClusterInstall.merge base new stored).remains) := by
      rw [hremains]
      refine .set hdel hboot ?_
      rw [← hhost]
      exact Spec.bareMetalHostRef_eq_of_configured (Spec.merge_configured hsame _)
    cases answer_patchICI hc with
    | stored a ha => exact Option.some.inj (hs.symm.trans ha) ▸ hmerged
    | lost a ha => exact Option.some.inj (hs.symm.trans ha) ▸ hmerged
    | failed => exact ⟨stored, hs, hdel, hboot, hhost⟩

theorem Booked.kept {α : Type} {p : Program B α} (h : Booked req boot host w)
    (hp : p.Uses (SparesBoot req)) :
    Meets (Alone fun _ _ _ _ => True) p (fun _ w' => Booked req boot host w') w :=
  Meets.of_uses hp (fun _ _ hI hr => hr ▸ hI)
    (fun _ _ _ _ hop hI hs => ⟨trivial, hI.step hop hs.1.choose_spec⟩) h

theorem sparesBoot_plain (op : Op B) (h : op.plain = true) : SparesBoot req op :=
  .other (plain_ne_ici h)

theorem sparesBoot_read (op : Op B) (h : op.target = .nothing) : SparesBoot req op :=
  .other (by simp [h])

end Spared

/-! ## The pass -/

section Pass

variable [DecidableEq B] {E : Env B} {req key : NamespacedName} {ici : ImageClusterInstall}
  {boot : Option Time} {host : Option NamespacedName} {w : World B}

omit [DecidableEq B] in
/-- The boot time is recorded on the way to a report that is no wait. -/
theorem recordBoot_settles (cond : Condition) :
    (recordBoot req ici cond : Program B _).Yields fun out =>
      out.err.isSome = true ∨ out.continues = true := by
  unfold recordBoot
  split
  · exact .inr rfl
  refine Prog.yields_bind fun t => Prog.yields_bind fun r => ?_
  split
  · exact .inr rfl
  · exact .inl rfl

omit [DecidableEq B] in
theorem configureHost_booked (h : Booked req boot host w) (url : String) (bmh : BareMetalHost)
    (cond : Condition) :
    Meets (Alone fun _ _ _ _ => True) (configureHost E req ici url key bmh cond)
      (fun out w' => Booked req boot host w' ∨ out.err.isSome = true ∨ out.continues = true) w := by
  refine Meets.seq (h.kept (ensureBMHDataImage_uses sparesBoot_plain _ _)) fun r w₁ h₁ => ?_
  split
  · exact meets_ret.2 (.inl h₁)
  split
  · exact meets_ret.2 (.inl h₁)
  refine Meets.seq (h₁.kept (Prog.uses_perform (sparesBoot_read _ rfl))) fun t w₂ h₂ => ?_
  split
  · exact meets_ret.2 (.inl h₂)
  refine Meets.seq (h₂.kept (updateBMHProvisioningState_uses sparesBoot_plain _ _ _)) ?_
  intro r w₃ h₃
  split
  · exact meets_ret.2 (.inl h₃)
  split
  · exact meets_ret.2 (.inl h₃)
  · exact ((meets_true _).yields (recordBoot_settles cond)).mono
      fun _ _ h => .inr h.2

theorem runPhases_booked (h : Booked req boot host w)
    (cd : Option (NamespacedName × ClusterDeployment)) :
    Meets (Alone fun _ _ _ _ => True) (runPhases E req ici cd)
      (fun out w' => Booked req boot host w' ∨ out.err.isSome = true ∨ out.cond.status = .true)
      w := by
  refine Meets.seq (h.kept (validateConfiguration_uses req sparesBoot_plain _ _ _))
    fun r w₁ h₁ => ?_
  split
  on_goal 2 => exact meets_ret.2 (.inl h₁)
  refine Meets.seq (h₁.kept (validateHost_uses sparesBoot_plain E _ _ _ _)) fun r w₂ h₂ => ?_
  split
  · exact meets_ret.2 (.inl h₂)
  split
  · exact meets_ret.2 (.inl h₂)
  refine Meets.seq (h₂.kept (setClusterInstallMetadata_uses sparesBoot_read E _ _ _ _
    fun m => .object rfl)) fun r w₃ h₃ => ?_
  split
  · exact meets_ret.2 (.inl h₃)
  · exact meets_ret.2 (.inl h₃)
  -- the image
  refine Meets.seq (h₃.kept (createImage_uses req E ?_ _)) fun r w₄ h₄ => ?_
  · exact writeInputData_uses sparesBoot_read (fun op h => .other (by simp [h]))
      (fun op h => .other (by simp [h])) E _ _ fun _ => .other nofun
  split
  · exact meets_ret.2 (.inl h₄)
  split
  · exact meets_ret.2 (.inl h₄)
  refine Meets.seq (configureHost_booked h₄ _ _ _) fun out w₅ h₅ => ?_
  split
  · next hstop =>
    refine meets_ret.2 (h₅.imp_right fun h => .inl (h.resolve_right ?_))
    simpa using hstop
  · exact meets_ret.2 (.inr (.inr rfl))

/-- The pass reported a requirement that is not met, and no error. -/
def Report.Waits (rep : Report) : Prop :=
  rep.err = none ∧ ∃ cond, rep.reported = some cond ∧ cond.status ≠ .true

theorem Report.WaitsForHost.waits {rep : Report} (h : rep.WaitsForHost key) : rep.Waits := by
  obtain ⟨herr, -, cond, hrep, hstatus, -⟩ := h
  exact ⟨herr, cond, hrep, hstatus⟩

/-- If the pass waits, the boot time and the host are these. -/
def WaitsBooked (req : NamespacedName) (boot : Option Time) (host : Option NamespacedName)
    (rep : Report) (w : World B) : Prop :=
  rep.Waits → Booked req boot host w

omit [DecidableEq B] in
/-- A pass that stops before the phases reports nothing. -/
theorem waitsBooked_unreported (res : Result) (err : Option Err) :
    WaitsBooked req boot host ⟨res, err, none⟩ w := by
  rintro ⟨-, cond, hrep, -⟩
  cases hrep

theorem reportPhases_booked (h : Booked req boot host w)
    (cd : Option (NamespacedName × ClusterDeployment)) :
    Meets (Alone fun _ _ _ _ => True) (reportPhases E req ici cd)
      (WaitsBooked req boot host) w := by
  refine Meets.seq (runPhases_booked h cd) fun out w₁ h₁ => ?_
  rcases h₁ with hkept | hsettled
  · refine Meets.seq (hkept.kept (setRequirementsMetCondition_uses sparesBoot_read _ _
      (fun _ => .status rfl) _ _ _)) fun _ w₂ h₂ => meets_ret.2 fun _ => h₂
  · refine Meets.seq (meets_true _) fun _ w₂ _ => meets_ret.2 ?_
    rintro ⟨herr, cond, hrep, hstatus⟩
    cases hrep
    have herr' : out.err = none := herr
    rcases hsettled with hfailed | hmet
    · rw [herr'] at hfailed
      cases hfailed
    · exact absurd hmet hstatus

/-- A pass over an object that is not being deleted. -/
theorem reconcileInstall_booked (h : Booked req boot host w)
    (cd : Option (NamespacedName × ClusterDeployment)) :
    Meets (Alone fun _ _ _ _ => True) (reconcileInstall E req ici cd)
      (WaitsBooked req boot host) w := by
  refine Meets.seq (h.kept (checkStarted_uses req sparesBoot_plain (fun _ _ => .status) _)) ?_
  rintro ⟨ici₁, _ | _⟩ w₁ h₁
  on_goal 2 => exact meets_ret.2 (waitsBooked_unreported _ _)
  dsimp only
  split
  · exact meets_ret.2 (waitsBooked_unreported _ _)
  refine Meets.seq (h₁.kept (prepare_uses req sparesBoot_plain (fun _ _ => .status)
    (fun _ _ => .object) _)) ?_
  rintro ⟨ici₂, e | u⟩ w₂ h₂
  · exact meets_ret.2 (waitsBooked_unreported _ _)
  · exact reportPhases_booked h₂ cd

omit [DecidableEq B] in
/-- Only an object that is not being deleted gets past the finalizer. -/
theorem handleFinalizer_booked (hs : w.icis req = some ici) :
    Meets (Alone fun _ _ _ _ => True) (handleFinalizer E req ici)
      (fun r w' => r.2 = none →
        Booked req ici.status.bootTime ici.spec.bareMetalHostRef w') w := by
  unfold handleFinalizer
  split
  · next hdel =>
    have hdel' : ici.deletionTimestamp = none := by simpa using hdel
    split
    · exact meets_ret.2 fun _ => ⟨ici, hs, hdel', rfl, rfl⟩
    · exact Meets.seq (meets_true _) fun _ _ _ => meets_ret.2 nofun
  · refine Meets.seq (meets_true _) fun r _ _ => ?_
    split
    · exact meets_ret.2 nofun
    · exact meets_ret.2 nofun

/-- A pass that waits leaves the boot time as it was. -/
theorem reconcile_booked (hici : w.icis req = some ici) :
    Meets (Alone fun _ _ _ _ => True) (reconcile E req)
      (WaitsBooked req ici.status.bootTime ici.spec.bareMetalHostRef) w := by
  refine Meets.seq (tries_getICI .free (Q := fun read w' => w' = w ∧ w.icis req = some read)
    (R := fun _ _ => True) (fun _ hs => ⟨rfl, hs⟩) (fun _ => trivial) fun _ => trivial) ?_
  rintro (e | read) w₁ hr
  · exact meets_ret.2 (waitsBooked_unreported _ _)
  obtain ⟨rfl, hread⟩ := hr
  obtain rfl : ici = read := Option.some.inj (hici.symm.trans hread)
  refine Meets.seq (handleFinalizer_booked hici) ?_
  rintro ⟨ici₁, _ | ⟨result, err⟩⟩ w₂ h₂
  on_goal 2 => exact meets_ret.2 (waitsBooked_unreported _ _)
  refine Meets.seq ((h₂ rfl).kept (fetchCD_uses sparesBoot_read _ _)) fun cd w₃ h₃ => ?_
  refine Meets.seq (h₃.kept (labelReferencedObjectsForBackup_uses sparesBoot_read
    (fun _ _ _ => .other nofun) (fun op h => .other (by simp [h])) (fun _ _ _ => .other nofun)
    _ _ _)) fun _ w₄ h₄ => ?_
  split
  · refine Meets.seq (meets_true _) fun r w₅ _ => ?_
    cases r with
    | ok result => exact meets_ret.2 (waitsBooked_unreported _ _)
    | error e => exact meets_ret.2 (waitsBooked_unreported _ _)
  · exact reconcileInstall_booked h₄ cd

/-- A pass that ends waiting for its host is woken by that host iff the installation had not started
when the pass began. -/
theorem waiting_pass_woken_iff {cs : List (Choice B)} {rep : Report}
    (hici : w.icis req = some ici) (hhost : ici.spec.bareMetalHostRef = some key)
    (hrep : ((reconcile E req).exec answer cs w).2 = some rep) (hwaits : rep.WaitsForHost key) :
    WokenBy key req ((reconcile E req).exec answer cs w).1 ↔ ici.status.bootTime = none := by
  have hbooked : Booked req ici.status.bootTime ici.spec.bareMetalHostRef
      ((reconcile E req).exec answer cs w).1 :=
    (reconcile_booked hici).exec cs (traceOk_true cs) hrep hwaits.waits
  rw [hhost] at hbooked
  exact hbooked.wokenBy_iff

end Pass

/-! ## Hosts that come back -/

section Scenario

/-- The world without its hosts. -/
def World.withoutHosts (w : World Doc) : World Doc := { w with bmhs := fun _ => none }

/-- What a pass over the sample object reports then. -/
def missingHostReport : Report where
  reported := some { unknownCondition with message := "failed to get BareMetalHost hosts/rack1" }

theorem missingHostReport_waits : missingHostReport.WaitsForHost sampleHost :=
  ⟨rfl, rfl, _, rfl, by decide, .inl (by decide)⟩

theorem waiting_pass_woken_sample :
    let w := (samplePass sampleKey instantly sampleStart).withoutHosts
    ((reconcile Env.symbolic sampleKey).exec answer instantly w).2 = some missingHostReport ∧
    WokenBy sampleHost sampleKey
      ((reconcile Env.symbolic sampleKey).exec answer instantly w).1 := by
  intro w
  have hrep : ((reconcile Env.symbolic sampleKey).exec answer instantly w).2 =
      some missingHostReport := by decide +kernel
  have hobject : (w.icis sampleKey).any (fun ici =>
      decide (ici.spec.bareMetalHostRef = some sampleHost ∧ ici.status.bootTime = none)) := by
    decide +kernel
  obtain ⟨ici, hici, hfields⟩ := (Option.any_eq_true _ _).1 hobject
  obtain ⟨hhost, hboot⟩ := of_decide_eq_true hfields
  exact ⟨hrep, (waiting_pass_woken_iff hici hhost hrep missingHostReport_waits).2 hboot⟩

/-- The installation has started; then the operator lost its files, and the hosts were removed. -/
def strandedWorld : World Doc := startedWorld.withoutHosts

theorem strandedWorld_reached : Reached Env.symbolic (fun _ _ => True) strandedWorld := by
  have hstart : Reached Env.symbolic (fun _ _ => True) sampleStart :=
    sampleStart_reached trivial trivial
  have hbooted := (hstart.pass sampleKey slowly trivial).pass sampleKey slowly trivial
  have hothers : Event.others.Fires Env.symbolic
      (samplePass sampleKey slowly (samplePass sampleKey slowly sampleStart)) strandedWorld :=
    ⟨rfl, fun _ d h => ⟨d, h, rfl, id⟩, fun _ _ h => (nomatch h), Int.le_refl _⟩
  exact .next hbooted trivial hothers

/-- The host of an installation that has started comes back, and its events do not lead to the
object, whose pass was waiting for it. -/
theorem returning_host_unheard :
    Reached Env.symbolic (fun _ _ => True) strandedWorld ∧
    ((reconcile Env.symbolic sampleKey).exec answer instantly strandedWorld).2 =
      some missingHostReport ∧
    missingHostReport.WaitsForHost sampleHost ∧
    ¬WokenBy sampleHost sampleKey (samplePass sampleKey instantly strandedWorld) := by
  have hrep : ((reconcile Env.symbolic sampleKey).exec answer instantly strandedWorld).2 =
      some missingHostReport := by decide +kernel
  have hobject : (strandedWorld.icis sampleKey).any (fun ici =>
      decide (ici.spec.bareMetalHostRef = some sampleHost ∧ ici.status.bootTime ≠ none)) := by
    decide +kernel
  obtain ⟨ici, hici, hfields⟩ := (Option.any_eq_true _ _).1 hobject
  obtain ⟨hhost, hboot⟩ := of_decide_eq_true hfields
  refine ⟨strandedWorld_reached, hrep, missingHostReport_waits, fun hwoken => hboot ?_⟩
  have hbooked : Booked sampleKey ici.status.bootTime ici.spec.bareMetalHostRef
      (samplePass sampleKey instantly strandedWorld) :=
    (reconcile_booked hici).exec instantly (traceOk_true _) hrep missingHostReport_waits.waits
  rw [hhost] at hbooked
  exact hbooked.wokenBy_iff.1 hwoken

end Scenario

end ImageBasedInstall

import ImageBasedInstall.Verify.PassFootprints
import ImageBasedInstall.Verify.Boot
import ImageBasedInstall.Verify.Conditions

/-!
# What a pass reports

A pass that gets past the initial conditions reports one condition, from the deferred function, on
every exit of the four phases. The phases are repeated here with the place where they stop; without
it they are the phases of the reconciler. If the patches of the status succeed, the stored condition
and what the pass returns then say where it stopped and why.
-/

namespace ImageBasedInstall

open Interactive Patch

variable {B : Type}

/-! ## Where a pass stops -/

inductive Stage where
  | configuration
  | hostValidation
  | imageCreation
  | hostConfiguration
deriving DecidableEq

def Stage.failedReason : Stage → String
  | .configuration => configurationFailedReason
  | .hostValidation => hostValidationFailedReason
  | .imageCreation => imageCreationFailedReason
  | .hostConfiguration => hostConfigurationFailedReason

def Stage.pendingReason : Stage → String
  | .configuration => configurationPendingReason
  | .hostValidation => hostValidationPendingReason
  | .imageCreation => imageCreationPendingReason
  | .hostConfiguration => hostConfigurationPendingReason

theorem Stage.failedReason_injective : Function.Injective Stage.failedReason := by
  intro s s'
  cases s <;> cases s' <;> decide

theorem Stage.pendingReason_injective : Function.Injective Stage.pendingReason := by
  intro s s'
  cases s <;> cases s' <;> decide

/-- How far a pass got: not to the phases, to one of them, or through all four. -/
inductive Course where
  | early
  | stopped (stage : Stage)
  | finished
deriving DecidableEq

section Courses

variable [DecidableEq B] (E : Env B)

/-- `imagePhases`. -/
def imagePhasesIn (req : NamespacedName) (ici : ImageClusterInstall)
    (cd : NamespacedName × ClusterDeployment) (key : NamespacedName) (bmh : BareMetalHost)
    (cond : Condition) : Program B (PhaseOutcome × Course) := do
  let inp : BuildInput := ⟨req.ns, ici.spec, cd.1, cd.2, key, bmh⟩
  match ← createImage E req ici.uid inp { cond with reason := imageCreationFailedReason } with
  | (cond, .error e) => return ({ ici, cond, err := some e }, .stopped .imageCreation)
  | (cond, .ok (imageUrl, res)) =>
    if !res.isZero then return ({ ici, cond, result := res }, .stopped .imageCreation)
    let out ← configureHost E req ici imageUrl key bmh
      { cond with reason := hostConfigurationFailedReason }
    if !out.continues then return (out, .stopped .hostConfiguration)
    return ({ out with
      cond := { out.cond with
        status := .true
        reason := hostConfigurationSucceededReason
        message := "configuration image is attached to the referenced host" } }, .finished)

/-- `hostPhases`; the cluster metadata belong to the validation of the host. -/
def hostPhasesIn (req : NamespacedName) (ici : ImageClusterInstall)
    (cd : NamespacedName × ClusterDeployment) (key : NamespacedName) (bmh : BareMetalHost)
    (cond : Condition) : Program B (PhaseOutcome × Course) := do
  match ← validateHost E ici.spec key bmh { cond with reason := hostValidationFailedReason } with
  | (_, cond, .error e) => return ({ ici, cond, err := some e }, .stopped .hostValidation)
  | (bmh, cond, .ok res) =>
    if !res.isZero then return ({ ici, cond, result := res }, .stopped .hostValidation)
    match ← setClusterInstallMetadata E req ici cd.1 cd.2 with
    | (ici, .error .panic) => return ({ ici, cond, err := some .panic }, .stopped .hostValidation)
    | (ici, .error e) =>
      return ({ ici
                cond := { cond with
                  message := "failed to set ClusterMetaData in ImageClusterInstall" }
                err := some e }, .stopped .hostValidation)
    | (ici, .ok ()) => imagePhasesIn E req ici cd key bmh cond

/-- `runPhases`. -/
def runPhasesIn (req : NamespacedName) (ici : ImageClusterInstall)
    (cd : Option (NamespacedName × ClusterDeployment)) : Program B (PhaseOutcome × Course) := do
  match cd, ← validateConfiguration req ici.spec cd unknownCondition with
  | some cd, (cond, .ok (some (key, bmh))) => hostPhasesIn E req ici cd key bmh cond
  | _, (cond, r) => return ({ ici, cond, err := errorOf r }, .stopped .configuration)

/-- `reportPhases`. -/
def reportPhasesIn (req : NamespacedName) (ici : ImageClusterInstall)
    (cd : Option (NamespacedName × ClusterDeployment)) : Program B (Report × Course) := do
  let (out, course) ← runPhasesIn E req ici cd
  let _ ← setRequirementsMetCondition req out.ici out.cond.status out.cond.reason out.cond.message
  return ({ result := out.result, err := out.err, reported := some out.cond }, course)

/-- `reconcileInstall`. -/
def reconcileInstallIn (req : NamespacedName) (ici : ImageClusterInstall)
    (cd : Option (NamespacedName × ClusterDeployment)) : Program B (Report × Course) := do
  match ← checkStarted req ici with
  | (_, true) => return ({}, .early)
  | (ici, false) =>
    if iciIsBeingRestored ici then return ({}, .early)
    match ← prepare req ici with
    | (_, .error e) => return ({ err := some e }, .early)
    | (ici, .ok ()) => reportPhasesIn E req ici cd

/-- `reconcile`. -/
def reconcileIn (req : NamespacedName) : Program B (Report × Course) := do
  match ← (getICI req).run with
  | .error e => return ({ err := if e.isNotFound then none else some e }, .early)
  | .ok ici =>
    match ← handleFinalizer E req ici with
    | (_, some (result, err)) => return ({ result, err }, .early)
    | (ici, none) =>
      let cd ← fetchCD req.ns ici.spec
      labelReferencedObjectsForBackup req.ns ici.spec cd
      if installationCompleted ici then
        match ← (handlePostCleanup ici).run with
        | .ok result => return ({ result }, .early)
        | .error e => return ({ err := some e }, .early)
      else
        reconcileInstallIn E req ici cd

variable {E} {req : NamespacedName}

theorem imagePhasesIn_fst (ici : ImageClusterInstall) (cd : NamespacedName × ClusterDeployment)
    (key : NamespacedName) (bmh : BareMetalHost) (cond : Condition) :
    Prod.fst <$> imagePhasesIn E req ici cd key bmh cond =
      imagePhases E req ici cd key bmh cond := by
  refine Prog.map_bind_eq fun r => ?_
  obtain ⟨cond, e | ⟨url, res⟩⟩ := r
  · rfl
  dsimp only
  split
  · rfl
  refine Prog.map_bind_eq fun out => ?_
  split <;> rfl

theorem hostPhasesIn_fst (ici : ImageClusterInstall) (cd : NamespacedName × ClusterDeployment)
    (key : NamespacedName) (bmh : BareMetalHost) (cond : Condition) :
    Prod.fst <$> hostPhasesIn E req ici cd key bmh cond = hostPhases E req ici cd key bmh cond := by
  refine Prog.map_bind_eq fun r => ?_
  obtain ⟨bmh, cond, e | res⟩ := r
  · rfl
  dsimp only
  split
  · rfl
  refine Prog.map_bind_eq fun r => ?_
  obtain ⟨ici, e | u⟩ := r
  · cases e <;> rfl
  · exact imagePhasesIn_fst ..

theorem runPhasesIn_fst (ici : ImageClusterInstall)
    (cd : Option (NamespacedName × ClusterDeployment)) :
    Prod.fst <$> runPhasesIn E req ici cd = runPhases E req ici cd := by
  refine Prog.map_bind_eq fun r => ?_
  obtain ⟨cond, e | _ | ⟨key, bmh⟩⟩ := r
  · cases cd <;> rfl
  · cases cd <;> rfl
  · cases cd with
    | none => rfl
    | some cd => exact hostPhasesIn_fst ..

theorem reconcileIn_fst : Prod.fst <$> reconcileIn E req = reconcile E req := by
  refine Prog.map_bind_eq fun r => ?_
  obtain e | ici := r
  · rfl
  refine Prog.map_bind_eq fun r => ?_
  obtain ⟨ici, _ | ⟨result, err⟩⟩ := r
  on_goal 2 => rfl
  refine Prog.map_bind_eq fun cd => Prog.map_bind_eq fun _ => ?_
  split
  · refine Prog.map_bind_eq fun r => ?_
    cases r <;> rfl
  refine Prog.map_bind_eq fun r => ?_
  obtain ⟨ici, _ | _⟩ := r
  on_goal 2 => rfl
  dsimp only
  split
  · rfl
  refine Prog.map_bind_eq fun r => ?_
  obtain ⟨ici, e | u⟩ := r
  · rfl
  dsimp only
  rw [reportPhases, ← runPhasesIn_fst, bind_map_left]
  exact Prog.map_bind_eq fun out => Prog.map_bind_eq fun _ => rfl

end Courses

/-! ## What is reported -/

/-- The cases of a report. -/
inductive Verdict where
  | met
  | failed (stage : Stage)
  | pending (stage : Stage)
deriving DecidableEq

def Verdict.course : Verdict → Course
  | .met => .finished
  | .failed stage => .stopped stage
  | .pending stage => .stopped stage

/-- What a case says about the result and the error of the pass, the condition and the status. -/
def Verdict.Holds (result : Result) (err : Option Err) (cond : Condition) (status : Status) :
    Verdict → Prop
  | .met => cond.status = .true ∧ cond.reason = hostConfigurationSucceededReason ∧ err = none ∧
    result = {} ∧ status.bareMetalHostRef.isSome = true ∧ status.bootTime.isSome = true
  | .failed stage => cond.status = .false ∧ cond.reason = stage.failedReason ∧ err.isSome = true
  | .pending stage => cond.status = .false ∧ cond.reason = stage.pendingReason ∧ err = none

theorem Verdict.Holds.unique {result : Result} {err : Option Err} {cond : Condition}
    {status : Status} {v v' : Verdict} (h : v.Holds result err cond status)
    (h' : v'.Holds result err cond status) : v' = v := by
  cases v with
  | met =>
    cases v' with
    | met => rfl
    | failed s => exact absurd (h.1.symm.trans h'.1) (by decide)
    | pending s => exact absurd (h.1.symm.trans h'.1) (by decide)
  | failed s =>
    cases v' with
    | met => exact absurd (h.1.symm.trans h'.1) (by decide)
    | failed s' => rw [Stage.failedReason_injective (h.2.1.symm.trans h'.2.1)]
    | pending s' =>
      have herr := h.2.2
      rw [h'.2.2] at herr
      cases herr
  | pending s =>
    cases v' with
    | met => exact absurd (h.1.symm.trans h'.1) (by decide)
    | failed s' =>
      have herr := h'.2.2
      rw [h.2.2] at herr
      cases herr
    | pending s' => rw [Stage.pendingReason_injective (h.2.1.symm.trans h'.2.1)]

/-! ## The status in memory -/

/-- The call is no patch of a status that failed. -/
def statusPatched : (op : Op B) → Resp op → Bool
  | .patchICIStatus .., .error _ => false
  | _, _ => true

/-- Every patch of a status succeeds. -/
abbrev StatusPatched (_ : World B) (op : Op B) (r : Resp op) (_ : World B) : Prop :=
  statusPatched op r = true

/-- The object in memory has the status and the host of the stored one, which is not being deleted,
and a recorded host has its boot time. -/
structure Current (req : NamespacedName) (ici : ImageClusterInstall) (w : World B) : Prop where
  stored : ∃ stored, w.icis req = some stored ∧ stored.status = ici.status ∧
    stored.spec.bareMetalHostRef = ici.spec.bareMetalHostRef ∧ stored.deletionTimestamp = none
  paired : ici.status.bareMetalHostRef.isSome = true → ici.status.bootTime.isSome = true

section Status

variable {ok : World B → (op : Op B) → Resp op → World B → Prop} {w : World B}
  {req : NamespacedName} {ici : ImageClusterInstall} {α : Type}

theorem Status.merge_current (base new : Status) : Status.merge base new base = new := by
  simp [Status.merge]

/-- Calls that leave the objects alone. -/
theorem Current.kept {p : Program B α} (h : Current req ici w)
    (hp : p.Uses fun op => op.target ≠ .ici) :
    Meets (Alone ok) p (fun _ w' => Current req ici w') w := by
  refine Meets.of_uses hp (fun _ _ hI hr => hr ▸ hI) (fun op w₁ r w₂ hop hI hs => ?_) h
  obtain ⟨⟨c, hc⟩, -⟩ := hs
  obtain ⟨stored, hs, hrest⟩ := hI.stored
  refine ⟨trivial, ⟨stored, ?_, hrest⟩, hI.paired⟩
  rw [(answer_framed hc).icis (by simpa using fun he => hop he.symm)]
  exact hs

theorem Current.set {stored : ImageClusterInstall} (hstatus : stored.status = ici.status)
    (hhost : stored.spec.bareMetalHostRef = ici.spec.bareMetalHostRef)
    (hdel : stored.deletionTimestamp = none)
    (hpaired : ici.status.bareMetalHostRef.isSome = true → ici.status.bootTime.isSome = true) :
    Current req ici (w.setICI req (some stored)) :=
  ⟨⟨stored, by simp [World.setICI], hstatus, hhost, hdel⟩, hpaired⟩

/-- A patch of the main resource, however it ends. -/
theorem Current.patchICI {new : ImageClusterInstall} (h : Current req ici w)
    (hstatus : new.status = ici.status)
    (hhost : new.spec.bareMetalHostRef = ici.spec.bareMetalHostRef) :
    Meets (Alone ok) (patchICI req ici new) (fun r w' => Current req r.1 w' ∧
      r.1.spec.bareMetalHostRef = ici.spec.bareMetalHostRef) w := by
  obtain ⟨⟨stored, hs, hst, hh, hdel⟩, hpaired⟩ := h
  have hnew : new.status.bareMetalHostRef.isSome = true → new.status.bootTime.isSome = true :=
    hstatus ▸ hpaired
  refine meets_patchICI .free (fun stored' hs' => ?_) fun _ =>
    ⟨⟨⟨stored, hs, hst.trans hstatus.symm, hh.trans hhost.symm, hdel⟩, hnew⟩, hhost⟩
  obtain rfl : stored = stored' := Option.some.inj (hs.symm.trans hs')
  have hremains : (ImageClusterInstall.merge ici new stored).remains =
      some (ImageClusterInstall.merge ici new stored) := by
    simp [ImageClusterInstall.remains, ImageClusterInstall.merge, hdel]
  have hhost' : (ImageClusterInstall.merge ici new stored).spec.bareMetalHostRef =
      ici.spec.bareMetalHostRef := by
    simp [ImageClusterInstall.merge, Spec.merge, hhost, hh]
  have hstatus' : (ImageClusterInstall.merge ici new stored).status = ici.status := hst
  rw [hremains]
  exact ⟨⟨.set rfl rfl hdel (hstatus' ▸ hpaired), hhost'⟩,
    fun _ => ⟨.set (hst.trans hstatus.symm) (hhost'.trans hhost.symm) hdel hnew, hhost⟩⟩

/-- A patch of the status, which succeeds. -/
theorem Current.patchICIStatus {new : ImageClusterInstall} (h : Current req ici w)
    (hpaired : new.status.bareMetalHostRef.isSome = true → new.status.bootTime.isSome = true) :
    Meets (Alone StatusPatched) (patchICIStatus req ici new) (fun r w' => r.2 = .ok () ∧
      Current req r.1 w' ∧ r.1.status = new.status ∧
      r.1.spec.bareMetalHostRef = ici.spec.bareMetalHostRef) w := by
  obtain ⟨stored, hs, hst, hh, hdel⟩ := h.stored
  refine meets_call fun c r w' hc hok => ⟨trivial, ?_⟩
  cases answer_patchICIStatus hc with
  | lost => cases hok
  | failed => cases hok
  | stored stored' hs' =>
    obtain rfl : stored = stored' := Option.some.inj (hs.symm.trans hs')
    have hmerge : (ImageClusterInstall.mergeStatus ici new stored).status = new.status := by
      simp only [ImageClusterInstall.mergeStatus]
      rw [hst, Status.merge_current]
    exact meets_ret.2 ⟨rfl, .set rfl rfl hdel (by simpa only [afterPatch, hmerge]), hmerge, hh⟩

/-- A report that succeeds is stored. -/
theorem setRequirementsMetCondition_current (h : Current req ici w) (status : ConditionStatus)
    (reason msg : String) :
    Meets (Alone StatusPatched) (setRequirementsMetCondition req ici status reason msg)
      (fun ici' w' => Current req ici' w' ∧
        (ici'.status.bareMetalHostRef = ici.status.bareMetalHostRef ∧
          ici'.status.bootTime = ici.status.bootTime) ∧
        ∃ cond, findCondition ici'.status.conditions .requirementsMet = some cond ∧
          cond.status = status ∧ cond.reason = reason) w := by
  refine Meets.seq (h.kept (Prog.uses_perform nofun)) fun t w₁ h₁ => ?_
  obtain ⟨cond, hfind, hstatus, hreason, -⟩ := findCondition_set_self t ici.status.conditions
    { type := .requirementsMet, status, reason, message := msg }
  dsimp only
  split
  · next hsame =>
    rw [set_unchanged (by simpa using hsame)] at hfind
    exact meets_ret.2 ⟨h₁, ⟨rfl, rfl⟩, cond, hfind, hstatus, hreason⟩
  · refine Meets.seq (h₁.patchICIStatus h.paired) ?_
    rintro ⟨ici', r⟩ w₂ ⟨-, h₂, hs, -⟩
    refine meets_ret.2 ⟨h₂, ?_, cond, ?_, hstatus, hreason⟩
    · rw [hs]
      exact ⟨rfl, rfl⟩
    · rw [hs]
      exact hfind

theorem initializeConditions_current (h : Current req ici w) :
    Meets (Alone StatusPatched) (initializeConditions req ici)
      (fun r w' => Current req r.1 w') w := by
  refine Meets.seq (h.kept (uses_foldlM _ _ fun acc cond => ?_)) fun r w₁ h₁ => ?_
  · unfold initializeCondition
    split
    · trivial
    · exact (Prog.uses_perform nofun).bind fun _ => trivial
  · dsimp only
    split
    · exact meets_ret.2 h₁
    · refine (h₁.patchICIStatus ?_).mono fun _ _ h => h.2.1
      exact h.paired

theorem ensureAnnotated_current (h : Current req ici w) (key value : String) :
    Meets (Alone ok) (ensureAnnotated req ici key value) (fun r w' => Current req r.1 w') w := by
  unfold ensureAnnotated
  dsimp only
  split
  · exact meets_ret.2 h
  · refine (h.patchICI ?_ ?_).mono fun _ _ h => h.1
    · rfl
    · rfl

theorem prepare_current (h : Current req ici w) :
    Meets (Alone StatusPatched) (prepare req ici) (fun r w' => Current req r.1 w') w := by
  refine Meets.seq (ensureAnnotated_current h _ _) ?_
  rintro ⟨ici₁, e | u⟩ w₁ h₁
  · exact meets_ret.2 h₁
  refine Meets.seq (ensureAnnotated_current h₁ _ _) ?_
  rintro ⟨ici₂, e | u⟩ w₂ h₂
  · exact meets_ret.2 h₂
  · exact initializeConditions_current h₂

theorem checkStarted_current (h : Current req ici w) :
    Meets (Alone StatusPatched) (checkStarted req ici) (fun r w' => Current req r.1 w') w := by
  unfold checkStarted
  split
  · exact meets_ret.2 h
  have hrestore : Meets (Alone StatusPatched) (restoreRequirementsMet req ici)
      (fun ici' w' => Current req ici' w') w := by
    unfold restoreRequirementsMet
    split
    · split
      · exact (setRequirementsMetCondition_current h _ _ _).mono fun _ _ h => h.1
      · exact meets_ret.2 h
    · exact meets_ret.2 h
  refine Meets.seq hrestore fun ici₁ w₁ h₁ => ?_
  refine Meets.seq (h₁.kept (verifyIsoAndAuthExists_uses (fun op h => by simp [h]) _)) ?_
  exact fun r w₂ h₂ => meets_ret.2 h₂

theorem setClusterInstallMetadata_current (E : Env B) (h : Current req ici w)
    (cdKey : NamespacedName) (cd : ClusterDeployment) :
    Meets (Alone ok) (setClusterInstallMetadata E req ici cdKey cd)
      (fun r w' => Current req r.1 w' ∧
        r.1.spec.bareMetalHostRef = ici.spec.bareMetalHostRef) w := by
  unfold setClusterInstallMetadata
  split
  · exact meets_ret.2 ⟨h, rfl⟩
  · exact meets_ret.2 ⟨h, rfl⟩
  refine Meets.seq (h.kept (seedReconfigSecretClusterIDs_uses (fun op h => by simp [h]) ..)) ?_
  rintro (e | ⟨secretClusterID, secretInfraID⟩) w₁ h₁
  · exact meets_ret.2 ⟨h₁, rfl⟩
  refine Meets.seq (h₁.kept (chooseID_uses _ _ ?_)) fun clusterID w₂ h₂ => ?_
  · exact (Prog.uses_perform nofun).bind fun _ => trivial
  refine Meets.seq (h₂.kept (chooseID_uses _ _ ?_)) fun infraID w₃ h₃ => ?_
  · exact (Prog.uses_perform nofun).bind fun _ => trivial
  refine h₃.patchICI ?_ ?_
  · rfl
  · rfl

end Status

/-! ## The phases -/

section Phases

variable {E : Env B} {req key : NamespacedName} {ici : ImageClusterInstall} {bmh : BareMetalHost}
  {cond : Condition} {w : World B}

/-- Phase 1 goes on with the host of the spec; otherwise it failed, or something is missing. -/
theorem validateConfiguration_yields (s : Spec)
    (cd : Option (NamespacedName × ClusterDeployment)) :
    (validateConfiguration req s cd unknownCondition : Program B _).Yields fun r =>
      r.1.status = .false ∧
      (∀ e, r.2 = .error e → r.1.reason = configurationFailedReason) ∧
      (r.2 = .ok none → r.1.reason = configurationPendingReason) ∧
      (∀ host, r.2 = .ok (some host) → cd.isSome = true ∧ s.bareMetalHostRef.isSome = true) := by
  unfold validateConfiguration
  split
  · split
    · exact ⟨rfl, by simp, fun _ => rfl, by simp⟩
    · exact ⟨rfl, by simp, fun _ => rfl, by simp⟩
  · exact ⟨rfl, by simp, fun _ => rfl, by simp⟩
  · next key hkey =>
    have hsome : s.bareMetalHostRef.isSome = true := by
      rw [(Option.filter_eq_some_iff.1 hkey).1]
      rfl
    refine Prog.yields_bind fun r => ?_
    split
    · exact ⟨rfl, by simp, fun _ => rfl, by simp⟩
    split
    · exact ⟨rfl, by simp, by simp, fun _ _ => ⟨rfl, hsome⟩⟩
    refine Prog.yields_bind fun r => ?_
    split
    · exact ⟨rfl, by simp, by simp, fun _ _ => ⟨rfl, hsome⟩⟩
    · exact ⟨rfl, fun _ _ => rfl, by simp, by simp⟩

/-- The phase asks to be tried again. -/
def waits : Except Err Result → Bool
  | .ok res => !res.isZero
  | .error _ => false

/-- The reason is the one the phase was entered with, its failure, unless the phase waits. -/
def Explained (pending : String) (cond : Condition) (r : Condition × Except Err Result) : Prop :=
  r.1.status = cond.status ∧ r.1.reason = if waits r.2 then pending else cond.reason

theorem validateBMH_explained (s : Spec) :
    Explained hostValidationPendingReason cond (validateBMH E s key bmh cond) := by
  unfold validateBMH
  split
  · exact ⟨rfl, rfl⟩
  split
  · exact ⟨rfl, rfl⟩
  split
  · exact ⟨rfl, rfl⟩
  split
  · exact ⟨rfl, rfl⟩
  split
  · exact ⟨rfl, rfl⟩
  · exact ⟨rfl, rfl⟩

theorem validateHost_yields (s : Spec) :
    (validateHost E s key bmh cond).Yields fun r =>
      Explained hostValidationPendingReason cond r.2 := by
  have hbmh : Explained hostValidationPendingReason cond (validateBMH E s key bmh cond) :=
    validateBMH_explained s
  unfold validateHost
  split
  · next cond' e hv => exact hv ▸ hbmh
  · next cond' res hv =>
    rw [hv] at hbmh
    split
    · exact hbmh
    · next hz =>
      have hzero : Explained hostValidationPendingReason cond (cond', .ok {}) := by
        have hreason : cond'.reason = cond.reason := by simpa [waits, hz] using hbmh.2
        exact ⟨hbmh.1, hreason⟩
      split
      · exact hzero
      refine Prog.yields_bind fun r => ?_
      split
      · exact hzero
      · exact hzero

theorem createImage_yields [DecidableEq B] {inp : BuildInput} {uid : String}
    (hreason : cond.reason = imageCreationFailedReason) :
    (createImage E req uid inp cond).Yields fun r =>
      Explained imageCreationPendingReason cond (r.1, r.2.map Prod.snd) := by
  refine Prog.yields_bind fun r => ?_
  split
  · exact ⟨rfl, rfl⟩
  · exact ⟨rfl, rfl⟩
  · exact ⟨rfl, hreason.symm⟩
  split
  · next hz => exact ⟨rfl, by simp [waits, Except.map, hz]⟩
  split
  · exact ⟨rfl, rfl⟩
  · exact ⟨rfl, rfl⟩

/-- The outcome of phase 4. -/
structure HostConfigured (cond : Condition) (out : PhaseOutcome) : Prop where
  status : out.cond.status = cond.status
  done : out.continues = true → out.err = none ∧ out.result = {} ∧
    out.ici.status.bareMetalHostRef.isSome = true
  left : out.continues = false →
    out.cond.reason = if out.err.isSome then cond.reason else hostConfigurationPendingReason

theorem recordBoot_current (h : Current req ici w)
    (hhost : ici.spec.bareMetalHostRef.isSome = true) :
    Meets (Alone StatusPatched) (recordBoot req ici cond)
      (fun out w' => Current req out.ici w' ∧ HostConfigured cond out) w := by
  unfold recordBoot
  split
  · next host href =>
    exact meets_ret.2 ⟨h, rfl, fun _ => ⟨rfl, rfl, by simp [href]⟩, nofun⟩
  refine Meets.seq (h.kept ?_) fun t w₁ h₁ => ?_
  · unfold bootTimeOf
    split
    · trivial
    · exact Prog.uses_perform nofun
  refine Meets.seq (h₁.patchICIStatus fun _ => rfl) ?_
  rintro ⟨ici', r⟩ w₂ ⟨hr, h₂, hs, -⟩
  obtain rfl : r = .ok () := hr
  refine meets_ret.2 ⟨h₂, rfl, fun _ => ⟨rfl, rfl, ?_⟩, nofun⟩
  rw [hs]
  exact hhost

theorem configureHost_current (h : Current req ici w)
    (hhost : ici.spec.bareMetalHostRef.isSome = true) (url : String) :
    Meets (Alone StatusPatched) (configureHost E req ici url key bmh cond)
      (fun out w' => Current req out.ici w' ∧ HostConfigured cond out) w := by
  refine Meets.seq (h.kept (ensureBMHDataImage_uses (fun _ => plain_ne_ici) key url)) ?_
  rintro (e | ⟨dataImage, res⟩) w₁ h₁
  · exact meets_ret.2 ⟨h₁, rfl, nofun, fun _ => rfl⟩
  dsimp only
  split
  · exact meets_ret.2 ⟨h₁, rfl, nofun, fun _ => rfl⟩
  refine Meets.seq (h₁.kept (Prog.uses_perform nofun)) fun t w₂ h₂ => ?_
  split
  · exact meets_ret.2 ⟨h₂, rfl, nofun, fun _ => rfl⟩
  refine Meets.seq (h₂.kept (updateBMHProvisioningState_uses (fun _ => plain_ne_ici) key bmh
    dataImage)) ?_
  rintro ⟨bmh', e | u⟩ w₃ h₃
  · exact meets_ret.2 ⟨h₃, rfl, nofun, fun _ => rfl⟩
  dsimp only
  split
  · exact meets_ret.2 ⟨h₃, rfl, nofun, fun _ => rfl⟩
  · exact recordBoot_current h₃ hhost

/-! ## The phases together -/

/-- The outcome is one of the cases, and the case says how far the phases got. -/
def Concludes (r : PhaseOutcome × Course) : Prop :=
  ∃ v : Verdict, r.2 = v.course ∧ v.Holds r.1.result r.1.err r.1.cond r.1.ici.status

variable [DecidableEq B]

theorem imagePhasesIn_current (h : Current req ici w) (hcond : cond.status = .false)
    (hhost : ici.spec.bareMetalHostRef.isSome = true)
    (cd : NamespacedName × ClusterDeployment) :
    Meets (Alone StatusPatched) (imagePhasesIn E req ici cd key bmh cond)
      (fun r w' => Current req r.1.ici w' ∧ Concludes r) w := by
  have hbuild : (writeInputData E ⟨req.ns, ici.spec, cd.1, cd.2, key, bmh⟩ ici.uid).run.Uses
      fun op => op.target ≠ .ici :=
    writeInputData_uses (fun op h => by simp [h]) (fun op h => by simp [h])
      (fun op h => by simp [h]) E _ _ fun _ => nofun
  refine Meets.seq ((h.kept (createImage_uses req E hbuild _)).yields (createImage_yields rfl)) ?_
  rintro ⟨cond₁, e | ⟨url, res⟩⟩ w₁ ⟨h₁, hstatus, hreason⟩
  · exact meets_ret.2 ⟨h₁, .failed .imageCreation, rfl, hstatus.trans hcond, hreason, rfl⟩
  dsimp only at hstatus
  dsimp only
  split
  · next hz =>
    have hreason : cond₁.reason = imageCreationPendingReason := by
      simpa [waits, Except.map, hz] using hreason
    exact meets_ret.2 ⟨h₁, .pending .imageCreation, rfl, hstatus.trans hcond, hreason, rfl⟩
  refine Meets.seq (configureHost_current h₁ hhost url) fun out w₂ ⟨h₂, hout⟩ => ?_
  split
  · next hleft =>
    have hleft := hout.left (by simpa using hleft)
    have hstatus : out.cond.status = .false := hout.status.trans (hstatus.trans hcond)
    cases herr : out.err with
    | none =>
      have hreason : out.cond.reason = hostConfigurationPendingReason := by simpa [herr] using hleft
      exact meets_ret.2 ⟨h₂, .pending .hostConfiguration, rfl, hstatus, hreason, herr⟩
    | some e =>
      have hreason : out.cond.reason = hostConfigurationFailedReason := by simpa [herr] using hleft
      exact meets_ret.2 ⟨h₂, .failed .hostConfiguration, rfl, hstatus, hreason, by simp [herr]⟩
  · next hgoes =>
    obtain ⟨herr, hresult, href⟩ := hout.done (by simpa using hgoes)
    exact meets_ret.2 ⟨h₂, .met, rfl, rfl, rfl, herr, hresult, href, h₂.paired href⟩

theorem hostPhasesIn_current (h : Current req ici w) (hcond : cond.status = .false)
    (hhost : ici.spec.bareMetalHostRef.isSome = true)
    (cd : NamespacedName × ClusterDeployment) :
    Meets (Alone StatusPatched) (hostPhasesIn E req ici cd key bmh cond)
      (fun r w' => Current req r.1.ici w' ∧ Concludes r) w := by
  refine Meets.seq ((h.kept (validateHost_uses (fun _ => plain_ne_ici) E _ _ _ _)).yields
    (validateHost_yields _)) ?_
  rintro ⟨bmh₁, cond₁, e | res⟩ w₁ ⟨h₁, hstatus, hreason⟩
  · exact meets_ret.2 ⟨h₁, .failed .hostValidation, rfl, hstatus.trans hcond, hreason, rfl⟩
  have hstatus : cond₁.status = .false := hstatus.trans hcond
  dsimp only
  split
  · next hz =>
    have hreason : cond₁.reason = hostValidationPendingReason := by
      simpa [waits, hz] using hreason
    exact meets_ret.2 ⟨h₁, .pending .hostValidation, rfl, hstatus, hreason, rfl⟩
  · next hz =>
    have hreason : cond₁.reason = hostValidationFailedReason := by
      simpa [waits, hz] using hreason
    refine Meets.seq (setClusterInstallMetadata_current E h₁ cd.1 cd.2) ?_
    rintro ⟨ici₂, e | u⟩ w₂ ⟨h₂, hhost₂⟩
    · cases e <;> exact meets_ret.2 ⟨h₂, .failed .hostValidation, rfl, hstatus, hreason, rfl⟩
    · exact imagePhasesIn_current h₂ hstatus (hhost₂ ▸ hhost) cd

theorem runPhasesIn_current (h : Current req ici w)
    (cd : Option (NamespacedName × ClusterDeployment)) :
    Meets (Alone StatusPatched) (runPhasesIn E req ici cd)
      (fun r w' => Current req r.1.ici w' ∧ Concludes r) w := by
  refine Meets.seq ((h.kept (validateConfiguration_uses req (fun _ => plain_ne_ici) _ _ _)).yields
    (validateConfiguration_yields _ cd)) ?_
  rintro ⟨cond₁, e | _ | ⟨key, bmh⟩⟩ w₁ ⟨h₁, hstatus, hfailed, hpending, hhost⟩
  · have hret : Concludes ({ ici, cond := cond₁, err := some e }, .stopped .configuration) :=
      ⟨.failed .configuration, rfl, hstatus, hfailed e rfl, rfl⟩
    cases cd <;> exact meets_ret.2 ⟨h₁, hret⟩
  · have hret : Concludes ({ ici, cond := cond₁, err := none }, .stopped .configuration) :=
      ⟨.pending .configuration, rfl, hstatus, hpending rfl, rfl⟩
    cases cd <;> exact meets_ret.2 ⟨h₁, hret⟩
  · obtain ⟨hcd, href⟩ := hhost _ rfl
    obtain ⟨cd, rfl⟩ := Option.isSome_iff_exists.1 hcd
    exact hostPhasesIn_current h₁ hstatus href cd

/-- What a pass leaves behind if it reports a condition. -/
def LeavesVerdict (req : NamespacedName) (r : Report × Course) (w : World B) : Prop :=
  r.1.reported.isSome = true → ∃ (v : Verdict) (ici : ImageClusterInstall) (cond : Condition),
    w.icis req = some ici ∧ findCondition ici.status.conditions .requirementsMet = some cond ∧
    r.2 = v.course ∧ v.Holds r.1.result r.1.err cond ici.status

theorem Verdict.Holds.of_eq {v : Verdict} {result : Result} {err : Option Err}
    {cond cond' : Condition} {status status' : Status} (h : v.Holds result err cond status)
    (hstatus : cond'.status = cond.status) (hreason : cond'.reason = cond.reason)
    (href : status'.bareMetalHostRef = status.bareMetalHostRef)
    (htime : status'.bootTime = status.bootTime) : v.Holds result err cond' status' := by
  cases v <;> simpa only [Verdict.Holds, hstatus, hreason, href, htime] using h

theorem reportPhasesIn_reports (h : Current req ici w)
    (cd : Option (NamespacedName × ClusterDeployment)) :
    Meets (Alone StatusPatched) (reportPhasesIn E req ici cd) (LeavesVerdict req) w := by
  refine Meets.seq (runPhasesIn_current h cd) ?_
  rintro ⟨out, course⟩ w₁ ⟨h₁, v, hcourse, hv⟩
  refine Meets.seq (setRequirementsMetCondition_current h₁ _ _ _) ?_
  rintro ici' w₂ ⟨h₂, ⟨href, htime⟩, cond, hfind, hstatus, hreason⟩
  obtain ⟨stored, hs, hst, -⟩ := h₂.stored
  refine meets_ret.2 fun _ => ⟨v, stored, cond, hs, hst ▸ hfind, hcourse, ?_⟩
  rw [hst]
  exact hv.of_eq hstatus hreason href htime

omit [DecidableEq B] in
/-- The pass goes on with the object as it was read. -/
theorem handleFinalizer_current {ok : World B → (op : Op B) → Resp op → World B → Prop}
    (hs : w.icis req = some ici)
    (hpaired : ici.status.bareMetalHostRef.isSome = true → ici.status.bootTime.isSome = true) :
    Meets (Alone ok) (handleFinalizer E req ici)
      (fun r w' => r.2 = none → Current req r.1 w') w := by
  unfold handleFinalizer
  split
  · next hdel =>
    split
    · exact meets_ret.2 fun _ => ⟨⟨ici, hs, rfl, rfl, by simpa using hdel⟩, hpaired⟩
    · exact (meets_true _).seq fun r w₁ _ => meets_ret.2 nofun
  · refine (meets_true _).seq fun r w₁ _ => ?_
    split
    · exact meets_ret.2 nofun
    · exact meets_ret.2 nofun

/-- A host reference in the status of the object comes with a boot time. -/
def StartTimed (req : NamespacedName) (w : World B) : Prop :=
  ∀ ici, w.icis req = some ici → ici.status.bareMetalHostRef.isSome = true →
    ici.status.bootTime.isSome = true

theorem reconcileIn_leavesVerdict (htimed : StartTimed req w) :
    Meets (Alone StatusPatched) (reconcileIn E req) (LeavesVerdict req) w := by
  refine Meets.seq (tries_getICI .free (Q := fun ici w' => w' = w ∧ w.icis req = some ici)
    (R := fun _ _ => True) (fun _ hs => ⟨rfl, hs⟩) (fun _ => trivial) fun _ => trivial) ?_
  rintro (e | ici) w₁ hr
  · exact meets_ret.2 nofun
  obtain ⟨rfl, hs⟩ := hr
  refine Meets.seq (handleFinalizer_current hs (htimed ici hs)) ?_
  rintro ⟨ici₁, _ | ⟨result, err⟩⟩ w₁ h₁
  on_goal 2 => exact meets_ret.2 nofun
  have hread : ∀ op : Op B, op.target = .nothing → op.target ≠ .ici := fun op h => by simp [h]
  refine Meets.seq ((h₁ rfl).kept (fetchCD_uses hread _ _)) fun cd w₂ h₂ => ?_
  refine Meets.seq (h₂.kept (labelReferencedObjectsForBackup_uses hread (fun _ _ _ => nofun)
    (fun op h => by simp [h]) (fun _ _ _ => nofun) _ _ _)) fun _ w₃ h₃ => ?_
  split
  · refine (meets_true _).seq fun r w₄ _ => ?_
    split
    · exact meets_ret.2 nofun
    · exact meets_ret.2 nofun
  refine Meets.seq (checkStarted_current h₃) ?_
  rintro ⟨ici₂, _ | _⟩ w₄ h₄
  on_goal 2 => exact meets_ret.2 nofun
  dsimp only
  split
  · exact meets_ret.2 nofun
  refine Meets.seq (prepare_current h₄) ?_
  rintro ⟨ici₃, e | u⟩ w₅ h₅
  · exact meets_ret.2 nofun
  · exact reportPhasesIn_reports h₅ cd

end Phases

theorem pass_reports_what_happened [DecidableEq B] (E : Env B) (req : NamespacedName)
    (w : World B) (htimed : StartTimed req w) (cs : List (Choice B)) (rep : Report)
    (hret : ((reconcile E req).exec answer cs w).2 = some rep)
    (hinit : rep.reported.isSome = true)
    (hpatches : TraceOk answer StatusPatched (reconcile E req) cs w) :
    ∃ (v : Verdict) (ici : ImageClusterInstall) (cond : Condition),
      ((reconcile E req).exec answer cs w).1.icis req = some ici ∧
      findCondition ici.status.conditions .requirementsMet = some cond ∧
      ((reconcileIn E req).exec answer cs w).2 = some (rep, v.course) ∧
      v.Holds rep.result rep.err cond ici.status ∧
      ∀ v' : Verdict, v'.Holds rep.result rep.err cond ici.status → v' = v := by
  have hexec := exec_map answer Prod.fst (reconcileIn E req) cs w
  have htrace := trace_map answer Prod.fst (reconcileIn E req) cs w
  rw [reconcileIn_fst] at hexec htrace
  rw [hexec] at hret ⊢
  obtain ⟨⟨rep', course⟩, hrun, rfl⟩ := Option.map_eq_some_iff.1 hret
  have hok : TraceOk answer StatusPatched (reconcileIn E req) cs w := by
    intro t ht
    exact hpatches t (htrace ▸ ht)
  obtain ⟨v, ici, cond, hici, hfind, hcourse, hv⟩ :=
    (reconcileIn_leavesVerdict htimed).exec cs hok hrun hinit
  obtain rfl : course = v.course := hcourse
  exact ⟨v, ici, cond, hici, hfind, hrun, hv, fun v' hv' => hv.unique hv'⟩

/-! ## A first boot and one without its time -/

/-- The object has its finalizer, and the next pass goes through the phases. -/
def bootingWorld : World Doc :=
  samplePass sampleKey slowly (sampleWorld.setICI sampleKey (some sampleICI))

/-- The same object with a host in its status, and no boot time. -/
def untimedWorld : World Doc :=
  samplePass sampleKey slowly (sampleWorld.setICI sampleKey
    (some { sampleICI with status := { bareMetalHostRef := some sampleHost } }))

theorem bootingWorld_timed : StartTimed sampleKey bootingWorld := by
  have hnone : (bootingWorld.icis sampleKey).all fun ici => ici.status.bareMetalHostRef.isNone := by
    decide +kernel
  intro ici hici href
  have hnone : ici.status.bareMetalHostRef = none := by simpa [hici] using hnone
  rw [hnone] at href
  cases href

theorem pass_reports_what_happened_booting : ∃ (rep : Report) (v : Verdict)
    (ici : ImageClusterInstall) (cond : Condition), rep.reported.isSome = true ∧
      ((reconcile Env.symbolic sampleKey).exec answer slowly bootingWorld).1.icis sampleKey =
        some ici ∧
      findCondition ici.status.conditions .requirementsMet = some cond ∧
      ((reconcileIn Env.symbolic sampleKey).exec answer slowly bootingWorld).2 =
        some (rep, v.course) ∧
      v.Holds rep.result rep.err cond ici.status := by
  have hret : ((reconcile Env.symbolic sampleKey).exec answer slowly bootingWorld).2.any
      (fun rep => rep.reported.isSome) = true := by decide +kernel
  have hok : TraceOk answer StatusPatched (reconcile Env.symbolic sampleKey) slowly
      bootingWorld := by
    unfold TraceOk
    decide +kernel
  obtain ⟨rep, hrep, hinit⟩ := (Option.any_eq_true _ _).1 hret
  obtain ⟨v, ici, cond, hici, hfind, hcourse, hv, -⟩ :=
    pass_reports_what_happened Env.symbolic sampleKey bootingWorld bootingWorld_timed slowly rep
      hrep hinit hok
  exact ⟨rep, v, ici, cond, hinit, hici, hfind, hcourse, hv⟩

/-- `configureHost` records the start only where the status has no host: the pass reports that the
requirements are met, and the boot time is still unset. -/
theorem met_without_boot_time : ∃ (rep : Report) (ici : ImageClusterInstall) (cond : Condition),
    ((reconcile Env.symbolic sampleKey).exec answer slowly untimedWorld).2 = some rep ∧
      rep.reported.isSome = true ∧
      TraceOk answer StatusPatched (reconcile Env.symbolic sampleKey) slowly untimedWorld ∧
      ((reconcile Env.symbolic sampleKey).exec answer slowly untimedWorld).1.icis sampleKey =
        some ici ∧
      findCondition ici.status.conditions .requirementsMet = some cond ∧
      cond.status = .true ∧ rep.err = none ∧ ici.status.bootTime = none ∧
      ∀ v : Verdict, ¬v.Holds rep.result rep.err cond ici.status := by
  have hret : ((reconcile Env.symbolic sampleKey).exec answer slowly untimedWorld).2.any
      (fun rep => rep.reported.isSome ∧ rep.err = none) = true := by decide +kernel
  have hstored : (((reconcile Env.symbolic sampleKey).exec answer slowly untimedWorld).1.icis
      sampleKey).any (fun ici => ici.status.bootTime.isNone ∧
        (findCondition ici.status.conditions .requirementsMet).any
          (fun cond => cond.status = .true)) = true := by decide +kernel
  have hok : TraceOk answer StatusPatched (reconcile Env.symbolic sampleKey) slowly
      untimedWorld := by
    unfold TraceOk
    decide +kernel
  obtain ⟨rep, hrep, hreported⟩ := (Option.any_eq_true _ _).1 hret
  obtain ⟨hinit, herr⟩ := of_decide_eq_true hreported
  obtain ⟨ici, hici, hstart⟩ := (Option.any_eq_true _ _).1 hstored
  obtain ⟨hboot, hcond⟩ := of_decide_eq_true hstart
  obtain ⟨cond, hfind, htrue⟩ := (Option.any_eq_true _ _).1 hcond
  have htrue : cond.status = .true := of_decide_eq_true htrue
  have hboot : ici.status.bootTime = none := Option.isNone_iff_eq_none.1 hboot
  refine ⟨rep, ici, cond, hrep, hinit, hok, hici, hfind, htrue, herr, hboot, fun v hv => ?_⟩
  cases v with
  | met => simpa [hboot] using hv.2.2.2.2.2
  | failed stage => exact absurd (htrue.symm.trans hv.1) (by decide)
  | pending stage => exact absurd (htrue.symm.trans hv.1) (by decide)

end ImageBasedInstall

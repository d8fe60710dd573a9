import ImageBasedInstall.Api.Webhook
import ImageBasedInstall.Verify.Footprints

/-!
# The calls of a pass

The footprint of a pass and of its parts: plain calls, the file operations that remove the directory
of a deleted object, patches of the object that keep its configured spec, and one build.
-/

namespace ImageBasedInstall

open Interactive

variable {B : Type}

theorem plain_of_read {op : Op B} (h : op.target = .nothing) : op.plain = true :=
  plain_of_target (by simp [h])

theorem plain_ne_ici {op : Op B} (h : op.plain = true) : op.target ≠ .ici := by
  cases op with
  | patchICI key base new => cases h
  | patchICIStatus key base new => cases h
  | _ => nofun

section Pass

variable {A : Op B → Prop} (req : NamespacedName)
  (hplain : ∀ op : Op B, op.plain = true → A op)
  (hstatus : ∀ base new, new.status.bootTime = base.status.bootTime →
    A (.patchICIStatus req base new))
  (hboot : ∀ base new, A (.patchICIStatus req base new))
  (hpatch : ∀ base new, new.spec.configured = base.spec.configured → A (.patchICI req base new))

/-! ## The object -/

section Object

include hpatch

theorem patchICI_uses {ici new : ImageClusterInstall}
    (h : new.spec.configured = ici.spec.configured) :
    (patchICI req ici new : Program B _).Uses A :=
  Prog.Uses.bind (Prog.uses_perform (hpatch _ _ h)) fun _ => trivial

theorem ensureAnnotated_uses (ici : ImageClusterInstall) (key value : String) :
    (ensureAnnotated req ici key value : Program B _).Uses A := by
  unfold ensureAnnotated
  dsimp only
  split
  · trivial
  · exact patchICI_uses req hpatch rfl

include hplain

theorem finalize_uses (E : Env B) (ici : ImageClusterInstall)
    (htidy : ∀ op, Tidies E (lockDirOf req.ns ici.uid) op → A op) :
    (finalize E req ici).run.Uses A := by
  have hread : ∀ op : Op B, op.target = .nothing → A op := fun op h => hplain op (plain_of_read h)
  refine uses_bind (removeConfigDir_uses hread E _ _ htidy) fun removed => ?_
  split
  · trivial
  refine uses_bind (removeHostDataImage_uses hread (fun _ => hplain _ rfl)
    (fun _ _ => hplain _ rfl) _) fun gone => ?_
  split
  · trivial
  refine uses_bind ?_ fun _ => trivial
  unfold removeFinalizer
  split
  · exact uses_bind (uses_lift (patchICI_uses req hpatch rfl)) fun r => uses_liftExcept _
  · trivial

theorem handleFinalizer_uses (E : Env B) (ici : ImageClusterInstall)
    (htidy : ∀ op, Tidies E (lockDirOf req.ns ici.uid) op → A op) :
    (handleFinalizer E req ici).Uses A := by
  unfold handleFinalizer
  split
  · split
    · trivial
    · exact Prog.Uses.bind (patchICI_uses req hpatch rfl) fun _ => trivial
  · refine (finalize_uses req hplain hpatch E ici htidy).bind fun r => ?_
    split <;> trivial

include hstatus

theorem prepare_uses (ici : ImageClusterInstall) : (prepare req ici : Program B _).Uses A := by
  refine (ensureAnnotated_uses req hpatch _ _ _).bind fun r => ?_
  split
  · trivial
  refine (ensureAnnotated_uses req hpatch _ _ _).bind fun r => ?_
  split
  · trivial
  · exact initializeConditions_uses (fun op h => hplain op (plain_of_read h)) _ _
      fun _ => hstatus _ _ rfl

end Object

section Status

include hplain hstatus

theorem restoreRequirementsMet_uses (ici : ImageClusterInstall) :
    (restoreRequirementsMet req ici : Program B _).Uses A := by
  unfold restoreRequirementsMet
  split
  · split
    · exact setRequirementsMetCondition_uses (fun op h => hplain op (plain_of_read h)) _ _
        (fun _ => hstatus _ _ rfl) _ _ _
    · trivial
  · trivial

theorem checkStarted_uses (ici : ImageClusterInstall) :
    (checkStarted req ici : Program B _).Uses A := by
  unfold checkStarted
  split
  · trivial
  refine (restoreRequirementsMet_uses req hplain hstatus ici).bind fun ici => ?_
  exact (verifyIsoAndAuthExists_uses (fun op h => hplain op (plain_of_read h)) _).bind
    fun _ => trivial

end Status

/-! ## The phases -/

section Phases

include hplain

theorem validateConfiguration_uses (s : Spec) (cd : Option (NamespacedName × ClusterDeployment))
    (cond : Condition) : (validateConfiguration req s cd cond : Program B _).Uses A := by
  unfold validateConfiguration
  split
  · split <;> trivial
  · trivial
  refine Prog.Uses.bind (Prog.uses_perform (hplain _ rfl)) fun r => ?_
  split
  · trivial
  split
  · trivial
  refine Prog.Uses.bind (Prog.Uses.bind (Prog.uses_perform (hplain _ rfl)) fun _ => trivial)
    fun r => ?_
  split <;> trivial

omit req in
theorem validateHost_uses (E : Env B) (s : Spec) (key : NamespacedName) (bmh : BareMetalHost)
    (cond : Condition) : (validateHost E s key bmh cond).Uses A := by
  unfold validateHost
  split
  · trivial
  split
  · trivial
  split
  · trivial
  refine Prog.Uses.bind (Prog.Uses.bind (Prog.uses_perform (hplain _ rfl)) fun _ => trivial)
    fun r => ?_
  split <;> trivial

omit req in
theorem ensureBMHDataImage_uses (key : NamespacedName) (url : String) :
    (ensureBMHDataImage key url : Act B _).run.Uses A := by
  refine uses_bind (uses_attempt (Prog.uses_perform (hplain _ rfl))) fun r => ?_
  split
  · split <;> trivial
  split
  · trivial
  · exact uses_bind (uses_wrap (Prog.uses_perform (hplain _ rfl))) fun _ =>
      uses_bind (Prog.uses_perform (hplain _ rfl)) fun _ => trivial

omit req in
theorem updateBMHProvisioningState_uses (key : NamespacedName) (bmh : BareMetalHost)
    (dataImage : DataImage) :
    (updateBMHProvisioningState key bmh dataImage : Program B _).Uses A := by
  unfold updateBMHProvisioningState
  split
  · trivial
  split
  · trivial
  · exact Prog.Uses.bind (Prog.uses_perform (hplain _ rfl)) fun _ => trivial

include hboot

theorem recordBoot_uses (ici : ImageClusterInstall) (cond : Condition) :
    (recordBoot req ici cond : Program B _).Uses A := by
  unfold recordBoot
  split
  · trivial
  refine Prog.Uses.bind ?_ fun t => ?_
  · unfold bootTimeOf
    split
    · trivial
    · exact Prog.uses_perform (hplain _ rfl)
  refine Prog.Uses.bind (Prog.Uses.bind (Prog.uses_perform (hboot _ _)) fun _ => trivial)
    fun r => ?_
  split <;> trivial

theorem configureHost_uses (E : Env B) (ici : ImageClusterInstall) (url : String)
    (key : NamespacedName) (bmh : BareMetalHost) (cond : Condition) :
    (configureHost E req ici url key bmh cond).Uses A := by
  refine (ensureBMHDataImage_uses hplain _ _).bind fun r => ?_
  split
  · trivial
  split
  · trivial
  refine Prog.Uses.bind (Prog.uses_perform (hplain _ rfl)) fun t => ?_
  split
  · trivial
  refine (updateBMHProvisioningState_uses hplain _ _ _).bind fun r => ?_
  split
  · trivial
  split
  · trivial
  · exact recordBoot_uses req hplain hboot _ _

end Phases

/-! ## The pass -/

variable [DecidableEq B] (E : Env B)

omit hplain hboot hpatch in
theorem createImage_uses {inp : BuildInput} {uid : String}
    (hbuild : (writeInputData E inp uid).run.Uses A) (cond : Condition) :
    (createImage E req uid inp cond).Uses A := by
  refine hbuild.bind fun r => ?_
  split
  · trivial
  · trivial
  · trivial
  split
  · trivial
  split <;> trivial

section Build

variable (hbuild : ∀ inp uid, inp.ns = req.ns → (writeInputData E inp uid).run.Uses A)
include hplain hboot hbuild

theorem imagePhases_uses (ici : ImageClusterInstall) (cd : NamespacedName × ClusterDeployment)
    (key : NamespacedName) (bmh : BareMetalHost) (cond : Condition) :
    (imagePhases E req ici cd key bmh cond).Uses A := by
  refine (createImage_uses req E (hbuild _ _ rfl) _).bind fun r => ?_
  split
  · trivial
  split
  · trivial
  refine (configureHost_uses req hplain hboot E _ _ _ _ _).bind fun out => ?_
  split <;> trivial

include hpatch

theorem runPhases_uses (ici : ImageClusterInstall)
    (cd : Option (NamespacedName × ClusterDeployment)) : (runPhases E req ici cd).Uses A := by
  refine (validateConfiguration_uses req hplain _ _ _).bind fun r => ?_
  split
  · refine (validateHost_uses hplain E _ _ _ _).bind fun r => ?_
    split
    · trivial
    split
    · trivial
    refine (setClusterInstallMetadata_uses (fun op h => hplain op (plain_of_read h)) E _ _ _ _
      fun m => hpatch _ _ rfl).bind fun r => ?_
    split
    · trivial
    · trivial
    · exact imagePhases_uses req hplain hboot E hbuild _ _ _ _ _
  · trivial

end Build

omit hplain

/-- The footprint of a pass: calls that leave the object alone, patches of its status, and patches
that keep the configured spec of the copy they are made from. -/
theorem reconcile_uses (hother : ∀ op : Op B, op.target ≠ .ici → A op)
    (hstatus : ∀ base new, A (.patchICIStatus req base new))
    (hpatch : ∀ base new, new.spec.configured = base.spec.configured → A (.patchICI req base new))
    (E : Env B) : (reconcile E req).Uses A := by
  have hplain : ∀ op : Op B, op.plain = true → A op := fun op h => hother op (plain_ne_ici h)
  have hread : ∀ op : Op B, op.target = .nothing → A op := fun op h => hplain op (plain_of_read h)
  refine Prog.Uses.bind (Prog.uses_perform (hread _ rfl)) fun r => ?_
  split
  · trivial
  refine (handleFinalizer_uses req hplain hpatch E _ fun op h =>
    hother op (by simp [h.target])).bind fun r => ?_
  split
  · trivial
  refine (fetchCD_uses hread _ _).bind fun cd => ?_
  refine (labelReferencedObjectsForBackup_uses hread (fun _ _ _ => hplain _ rfl)
    (fun op h => hother op (by simp [h])) (fun _ _ _ => hplain _ rfl) _ _ _).bind fun _ => ?_
  split
  · refine (handlePostCleanup_uses hread (fun _ => hplain _ rfl) (fun _ _ => hplain _ rfl)
      _).bind fun r => ?_
    split <;> trivial
  -- the installation goes on
  have hkept : ∀ base new, new.status.bootTime = base.status.bootTime →
      A (.patchICIStatus req base new) := fun base new _ => hstatus base new
  refine (checkStarted_uses req hplain hkept _).bind fun r => ?_
  split
  · trivial
  split
  · trivial
  refine (prepare_uses req hplain hkept hpatch _).bind fun r => ?_
  split
  · trivial
  refine (runPhases_uses req hplain hstatus hpatch E (fun inp uid _ => ?_) _ _).bind fun out => ?_
  · exact writeInputData_uses hread (fun op h => hother op (by simp [h]))
      (fun op h => hother op (by simp [h])) E inp uid fun _ => hother _ nofun
  exact (setRequirementsMetCondition_uses hread _ _ (fun _ => hstatus _ _) _ _ _).bind
    fun _ => trivial

end Pass

end ImageBasedInstall

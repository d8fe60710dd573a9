import ImageBasedInstall.Interactive.Reach
import ImageBasedInstall.Verify.Boot
import ImageBasedInstall.Verify.PassFootprints
import ImageBasedInstall.Verify.Steps

/-!
# The webhook and the operator

The life of one stored `ImageClusterInstall` under admission: users update it, statuses are written,
and the reconciler patches it from whatever copy it has. Every stored spec is valid, the spec is
frozen while `Status.BareMetalHostRef` is set, and no patch of the reconciler is rejected: each of
them leaves the configured spec of its copy alone, and the webhook looks at nothing else.
-/

namespace ImageBasedInstall

open Interactive Patch

variable {B : Type}

/-! ## What the webhook accepts -/

section Webhook

variable (P : Parsers)

/-- Validity does not depend on `ClusterMetadata`. -/
theorem validate_eq_of_configured {s t : Spec} (h : s.configured = t.configured) :
    validate P s = validate P t := by
  have hs : validate P s = validate P s.configured := rfl
  have ht : validate P t = validate P t.configured := rfl
  rw [hs, ht, h]

theorem validateUpdate_ok_iff (old new : ImageClusterInstall) :
    validateUpdate P old new = .ok () ↔ validate P new.spec = .ok () ∧
      (installationStarted old = true → old.spec.configured = new.spec.configured) := by
  constructor
  · intro h
    refine ⟨?_, validateUpdate_frozen P h⟩
    cases hv : validate P new.spec with
    | error e =>
      simp only [validateUpdate, hv] at h
      cases h
    | ok u => rfl
  · rintro ⟨hv, hfrozen⟩
    simp only [validateUpdate, hv]
    by_cases hstart : installationStarted old = true
    · have hsame := isSpecUpdate_eq_false.2 (hfrozen hstart)
      simp [hsame, bind, Except.bind, pure, Except.pure]
    · simp [hstart, bind, Except.bind, pure, Except.pure]

end Webhook

/-! ## The patches of the reconciler -/

/-- A patch of the main resource that a pass can make keeps the configured spec of its copy. -/
theorem configured_of_makes [DecidableEq B] {E : Env B} {req : NamespacedName}
    {base new : ImageClusterInstall}
    (h : (reconcile E req).Makes (.patchICI req base new)) :
    new.spec.configured = base.spec.configured := by
  have hother : ∀ op : Op B, op.target ≠ .ici → ∀ base new, op = .patchICI req base new →
      new.spec.configured = base.spec.configured := by
    rintro op hop base new rfl
    exact absurd rfl hop
  have huses := reconcile_uses (A := fun op : Op B => ∀ base new, op = .patchICI req base new →
    new.spec.configured = base.spec.configured) req hother ?_ ?_ E
  · exact huses.makes h base new rfl
  · rintro base new _ _ ⟨⟩
  · rintro base new h _ _ ⟨⟩
    exact h

/-! ## Runs -/

variable [DecidableEq B]

/-- What happens to a stored object: an update by a user, a write of its status, or a patch that a
pass makes from some copy. -/
inductive Edit where
  | update (new : ImageClusterInstall)
  | setStatus (status : Status)
  | patch (base new : ImageClusterInstall)

/-- Updates and patches go through the webhook; they do not reach the status. -/
def Edit.Fires (E : Env B) (req : NamespacedName) (ici : ImageClusterInstall) :
    Edit → ImageClusterInstall → Prop
  | .update new, ici' =>
    new.status = ici.status ∧ validateUpdate E.parsers ici new = .ok () ∧ ici' = new
  | .setStatus status, ici' => ici' = { ici with status }
  | .patch base new, ici' => (reconcile E req).Makes (.patchICI req base new) ∧
    validateUpdate E.parsers ici (.merge base new ici) = .ok () ∧ ici' = .merge base new ici

/-- The objects that a run from an accepted creation leads to. -/
abbrev Admitted (E : Env B) (req : NamespacedName) : ImageClusterInstall → Prop :=
  Reaches (Edit.Fires E req) (fun _ _ => True) fun ici => validateCreate E.parsers ici = .ok ()

section Runs

variable {E : Env B} {req : NamespacedName} {ici ici' : ImageClusterInstall} {ev : Edit}

/-- Every step leaves a valid spec. -/
theorem Edit.Fires.valid (h : ev.Fires E req ici ici') (hv : validate E.parsers ici.spec = .ok ()) :
    validate E.parsers ici'.spec = .ok () := by
  cases ev with
  | update new =>
    obtain ⟨-, hadm, rfl⟩ := h
    exact ((validateUpdate_ok_iff E.parsers _ _).1 hadm).1
  | setStatus status =>
    cases h
    exact hv
  | patch base new =>
    obtain ⟨-, hadm, rfl⟩ := h
    exact ((validateUpdate_ok_iff E.parsers _ _).1 hadm).1

/-- No step changes the configured spec of an installation that has started. -/
theorem Edit.Fires.frozen (h : ev.Fires E req ici ici')
    (hstart : ici.status.bareMetalHostRef.isSome = true) :
    ici'.spec.configured = ici.spec.configured := by
  cases ev with
  | update new =>
    obtain ⟨-, hadm, rfl⟩ := h
    exact (validateUpdate_frozen E.parsers hadm hstart).symm
  | setStatus status =>
    cases h
    rfl
  | patch base new =>
    obtain ⟨-, hadm, rfl⟩ := h
    exact (validateUpdate_frozen E.parsers hadm hstart).symm

theorem Admitted.valid (h : Admitted E req ici) : validate E.parsers ici.spec = .ok () :=
  h.invariant (fun _ hv => hv) fun _ _ _ hv _ hs => hs.valid hv

/-- The webhook accepts every patch of a pass to an object with a valid spec, however old the copy
it was made from. -/
theorem validateUpdate_operator {base new : ImageClusterInstall}
    (hmakes : (reconcile E req).Makes (.patchICI req base new))
    (hv : validate E.parsers ici.spec = .ok ()) :
    validateUpdate E.parsers ici (.merge base new ici) = .ok () := by
  have hconf : (ImageClusterInstall.merge base new ici).spec.configured = ici.spec.configured :=
    Spec.merge_configured (configured_of_makes hmakes) _
  rw [validateUpdate_ok_iff]
  refine ⟨?_, fun _ => hconf.symm⟩
  rw [validate_eq_of_configured E.parsers hconf]
  exact hv

/-- Every stored spec is valid; no patch of the reconciler is rejected; and from an object whose
`Status.BareMetalHostRef` is set, as long as it is set, only `ClusterMetadata` changes in the
spec. -/
theorem admitted_spec_frozen (h : Admitted E req ici) :
    validate E.parsers ici.spec = .ok () ∧
    (∀ base new, (reconcile E req).Makes (.patchICI req base new) →
      validateUpdate E.parsers ici (.merge base new ici) = .ok ()) ∧
    ∀ ici', Reaches (Edit.Fires E req) (fun o _ => o.status.bareMetalHostRef.isSome = true)
      (· = ici) ici' → ici'.spec.configured = ici.spec.configured := by
  refine ⟨h.valid, fun base new hmakes => validateUpdate_operator hmakes h.valid,
    fun ici' hrun => ?_⟩
  refine hrun.invariant (I := fun o => o.spec.configured = ici.spec.configured) ?_ ?_
  · rintro _ rfl
    rfl
  · intro o ev o' ho hstart hs
    rw [hs.frozen hstart, ho]

end Runs

/-- The sample object as it was created, before its hostname was corrected. -/
def misnamedICI : ImageClusterInstall :=
  { sampleICI with spec := { sampleICI.spec with hostname := "node" } }

/-- The sample object with the finalizer of the first pass. -/
def registeredICI : ImageClusterInstall :=
  { sampleICI with finalizers := [clusterInstallFinalizerName] }

/-- The sample object with its installation under way and its `ClusterMetadata` missing. -/
def unnamedICI : ImageClusterInstall :=
  { registeredICI with status := { bareMetalHostRef := some sampleHost, bootTime := some 0 } }

/-- It is created, updated by its user, gets its finalizer and its status. -/
theorem unnamedICI_admitted : Admitted Env.symbolic sampleKey unnamedICI := by
  have hcreated : Admitted Env.symbolic sampleKey misnamedICI := .start rfl
  have hupdate : (Edit.update sampleICI).Fires Env.symbolic sampleKey misnamedICI sampleICI :=
    ⟨rfl, rfl, rfl⟩
  have hmakes : (reconcile Env.symbolic sampleKey).Makes
      (.patchICI sampleKey sampleICI registeredICI) := .inr ⟨.ok sampleICI, .inl rfl⟩
  have hpatch : (Edit.patch sampleICI registeredICI).Fires Env.symbolic sampleKey sampleICI
      registeredICI := ⟨hmakes, rfl, rfl⟩
  have hstatus : (Edit.setStatus unnamedICI.status).Fires Env.symbolic sampleKey registeredICI
      unnamedICI := rfl
  exact ((hcreated.next trivial hupdate).next trivial hpatch).next trivial hstatus

/-- A pass over it sets the `ClusterMetadata`. -/
theorem unnamedICI_patched :
    ∃ base new, (reconcile Env.symbolic sampleKey).Makes (.patchICI sampleKey base new) ∧
      (ImageClusterInstall.merge base new unnamedICI).spec.clusterMetadata.isSome = true := by
  have hrun : ((reconcile Env.symbolic sampleKey).trace answer instantly
      (sampleWorld.setICI sampleKey (some unnamedICI))).any fun t =>
        match t.op with
        | .patchICI k base new => decide (k = sampleKey) &&
          (ImageClusterInstall.merge base new unnamedICI).spec.clusterMetadata.isSome
        | _ => false := by decide +kernel
  obtain ⟨t, ht, hpatch⟩ := List.any_eq_true.1 hrun
  have hmakes := makes_of_mem_trace answer ht
  revert hpatch hmakes
  cases t.op with
  | patchICI k base new =>
    intro hpatch hmakes
    simp only [Bool.and_eq_true, decide_eq_true_eq] at hpatch
    obtain ⟨rfl, hmetadata⟩ := hpatch
    exact ⟨base, new, hmakes, hmetadata⟩
  | _ => simp

theorem admitted_spec_frozen_patched :
    ∃ base new ici', (reconcile Env.symbolic sampleKey).Makes (.patchICI sampleKey base new) ∧
      Admitted Env.symbolic sampleKey unnamedICI ∧ Admitted Env.symbolic sampleKey ici' ∧
      ici' = .merge base new unnamedICI ∧ ici'.spec.clusterMetadata.isSome = true ∧
      validate Env.symbolic.parsers ici'.spec = .ok () ∧
      ici'.spec.configured = unnamedICI.spec.configured := by
  obtain ⟨base, new, hmakes, hmetadata⟩ := unnamedICI_patched
  obtain ⟨-, haccepted, hfrozen⟩ := admitted_spec_frozen unnamedICI_admitted
  have hfires : (Edit.patch base new).Fires Env.symbolic sampleKey unnamedICI
      (.merge base new unnamedICI) := ⟨hmakes, haccepted base new hmakes, rfl⟩
  have hadmitted := unnamedICI_admitted.next trivial hfires
  refine ⟨base, new, _, hmakes, unnamedICI_admitted, hadmitted, rfl, hmetadata,
    (admitted_spec_frozen hadmitted).1, hfrozen _ (.next (.start rfl) ?_ hfires)⟩
  rfl

end ImageBasedInstall

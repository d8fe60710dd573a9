import ImageBasedInstall.Installer.Symbolic
import ImageBasedInstall.Verify.Runs

/-!
# A host is booted only when everything is in place

From any world, and whatever each call replies: the call by which a pass makes a host managed or
sets a boot time leaves a world in which the host, its `DataImage`, the image files, the identity
secrets and the object are complete.
-/

namespace ImageBasedInstall

open Interactive

variable {B : Type} [DecidableEq B]

theorem booted_prepared (E : Env B) (req : NamespacedName) (w : World B) (cs : List (Choice B))
    (t : Transition (Op B) Resp (World B) (Choice B))
    (ht : t ∈ (reconcile E req).trace answer cs w) :
    (∀ host, ¬Managed host t.before → Managed host t.after → Prepared E req host t.after) ∧
    (∀ k ici ici', t.before.icis k = some ici → t.after.icis k = some ici' →
      ici'.status.bootTime ≠ ici.status.bootTime →
      k = req ∧ ∃ host, Prepared E req host t.after ∧ Managed host t.after) := by
  have hstep := passStep_of_trace ht
  constructor
  · intro host hbefore hafter
    exact (hstep.hosts host hafter).resolve_left hbefore
  · intro k ici ici' hici hici' hboot
    obtain ⟨stored, hs, -, -, -, hb⟩ := hstep.icis.kept k ici' hici'
    obtain rfl : ici = stored := Option.some.inj (hici.symm.trans hs)
    exact hb.resolve_left hboot

/-! ## A run of the operator -/

section Scenario

instance (host : NamespacedName) (w : World B) : Decidable (Managed host w) :=
  decidable_of_iff
    ((w.bmhs host).any fun bmh => annotationExists bmh.annotations ibioManagedBMH)
    (by simp [Managed, Option.any_eq_true])

/-- Two objects and two hosts; the first object names the first host. -/
def sampleKey : NamespacedName := ⟨"spokes", "sno"⟩
def sampleHost : NamespacedName := ⟨"hosts", "rack1"⟩
def otherKey : NamespacedName := ⟨"spokes", "sno2"⟩
def otherHost : NamespacedName := ⟨"hosts", "rack2"⟩

def sampleICI : ImageClusterInstall where
  uid := "8f2c"
  spec :=
    { clusterDeploymentRef := some "sno", imageSetRef := "4.18", hostname := "sno",
      bareMetalHostRef := some sampleHost }

def otherICI : ImageClusterInstall where
  uid := "77aa"
  spec := { clusterDeploymentRef := some "sno2", imageSetRef := "4.18", hostname := "sno2" }

/-- Hosts that can be booted, cluster deployments, their pull secret and their image set. -/
def sampleWorld : World Doc where
  bmhs k :=
    if k = sampleHost ∨ k = otherHost then
      some { externallyProvisioned := true, provisioningState := .externallyProvisioned }
    else none
  cds k :=
    if k = ⟨"spokes", "sno"⟩ ∨ k = ⟨"spokes", "sno2"⟩ then
      some ⟨"3b1d", "example.com", k.name, some "pull"⟩
    else none
  imageSets name := if name = "4.18" then some "quay.io" else none
  secrets k :=
    if k = ⟨"spokes", "pull"⟩ then some { data := [(dockerConfigJsonKey, .text "pull")] } else none

theorem sampleWorld_initial : Initial sampleWorld := ⟨fun _ => rfl, fun _ => rfl, fun _ => rfl⟩

/-- The world once both objects are created. -/
def sampleStart : World Doc :=
  (sampleWorld.setICI sampleKey (some sampleICI)).setICI otherKey (some otherICI)

/-- A pass in which every call succeeds, in no time or in a second each. -/
def instantly : List (Choice Doc) := List.replicate 200 {}
def slowly : List (Choice Doc) := List.replicate 200 { elapsed := 1 }

def samplePass (key : NamespacedName) (cs : List (Choice Doc)) (w : World Doc) : World Doc :=
  ((reconcile Env.symbolic key).exec answer cs w).1

/-- The installation under way: two passes have booted the host, it is on, and the operator has been
restarted with an empty work directory. -/
def startedWorld : World Doc :=
  let w := samplePass sampleKey slowly (samplePass sampleKey slowly sampleStart)
  { w with
    fs := fun _ => none
    bmhs := fun k => (w.bmhs k).map fun bmh => { bmh with poweredOn := true } }

def Spec.moveTo (host : NamespacedName) (s : Spec) : Spec :=
  { s with bareMetalHostRef := some host }

theorem sampleStart_reached {C : World Doc → Event Doc → Prop}
    (h₁ : C sampleWorld (.create sampleKey sampleICI))
    (h₂ : C (sampleWorld.setICI sampleKey (some sampleICI)) (.create otherKey otherICI)) :
    Reached Env.symbolic C sampleStart := by
  have h₀ : Reached Env.symbolic C sampleWorld := .start sampleWorld_initial
  have hfresh₁ : Fresh Env.symbolic sampleKey sampleICI sampleWorld :=
    sampleWorld_initial.fresh (by decide) rfl rfl
  have hfresh₂ : Fresh Env.symbolic otherKey otherICI
      (sampleWorld.setICI sampleKey (some sampleICI)) := by
    refine ⟨rfl, by decide, fun k other h => ?_, fun _ _ h => (nomatch h), fun _ _ => rfl, rfl, rfl⟩
    by_cases heq : k = sampleKey
    · obtain rfl : sampleICI = other := by simpa [World.setICI, heq] using h
      decide
    · simp [World.setICI, heq, sampleWorld] at h
  exact .next (.next h₀ h₁ ⟨hfresh₁, rfl, rfl⟩) h₂ ⟨hfresh₂, rfl, rfl⟩

omit [DecidableEq B] in
theorem storedIn_create {ks : List NamespacedName} {w : World B} (h : StoredIn ks w)
    {key : NamespacedName} (hkey : key ∈ ks) (ici : ImageClusterInstall) :
    StoredIn ks (w.setICI key (some ici)) := by
  intro k ici' hk
  by_cases heq : k = key
  · exact heq ▸ hkey
  · exact h k ici' (by simpa [World.setICI, heq] using hk)

theorem sampleFirst_storedIn :
    StoredIn [sampleKey, otherKey] (sampleWorld.setICI sampleKey (some sampleICI)) :=
  storedIn_create (w := sampleWorld) (fun _ _ h => nomatch h) (by simp) _

theorem sampleStart_storedIn : StoredIn [sampleKey, otherKey] sampleStart :=
  storedIn_create sampleFirst_storedIn (by simp) _

theorem booted_prepared_sample :
    let w := samplePass sampleKey slowly sampleStart
    ∃ t ∈ (reconcile Env.symbolic sampleKey).trace answer slowly w,
      ¬Managed sampleHost t.before ∧ Managed sampleHost t.after ∧
      Prepared Env.symbolic sampleKey sampleHost t.after := by
  intro w
  have hboots : ∃ t ∈ (reconcile Env.symbolic sampleKey).trace answer slowly w,
      ¬Managed sampleHost t.before ∧ Managed sampleHost t.after := by decide +kernel
  obtain ⟨t, ht, hbefore, hafter⟩ := hboots
  exact ⟨t, ht, hbefore, hafter,
    (booted_prepared Env.symbolic sampleKey w slowly t ht).1 sampleHost hbefore hafter⟩

end Scenario

end ImageBasedInstall

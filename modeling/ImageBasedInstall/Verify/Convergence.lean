import ImageBasedInstall.Interactive.Loop
import ImageBasedInstall.Verify.SmoothPass

/-!
# The reconciler converges

The work queue runs a pass and runs it again after the time the pass asks for. Started from a
healthy object, and as long as no call fails, at most three such turns start the installation,
whatever the spoke cluster reports, how long calls take and which IDs are drawn; and it stays
started. From then on passes come to rest: after one more they change nothing, so that they do not
wake each other.
-/

namespace ImageBasedInstall

open Interactive

variable {B : Type} [DecidableEq B]

/-- Some time later. -/
def World.later (w : World B) (t : Time) : World B := { w with clock := w.clock + t }

omit [DecidableEq B] in
@[simp] theorem World.later_zero (w : World B) : w.later 0 = w := by simp [World.later]

/-- A pass, and the wait it asks for. -/
def turn (E : Env B) (key : NamespacedName) (cs : Nat → Choice B) (w : World B) :
    Report × World B :=
  let (rep, w') := (reconcile E key).complete answer cs w
  (rep, w'.later rep.result.requeueAfter)

/-- No call of the pass fails. -/
def Smoothly (cs : Nat → Choice B) : Prop := ∀ i, (cs i).Smooth

/-- The pass asks to be repeated. -/
def Report.Again (rep : Report) : Prop := rep.result.isZero = false

/-- The pass does not fail. -/
def Report.Fine (rep : Report) : Prop := rep.err = none

section Turns

variable {E : Env B} {key host : NamespacedName} {cdName : String} {ici : ImageClusterInstall}
  {cd : ClusterDeployment} {bmh : BareMetalHost} {image : Option DataImage} {w : World B}
  {cs : Nat → Choice B} {css : Nat → Nat → Choice B}

theorem turn_spec (hcs : Smoothly cs) {Q : Report → World B → Prop}
    (h : Meets (Alone smooth) (reconcile E key) Q w) :
    ∃ rep w', Q rep w' ∧ turn E key cs w = (rep, w'.later rep.result.requeueAfter) :=
  ⟨_, _, Meets.complete h fun i w op => smooth_of_choice (hcs i) w op, rfl⟩

/-- A turn over an installation that is under way. -/
theorem Started.turn (hcs : Smoothly cs) (h : Started E key host w) :
    (turn E key cs w).1 = {} ∧ Started E key host (turn E key cs w).2 ∧
      Relabelled w (turn E key cs w).2 ∧ AllLabelled key (turn E key cs w).2 ∧
      (AllLabelled key w → (turn E key cs w).2 = w) := by
  obtain ⟨rep, w', ⟨rfl, hrest⟩, heq⟩ := turn_spec hcs (reconcile_settled h)
  rw [World.later_zero] at heq
  rw [heq]
  exact ⟨rfl, hrest⟩

/-- The installation has started, and the host was booted from the object's own image. -/
def StartedOwn (E : Env B) (key host : NamespacedName) (w : World B) : Prop :=
  Started E key host w ∧ HasOwnImage E key host w

theorem StartedOwn.turn (hcs : Smoothly cs) (h : StartedOwn E key host w) :
    (turn E key cs w).1 = {} ∧ StartedOwn E key host (turn E key cs w).2 := by
  obtain ⟨hreport, hstarted, hrelabelled, -⟩ := h.1.turn hcs
  exact ⟨hreport, hstarted, h.2.of_framed hrelabelled.framed (by decide) (by decide)⟩

theorem StartedOwn.settles (h : StartedOwn E key host w) (hcss : ∀ n, Smoothly (css n)) :
    Settles (ImageBasedInstall.turn E key) (StartedOwn E key host) Report.Again
      Report.Fine css 0 w :=
  .now (fun _ _ hcs h => ⟨congrArg Report.err (h.turn hcs).1, (h.turn hcs).2⟩) hcss h

section Healthy

variable (hcss : ∀ n, Smoothly (css n)) (hE : E.Lawful) (hurl : E.baseURLParses = true)
  (hcd : cdName ≠ "") (hhost : host.name ≠ "")
include hcss hE hurl hcd hhost

/-- With the finalizer in place and the image cooled down, one turn boots the host. -/
theorem Site.boots {d : DataImage} (h : Site E key host cdName ici cd bmh (some d) w)
    (hfinalizer : clusterInstallFinalizerName ∈ ici.finalizers)
    (hcool : d.creationTimestamp + E.dataImageCoolDownPeriod ≤ w.clock) :
    Settles (turn E key) (StartedOwn E key host) Report.Again Report.Fine css 1 w := by
  obtain ⟨rep, w', ⟨herr, hadvance⟩, heq⟩ :=
    turn_spec (hcss 0) (reconcile_advances hE h hurl hcd hhost)
  cases hadvance with
  | registers hnew => exact absurd hfinalizer hnew
  | waits hold hresult hperiod himage hcooling =>
    rw [← himage d rfl] at hcooling
    exact absurd hcooling (Int.not_lt.2 hcool)
  | boots hresult hstarted hown =>
    rw [hresult, World.later_zero] at heq
    exact .next heq herr (.inr rfl) (StartedOwn.settles ⟨hstarted, hown⟩ fun n => hcss (n + 1))

end Healthy

end Turns

section Scenario

def sampleCD : ClusterDeployment := ⟨"3b1d", "example.com", "sno", some "pull"⟩

def sampleBMH : BareMetalHost :=
  { externallyProvisioned := true, provisioningState := .externallyProvisioned }

/-- The build of the first object of the sample. -/
def startInput (m : ClusterMetadata) : BuildInput :=
  ⟨"spokes", { sampleICI.spec with clusterMetadata := some m }, ⟨"spokes", "sno"⟩,
    sampleCD, sampleHost, sampleBMH⟩

theorem startInput_buildable {m : ClusterMetadata} (hID : m.clusterID ≠ "")
    (hinfra : m.infraID ≠ "") :
    ∃ ic ibc, Buildable Env.symbolic (startInput m) ic ibc sampleStart := by
  have hidentity : sampleStart.identity Env.symbolic ⟨"spokes", "sno"⟩ = none := by decide +kernel
  have hconfig : ∀ registry nmstate, Installer.imageBasedConfig (startInput m).spec
      registry nmstate = .ok ⟨"sno", registry, [], nmstate, m.clusterID, m.infraID⟩ := by
    intro registry nmstate
    simp [Installer.imageBasedConfig, startInput, hID, hinfra, sampleICI, Slice.items]
  refine ⟨_, ⟨"sno", "quay.io", [], "", m.clusterID, m.infraID⟩,
    ⟨?_, ?_, ?_, ?_, ⟨rfl, ?_⟩, ?_, rfl, rfl, ?_⟩⟩
  · simp [startInput, sampleCD]
  · rintro psData ⟨⟩
    decide
  · exact fun hnet => absurd rfl hnet
  · rintro name ⟨⟩
  · have hnmstate : ((startInput m).sources Env.symbolic sampleStart).nmstate = some "" := rfl
    have himage : ((startInput m).sources Env.symbolic sampleStart).releaseImage =
        some "quay.io" := rfl
    have hregistry : Env.symbolic.imageRegistry "quay.io" = .ok "quay.io" := rfl
    simp only [Sources.imageBasedConfig, hnmstate, himage, Option.bind_eq_bind, Option.bind_some,
      hregistry, hconfig, Except.toOption]
    rfl
  · exact fun _ _ _ _ _ => rfl
  · intro idData hid
    cases hidentity.symm.trans hid

end Scenario

section Rest

variable {E : Env B} {key host : NamespacedName} {w : World B}

/-- Turns over an installation whose objects are all labelled. -/
theorem Started.rests {css : Nat → Nat → Choice B} (hcss : ∀ n, Smoothly (css n))
    (h : Started E key host w) (hlabelled : AllLabelled key w) (n : Nat) :
    loop (ImageBasedInstall.turn E key) css n w = w := by
  induction n generalizing css with
  | zero => rfl
  | succ n ih =>
    obtain ⟨-, -, -, -, hidle⟩ := h.turn (hcss 0)
    rw [loop, hidle hlabelled]
    exact ih fun n => hcss (n + 1)

end Rest

/-- Once the installation has started, the reconciler comes to rest. As long as no call fails, the
first turn changes nothing but labels for backup, and no turn after it changes anything, so that
none causes another; none of them fails or asks to be repeated. -/
theorem reconciler_comes_to_rest (E : Env B) (key host : NamespacedName) (w : World B)
    (h : Started E key host w) (css : Nat → Nat → Choice B) (hcss : ∀ n, Smoothly (css n))
    (n : Nat) :
    Relabelled w (loop (turn E key) css 1 w) ∧
      loop (turn E key) css (n + 1) w = loop (turn E key) css 1 w ∧
      loopReport (turn E key) css n w = {} := by
  obtain ⟨hreport, hstarted, hrelabelled, hlabelled, -⟩ := h.turn (hcss 0)
  have hrests := fun n => hstarted.rests (fun i => hcss (i + 1)) hlabelled n
  refine ⟨hrelabelled, hrests n, ?_⟩
  cases n with
  | zero => exact hreport
  | succ n =>
    unfold loopReport
    rw [loop, hrests n]
    exact (hstarted.turn (hcss (n + 1))).1

section Scenario

/-- The sample installation after two passes have booted the host. -/
def underwayWorld : World Doc :=
  samplePass sampleKey slowly (samplePass sampleKey slowly sampleStart)

theorem underwayWorld_started : Started Env.symbolic sampleKey sampleHost underwayWorld := by
  have hobject : (underwayWorld.icis sampleKey).any fun ici =>
      decide (ici.deletionTimestamp = none) && !installationCompleted ici &&
      ici.status.bootTime.isSome && decide (ici.status.bareMetalHostRef = some sampleHost) &&
      decide (clusterInstallFinalizerName ∈ ici.finalizers) &&
      ((findCondition ici.status.conditions .requirementsMet).any fun cond =>
        decide (cond.status = .true)) &&
      (underwayWorld.fs ((getClusterConfigDir "spokes" ici.uid).join isoPath)).isSome &&
      [kubeadminPasswordPath, kubeconfigPath, manifestPath].all fun file =>
        (underwayWorld.content ((getClusterConfigDir "spokes" ici.uid).join file)).isSome := by
    decide +kernel
  have hhost : (underwayWorld.bmhs sampleHost).any fun bmh =>
      annotationExists bmh.annotations ibioManagedBMH := by decide +kernel
  have himage : (underwayWorld.dataImages sampleHost).any fun d =>
      decide (d.deletionTimestamp = none) &&
      decide (d.creationTimestamp + Env.symbolic.dataImageCoolDownPeriod ≤
        underwayWorld.clock) := by
    decide +kernel
  simp only [Option.any_eq_true, Bool.and_eq_true, Bool.not_eq_true', decide_eq_true_eq,
    List.all_eq_true] at hobject hhost himage
  obtain ⟨ici, hstored, ⟨⟨⟨⟨⟨⟨hundeleted, hrunning⟩, hboot⟩, hhostRef⟩, hfinalizer⟩,
    cond, hcond, hmet⟩, hiso⟩, hfiles⟩ := hobject
  exact ⟨ici, cond, ⟨hstored, hundeleted, hrunning, hboot, hhostRef, hhost, himage, hiso, hfiles⟩,
    hfinalizer, hcond, hmet⟩

theorem reconciler_comes_to_rest_sample :
    Started Env.symbolic sampleKey sampleHost underwayWorld ∧
      Relabelled underwayWorld (loop (turn Env.symbolic sampleKey) (fun _ _ => {}) 1
        underwayWorld) ∧
      loop (turn Env.symbolic sampleKey) (fun _ _ => {}) 7 underwayWorld =
        loop (turn Env.symbolic sampleKey) (fun _ _ => {}) 1 underwayWorld := by
  obtain ⟨hrelabelled, hrests, -⟩ := reconciler_comes_to_rest Env.symbolic sampleKey sampleHost
    underwayWorld underwayWorld_started (fun _ _ => {}) (fun _ _ => ⟨rfl, rfl⟩) 6
  exact ⟨underwayWorld_started, hrelabelled, hrests⟩

end Scenario

end ImageBasedInstall

import ImageBasedInstall.Verify.Continuable
import ImageBasedInstall.Verify.Convergence

/-!
# Failed builds never get an object stuck

The builds of an object share its work directory and the identity secrets of its cluster, and each
goes on from what the ones before it left. `Attempts` are any builds of the object, from whatever
spec, host and sources there were at the time, that ended anywhere. Afterwards a build whose own
sources are in order needs nothing but calls that do not fail.
-/

namespace ImageBasedInstall

open Interactive Installer

variable {B : Type}

/-- Between two builds outputs and identity secrets may get lost, but nobody else writes them. About
the rest of the world nothing is said. -/
structure Meanwhile (cdKey : NamespacedName) (dir : Path) (w w' : World B) : Prop where
  secrets : ∀ kind ∈ identitySecrets,
    w'.secrets (kind.key cdKey) = w.secrets (kind.key cdKey) ∨ w'.secrets (kind.key cdKey) = none
  outputs : ∀ file ∈ buildOutputs,
    w'.fs (dir.join file) = w.fs (dir.join file) ∨ w'.fs (dir.join file) = none

/-- A build of the same object, for a cluster of the same names. -/
structure BuildInput.SameObject (inp inp' : BuildInput) : Prop where
  ns : inp'.ns = inp.ns
  cdKey : inp'.cdKey = inp.cdKey
  names : inp'.cd.names = inp.cd.names

/-- The sources of the build are in order: they are those of some world in which it would go
through. What is stored of earlier builds does not matter. -/
def WellSourced (E : Env B) (inp : BuildInput) (w : World B) : Prop :=
  ∃ ic ibc w₀, Buildable E inp ic ibc w₀ ∧ SameSources E inp inp w₀ w

section Worlds

variable {E : Env B} {cd cd' : ClusterDeployment} {cdKey : NamespacedName} {dir : Path}
  {w w' : World B} {inp : BuildInput} {op : Op B} {r : Resp op}

/-- Before the first build of an object. -/
theorem Continuable.fresh (hsecrets : ∀ kind ∈ identitySecrets, w.secrets (kind.key cdKey) = none)
    (houtputs : ∀ file ∈ buildOutputs, w.fs (dir.join file) = none) :
    Continuable E cd cdKey dir w where
  secrets := by
    constructor
    · intro kind hkind s hs
      cases (hsecrets kind hkind).symm.trans hs
    · intro kind file hkf b hb
      simp [World.payload, hsecrets kind (mem_credentialFiles hkf).1] at hb
  plain := by
    intro kind file hkf e he
    cases (houtputs file (mem_credentialFiles hkf).2.1).symm.trans he
  directory := .inl ⟨isoPath, by simp [buildOutputs], houtputs isoPath (by simp [buildOutputs])⟩

theorem Usable.of_names {file : List String} {b : B} (h : Usable E cd file b)
    (hnames : cd'.names = cd.names) : Usable E cd' file b := by
  constructor
  · exact h.kubeconfig
  · intro hfile
    rw [hnames]
    exact h.manifest hfile

theorem Continuable.of_names (h : Continuable E cd cdKey dir w) (hnames : cd'.names = cd.names) :
    Continuable E cd' cdKey dir w where
  secrets := ⟨h.secrets.shown, fun kind file hkf b hb =>
    (h.secrets.payloads kind file hkf b hb).of_names hnames⟩
  plain := h.plain
  directory := h.directory.imp_right fun hfiles kind file hkf b hb =>
    (hfiles kind file hkf b hb).of_names hnames

theorem UsableSecrets.meanwhile (h : UsableSecrets E cd cdKey w) (hw : Meanwhile cdKey dir w w') :
    UsableSecrets E cd cdKey w' := by
  constructor
  · intro kind hkind s hs
    rcases hw.secrets kind hkind with hk | hk
    · exact h.shown kind hkind s (hk ▸ hs)
    · rw [hk] at hs
      cases hs
  · intro kind file hkf b hb
    rcases hw.secrets kind (mem_credentialFiles hkf).1 with hk | hk
    · rw [payload_of_eq hk] at hb
      exact h.payloads kind file hkf b hb
    · simp [World.payload, hk] at hb

theorem Continuable.meanwhile (h : Continuable E cd cdKey dir w) (hw : Meanwhile cdKey dir w w') :
    Continuable E cd cdKey dir w' where
  secrets := h.secrets.meanwhile hw
  plain := h.plain.of_outputs hw.outputs
  directory := h.directory.imp (·.of_outputs hw.outputs) (·.of_outputs hw.outputs)

/-- What is stored can be installed again. -/
theorem UsableSecrets.reinstall (h : UsableSecrets E inp.cd inp.cdKey w) {w₀ : World B}
    {ic : InstallConfig} {ibc : ImageBasedConfig}
    (hconfigs : Configs E inp (inp.sources E w₀) ic ibc) (idData : IdentityData B)
    (hid : w.identity E inp.cdKey = some idData) :
    E.validKubeconfig idData.kubeconfig = true ∧
      ∃ secret, ∀ draw, Compatible E idData (generateClusterConfiguration E ic ibc draw)
        secret := by
  obtain ⟨hkubeconfig, -, hseed⟩ := identity_eq_some.1 hid
  have hvalid := h.payloads kubeconfigSecret kubeconfigPath
    (by simp [credentialFiles]) _ hkubeconfig
  have husable := h.payloads seedReconfigurationSecret manifestPath
    (by simp [credentialFiles]) _ hseed
  obtain ⟨secret, hsecret, hnames⟩ := husable.manifest rfl
  refine ⟨hvalid.kubeconfig rfl, secret, fun draw => ?_⟩
  obtain ⟨hdomain, hname⟩ := Prod.mk.inj ((hconfigs.names draw).trans hnames.symm)
  exact ⟨hsecret, hdomain, hname⟩

/-- The image can be built, or is finished already. -/
theorem Continuable.obtainable (h : Continuable E inp.cd inp.cdKey dir w)
    (hsources : WellSourced E inp w) :
    Obtainable E inp dir w := by
  by_cases hmissing : Missing dir w
  · obtain ⟨ic, ibc, w₀, hbuildable, hsame⟩ := hsources
    exact .inr ⟨hmissing, ic, ibc,
      hbuildable.of_sources hsame (h.secrets.reinstall hbuildable.configs)⟩
  · exact .inl (h.plain.finished hmissing)

/-- A call that does not fail leaves no output half written. -/
theorem intact_of_smooth (h : smooth w op r w') : Intact dir w op r w' := by
  obtain ⟨c, hc, heq⟩ := h
  constructor
  · rintro rfl p hp
    obtain ⟨-, rfl⟩ := Prod.mk.inj ((hc.removal ..).symm.trans heq)
    simp [World.prune, hp]
  · intro file _ e hop
    refine .inr (.inl ?_)
    cases op with
    | writeFile path content =>
      obtain ⟨rfl, rfl⟩ := Prod.mk.inj (Option.some.inj hop)
      simp only [answer, hc.ending] at heq
      obtain ⟨-, rfl⟩ := Prod.mk.inj ((hc.write ..).symm.trans heq)
      exact Function.update_self ..
    | writeIso path image builtFrom =>
      obtain ⟨rfl, rfl⟩ := Prod.mk.inj (Option.some.inj hop)
      simp only [answer, hc.ending] at heq
      obtain ⟨-, rfl⟩ := Prod.mk.inj ((hc.write ..).symm.trans heq)
      exact Function.update_self ..
    | _ => cases hop

end Worlds

section Attempts

variable [DecidableEq B] {E : Env B} {inp : BuildInput} {uid : String} {w w' : World B}

/-- The world after any number of builds of an object. Each of them ended anywhere: with success,
with an error or with the process, after its choices. -/
inductive Attempts (E : Env B) (inp : BuildInput) (uid : String) (w : World B) : World B →
    Prop where
  | start : Attempts E inp uid w w
  | meanwhile {w₁ w₂ : World B} (h : Attempts E inp uid w w₁)
      (hw : Meanwhile inp.cdKey (getClusterConfigDir inp.ns uid) w₁ w₂) : Attempts E inp uid w w₂
  | build {w₁ : World B} (h : Attempts E inp uid w w₁) (inp' : BuildInput)
      (hsame : inp.SameObject inp') (cs : List (Choice B))
      (hintact : TraceOk answer (Intact (getClusterConfigDir inp.ns uid))
        (writeInputData E inp' uid).run cs w₁) :
      Attempts E inp uid w ((writeInputData E inp' uid).run.exec answer cs w₁).1

/-- A build that had no failure yet may end at any time. -/
theorem Attempts.smoothly (h : Attempts E inp uid w w') (cs : List (Choice B))
    (hcs : ∀ c ∈ cs, c.Smooth) :
    Attempts E inp uid w ((writeInputData E inp uid).run.exec answer cs w').1 := by
  refine h.build inp ⟨rfl, rfl, rfl⟩ cs fun t ht => ?_
  exact intact_of_smooth ⟨t.choice, hcs _ (trace_choice answer ht), trace_answer answer ht⟩

/-- It may also come to its end. -/
theorem Attempts.complete (h : Attempts E inp uid w w') {cs : Nat → Choice B} (hcs : Smoothly cs) :
    Attempts E inp uid w ((writeInputData E inp uid).run.complete answer cs w').2 := by
  obtain ⟨n, hn⟩ : ∃ n, (writeInputData E inp uid).run.exec answer (firstChoices cs n) w' =
      (((writeInputData E inp uid).run.complete answer cs w').2,
        some ((writeInputData E inp uid).run.complete answer cs w').1) := exec_complete cs
  have hbuilt := h.smoothly (firstChoices cs n) fun c hc => by
    obtain ⟨i, -, rfl⟩ := List.mem_map.1 hc
    exact hcs i
  rwa [hn] at hbuilt

/-- One build, wherever it ends. -/
theorem Continuable.build (hE : E.Lawful)
    (haccepts : ∀ ic draw, E.validKubeconfig (E.generateKubeconfig ic draw) = true)
    (h : Continuable E inp.cd inp.cdKey (getClusterConfigDir inp.ns uid) w) (cs : List (Choice B))
    (hintact : TraceOk answer (Intact (getClusterConfigDir inp.ns uid))
      (writeInputData E inp uid).run cs w) :
    Continuable E inp.cd inp.cdKey (getClusterConfigDir inp.ns uid)
      ((writeInputData E inp uid).run.exec answer cs w).1 := by
  have hbuild : Meets (Running (Intact (getClusterConfigDir inp.ns uid)) fun _ _ _ w' =>
      Continuable E inp.cd inp.cdKey (getClusterConfigDir inp.ns uid) w')
      (writeInputData E inp uid).run (fun _ _ => True) w :=
    Meets.assume (writeInputData_continues hE haccepts) (fun _ _ _ _ _ hnext => hnext) h
  exact hbuild.last cs hintact (fun _ _ _ _ _ hnext => hnext) h

theorem Attempts.continuable (hE : E.Lawful)
    (haccepts : ∀ ic draw, E.validKubeconfig (E.generateKubeconfig ic draw) = true)
    (hstart : Continuable E inp.cd inp.cdKey (getClusterConfigDir inp.ns uid) w)
    (h : Attempts E inp uid w w') :
    Continuable E inp.cd inp.cdKey (getClusterConfigDir inp.ns uid) w' := by
  induction h with
  | start => exact hstart
  | meanwhile _ hw ih => exact ih.meanwhile hw
  | @build w₁ _ inp' hsame cs hintact ih =>
    have hother : Continuable E inp'.cd inp'.cdKey (getClusterConfigDir inp'.ns uid) w₁ := by
      rw [hsame.cdKey, hsame.ns]
      exact ih.of_names hsame.names
    rw [← hsame.ns] at hintact
    have hbuilt := hother.build hE haccepts cs hintact
    rw [hsame.cdKey, hsame.ns] at hbuilt
    exact hbuilt.of_names hsame.names.symm

/-- Whatever builds of an object were tried before and wherever each of them ended, a build whose
sources are in order and none of whose calls fails returns without an error and without asking to be
repeated, and leaves the image with its credentials stored. It counts among the builds before later
ones, so the same holds of those. -/
theorem build_recovers (E : Env B) (hE : E.Lawful)
    (haccepts : ∀ ic draw, E.validKubeconfig (E.generateKubeconfig ic draw) = true)
    (inp : BuildInput) (uid : String) (w w' : World B)
    (hstart : Continuable E inp.cd inp.cdKey (getClusterConfigDir inp.ns uid) w)
    (hattempts : Attempts E inp uid w w') (hsources : WellSourced E inp w')
    (cs : Nat → Choice B) (hcs : Smoothly cs) :
    ((writeInputData E inp uid).run.complete answer cs w').1 = .ok {} ∧
      ImageReady inp.cdKey (getClusterConfigDir inp.ns uid)
        ((writeInputData E inp uid).run.complete answer cs w').2 ∧
      Attempts E inp uid w ((writeInputData E inp uid).run.complete answer cs w').2 := by
  have hafter := hattempts.complete hcs
  have hcontinuable := hattempts.continuable hE haccepts hstart
  have hworks := writeInputData_obtains hE (hcontinuable.obtainable hsources)
    hcontinuable.secrets.shown
  have hrun := Meets.complete hworks fun i w op => smooth_of_choice (hcs i) w op
  generalize (writeInputData E inp uid).run.complete answer cs w' = run at hrun hafter ⊢
  obtain ⟨result, w''⟩ := run
  cases result with
  | error e => exact hrun.elim
  | ok res =>
    obtain ⟨rfl, hready, -, -⟩ := hrun
    exact ⟨rfl, hready, hafter⟩

end Attempts

section Scenario

def sampleMetadata : ClusterMetadata := ⟨"uuid", "sno-xxxxx", "sno-admin-kubeconfig", none⟩

/-- A build of the sample was killed after twenty calls, and its files are still there. -/
def killedWorld : World Doc :=
  { sampleStart with
    fs := ((writeInputData Env.symbolic (startInput sampleMetadata) "8c1f").run.exec answer
      (List.replicate 20 {}) sampleStart).1.fs }

/-- Nothing is stored of the cluster yet. -/
theorem sampleStart_secrets (kind : IdentitySecret) (h : kind ∈ identitySecrets) :
    sampleStart.secrets (kind.key ⟨"spokes", "sno"⟩) = none := by
  simp only [identitySecrets, List.mem_cons, List.not_mem_nil, or_false] at h
  rcases h with rfl | rfl | rfl
  all_goals decide +kernel

theorem build_recovers_sample :
    Attempts Env.symbolic (startInput sampleMetadata) "8c1f" sampleStart killedWorld ∧
      ((writeInputData Env.symbolic (startInput sampleMetadata) "8c1f").run.complete answer
        (fun _ => {}) killedWorld).1 = .ok {} := by
  have hsmooth : ({} : Choice Doc).Smooth := ⟨rfl, rfl⟩
  have hattempts : Attempts Env.symbolic (startInput sampleMetadata) "8c1f" sampleStart
      killedWorld := by
    refine (Attempts.start.smoothly (List.replicate 20 {}) fun c hc => ?_).meanwhile
      ⟨fun kind hkind => .inr (sampleStart_secrets kind hkind), fun _ _ => .inl rfl⟩
    rw [List.eq_of_mem_replicate hc]
    exact hsmooth
  obtain ⟨ic, ibc, hbuildable⟩ := startInput_buildable (m := sampleMetadata) (by decide) (by decide)
  have hsources : WellSourced Env.symbolic (startInput sampleMetadata) killedWorld :=
    ⟨ic, ibc, sampleStart, hbuildable, rfl, rfl, rfl, rfl, rfl, rfl, fun _ => rfl⟩
  exact ⟨hattempts, (build_recovers Env.symbolic Env.symbolic_lawful (fun _ _ => rfl)
    _ _ sampleStart killedWorld (.fresh sampleStart_secrets fun _ _ => rfl) hattempts
    hsources (fun _ => {}) fun _ => hsmooth).1⟩

end Scenario

end ImageBasedInstall

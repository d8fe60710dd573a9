import ImageBasedInstall.Verify.Cleanup
import ImageBasedInstall.Verify.Copies

/-!
# The calls of a monitor pass

The inventory of `Calls` for the monitor: `MonitorCall E req saw w₀ w op` lists the calls that a
pass over `req` which started in `w₀` and runs alone can make in `w`, with what the pass knows
there. What it was told about the spoke cluster and the clock is not part of the world; `saw` stands
for the replies it got.
-/

namespace ImageBasedInstall

open Interactive

variable {B : Type}

/-! ## What a pass knows -/

section Knows

variable (saw : (op : Op B) → Resp op → Prop) (host : NamespacedName) (w : World B)

/-- The pass read the status of the spoke cluster, installed or not. -/
def SawSpoke (installed : Bool) : Prop :=
  ∃ kubeconfig status, saw (.spokeStatus kubeconfig) (.ok status) ∧ status.installed = installed

def HostOff : Prop := ∃ bmh, w.bmhs host = some bmh ∧ bmh.poweredOn = false

/-- The host's `DataImage` is being deleted. -/
def ImageMarked : Prop := ∃ d, w.dataImages host = some d ∧ d.deletionTimestamp.isSome = true

/-- The pass compared the clock with the timeout: it has passed, or not. -/
def Timed (E : Env B) (ici : ImageClusterInstall) (expired : Bool) : Prop :=
  installationTimedout ici = false ∧
    ∃ timeout t, installTimeout E ici = .ok timeout ∧ saw .now t ∧ isExpired ici timeout t = expired

end Knows

/-- The installation the pass watches: its object is stored as it was read. -/
structure Watched (req host : NamespacedName) (w₀ w : World B) (ici : ImageClusterInstall) :
    Prop where
  read : w₀.icis req = some ici
  stored : w.icis req = some ici
  booted : ici.status.bootTime.isSome = true
  running : installationCompleted ici = false
  ref : ici.status.bareMetalHostRef = some host

theorem Watched.framed {req host : NamespacedName} {w₀ w w' : World B} {ici : ImageClusterInstall}
    {S : List Target} (h : Watched req host w₀ w ici) (hf : Framed S w w')
    (hS : .ici ∉ S := by decide) : Watched req host w₀ w' ici :=
  { h with stored := by rw [hf.icis hS, h.stored] }

/-- Why the pass reports which conditions. -/
inductive Reports (E : Env B) (saw : (op : Op B) → Resp op → Prop) (host : NamespacedName)
    (w₀ : World B) (ici : ImageClusterInstall) : List Condition → Prop where
  | waiting (message : String) (h : ImageMarked host w₀ ∨ SawSpoke saw true) :
    Reports E saw host w₀ ici (installingConditions message)
  | progress (message : String) (h : HostOff host w₀ ∨ SawSpoke saw false)
    (htime : Timed saw E ici false) : Reports E saw host w₀ ici (installingConditions message)
  | timeout (text : String) (h : HostOff host w₀ ∨ SawSpoke saw false)
    (htime : Timed saw E ici true) : Reports E saw host w₀ ici (timeoutConditions text)
  | installed (h : SawSpoke saw true) : Reports E saw host w₀ ici installedConditions

theorem Reports.monitorReport {E : Env B} {saw : (op : Op B) → Resp op → Prop}
    {host : NamespacedName} {w₀ : World B} {ici : ImageClusterInstall} {conds : List Condition}
    (h : Reports E saw host w₀ ici conds) : MonitorReport conds := by
  cases h with
  | waiting message => exact .installing message
  | progress message => exact .installing message
  | timeout text => exact .timeout text
  | installed => exact .installed

/-! ## The calls -/

inductive MonitorCall (E : Env B) (req : NamespacedName) (saw : (op : Op B) → Resp op → Prop)
    (w₀ w : World B) : Op B → Prop where
  | read {op : Op B} (h : op.target = .nothing) : MonitorCall E req saw w₀ w op
  | report {host : NamespacedName} {ici : ImageClusterInstall} {conds conds' : List Condition}
    (h : Watched req host w₀ w ici) (hwhy : Reports E saw host w₀ ici conds)
    (hsets : Sets conds ici.status.conditions conds') :
    MonitorCall E req saw w₀ w (.patchICIStatus req ici (ici.withConditions conds'))
  | deleteImage {host : NamespacedName} {ici : ImageClusterInstall} {d : DataImage}
    (h : Watched req host w₀ w ici) (hspoke : SawSpoke saw true)
    (hw : w.dataImages = w₀.dataImages) (hd : w.dataImages host = some d)
    (hkept : ¬ImageMarked host w₀) : MonitorCall E req saw w₀ w (.deleteDataImage host)
  | reboot {host : NamespacedName} {ici : ImageClusterInstall} {bmh : BareMetalHost}
    {d : DataImage} (h : Watched req host w₀ w ici) (hspoke : SawSpoke saw true)
    (hd : w₀.dataImages host = some d) (hkept : ¬ImageMarked host w₀) (hgone : ImageGone host w)
    (hb : w.bmhs host = some bmh) (hno : bmh.annotations rebootAnnotation = none) :
    MonitorCall E req saw w₀ w (.patchBMH host bmh { bmh with
      annotations := Function.update bmh.annotations rebootAnnotation
        (some rebootAnnotationValue) })

/-- Every call of a monitor pass over `req` from `w₀` meets the guarantee. -/
structure MonitorGuarded (E : Env B) (req : NamespacedName) (saw : (op : Op B) → Resp op → Prop)
    (w₀ : World B) (ok guar : World B → (op : Op B) → Resp op → World B → Prop) : Prop where
  seen : ∀ {w op r w'}, ok w op r w' → saw op r
  call : ∀ {w op}, MonitorCall E req saw w₀ w op → Permits ok guar w op

/-! ## The pass -/

/-- An error that the code returns. -/
abbrev Fails (e : Err) (_ : World B) : Prop := e.aborts = false

/-- The result stands for an abort. -/
def aborted {α : Type} : Except Err α → Bool
  | .error e => e.aborts
  | .ok _ => false

section Monitor

variable {E : Env B} {req host : NamespacedName} {saw : (op : Op B) → Resp op → Prop}
  {w₀ w : World B} {ok guar : World B → (op : Op B) → Resp op → World B → Prop}
  {ici : ImageClusterInstall} (rules : MonitorGuarded E req saw w₀ ok guar)
include rules

theorem setInstallConditions_guarded {conds : List Condition} (h : Watched req host w₀ w ici)
    (hwhy : Reports E saw host w₀ ici conds) :
    Meets (Running ok guar) (setInstallConditions req ici conds)
      (fun r _ => aborted r.2 = false) w := by
  refine Meets.seq (meets_sets (K := Running ok guar) (P := fun w' => Framed [] w w')
    (fun _ _ hf hr => hr ▸ hf) ?_ conds _ (.refl ..)) ?_
  · intro w₁ hf
    exact meets_now (rules.call (.read rfl)) fun t ht => hf.trans (.tick ht _)
  rintro ⟨conditions, updated⟩ w₁ ⟨hsets, hf⟩
  cases updated with
  | false => exact meets_ret.2 rfl
  | true =>
    refine meets_call fun c r w₂ hc ho =>
      ⟨rules.call (.report (h.framed hf) hwhy hsets) _ _ _ hc ho, meets_ret.2 ?_⟩
    cases r with
    | ok stored => rfl
    | error e => exact answer_patchICIStatus_error hc

/-- The timeout is reported, if it has passed, only while the installation is not finished. -/
theorem handleClusterTimeout_guarded (h : Watched req host w₀ w ici)
    (hun : HostOff host w₀ ∨ SawSpoke saw false) :
    Tries (Running ok guar) (handleClusterTimeout E req ici)
      (fun expired w' => expired = false → Watched req host w₀ w' ici ∧ Timed saw E ici false)
      Fails w := by
  unfold handleClusterTimeout
  split
  · exact tries_pure.2 nofun
  next hnew =>
  refine Tries.bind (tries_liftExcept.2 ?_)
  cases htimeout : installTimeout E ici with
  | error e =>
    unfold installTimeout at htimeout
    split at htimeout
    · cases htimeout
    · split at htimeout
      · cases htimeout
      · cases htimeout
        rfl
  | ok timeout =>
    refine Tries.bind (Tries.lift (meets_call fun c t w₁ hc ho =>
      ⟨rules.call (.read rfl) _ _ _ hc ho, meets_ret.2 ?_⟩))
    have h₁ := h.framed ((answer_framed hc).of_nothing rfl)
    have htime : Timed saw E ici (isExpired ici timeout t) :=
      ⟨by simpa using hnew, timeout, t, htimeout, rules.seen ho, rfl⟩
    split
    · next hexp =>
      rw [hexp] at htime
      exact Tries.bind (Tries.lift (Meets.mono
        (setInstallConditions_guarded rules h₁ (.timeout _ hun htime))
        fun _ _ _ => tries_pure.2 nofun))
    · next hexp =>
      rw [Bool.not_eq_true] at hexp
      rw [hexp] at htime
      exact tries_pure.2 fun _ => ⟨h₁, htime⟩

theorem reportProgress_guarded (h : Watched req host w₀ w ici)
    (hun : HostOff host w₀ ∨ SawSpoke saw false) (message : String) :
    Tries (Running ok guar) (reportProgress E req ici message) (fun _ _ => True) Fails w := by
  refine Tries.seq (handleClusterTimeout_guarded rules h hun) fun expired w₁ h₁ => ?_
  cases expired with
  | true => exact tries_pure.2 trivial
  | false =>
    obtain ⟨h₁, htime⟩ := h₁ rfl
    exact Tries.bind (Tries.lift (Meets.mono
      (setInstallConditions_guarded rules h₁ (.progress message hun htime))
      fun _ _ _ => tries_pure.2 trivial))

/-- The pass goes on only if the image is not being deleted. -/
theorem handleDataImageDeletion_guarded (h : Watched req host w₀ w ici)
    (hwhy : ImageMarked host w → ImageMarked host w₀ ∨ SawSpoke saw true) :
    Tries (Running ok guar) (handleDataImageDeletion req ici host)
      (fun o w' => o = none → Framed [] w w' ∧ ¬ImageMarked host w) Fails w := by
  refine Tries.bind (tries_attempt (tries_getDataImage (rules.call (.read rfl)) ?_ ?_ ?_))
  · intro d hd
    dsimp only
    split
    · next hkept =>
      refine tries_pure.2 fun _ => ⟨.refl .., ?_⟩
      rintro ⟨d', hd', hmark⟩
      obtain rfl : d = d' := Option.some.inj (hd.symm.trans hd')
      rw [Option.isNone_iff_eq_none.1 hkept] at hmark
      cases hmark
    · next hmark =>
      have hmarked : ImageMarked host w :=
        ⟨d, hd, by simpa [Option.isSome_iff_ne_none] using hmark⟩
      exact Tries.bind (Tries.lift (Meets.mono
        (setInstallConditions_guarded rules h (.waiting _ (hwhy hmarked)))
        fun _ _ _ => tries_pure.2 nofun))
  · intro hnone
    refine tries_pure.2 fun _ => ⟨.refl .., ?_⟩
    rintro ⟨d, hd, -⟩
    rw [hnone] at hd
    cases hd
  · exact fun e => tries_throw.2 rfl

/-- The image is deleted, and the host rebooted, only on account of an image that nobody marked
before the pass. -/
theorem reportInstalled_guarded (h : Watched req host w₀ w ici) (hspoke : SawSpoke saw true)
    (hw : w.dataImages = w₀.dataImages) (hkept : ¬ImageMarked host w₀) :
    Tries (Running ok guar) (reportInstalled req ici host) (fun _ _ => True) Fails w := by
  refine Tries.bind (Tries.mono (removeBMHDataImage_running (fun hop => rules.call (.read hop))
    (fun d hd => rules.call (.deleteImage h hspoke hw hd hkept)) ?_) ?_ fun _ _ he => he.2)
  · intro w₁ d bmh hf hd hgone hb hno
    exact rules.call (.reboot (h.framed hf) hspoke (hw ▸ hd) hkept hgone hb hno)
  rintro _ w₁ ⟨hf, -⟩
  have h₁ := h.framed hf
  refine Tries.seq (handleDataImageDeletion_guarded rules h₁ fun _ => .inr hspoke) ?_
  intro o w₂ h₂
  match o with
  | some res => exact tries_pure.2 trivial
  | none =>
    refine Tries.bind (Tries.lift (Meets.mono (setInstallConditions_guarded rules
      (h₁.framed (h₂ rfl).1) (.installed hspoke)) ?_))
    rintro ⟨_, err⟩ w₃ herr
    refine Tries.bind (tries_liftExcept.2 ?_)
    cases err with
    | error e => exact herr
    | ok u => exact tries_pure.2 trivial

theorem spokeKubeconfig_guarded :
    Tries (Running ok guar) (spokeKubeconfig E req ici) (fun _ w' => Framed [] w w') Fails w := by
  unfold spokeKubeconfig
  split
  · exact tries_throw.2 rfl
  · split
    · exact tries_throw.2 rfl
    · refine Tries.bind (tries_wrap (tries_getSecret (rules.call (.read rfl)) ?_ ?_ ?_))
      · intro secret _
        split
        · exact tries_throw.2 rfl
        · split
          · exact tries_throw.2 rfl
          · exact tries_pure.2 (.refl ..)
      · exact fun _ => rfl
      · exact fun e => rfl

theorem checkClusterStatus_guarded (h : Watched req host w₀ w ici)
    (hw : Framed [] w₀ w) :
    Tries (Running ok guar) (checkClusterStatus E req ici host) (fun _ _ => True) Fails w := by
  have himages : w.dataImages = w₀.dataImages := hw.dataImages (by decide)
  have hmarked : ImageMarked host w → ImageMarked host w₀ := by
    unfold ImageMarked
    rw [himages]
    exact id
  refine Tries.seq (handleDataImageDeletion_guarded rules h fun hm => .inl (hmarked hm)) ?_
  intro o w₁ h₁
  match o with
  | some res => exact tries_pure.2 trivial
  | none =>
    obtain ⟨hf₁, hkept⟩ := h₁ rfl
    refine Tries.seq (spokeKubeconfig_guarded rules) fun kubeconfig w₂ hf₂ => ?_
    refine Tries.bind (tries_wrap (meets_call fun c r w₃ hc ho =>
      ⟨rules.call (.read rfl) _ _ _ hc ho, meets_ret.2 ?_⟩))
    have hf₃ : Framed [] w w₃ := (hf₁.trans hf₂).trans ((answer_framed hc).of_nothing rfl)
    have hsaw := rules.seen ho
    cases r with
    | error e => exact (Err.aborts_within ..).trans (Choice.read_error hc nofun)
    | ok status =>
      have h₃ := h.framed hf₃
      rw [outcome_ok]
      split
      · next hinst =>
        refine reportInstalled_guarded rules h₃ ⟨kubeconfig, status, hsaw, hinst⟩ ?_ ?_
        · rw [hf₃.dataImages (by decide), himages]
        · unfold ImageMarked at hkept ⊢
          rwa [← himages]
      · next hinst =>
        rw [Bool.not_eq_true] at hinst
        exact reportProgress_guarded rules h₃ (.inr ⟨kubeconfig, status, hsaw, hinst⟩) _

/-- Every call of a monitor pass is one of the inventory, and it aborts only on an object that has a
boot time and names no host. -/
theorem monitor_guarded :
    Tries (Running ok guar) (monitor E req) (fun _ _ => True)
      (fun e _ => e = .panic → ∃ ici, w₀.icis req = some ici ∧
        ici.status.bootTime.isSome = true ∧ ici.status.bareMetalHostRef = none) w₀ := by
  refine Tries.bind (tries_attempt (tries_getICI (rules.call (.read rfl)) ?_ ?_ ?_))
  · intro ici hici
    dsimp only
    split
    · exact tries_pure.2 trivial
    next hboot =>
    split
    · exact tries_pure.2 trivial
    next hrun =>
    unfold monitorInstallationProgress
    have hbooted : ici.status.bootTime.isSome = true := by
      simpa [Option.isSome_iff_ne_none] using hboot
    cases href : ici.status.bareMetalHostRef with
    | none => exact tries_throw.2 fun _ => ⟨ici, hici, hbooted, href⟩
    | some host =>
      have h : Watched req host w₀ w₀ ici := ⟨hici, hici, hbooted, by simpa using hrun, href⟩
      have hpanic : ∀ e : Err, e.aborts = false → e ≠ .panic := by
        rintro _ h rfl
        cases h
      refine Tries.mono (Q := fun _ _ => True) (R := Fails) ?_ (fun _ _ h => h)
        fun e _ hfails he => absurd he (hpanic e hfails)
      refine Tries.bind (tries_getBMH (rules.call (.read rfl)) ?_ ?_ ?_)
      · intro bmh hbmh
        split
        · exact checkClusterStatus_guarded rules h (.refl ..)
        · next hoff =>
          exact reportProgress_guarded rules h (.inl ⟨bmh, hbmh, by simpa using hoff⟩) _
      · exact fun _ => rfl
      · exact fun e => rfl
  · exact fun _ => tries_pure.2 trivial
  · exact fun e => tries_throw.2 nofun

end Monitor

/-- Every call of a monitor pass is in the inventory. -/
theorem monitor_calls (E : Env B) (req : NamespacedName) (w₀ : World B) :
    Meets (Running (fun _ _ _ _ => True) fun w op _ _ =>
      MonitorCall E req (fun _ _ => True) w₀ w op) (monitor E req).run
        (Outcome (fun _ _ => True) fun e _ => e = .panic → ∃ ici, w₀.icis req = some ici ∧
          ici.status.bootTime.isSome = true ∧ ici.status.bareMetalHostRef = none) w₀ :=
  monitor_guarded ⟨fun _ => trivial, fun hop _ _ _ _ _ => hop⟩

end ImageBasedInstall

import ImageBasedInstall.Verify.Boot
import ImageBasedInstall.Verify.Interleaving
import ImageBasedInstall.Verify.MonitorCalls

/-!
# The states of an installation

The monitor, seen from outside, is a machine of four states: the common reason of the conditions
Completed, Stopped and Failed. `InstallStep` is the machine, over what a pass goes by (`PassView`);
`monitor_refines` shows that every pass of every run of the monitor is one of its steps.
-/

namespace ImageBasedInstall

open Interactive

/-! ## The machine -/

inductive InstallState where
  | initial
  | inProgress
  | timedOut
  | installed
  deriving DecidableEq, Repr

/-- What a pass goes by. -/
structure PassView where
  hostOff : Prop
  hostOn : Prop
  /-- The host's `DataImage` is being deleted. -/
  imageDeleting : Prop
  /-- The spoke status read in the pass is Installed. -/
  spokeInstalled : Prop
  /-- The spoke status read in the pass is not Installed. -/
  spokePending : Prop
  /-- The timeout has passed at the time the pass looks at the clock. -/
  late : Prop
  /-- It has passed when the pass starts. -/
  lateStart : Prop
  /-- No call fails, the pass comes to its end, and the timeout annotation is absent or can be
  parsed. -/
  clean : Prop

/-- The pass finds the host off, or finds it on with no `DataImage` being deleted and the spoke,
which it asks, not Installed. -/
def PassView.Unfinished (v : PassView) : Prop :=
  v.hostOff ∨ v.hostOn ∧ ¬v.imageDeleting ∧ v.spokePending ∧ ¬v.spokeInstalled

/-- The steps of the machine. -/
structure InstallStep (v : PassView) (s s' : InstallState) : Prop where
  final : s = .installed → s' = .installed
  installs : s ≠ .installed → s' = .installed → v.spokeInstalled
  expires : s ≠ .timedOut → s' = .timedOut → v.late ∧ (v.hostOff ∨ v.spokePending)
  resumes : s = .timedOut → s' ≠ .timedOut → v.imageDeleting ∨ v.spokeInstalled
  due : v.clean → s ≠ .installed → v.lateStart → v.Unfinished → s' = .timedOut

/-- A pass that changes nothing, and was not due to. -/
theorem InstallStep.stay {v : PassView} {s : InstallState}
    (hdue : v.clean → s ≠ .installed → v.lateStart → v.Unfinished → s = .timedOut) :
    InstallStep v s s where
  final := id
  installs hne heq := absurd heq hne
  expires hne heq := absurd heq hne
  resumes heq hne := absurd heq hne
  due := hdue

/-! ## Reading the state off the conditions -/

def InstallState.reason : InstallState → String
  | .initial => "Unknown"
  | .inProgress => installInProgressReason
  | .timedOut => installTimedoutReason
  | .installed => installSucceededReason

def InstallState.ofReason (reason : String) : Option InstallState :=
  [.initial, .inProgress, .timedOut, .installed].find? fun s => s.reason = reason

theorem InstallState.ofReason_reason (s : InstallState) : ofReason s.reason = some s := by
  cases s <;> decide

/-- The common reason; before the first report there may be no conditions at all. -/
def installState (cs : List Condition) : Option InstallState :=
  match findCondition cs .completed, findCondition cs .stopped, findCondition cs .failed with
  | some completed, some stopped, some failed =>
    if completed.reason = stopped.reason ∧ completed.reason = failed.reason then
      InstallState.ofReason completed.reason
    else none
  | none, none, none => some .initial
  | _, _, _ => none

section State

variable {cs cs' conds : List Condition} {ici : ImageClusterInstall}

theorem installState_of_reason {completed stopped failed : Condition} {s : InstallState}
    (hc : findCondition cs .completed = some completed)
    (hs : findCondition cs .stopped = some stopped) (hf : findCondition cs .failed = some failed)
    (hcr : completed.reason = s.reason) (hsr : stopped.reason = s.reason)
    (hfr : failed.reason = s.reason) : installState cs = some s := by
  simp [installState, hc, hs, hf, hcr, hsr, hfr, s.ofReason_reason]

theorem installState_of_none (h : ∀ T ∈ installTypes, findCondition cs T = none) :
    installState cs = some .initial := by
  simp [installState, h .completed (by decide), h .stopped (by decide), h .failed (by decide)]

/-- A coherent list has a state, and the checks of the source recognise it. -/
theorem Coherent.state (h : Coherent ici.status.conditions) :
    ∃ s, installState ici.status.conditions = some s ∧
      (installationCompleted ici = true ↔ s = .installed) ∧
      (installationTimedout ici = true ↔ s = .timedOut) := by
  rcases h.install with hnone | ⟨c, st, f, reason, hc, hs, hf, hcr, hsr, hfr, hmem⟩
  · refine ⟨.initial, installState_of_none hnone, ?_, ?_⟩
    · simp [installationCompleted, hnone .completed (by decide)]
    · simp [installationTimedout, hnone .failed (by decide)]
  · -- the reason fixes the statuses, one state for each entry of the table
    have hstate : ∃ s : InstallState, reason = s.reason ∧ (c.status = .true ↔ s = .installed) ∧
        (f.status = .true ↔ s = .timedOut) := by
      simp only [installReasons, List.mem_cons, Prod.mk.injEq, List.not_mem_nil, or_false] at hmem
      rcases hmem with ⟨rfl, hct, -, hft⟩ | ⟨rfl, hct, -, hft⟩ | ⟨rfl, hct, -, hft⟩ |
        ⟨rfl, hct, -, hft⟩
      · exact ⟨.initial, rfl, by simp [hct], by simp [hft]⟩
      · exact ⟨.inProgress, rfl, by simp [hct], by simp [hft]⟩
      · exact ⟨.timedOut, rfl, by simp [hct], by simp [hft]⟩
      · exact ⟨.installed, rfl, by simp [hct], by simp [hft]⟩
    obtain ⟨s, rfl, hdone, htimed⟩ := hstate
    refine ⟨s, installState_of_reason hc hs hf hcr hsr hfr, ?_, ?_⟩
    · simp [installationCompleted, hc, hdone]
    · have hreason : s = .timedOut → f.reason = installTimedoutReason := by
        rintro rfl
        exact hfr
      simpa [installationTimedout, hf, htimed] using hreason

/-- After a report the state is the one of its reason. -/
theorem MonitorReport.state (hr : MonitorReport conds) (hsets : Sets conds cs cs')
    {s : InstallState} (hs : ∀ d ∈ conds, d.reason = s.reason) : installState cs' = some s := by
  have hfind : ∀ T ∈ installTypes, ∃ c, findCondition cs' T = some c ∧ c.reason = s.reason := by
    intro T hT
    rw [← hr.types] at hT
    obtain ⟨d, hd, rfl⟩ := List.mem_map.1 hT
    obtain ⟨c, hc, -, hreason, -⟩ := hsets.find hr.nodup hd
    exact ⟨c, hc, hreason.trans (hs d hd)⟩
  obtain ⟨c, hc, hcr⟩ := hfind .completed (by decide)
  obtain ⟨st, hst, hsr⟩ := hfind .stopped (by decide)
  obtain ⟨f, hf, hfr⟩ := hfind .failed (by decide)
  exact installState_of_reason hc hst hf hcr hsr hfr

end State

/-! ## What a pass goes by -/

variable {B : Type}

/-- The annotation's value if it is there and can be parsed, else the default. -/
def effectiveTimeout (E : Env B) (ici : ImageClusterInstall) : Time :=
  ((ici.annotations installTimeoutAnnotation).bind E.parseDuration).getD E.defaultInstallTimeout

/-- The timeout annotation is absent or can be parsed. -/
def TimeoutReadable (E : Env B) (ici : ImageClusterInstall) : Prop :=
  ∀ text, ici.annotations installTimeoutAnnotation = some text →
    (E.parseDuration text).isSome = true

/-- `t` is later than the boot time plus the timeout. -/
def Late (E : Env B) (ici : ImageClusterInstall) (t : Time) : Prop :=
  ∃ boot, ici.status.bootTime = some boot ∧ boot + effectiveTimeout E ici < t

theorem installTimeout_eq {E : Env B} {ici : ImageClusterInstall} {timeout : Time}
    (h : installTimeout E ici = .ok timeout) : effectiveTimeout E ici = timeout := by
  unfold installTimeout at h
  unfold effectiveTimeout
  split at h
  · next hann =>
    cases h
    simp [hann]
  · next text hann =>
    split at h
    · next t ht =>
      cases h
      simp [hann, ht]
    · cases h

theorem TimeoutReadable.installTimeout {E : Env B} {ici : ImageClusterInstall}
    (h : TimeoutReadable E ici) : installTimeout E ici = .ok (effectiveTimeout E ici) := by
  unfold ImageBasedInstall.installTimeout effectiveTimeout
  split
  · next hann => simp [hann]
  · next text hann =>
    obtain ⟨t, ht⟩ := Option.isSome_iff_exists.1 (h text hann)
    simp [hann, ht]

theorem late_iff {E : Env B} {ici : ImageClusterInstall} {timeout t : Time}
    (h : installTimeout E ici = .ok timeout) (hboot : ici.status.bootTime.isSome = true) :
    isExpired ici timeout t = true ↔ Late E ici t := by
  obtain ⟨boot, hb⟩ := Option.isSome_iff_exists.1 hboot
  simp [isExpired, Late, hb, installTimeout_eq h]

/-- The view of the pass over `req` from `w` with the choices `cs`, where `ici` is stored in `w`. -/
def monitorView (E : Env B) (req : NamespacedName) (ici : ImageClusterInstall)
    (cs : List (Choice B)) (w : World B) : PassView where
  hostOff := ∃ host, ici.status.bareMetalHostRef = some host ∧ HostOff host w
  hostOn := ∃ host bmh, ici.status.bareMetalHostRef = some host ∧ w.bmhs host = some bmh ∧
    bmh.poweredOn = true
  imageDeleting := ∃ host, ici.status.bareMetalHostRef = some host ∧ ImageMarked host w
  spokeInstalled := SawSpoke ((monitor E req).run.Saw answer cs w) true
  spokePending := SawSpoke ((monitor E req).run.Saw answer cs w) false
  late := ∃ t, (monitor E req).run.Saw answer cs w .now t ∧ Late E ici t
  lateStart := Late E ici w.clock
  clean := (∀ t ∈ (monitor E req).run.trace answer cs w, t.choice.ending = .ok) ∧
    ((monitor E req).run.exec answer cs w).2.isSome = true ∧ TimeoutReadable E ici

/-! ## What a pass stores -/

/-- The object is as it was read, or one report was stored. -/
def Reported (E : Env B) (req : NamespacedName) (saw : (op : Op B) → Resp op → Prop)
    (ici : ImageClusterInstall) (w₀ w : World B) : Prop :=
  w.icis req = some ici ∨ ∃ host conds conds', ici.status.bareMetalHostRef = some host ∧
    installationCompleted ici = false ∧
    Reports E saw host w₀ ici conds ∧ Sets conds ici.status.conditions conds' ∧
    w.icis req = some (ici.withConditions conds')

section Pass

variable {E : Env B} {req host : NamespacedName} {ici : ImageClusterInstall} {w₀ w w' : World B}
  {saw : (op : Op B) → Resp op → Prop}

/-- A status patch made from the stored object stores the new status. -/
theorem mergeStatus_current (base : ImageClusterInstall) (conds : List Condition) :
    ImageClusterInstall.mergeStatus base (base.withConditions conds) base =
      base.withConditions conds := by
  simp [ImageClusterInstall.mergeStatus, Status.merge, ImageClusterInstall.withConditions]

theorem Reported.of_call {op : Op B} {c : Choice B} {r : Resp op} (h₀ : w₀.icis req = some ici)
    (hop : MonitorCall E req saw w₀ w op) (hc : answer op c w = (r, w'))
    (h : Reported E req saw ici w₀ w) : Reported E req saw ici w₀ w' := by
  have hkept : op.target ≠ .ici → Reported E req saw ici w₀ w' := by
    intro hne
    unfold Reported
    rw [(answer_framed hc).icis (by simpa using fun he => hne he.symm)]
    exact h
  cases hop with
  | read ht => exact hkept (by simp [ht])
  | deleteImage => exact hkept nofun
  | reboot => exact hkept nofun
  | @report host read conds conds' hw hwhy hsets =>
    obtain rfl : read = ici := Option.some.inj (hw.read.symm.trans h₀)
    have hstored : (w.setICI req (some (.mergeStatus read (read.withConditions conds') read))).icis
        req = some (read.withConditions conds') := by
      simp [World.setICI, mergeStatus_current]
    cases answer_patchICIStatus hc with
    | failed e => exact h
    | stored a ha | lost a ha =>
      obtain rfl : read = a := Option.some.inj (hw.stored.symm.trans ha)
      exact .inr ⟨host, conds, conds', hw.ref, hw.running, hwhy, hsets, hstored⟩

/-- Before and after every call of a pass. -/
theorem monitor_reports (h₀ : w₀.icis req = some ici) (cs : List (Choice B)) :
    Meets (Running (fun _ op r _ => (monitor E req).run.Saw answer cs w₀ op r) fun w _ _ w' =>
      Reported E req ((monitor E req).run.Saw answer cs w₀) ici w₀ w →
        Reported E req ((monitor E req).run.Saw answer cs w₀) ici w₀ w') (monitor E req).run
      (Outcome (fun _ _ => True) fun e _ => e = .panic → ∃ ici, w₀.icis req = some ici ∧
        ici.status.bootTime.isSome = true ∧ ici.status.bareMetalHostRef = none) w₀ :=
  monitor_guarded ⟨id, fun hop _ _ _ hc _ h => h.of_call h₀ hop hc⟩

theorem monitor_reported (h₀ : w₀.icis req = some ici) (cs : List (Choice B)) :
    Reported E req ((monitor E req).run.Saw answer cs w₀) ici w₀
      ((monitor E req).run.exec answer cs w₀).1 :=
  (monitor_reports h₀ cs).last cs (traceOk_saw cs) (fun _ _ _ _ h hg => hg h) (.inl h₀)

/-- What a pass reads of the object differs from it in the conditions only. -/
theorem monitor_reads (h₀ : w₀.icis req = some ici) {cs : List (Choice B)}
    {read : ImageClusterInstall}
    (h : (monitor E req).run.Saw answer cs w₀ (.getICI req) (.ok read)) :
    read.annotations = ici.annotations := by
  obtain ⟨⟨before, op, c, r, after⟩, ht, heq⟩ := h
  cases heq
  have hanswer := trace_answer answer ht
  have hbefore := (monitor_reports h₀ cs).before cs (traceOk_saw cs)
    (fun _ _ _ _ h hg => hg h) (.inl h₀) _ ht
  obtain ⟨-, ⟨stored, hstored, hread⟩ | ⟨-, hread⟩ | ⟨e, hread⟩⟩ := Choice.lookup_eq hanswer
  · obtain rfl : read = stored := Except.ok.inj hread
    rcases hbefore with hsame | ⟨host, conds, conds', -, -, -, -, hnew⟩
    · obtain rfl : ici = read := Option.some.inj (hsame.symm.trans hstored)
      rfl
    · obtain rfl : ici.withConditions conds' = read := Option.some.inj (hnew.symm.trans hstored)
      rfl
  · cases hread
  · cases hread

/-! ## A pass that is due to report the timeout -/

/-- The reply of a call that does not fail. -/
def Succeeds (w : World B) (op : Op B) (r : Resp op) (w' : World B) : Prop :=
  ∃ c : Choice B, c.ending = .ok ∧ answer op c w = (r, w')

/-- The timeout was reported before, or is now. -/
def Expired (req : NamespacedName) (ici : ImageClusterInstall) (w : World B) : Prop :=
  (installationTimedout ici = true ∧ w.icis req = some ici) ∨
    ∃ text conds, Sets (timeoutConditions text) ici.status.conditions conds ∧
      w.icis req = some (ici.withConditions conds)

theorem meets_sets_unchanged {ok : World B → (op : Op B) → Resp op → World B → Prop}
    (todo : List Condition) (acc : List Condition × Bool) :
    Meets (Alone ok) (todo.foldlM updateCondition acc)
      (fun acc' _ => acc'.2 = false → acc.2 = false ∧ acc'.1 = acc.1) w := by
  induction todo generalizing acc w with
  | nil => exact meets_ret.2 fun h => ⟨h, rfl⟩
  | cons c todo ih =>
    rw [List.foldlM_cons]
    refine Meets.bind (Meets.seq (meets_now (Q := fun _ _ => True) .free fun _ _ => trivial) ?_)
    intro t w₁ _
    refine meets_ret.2 (Meets.mono (ih _) fun acc' _ h hflag => ?_)
    obtain ⟨hor, heq⟩ := h hflag
    rw [Bool.or_eq_false_iff] at hor
    exact ⟨hor.1, heq.trans (set_unchanged hor.2)⟩

section Clean

variable {ok : World B → (op : Op B) → Resp op → World B → Prop}
  (hok : ∀ {w op r w'}, ok w op r w' → Succeeds w op r w')
include hok

theorem setInstallConditions_clean {conds : List Condition} (hs : w.icis req = some ici) :
    Meets (Alone ok) (setInstallConditions req ici conds)
      (fun _ w' => ∃ conds', Sets conds ici.status.conditions conds' ∧
        w'.icis req = some (ici.withConditions conds')) w := by
  refine Meets.seq (Meets.and (meets_sets (P := fun w' => Framed [] w w')
    (fun _ _ hf hr => Eq.subst hr hf) ?_ conds _ (.refl ..)) (meets_sets_unchanged conds _)) ?_
  · exact fun w₁ hf => meets_now .free fun t ht => hf.trans (.tick ht _)
  rintro ⟨conds', updated⟩ w₁ ⟨⟨hsets, hf⟩, hsame⟩
  have hs₁ : w₁.icis req = some ici := by rw [hf.icis (by decide), hs]
  cases updated with
  | false =>
    have hcs : conds' = ici.status.conditions := (hsame rfl).2
    exact meets_ret.2 ⟨conds', hsets, by rw [hs₁, hcs]; rfl⟩
  | true =>
    refine meets_call fun _ r w₂ _ ho => ⟨trivial, meets_ret.2 ⟨conds', hsets, ?_⟩⟩
    obtain ⟨c, hend, hc⟩ := hok ho
    have heff : c.effective = true := by simp [Choice.effective, hend]
    have hstored : w₂ = w₁.setICI req
        (some (.mergeStatus ici (ici.withConditions conds') ici)) := by
      rw [← answer_patchICIStatus_effective heff hs₁, hc]
    simp [hstored, World.setICI, mergeStatus_current]

theorem handleClusterTimeout_clean (hs : w.icis req = some ici) (hlate : Late E ici w.clock)
    (htimeout : TimeoutReadable E ici) :
    Tries (Alone ok) (handleClusterTimeout E req ici)
      (fun expired w' => expired = true ∧ Expired req ici w') (fun _ _ => False) w := by
  unfold handleClusterTimeout
  split
  · next h => exact tries_pure.2 ⟨rfl, .inl ⟨h, hs⟩⟩
  rw [htimeout.installTimeout]
  refine Tries.bind (tries_liftExcept.2 (Tries.bind (Tries.lift (meets_now .free fun t ht => ?_))))
  obtain ⟨boot, hboot, hb⟩ := hlate
  have hexp : isExpired ici (effectiveTimeout E ici) t = true :=
    (late_iff htimeout.installTimeout (by simp [hboot])).2
      ⟨boot, hboot, Int.lt_of_lt_of_le hb ht⟩
  rw [if_pos hexp]
  refine Tries.bind (Tries.lift (Meets.mono (setInstallConditions_clean hok hs) ?_))
  rintro _ w₁ ⟨conds, hsets, hstored⟩
  exact tries_pure.2 ⟨rfl, .inr ⟨_, conds, hsets, hstored⟩⟩

theorem reportProgress_clean (hs : w.icis req = some ici) (hlate : Late E ici w.clock)
    (htimeout : TimeoutReadable E ici) (message : String) :
    Tries (Alone ok) (reportProgress E req ici message)
      (fun _ w' => Expired req ici w') (fun _ _ => False) w := by
  refine Tries.seq (handleClusterTimeout_clean hok hs hlate htimeout) ?_
  rintro expired w₁ ⟨rfl, hexp⟩
  exact tries_pure.2 hexp

omit hok in
theorem spokeKubeconfig_clean :
    Tries (Alone ok) (spokeKubeconfig E req ici) (fun _ w' => w' = w) (fun _ _ => True) w := by
  unfold spokeKubeconfig
  split
  · exact tries_throw.2 trivial
  · split
    · exact tries_throw.2 trivial
    · refine Tries.bind (tries_wrap (tries_getSecret .free ?_ (fun _ => trivial) fun _ => trivial))
      intro secret _
      split
      · exact tries_throw.2 trivial
      · split
        · exact tries_throw.2 trivial
        · exact tries_pure.2 rfl

theorem checkClusterStatus_clean (hs : w.icis req = some ici) (hlate : Late E ici w.clock)
    (htimeout : TimeoutReadable E ici) (himage : ¬ImageMarked host w)
    (hspoke : ∀ {w kubeconfig status w'}, ok w (.spokeStatus kubeconfig) (.ok status) w' →
      status.installed = false) :
    Tries (Alone ok) (checkClusterStatus E req ici host)
      (fun _ w' => Expired req ici w') (fun _ _ => True) w := by
  have hdeletion : Tries (Alone ok) (handleDataImageDeletion req ici host)
      (fun o w' => o = none ∧ w' = w) (fun _ _ => True) w := by
    refine Tries.bind (tries_attempt (tries_getDataImage .free ?_ ?_ ?_))
    · intro d hd
      dsimp only
      split
      · exact tries_pure.2 ⟨rfl, rfl⟩
      · next hmark =>
        exact absurd ⟨d, hd, by simpa [Option.isSome_iff_ne_none] using hmark⟩ himage
    · exact fun _ => tries_pure.2 ⟨rfl, rfl⟩
    · exact fun _ => tries_throw.2 trivial
  refine Tries.seq hdeletion ?_
  rintro o _ ⟨rfl, rfl⟩
  refine Tries.seq spokeKubeconfig_clean ?_
  rintro kubeconfig _ rfl
  refine Tries.bind (tries_wrap (meets_call fun c r w₁ hc ho => ⟨trivial, meets_ret.2 ?_⟩))
  obtain ⟨rfl, -⟩ := Choice.read_eq hc
  cases r with
  | error e => trivial
  | ok status =>
    rw [outcome_ok, hspoke ho]
    exact (reportProgress_clean hok hs hlate htimeout _).mono (fun _ _ => id) fun _ _ _ => trivial

theorem tries_getICI_clean {Q : ImageClusterInstall → World B → Prop} {R : Err → World B → Prop}
    (hs : w.icis req = some ici) (hQ : Q ici w) : Tries (Alone ok) (getICI req) Q R w := by
  refine meets_call fun _ r w' _ ho => ⟨trivial, meets_ret.2 ?_⟩
  obtain ⟨c, hend, hc⟩ := hok ho
  simp only [answer, Choice.read, hend, hs, orNotFound] at hc
  cases hc
  exact hQ

theorem tries_getBMH_clean {bmh : BareMetalHost} {Q : BareMetalHost → World B → Prop}
    {R : Err → World B → Prop} (hb : w.bmhs host = some bmh) (hQ : Q bmh w) :
    Tries (Alone ok) (getBMH host) Q R w := by
  refine meets_call fun _ r w' _ ho => ⟨trivial, meets_ret.2 ?_⟩
  obtain ⟨c, hend, hc⟩ := hok ho
  simp only [answer, Choice.read, hend, hb, orNotFound] at hc
  cases hc
  exact hQ

/-- A pass over an installation that has started and is not completed looks at the host first. -/
theorem monitor_clean {bmh : BareMetalHost} {Q : Result → World B → Prop}
    {R : Err → World B → Prop} (hs : w.icis req = some ici)
    (hrun : installationCompleted ici = false) (hlate : Late E ici w.clock)
    (href : ici.status.bareMetalHostRef = some host) (hb : w.bmhs host = some bmh)
    (hoff : bmh.poweredOn = false →
      Tries (Alone ok) (reportProgress E req ici "Waiting for BMH to power on") Q R w)
    (hon : bmh.poweredOn = true → Tries (Alone ok) (checkClusterStatus E req ici host) Q R w) :
    Tries (Alone ok) (monitor E req) Q R w := by
  refine Tries.bind (tries_attempt (tries_getICI_clean hok hs ?_))
  have hboot : ici.status.bootTime.isNone = false := by
    obtain ⟨boot, hboot, -⟩ := hlate
    rw [hboot]
    rfl
  dsimp only
  rw [hboot, hrun]
  unfold monitorInstallationProgress
  rw [href]
  refine Tries.bind (tries_getBMH_clean hok hb ?_)
  cases hpower : bmh.poweredOn with
  | true => exact hon hpower
  | false => exact hoff hpower

end Clean

end Pass

/-! ## Runs of the monitor -/

inductive MonitorEvent (B : Type) where
  | pass (choices : List (Choice B))
  | others

/-- Passes over one object; between them time passes and everything else may change, but only the
monitor writes the object's status. -/
def MonitorEvent.Fires (E : Env B) (req : NamespacedName) (w : World B) :
    MonitorEvent B → World B → Prop
  | .pass cs, w' => w' = ((monitor E req).run.exec answer cs w).1
  | .others, w' => w.clock ≤ w'.clock ∧
    ∀ ici, w.icis req = some ici → ∃ ici', w'.icis req = some ici' ∧ ici'.status = ici.status

/-- The object is there with its boot time, and its conditions have a state. -/
def Booted (req : NamespacedName) (w : World B) : Prop :=
  ∃ ici, w.icis req = some ici ∧ ici.status.bootTime.isSome = true ∧ Coherent ici.status.conditions

/-- The worlds the monitor passes over `req` start from. -/
abbrev MonitorRun (E : Env B) (req : NamespacedName) : World B → Prop :=
  Reaches (MonitorEvent.Fires E req) (fun _ _ => True) (Booted req)

section Runs

variable {E : Env B} {req : NamespacedName} {w : World B}

theorem Booted.pass (h : Booted req w) (cs : List (Choice B)) :
    Booted req ((monitor E req).run.exec answer cs w).1 := by
  obtain ⟨ici, hici, hboot, hcoh⟩ := h
  rcases monitor_reported (E := E) hici cs with hsame | ⟨host, conds, conds', -, -,
    hwhy, hsets, hnew⟩
  · exact ⟨ici, hsame, hboot, hcoh⟩
  · exact ⟨_, hnew, hboot, hcoh.monitorReport hwhy.monitorReport hsets⟩

theorem MonitorRun.booted (h : MonitorRun E req w) : Booted req w := by
  refine h.invariant (fun _ => id) fun w ev w' hI _ hs => ?_
  cases ev with
  | pass cs =>
    cases hs
    exact hI.pass cs
  | others =>
    obtain ⟨ici, hici, hboot, hcoh⟩ := hI
    obtain ⟨ici', hici', hstatus⟩ := hs.2 ici hici
    exact ⟨ici', hici', by rwa [hstatus], by rwa [hstatus]⟩

theorem MonitorRun.pass (h : MonitorRun E req w) (cs : List (Choice B)) :
    MonitorRun E req ((monitor E req).run.exec answer cs w).1 := by
  have hfires : MonitorEvent.Fires E req w (.pass cs)
    ((monitor E req).run.exec answer cs w).1 := rfl
  exact .next h trivial hfires

/-- The replies of a pass whose timeout can be read, and whose spoke is never Installed. -/
def SpokeUnfinished (E : Env B) (req : NamespacedName) : (op : Op B) → Resp op → Prop
  | .getICI key, .ok read => key = req → TimeoutReadable E read
  | .spokeStatus _, .ok status => status.installed = false
  | _, _ => True

/-- No spoke has told its status. -/
def SpokeSilent (l : Calls B) : Prop :=
  ∀ kubeconfig status, ⟨.spokeStatus kubeconfig, .ok status⟩ ∉ l

theorem SpokeSilent.cons {l : Calls B} (h : SpokeSilent l) {e : (op : Op B) × Resp op}
    (he : ∀ kubeconfig status, e ≠ ⟨.spokeStatus kubeconfig, .ok status⟩) :
    SpokeSilent (e :: l) := by
  intro kubeconfig status hmem
  rcases List.mem_cons.1 hmem with heq | hmem
  · exact he kubeconfig status heq.symm
  · exact h kubeconfig status hmem

section Asking

variable {ici : ImageClusterInstall} {host : NamespacedName} {l : Calls B}

theorem reportProgress_logged {R : (op : Op B) → Resp op → Prop} (htimeout : TimeoutReadable E ici)
    (message : String) :
    Tries (.logged R fun _ _ => True) (reportProgress E req ici message) (fun _ _ => True)
      (fun _ _ => False) l := by
  have hset : ∀ {conds l}, Meets (.logged R fun _ _ => True) (setInstallConditions req ici conds)
      (fun _ _ => True) l := Meets.triv fun _ _ _ _ => trivial
  have htime : Tries (.logged R fun _ _ => True) (handleClusterTimeout E req ici)
      (fun _ _ => True) (fun _ _ => False) l := by
    unfold handleClusterTimeout
    split
    · exact logged_ret.2 trivial
    rw [htimeout.installTimeout]
    refine Tries.bind (logged_ret.2 (Tries.bind (Tries.lift (logged_perform fun t _ =>
      ⟨trivial, ?_⟩))))
    split
    · exact Tries.bind (Tries.lift (hset.mono fun _ _ _ => logged_ret.2 trivial))
    · exact logged_ret.2 trivial
  refine Tries.seq htime fun expired l₁ _ => ?_
  split
  · exact logged_ret.2 trivial
  · exact Tries.bind (Tries.lift (hset.mono fun _ _ _ => logged_ret.2 trivial))

theorem spokeKubeconfig_silent {R : (op : Op B) → Resp op → Prop} (hl : SpokeSilent l) :
    Tries (.logged R fun _ _ => True) (spokeKubeconfig E req ici) (fun _ l => SpokeSilent l)
      (fun _ l => SpokeSilent l) l := by
  unfold spokeKubeconfig
  split
  · exact logged_ret.2 hl
  split
  · exact logged_ret.2 hl
  refine Tries.bind (Tries.adapt (logged_perform fun r _ => ⟨trivial, ?_⟩))
  have hl₁ := hl.cons (e := ⟨_, r⟩) nofun
  cases r with
  | error e => exact hl₁
  | ok secret =>
    dsimp only [Outcome]
    split
    · exact logged_ret.2 hl₁
    split
    · exact logged_ret.2 hl₁
    · exact logged_ret.2 hl₁

theorem handleDataImageDeletion_silent {R : (op : Op B) → Resp op → Prop}
    (hl : SpokeSilent l) :
    Tries (.logged R fun _ _ => True) (handleDataImageDeletion req ici host)
      (fun o l => o = none → SpokeSilent l) (fun _ l => SpokeSilent l) l := by
  refine Tries.bind (Tries.lift (logged_perform fun r _ => ⟨trivial, ?_⟩))
  have hl₁ := hl.cons (e := ⟨_, r⟩) nofun
  cases r with
  | error e =>
    dsimp only
    split
    · exact logged_ret.2 fun _ => hl₁
    · exact logged_ret.2 hl₁
  | ok image =>
    dsimp only
    split
    · exact logged_ret.2 fun _ => hl₁
    · exact Tries.bind (Tries.lift ((Meets.triv fun _ _ _ _ => trivial).mono
        fun _ _ _ => logged_ret.2 nofun))

/-- A pass that fails has not learned the status of the spoke: after that nothing can fail. -/
theorem monitor_fails_silent :
    Tries (.logged (SpokeUnfinished E req) fun _ _ => True) (monitor E req)
      (fun _ _ => True) (fun _ l => SpokeSilent l) [] := by
  have hnil : SpokeSilent ([] : Calls B) := fun _ _ h => nomatch h
  refine Tries.bind (Tries.lift (logged_perform fun r hr => ⟨trivial, ?_⟩))
  have hl := hnil.cons (e := ⟨_, r⟩) nofun
  cases r with
  | error e =>
    dsimp only
    split
    · exact logged_ret.2 trivial
    · exact logged_ret.2 hl
  | ok ici =>
    have htimeout : TimeoutReadable E ici := hr rfl
    dsimp only
    split
    · exact logged_ret.2 trivial
    split
    · exact logged_ret.2 trivial
    unfold monitorInstallationProgress
    split
    · exact logged_ret.2 hl
    refine Tries.bind (logged_perform fun r _ => ⟨trivial, ?_⟩)
    have hl := hl.cons (e := ⟨_, r⟩) nofun
    cases r with
    | error e => exact hl
    | ok bmh =>
      dsimp only [Outcome]
      split
      · refine Tries.seq (handleDataImageDeletion_silent hl) fun o l₁ h₁ => ?_
        cases o with
        | some res => exact logged_ret.2 trivial
        | none =>
          refine Tries.seq (spokeKubeconfig_silent (h₁ rfl)) fun kubeconfig l₂ h₂ => ?_
          refine Tries.bind (Tries.adapt (logged_perform fun r hr => ⟨trivial, ?_⟩))
          cases r with
          | error e => exact h₂.cons nofun
          | ok status =>
            have hpending : status.installed = false := hr
            dsimp only [Outcome]
            rw [hpending]
            exact (reportProgress_logged htimeout _).mono (fun _ _ _ => trivial)
              fun _ _ h => h.elim
      · exact (reportProgress_logged htimeout _).mono (fun _ _ _ => trivial) fun _ _ h => h.elim

end Asking

theorem spokeUnfinished_of_saw {ici : ImageClusterInstall} {cs : List (Choice B)} {op : Op B}
    {r : Resp op} (hs : w.icis req = some ici) (htimeout : TimeoutReadable E ici)
    (hspoke : ¬SawSpoke ((monitor E req).run.Saw answer cs w) true)
    (h : (monitor E req).run.Saw answer cs w op r) : SpokeUnfinished E req op r := by
  cases op with
  | getICI key =>
    cases r with
    | error e => trivial
    | ok read =>
      rintro rfl text htext
      rw [monitor_reads hs h] at htext
      exact htimeout text htext
  | spokeStatus kubeconfig =>
    cases r with
    | error e => trivial
    | ok status =>
      cases hinst : status.installed with
      | false => exact hinst
      | true => exact absurd ⟨kubeconfig, status, h, hinst⟩ hspoke
  | _ => trivial

/-- A pass that has heard of an unfinished cluster does not fail. -/
theorem returns_of_asked {ici : ImageClusterInstall} {cs : List (Choice B)}
    (hs : w.icis req = some ici) (htimeout : TimeoutReadable E ici)
    (hspoke : ¬SawSpoke ((monitor E req).run.Saw answer cs w) true) {kubeconfig : B}
    {status : InstallStatus}
    (hasked : (monitor E req).run.Saw answer cs w (.spokeStatus kubeconfig) (.ok status))
    (e : Err) :
    ((monitor E req).run.exec answer cs w).2 ≠ some (.error e) := by
  intro hout
  have hreplies : ∀ t ∈ (monitor E req).run.trace answer cs w,
      SpokeUnfinished E req t.op t.resp := by
    intro t ht
    exact spokeUnfinished_of_saw hs htimeout hspoke ⟨t, ht, rfl⟩
  obtain ⟨l, hsilent, -, htrace⟩ := Meets.exec_logged monitor_fails_silent cs hreplies hout
  obtain ⟨t, ht, heq⟩ := hasked
  have hmem := htrace t ht
  rw [heq] at hmem
  exact hsilent _ _ hmem

/-- A pass that is due to report the timeout, in the terms of its view. -/
theorem pass_due {ici : ImageClusterInstall} {cs : List (Choice B)} (hs : w.icis req = some ici)
    (hrun : installationCompleted ici = false) (hclean : (monitorView E req ici cs w).clean)
    (hlate : (monitorView E req ici cs w).lateStart)
    (hfinds : (monitorView E req ici cs w).Unfinished) :
    Expired req ici ((monitor E req).run.exec answer cs w).1 := by
  obtain ⟨hend, hreturns, htimeout⟩ := hclean
  obtain ⟨out, hout⟩ := Option.isSome_iff_exists.1 hreturns
  have hok : TraceOk answer (fun w₁ op r w₂ => Succeeds w₁ op r w₂ ∧
      (monitor E req).run.Saw answer cs w op r) (monitor E req).run cs w :=
    fun t ht => ⟨⟨t.choice, hend t ht, trace_answer _ ht⟩, t, ht, rfl⟩
  rcases hfinds with ⟨host, href, bmh, hb, hoff⟩ |
    ⟨⟨host, bmh, href, hb, hon⟩, himage, ⟨kubeconfig, status, hasked, -⟩, hspoke⟩
  · have hmeets : Tries (Alone fun w₁ op r w₂ => Succeeds w₁ op r w₂ ∧
        (monitor E req).run.Saw answer cs w op r) (monitor E req)
        (fun _ w' => Expired req ici w') (fun _ _ => False) w :=
      monitor_clean (fun h => h.1) hs hrun hlate href hb
        (fun _ => reportProgress_clean (fun h => h.1) hs hlate htimeout _) (by simp [hoff])
    have hpost := Meets.exec hmeets cs hok hout
    cases out with
    | error e => exact hpost.elim
    | ok res => exact hpost
  · have hpending : ∀ {w₁ kubeconfig status w₂}, Succeeds w₁ (.spokeStatus kubeconfig)
        (.ok status) w₂ ∧ (monitor E req).run.Saw answer cs w (.spokeStatus kubeconfig)
        (.ok status) → status.installed = false := by
      intro w₁ kubeconfig status w₂ hsaw
      cases hinst : status.installed with
      | false => rfl
      | true => exact absurd ⟨kubeconfig, status, hsaw.2, hinst⟩ hspoke
    have hmeets : Tries (Alone fun w₁ op r w₂ => Succeeds w₁ op r w₂ ∧
        (monitor E req).run.Saw answer cs w op r) (monitor E req)
        (fun _ w' => Expired req ici w') (fun _ _ => True) w :=
      monitor_clean (fun h => h.1) hs hrun hlate href hb (by simp [hon]) fun _ =>
        checkClusterStatus_clean (fun h => h.1) hs hlate htimeout
          (fun hmark => himage ⟨host, href, hmark⟩) hpending
    have hpost := Meets.exec hmeets cs hok hout
    cases out with
    | ok res => exact hpost
    | error e => exact absurd hout (returns_of_asked hs htimeout hspoke hasked e)

/-- The state after the timeout was reported. -/
theorem Expired.state {ici ici' : ImageClusterInstall} (h : Expired req ici w)
    (htimed : installationTimedout ici = true → installState ici.status.conditions = some .timedOut)
    (hici' : w.icis req = some ici') : installState ici'.status.conditions = some .timedOut := by
  rcases h with ⟨ht, hstored⟩ | ⟨text, conds, hsets, hstored⟩
  · obtain rfl : ici = ici' := Option.some.inj (hstored.symm.trans hici')
    exact htimed ht
  · obtain rfl : ici.withConditions conds = ici' := Option.some.inj (hstored.symm.trans hici')
    exact (MonitorReport.timeout text).state hsets
      (by simp [timeoutConditions, InstallState.reason])

end Runs

theorem monitor_refines (E : Env B) (req : NamespacedName) (w : World B) (h : MonitorRun E req w)
    (cs : List (Choice B)) :
    ∃ ici ici' s s', w.icis req = some ici ∧
      ((monitor E req).run.exec answer cs w).1.icis req = some ici' ∧
      installState ici.status.conditions = some s ∧
      installState ici'.status.conditions = some s' ∧
      InstallStep (monitorView E req ici cs w) s s' := by
  obtain ⟨ici, hici, hboot, hcoh⟩ := h.booted
  obtain ⟨s, hs, hdone, htimed⟩ := hcoh.state
  have hdue : ∀ ici' s', ((monitor E req).run.exec answer cs w).1.icis req = some ici' →
      installState ici'.status.conditions = some s' → (monitorView E req ici cs w).clean →
      s ≠ .installed → (monitorView E req ici cs w).lateStart →
      (monitorView E req ici cs w).Unfinished → s' = .timedOut := by
    intro ici' s' hici' hs' hclean hne hlate hfinds
    have hrun : installationCompleted ici = false := by
      rw [← Bool.not_eq_true]
      exact fun hc => hne (hdone.1 hc)
    have hexp := (pass_due hici hrun hclean hlate hfinds).state
      (fun ht => by rw [hs, htimed.1 ht]) hici'
    exact Option.some.inj (hs'.symm.trans hexp)
  rcases monitor_reported (E := E) hici cs with hsame | ⟨host, conds, conds', href, hrun, hwhy,
    hsets, hnew⟩
  · exact ⟨ici, ici, s, s, hici, hsame, hs, hs, .stay (hdue ici s hsame hs)⟩
  · have hopen : s ≠ .installed := by
      rintro rfl
      rw [hdone.2 rfl] at hrun
      cases hrun
    have hreport := hwhy.monitorReport
    cases hwhy with
    | waiting message hwhy =>
      have hs' := hreport.state hsets (s := .inProgress)
        (by simp [installingConditions, InstallState.reason])
      refine ⟨ici, _, s, .inProgress, hici, hnew, hs, hs', fun h => absurd h hopen, nofun, nofun,
        fun _ _ => ?_, hdue _ _ hnew hs'⟩
      exact hwhy.imp (fun hm => ⟨host, href, hm⟩) id
    | progress message hun htime =>
      have hs' := hreport.state hsets (s := .inProgress)
        (by simp [installingConditions, InstallState.reason])
      refine ⟨ici, _, s, .inProgress, hici, hnew, hs, hs', fun h => absurd h hopen, nofun, nofun,
        fun h => ?_, hdue _ _ hnew hs'⟩
      have := htimed.2 h
      rw [htime.1] at this
      cases this
    | timeout text hun htime =>
      have hs' := hreport.state hsets (s := .timedOut)
        (by simp [timeoutConditions, InstallState.reason])
      refine ⟨ici, _, s, .timedOut, hici, hnew, hs, hs', fun h => absurd h hopen, nofun,
        fun _ _ => ⟨?_, hun.imp (fun ho => ⟨host, href, ho⟩) id⟩, fun _ h => absurd rfl h,
        hdue _ _ hnew hs'⟩
      obtain ⟨-, timeout, t, htimeout, hsaw, hexp⟩ := htime
      exact ⟨t, hsaw, (late_iff htimeout hboot).1 hexp⟩
    | installed hspoke =>
      have hs' := hreport.state hsets (s := .installed)
        (by simp [installedConditions, InstallState.reason])
      exact ⟨ici, _, s, .installed, hici, hnew, hs, hs', fun _ => rfl, fun _ _ => hspoke, nofun,
        fun _ _ => .inr hspoke, hdue _ _ hnew hs'⟩

/-! ## A pass after the timeout -/

/-- The installation under way at time 0, with its host off. -/
def bootedWorld : World Doc :=
  sampleWorld.setICI sampleKey (some { sampleICI with
    status := { bareMetalHostRef := some sampleHost, bootTime := some 0 } })

def lateChoices : List (Choice Doc) := List.replicate 20 { elapsed := 3601 }

/-- The second pass starts after the timeout that the first one reported. -/
theorem monitor_refines_late :
    ∃ (ici ici' : ImageClusterInstall) (s' : InstallState),
      installState ici.status.conditions = some .timedOut ∧
      installState ici'.status.conditions = some s' ∧
      InstallStep (monitorView Env.symbolic sampleKey ici lateChoices
        ((monitor Env.symbolic sampleKey).run.exec answer lateChoices bootedWorld).1)
        .timedOut s' := by
  have hstart : MonitorRun Env.symbolic sampleKey bootedWorld :=
    .start ⟨_, rfl, rfl, coherent_nil⟩
  obtain ⟨ici, ici', s, s', hici, -, hs, hs', hstep⟩ :=
    monitor_refines Env.symbolic sampleKey _ (hstart.pass lateChoices) lateChoices
  have htimed : (((monitor Env.symbolic sampleKey).run.exec answer lateChoices
      bootedWorld).1.icis sampleKey).any (fun ici =>
        installState ici.status.conditions = some .timedOut) := by decide +kernel
  obtain ⟨stored, hstored, hstate⟩ := (Option.any_eq_true _ _).1 htimed
  obtain rfl : stored = ici := Option.some.inj (hstored.symm.trans hici)
  obtain rfl : .timedOut = s := Option.some.inj ((of_decide_eq_true hstate).symm.trans hs)
  exact ⟨stored, ici', s', hs, hs', hstep⟩

/-- The same installation with a timeout that cannot be parsed. -/
def unreadableICI : ImageClusterInstall :=
  { sampleICI with
    annotations := fun key => if key = installTimeoutAnnotation then some "2 hours" else none
    status := { bareMetalHostRef := some sampleHost, bootTime := some 0 } }

/-- The default timeout has passed. -/
def unreadableWorld : World Doc :=
  { bootedWorld.setICI sampleKey (some unreadableICI) with clock := 3601 }

/-- The pass fails on the annotation: no call has failed, the host is off, the default timeout has
passed, and nothing is reported. -/
theorem unreadable_timeout_not_reported :
    MonitorRun Env.symbolic sampleKey unreadableWorld ∧
    unreadableWorld.icis sampleKey = some unreadableICI ∧
    (∀ t ∈ (monitor Env.symbolic sampleKey).run.trace answer lateChoices unreadableWorld,
      t.choice.ending = .ok) ∧
    ((monitor Env.symbolic sampleKey).run.exec answer lateChoices unreadableWorld).2.isSome ∧
    (monitorView Env.symbolic sampleKey unreadableICI lateChoices unreadableWorld).hostOff ∧
    (monitorView Env.symbolic sampleKey unreadableICI lateChoices unreadableWorld).lateStart ∧
    installState unreadableICI.status.conditions = some .initial ∧
    ∃ ici', ((monitor Env.symbolic sampleKey).run.exec answer lateChoices unreadableWorld).1.icis
      sampleKey = some ici' ∧ installState ici'.status.conditions = some .initial := by
  have hstored : unreadableWorld.icis sampleKey = some unreadableICI := by
    simp [unreadableWorld, World.setICI]
  have hstate : (((monitor Env.symbolic sampleKey).run.exec answer lateChoices
      unreadableWorld).1.icis sampleKey).any (fun ici =>
        installState ici.status.conditions = some .initial) := by decide +kernel
  obtain ⟨ici', hici', hs'⟩ := (Option.any_eq_true _ _).1 hstate
  refine ⟨.start ⟨_, hstored, rfl, coherent_nil⟩, hstored, fun t ht => ?_, by decide +kernel,
    ⟨sampleHost, rfl, _, rfl, rfl⟩, ⟨0, rfl, by decide⟩, by decide, ici', hici',
    of_decide_eq_true hs'⟩
  have hmem := trace_choice answer ht
  rw [List.eq_of_mem_replicate hmem]

end ImageBasedInstall

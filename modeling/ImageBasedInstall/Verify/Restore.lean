import ImageBasedInstall.Verify.HostReference
import ImageBasedInstall.Verify.MonitorCalls

/-!
# Backup and restore

Status.BootTime and Status.BareMetalHostRef are recorded together, by one patch of an object that
has neither, and nothing takes them back. A restore re-creates an object with its label and an empty
status and sets the status later, to one that was stored before; in between, a pass over the object
labels what the object refers to, and leaves everything else alone.
-/

namespace ImageBasedInstall

open Interactive Patch

variable {B : Type}

/-! ## The recorded start -/

/-- A boot time goes with a host, and a host with a boot time. -/
def StartPaired (w : World B) : Prop :=
  ∀ key ici, w.icis key = some ici →
    (ici.status.bootTime.isSome = true ↔ ici.status.bareMetalHostRef.isSome = true)

/-- A recorded start stays as it is. -/
def StartKept (w w' : World B) : Prop :=
  ∀ key ici ici', w.icis key = some ici → w'.icis key = some ici' →
    (ici.status.bareMetalHostRef.isSome = true →
      ici'.status.bareMetalHostRef = ici.status.bareMetalHostRef) ∧
    (ici.status.bootTime.isSome = true → ici'.status.bootTime = ici.status.bootTime)

/-- The start is left as it is, or recorded where there was none. -/
inductive StartStep (s s' : Status) : Prop where
  | kept (href : s'.bareMetalHostRef = s.bareMetalHostRef) (htime : s'.bootTime = s.bootTime)
  | recorded (hnone : s.bareMetalHostRef = none) (href : s'.bareMetalHostRef.isSome = true)
    (htime : s'.bootTime.isSome = true)

/-- Every stored object goes back to one whose start it keeps, or for which it is recorded. -/
def StartSteps (w w' : World B) : Prop :=
  ∀ key ici', w'.icis key = some ici' → ∃ ici, w.icis key = some ici ∧
    StartStep ici.status ici'.status

/-- The call is a patch of a status. -/
def Op.patchesStatus : Op B → Bool
  | .patchICIStatus .. => true
  | _ => false

theorem patchesStatus_of_target {op : Op B} (h : op.target ≠ .ici) : op.patchesStatus = false := by
  cases op with
  | patchICIStatus key base new => exact absurd rfl h
  | _ => rfl

section Steps

variable {w w' : World B}

theorem StartSteps.paired (h : StartSteps w w') (hw : StartPaired w) : StartPaired w' := by
  intro key ici' hici'
  obtain ⟨ici, hici, hstep⟩ := h key ici' hici'
  cases hstep with
  | kept href htime =>
    rw [href, htime]
    exact hw key ici hici
  | recorded hnone href htime => simp [href, htime]

theorem StartSteps.startKept (h : StartSteps w w') (hw : StartPaired w) : StartKept w w' := by
  intro key ici ici' hici hici'
  obtain ⟨stored, hstored, hstep⟩ := h key ici' hici'
  obtain rfl : ici = stored := Option.some.inj (hici.symm.trans hstored)
  cases hstep with
  | kept href htime => exact ⟨fun _ => href, fun _ => htime⟩
  | recorded hnone =>
    -- without a host there is no boot time either
    have hnoref : ¬ici.status.bareMetalHostRef.isSome = true := by simp [hnone]
    exact ⟨fun h => absurd h hnoref, fun h => absurd ((hw key ici hici).1 h) hnoref⟩

theorem startSteps_of_other {op : Op B} {c : Choice B} {r : Resp op}
    (hc : answer op c w = (r, w')) (hop : op.patchesStatus = false) : StartSteps w w' := by
  intro key ici' hici'
  cases iciAfter_stored hc hici' with
  | kept h => exact ⟨ici', h, .kept rfl rfl⟩
  | patched h => exact ⟨_, h, .kept rfl rfl⟩
  | statusPatched h => cases hop

theorem startSteps_of_status {req : NamespacedName} {base new : ImageClusterInstall}
    {c : Choice B} {r : Except Err ImageClusterInstall}
    (hc : answer (.patchICIStatus req base new) c w = (r, w'))
    (h : ∀ stored, w.icis req = some stored →
      StartStep stored.status (Status.merge base.status new.status stored.status)) :
    StartSteps w w' := by
  intro key ici' hici'
  cases iciAfter_stored hc hici' with
  | kept hk => exact ⟨ici', hk, .kept rfl rfl⟩
  | statusPatched hs => exact ⟨_, hs, h _ hs⟩

theorem startStep_conditions (ici : ImageClusterInstall) (conds : List Condition)
    (stored : ImageClusterInstall) :
    StartStep stored.status
      (Status.merge ici.status (ici.withConditions conds).status stored.status) :=
  .kept (mergeField_unchanged ..) (mergeField_unchanged ..)

end Steps

/-! ## The calls of the passes -/

section Calls

variable {E : Env B} {req : NamespacedName} {w₀ w w' : World B} {op : Op B} {c : Choice B}
  {r : Resp op}

/-- The one patch that records the start is made for a stored object that has none. -/
theorem startSteps_of_call (h : PassCall E req w₀ w op) (hc : answer op c w = (r, w')) :
    StartSteps w w' := by
  cases h with
  | conditions h conds => exact startSteps_of_status hc fun stored _ => startStep_conditions ..
  | @boot ici host t h href hprep hman hnew ht =>
    refine startSteps_of_status hc fun stored hs => ?_
    obtain ⟨stored', hs', hcore⟩ := h.synced
    obtain rfl : stored = stored' := Option.some.inj (hs.symm.trans hs')
    have href' : stored.status.bareMetalHostRef = ici.status.bareMetalHostRef :=
      congrArg (fun ici => ici.status.bareMetalHostRef) hcore
    have htime' : stored.status.bootTime = ici.status.bootTime :=
      congrArg (fun ici => ici.status.bootTime) hcore
    refine .recorded (href'.trans hnew) ?_ ?_
    · simp [Status.merge, href', href]
    · simp [Status.merge, htime']
  | read ht => exact startSteps_of_other hc (patchesStatus_of_target (by simp [ht]))
  | tidy _ _ ht => exact startSteps_of_other hc (patchesStatus_of_target (by simp [ht.target]))
  | _ => exact startSteps_of_other hc rfl

theorem startSteps_of_monitorCall {saw : (op : Op B) → Resp op → Prop}
    (h : MonitorCall E req saw w₀ w op) (hc : answer op c w = (r, w')) : StartSteps w w' := by
  cases h with
  | report => exact startSteps_of_status hc fun stored _ => startStep_conditions ..
  | read ht => exact startSteps_of_other hc (patchesStatus_of_target (by simp [ht]))
  | _ => exact startSteps_of_other hc rfl

end Calls

/-! ## Objects that wait for their status -/

/-- The object, if it is there, carries the label of a restore and has an empty status. -/
def Awaiting (key : NamespacedName) (w : World B) : Prop :=
  ∀ ici, w.icis key = some ici → (ici.labels restoreSourceLabel).isSome = true ∧ ici.status = {}

/-- The call writes no status and no file, creates no `DataImage`, and changes a host in its backup
label only. -/
def Spared : Op B → Prop
  | .patchICIStatus .. | .createDataImage .. => False
  | .patchBMH _ base new => ∃ labels, setBackupLabel base.labels = some labels ∧
    new = { base with labels }
  | op => op.target ≠ .file ∧ op.target ≠ .iso

section Awaiting

variable {E : Env B} {req key : NamespacedName} {w₀ w w' : World B} {op : Op B} {c : Choice B}
  {r : Resp op}

theorem Awaiting.not_installs (h : Awaiting req w₀) : ¬Installs req w₀ := by
  rintro ⟨ici, hici, hu⟩
  obtain ⟨hlabel, hstatus⟩ := h ici hici
  have hunrestored := hu.unrestored
  simp [iciIsBeingRestored, hlabel, hstatus] at hunrestored

theorem Awaiting.not_watched {host : NamespacedName} {ici : ImageClusterInstall}
    (h : Awaiting req w₀) : ¬Watched req host w₀ w ici := by
  intro hw
  have hbooted := hw.booted
  simp [(h ici hw.read).2] at hbooted

theorem Awaiting.not_discards {host : NamespacedName} (h : Awaiting req w₀)
    (hdel : ∀ ici, w₀.icis req = some ici → ici.deletionTimestamp = none) :
    ¬Discards req host w₀ := by
  rintro ⟨ici, hici, -, hdeleted | ⟨hcompleted, -⟩⟩
  · simp [hdel ici hici] at hdeleted
  · simp [installationCompleted, (h ici hici).2, findCondition] at hcompleted

/-- What no call of a pass changes in an object that waits for its status. -/
theorem Awaiting.of_after (h : Awaiting key w)
    (hpatch : ∀ base new, op = .patchICI key base new → new.labels = base.labels)
    (hstatus : ∀ base new, op ≠ .patchICIStatus key base new) (hc : answer op c w = (r, w')) :
    Awaiting key w' := by
  intro ici' hici'
  cases iciAfter_stored hc hici' with
  | kept hk => exact h ici' hk
  | @patched base new stored hs =>
    obtain ⟨hlabel, hempty⟩ := h stored hs
    refine ⟨?_, hempty⟩
    simp only [ImageClusterInstall.merge, hpatch base new rfl, mergeMap_unchanged]
    exact hlabel
  | statusPatched => exact absurd rfl (hstatus _ _)

theorem awaiting_of_call (h₀ : Awaiting key w₀) (hop : PassCall E req w₀ w op)
    (hc : answer op c w = (r, w')) (h : Awaiting key w) : Awaiting key w' := by
  refine h.of_after ?_ ?_ hc
  · rintro base new rfl
    cases hop with
    | read ht => cases ht
    | tidy _ _ ht => cases ht.target
    | _ => rfl
  · rintro base new rfl
    cases hop with
    | read ht => cases ht
    | tidy _ _ ht => cases ht.target
    | conditions hi => exact h₀.not_installs hi
    | boot hi => exact h₀.not_installs hi.installs

theorem awaiting_of_monitorCall {saw : (op : Op B) → Resp op → Prop} (h₀ : Awaiting key w₀)
    (hop : MonitorCall E req saw w₀ w op) (hc : answer op c w = (r, w')) (h : Awaiting key w) :
    Awaiting key w' := by
  refine h.of_after ?_ ?_ hc
  · rintro base new rfl
    cases hop with
    | read ht => cases ht
  · rintro base new rfl
    cases hop with
    | read ht => cases ht
    | report hw => exact h₀.not_watched hw

theorem spared_of_read (h : op.target = .nothing) : Spared op := by
  cases op <;> simp_all [Spared, Op.target]

/-- The object is not being deleted. -/
def Undeleted (key : NamespacedName) (w : World B) : Prop :=
  ∀ ici, w.icis key = some ici → ici.deletionTimestamp = none

theorem undeleted_of_answer (hc : answer op c w = (r, w')) (h : Undeleted key w) :
    Undeleted key w' := by
  intro ici' hici'
  cases iciAfter_stored hc hici' with
  | kept hk => exact h ici' hk
  | @patched base new stored hs => exact h stored hs
  | @statusPatched base new stored hs => exact h stored hs

theorem spared_of_call (h₀ : Awaiting req w₀) (hdel₀ : Undeleted req w₀) (hdel : Undeleted req w)
    (hop : PassCall E req w₀ w op) : Spared op := by
  have hmarked : ∀ ici, w.icis req = some ici → ¬ici.deletionTimestamp.isSome = true := by
    intro ici hici
    simp [hdel ici hici]
  cases hop with
  | read ht => exact spared_of_read ht
  | addFinalizer => exact ⟨nofun, nofun⟩
  | tidy hs hm => exact absurd hm (hmarked _ hs)
  | removeFinalizer hs hm => exact absurd hm (hmarked _ hs)
  | deleteImage hwhy => exact absurd hwhy (h₀.not_discards hdel₀)
  | reboot hwhy => exact absurd hwhy (h₀.not_discards hdel₀)
  | labelConfigMap => exact ⟨nofun, nofun⟩
  | labelSecret => exact ⟨nofun, nofun⟩
  | @labelHost key bmh labels hs hl => exact ⟨labels, hl, rfl⟩
  | conditions hi => exact absurd hi h₀.not_installs
  | annotate hi => exact absurd hi.installs h₀.not_installs
  | disableCleaning hi => exact absurd hi.installs h₀.not_installs
  | provision hi => exact absurd hi.installs h₀.not_installs
  | describe hi => exact absurd hi.installs h₀.not_installs
  | createImage hi => exact absurd hi.installs h₀.not_installs
  | manage hi => exact absurd hi.installs h₀.not_installs
  | boot hi => exact absurd hi.installs h₀.not_installs

theorem spared_of_monitorCall {saw : (op : Op B) → Resp op → Prop} (h₀ : Awaiting req w₀)
    (hop : MonitorCall E req saw w₀ w op) : Spared op := by
  cases hop with
  | read ht => exact spared_of_read ht
  | report hwatch => exact absurd hwatch h₀.not_watched
  | deleteImage hwatch => exact absurd hwatch h₀.not_watched
  | reboot hwatch => exact absurd hwatch h₀.not_watched

end Awaiting

/-! ## Passes -/

section Passes

variable [DecidableEq B] {E : Env B} {req key : NamespacedName} {w : World B}
  {cs : List (Choice B)} {t : Transition (Op B) Resp (World B) (Choice B)}

/-- The transitions of a pass of either controller. -/
def PassMakes (E : Env B) (req : NamespacedName) (cs : List (Choice B)) (w : World B)
    (t : Transition (Op B) Resp (World B) (Choice B)) : Prop :=
  t ∈ (reconcile E req).trace answer cs w ∨ t ∈ (monitor E req).run.trace answer cs w

/-- What every call of the reconciler gives, and every call on files and secrets. -/
theorem reconcile_meets {G : World B → (op : Op B) → World B → Prop}
    (hcall : ∀ {w₁ op c r w₂}, PassCall E req w w₁ op → answer op c w₁ = (r, w₂) → G w₁ op w₂)
    (hbuild : ∀ {w₁ op c r w₂}, op.target ∈ [.nothing, .file, .secret, .iso] →
      answer op c w₁ = (r, w₂) → G w₁ op w₂) :
    Meets (Running (fun _ _ _ _ => True) fun w₁ op _ w₂ => G w₁ op w₂) (reconcile E req)
      (ReportTrue E req) w :=
  reconcile_guarded (.of_calls (fun hop _ _ _ hc _ => hcall hop hc)
    fun ht _ _ _ hc _ => hbuild ht hc)

omit [DecidableEq B] in
theorem monitor_meets {G : World B → (op : Op B) → World B → Prop}
    (hcall : ∀ {w₁ op c r w₂}, MonitorCall E req (fun _ _ => True) w w₁ op →
      answer op c w₁ = (r, w₂) → G w₁ op w₂) :
    Tries (Running (fun _ _ _ _ => True) fun w₁ op _ w₂ => G w₁ op w₂) (monitor E req)
      (fun _ _ => True) (fun e _ => e = .panic → ∃ ici, w.icis req = some ici ∧
        ici.status.bootTime.isSome = true ∧ ici.status.bareMetalHostRef = none) w :=
  monitor_guarded ⟨fun _ => trivial, fun hop _ _ _ hc _ => hcall hop hc⟩

omit [DecidableEq B] in
theorem ne_ici_of_build {op : Op B} (h : op.target ∈ [.nothing, .file, .secret, .iso]) :
    op.target ≠ .ici :=
  ne_of_mem_of_not_mem h (by decide)

theorem reconcile_startSteps : Meets (Running (fun _ _ _ _ => True) fun w₁ _ _ w₂ =>
    StartSteps w₁ w₂) (reconcile E req) (ReportTrue E req) w :=
  reconcile_meets startSteps_of_call fun ht hc =>
    startSteps_of_other hc (patchesStatus_of_target (ne_ici_of_build ht))

omit [DecidableEq B] in
theorem monitor_startSteps : Tries (Running (fun _ _ _ _ => True) fun w₁ _ _ w₂ =>
    StartSteps w₁ w₂) (monitor E req) (fun _ _ => True) (fun e _ => e = .panic →
      ∃ ici, w.icis req = some ici ∧ ici.status.bootTime.isSome = true ∧
        ici.status.bareMetalHostRef = none) w :=
  monitor_meets startSteps_of_monitorCall

/-- Before and after every call of a pass the start is paired, and a recorded one is kept. -/
theorem PassMakes.start (h : PassMakes E req cs w t) (hw : StartPaired w) :
    StartPaired t.after ∧ StartKept t.before t.after := by
  have hboth : StartPaired t.before ∧ StartSteps t.before t.after := by
    rcases h with ht | ht
    · exact ⟨reconcile_startSteps.before cs (traceOk_true cs) (fun _ _ _ _ h hs => hs.paired h) hw
        t ht, reconcile_startSteps.trace cs (traceOk_true cs) t ht⟩
    · exact ⟨Meets.before monitor_startSteps cs (traceOk_true cs)
        (fun _ _ _ _ h hs => hs.paired h) hw t ht,
        Meets.trace monitor_startSteps cs (traceOk_true cs) t ht⟩
  exact ⟨hboth.2.paired hboth.1, hboth.2.startKept hboth.1⟩

theorem reconcile_awaiting (h : Awaiting key w) :
    Awaiting key ((reconcile E req).exec answer cs w).1 := by
  have hmeets : Meets (Running (fun _ _ _ _ => True) fun w₁ _ _ w₂ =>
      Awaiting key w₁ → Awaiting key w₂) (reconcile E req) (ReportTrue E req) w := by
    refine reconcile_meets (awaiting_of_call h) fun ht hc h₁ ici hici => ?_
    rw [(answer_framed hc).icis (by simpa using fun he => ne_ici_of_build ht he.symm)] at hici
    exact h₁ ici hici
  exact hmeets.last cs (traceOk_true cs) (fun _ _ _ _ hI hg => hg hI) h

omit [DecidableEq B] in
theorem monitor_awaiting (h : Awaiting key w) :
    Awaiting key ((monitor E req).run.exec answer cs w).1 := by
  have hmeets : Meets (Running (fun _ _ _ _ => True) fun w₁ _ _ w₂ =>
      Awaiting key w₁ → Awaiting key w₂) (monitor E req).run _ w :=
    monitor_meets (awaiting_of_monitorCall h)
  exact hmeets.last cs (traceOk_true cs) (fun _ _ _ _ hI hg => hg hI) h

/-- A pass over an object that waits for its status spares it. -/
theorem PassMakes.spared (h : PassMakes E req cs w t) (hw : Awaiting req w)
    (hdel : Undeleted req w) : Spared t.op := by
  rcases h with ht | ht
  · have hmeets : Meets (Running (fun _ _ _ _ => True) fun w₁ op _ w₂ =>
        Undeleted req w₁ → Spared op ∧ Undeleted req w₂) (reconcile E req)
          (ReportTrue E req) w := by
      refine reconcile_guarded ⟨fun hop c r w₂ hc _ h₁ => ?_, fun hstart => ?_⟩
      · exact ⟨spared_of_call hw hdel h₁ hop, undeleted_of_answer hc h₁⟩
      · obtain ⟨ici, hin, -⟩ := hstart.object
        exact absurd hin.installs hw.not_installs
    have hbefore := hmeets.before cs (traceOk_true cs) (fun _ _ _ _ hI hg => (hg hI).2) hdel t ht
    exact (hmeets.trace cs (traceOk_true cs) t ht hbefore).1
  · exact spared_of_monitorCall hw ((monitor_calls E req w).trace cs (traceOk_true cs) t ht)

end Passes

/-! ## Runs -/

/-- The cluster, the worlds it went through, and the objects a restore has created whose status it
has not set yet. -/
structure Restored (B : Type) where
  world : World B
  past : List (World B) := []
  restoring : NamespacedName → Bool := fun _ => false

inductive RestoreEvent (B : Type) where
  | reconcilerPass (req : NamespacedName) (choices : List (Choice B))
  | monitorPass (req : NamespacedName) (choices : List (Choice B))
  | update (key : NamespacedName) (spec : Spec)
  | create (key : NamespacedName) (ici : ImageClusterInstall)
  | restoreStatus (key : NamespacedName) (status : Status)
  | others

/-- The state after some worlds. -/
def Restored.go (σ : Restored B) (through : List (World B)) (w : World B) : Restored B :=
  { σ with world := w, past := through ++ σ.world :: σ.past }

/-- What others do keeps the statuses and the labels of a restore. -/
def StatusKept (w w' : World B) : Prop :=
  ∀ key ici', w'.icis key = some ici' → ∃ ici, w.icis key = some ici ∧
    ici'.status = ici.status ∧ ici'.labels restoreSourceLabel = ici.labels restoreSourceLabel

section Runs

variable [DecidableEq B]

/-- The steps of a run. New objects have an empty status; those with the label of a restore wait for
one that was stored before. Passes may be cut short; others delete objects and change everything
else. -/
def RestoreEvent.Fires (E : Env B) (σ : Restored B) : RestoreEvent B → Restored B → Prop
  | .reconcilerPass req cs, σ' =>
    σ' = σ.go (((reconcile E req).trace answer cs σ.world).map (·.after))
      ((reconcile E req).exec answer cs σ.world).1
  | .monitorPass req cs, σ' =>
    σ' = σ.go (((monitor E req).run.trace answer cs σ.world).map (·.after))
      ((monitor E req).run.exec answer cs σ.world).1
  | .update key spec, σ' => ∃ ici, σ.world.icis key = some ici ∧
    validateUpdate E.parsers ici { ici with spec } = .ok () ∧
    σ' = σ.go [] (σ.world.setICI key (some { ici with spec }))
  | .create key ici, σ' => σ.world.icis key = none ∧ ici.status = {} ∧
    σ' = { σ.go [] (σ.world.setICI key (some ici)) with
      restoring := Function.update σ.restoring key (ici.labels restoreSourceLabel).isSome }
  | .restoreStatus key status, σ' => ∃ ici, σ.world.icis key = some ici ∧
    σ.restoring key = true ∧ status ≠ {} ∧
    (∃ w ∈ σ.past, ∃ k old, w.icis k = some old ∧ old.status = status) ∧
    σ' = { σ.go [] (σ.world.setICI key (some { ici with status })) with
      restoring := Function.update σ.restoring key false }
  | .others, σ' => ∃ w', StatusKept σ.world w' ∧ σ' = σ.go [] w'

/-- The states reached from a cluster without `ImageClusterInstall`s. -/
abbrev RestoreRun (E : Env B) : Restored B → Prop :=
  Reaches (RestoreEvent.Fires E) (fun _ _ => True) fun σ =>
    (∀ key, σ.world.icis key = none) ∧ σ.past = [] ∧ ∀ key, σ.restoring key = false

/-- The invariant of the runs. -/
structure RestoreSafe (σ : Restored B) : Prop where
  now : StartPaired σ.world
  past : ∀ w ∈ σ.past, StartPaired w
  awaiting : ∀ key, σ.restoring key = true → Awaiting key σ.world

variable {E : Env B} {σ σ' : Restored B}

omit [DecidableEq B] in
theorem RestoreSafe.seen (h : RestoreSafe σ) : ∀ w ∈ σ.world :: σ.past, StartPaired w := by
  intro w hw
  rcases List.mem_cons.1 hw with rfl | hw
  · exact h.now
  · exact h.past w hw

omit [DecidableEq B] in
theorem RestoreSafe.go {through : List (World B)} {w : World B} (h : RestoreSafe σ)
    (hthrough : ∀ w' ∈ through, StartPaired w') (hw : StartPaired w)
    (hawait : ∀ key, σ.restoring key = true → Awaiting key w) : RestoreSafe (σ.go through w) := by
  refine ⟨hw, fun w' hw' => ?_, hawait⟩
  rcases List.mem_append.1 hw' with hw' | hw'
  · exact hthrough w' hw'
  · exact h.seen w' hw'

omit [DecidableEq B] in
/-- The start stays paired when one object is replaced by another with a paired start. -/
theorem StartPaired.setICI {w : World B} {key : NamespacedName} {ici : ImageClusterInstall}
    (h : StartPaired w)
    (hici : ici.status.bootTime.isSome = true ↔ ici.status.bareMetalHostRef.isSome = true) :
    StartPaired (w.setICI key (some ici)) := by
  intro k ici' hk
  rcases setICI_some hk with ⟨-, heq⟩ | hk
  · obtain rfl : ici = ici' := Option.some.inj heq
    exact hici
  · exact h k ici' hk

omit [DecidableEq B] in
theorem Awaiting.setICI {w : World B} {key k : NamespacedName} {ici : ImageClusterInstall}
    (h : Awaiting k w)
    (hici : k = key → (ici.labels restoreSourceLabel).isSome = true ∧ ici.status = {}) :
    Awaiting k (w.setICI key (some ici)) := by
  intro ici' hk
  rcases setICI_some hk with ⟨rfl, heq⟩ | hk
  · obtain rfl : ici = ici' := Option.some.inj heq
    exact hici rfl
  · exact h ici' hk

/-- Every event keeps the invariant. -/
theorem RestoreSafe.step {ev : RestoreEvent B} (h : RestoreSafe σ) (hs : ev.Fires E σ σ') :
    RestoreSafe σ' := by
  cases ev with
  | reconcilerPass req cs =>
    cases hs
    refine h.go (fun w' hw' => ?_) ?_ fun key hkey => reconcile_awaiting (h.awaiting key hkey)
    · obtain ⟨t, ht, rfl⟩ := List.mem_map.1 hw'
      exact (PassMakes.start (.inl ht) h.now).1
    · exact reconcile_startSteps.last cs (traceOk_true cs) (fun _ _ _ _ hI hg => hg.paired hI) h.now
  | monitorPass req cs =>
    cases hs
    refine h.go (fun w' hw' => ?_) ?_ fun key hkey => monitor_awaiting (h.awaiting key hkey)
    · obtain ⟨t, ht, rfl⟩ := List.mem_map.1 hw'
      exact (PassMakes.start (E := E) (.inr ht) h.now).1
    · exact Meets.last monitor_startSteps cs (traceOk_true cs)
        (fun _ _ _ _ hI hg => hg.paired hI) h.now
  | update key spec =>
    obtain ⟨ici, hici, -, rfl⟩ := hs
    refine h.go (fun _ hw => nomatch hw) (h.now.setICI (h.now key ici hici)) fun k hk => ?_
    refine (h.awaiting k hk).setICI ?_
    rintro rfl
    exact h.awaiting k hk ici hici
  | create key ici =>
    obtain ⟨-, hempty, rfl⟩ := hs
    refine ⟨h.now.setICI (by simp [hempty]), h.seen, fun k hk => ?_⟩
    by_cases heq : k = key
    · subst heq
      intro ici' hici'
      obtain rfl : ici = ici' := by simpa [Restored.go, World.setICI] using hici'
      exact ⟨by simpa using hk, hempty⟩
    · refine (h.awaiting k ?_).setICI fun he => absurd he heq
      simpa [heq] using hk
  | restoreStatus key status =>
    obtain ⟨ici, -, -, -, ⟨w, hw, k, old, hold, rfl⟩, rfl⟩ := hs
    refine ⟨h.now.setICI (h.past w hw k old hold), h.seen, fun k' hk' => ?_⟩
    have hne : k' ≠ key := by
      rintro rfl
      simp at hk'
    refine (h.awaiting k' ?_).setICI fun he => absurd he hne
    simpa [hne] using hk'
  | others =>
    obtain ⟨w', hkept, rfl⟩ := hs
    refine h.go (fun _ hw => nomatch hw) (fun key ici' hici' => ?_) fun key hkey ici' hici' => ?_
    · obtain ⟨ici, hici, hstatus, -⟩ := hkept key ici' hici'
      rw [hstatus]
      exact h.now key ici hici
    · obtain ⟨ici, hici, hstatus, hlabel⟩ := hkept key ici' hici'
      rw [hstatus, hlabel]
      exact h.awaiting key hkey ici hici

theorem RestoreRun.safe (h : RestoreRun E σ) : RestoreSafe σ := by
  refine h.invariant (fun σ hσ => ?_) fun _ _ _ hI _ hs => hI.step hs
  obtain ⟨hicis, hpast, hrestoring⟩ := hσ
  refine ⟨fun key ici hici => ?_, fun w hw => ?_, fun key hkey => ?_⟩
  · rw [hicis key] at hici
    cases hici
  · rw [hpast] at hw
    cases hw
  · rw [hrestoring key] at hkey
    cases hkey

end Runs

theorem installation_start_recorded [DecidableEq B] (E : Env B) (σ : Restored B)
    (h : RestoreRun E σ) :
    StartPaired σ.world ∧
    (∀ req cs, ((monitor E req).run.exec answer cs σ.world).2 ≠ some (.error .panic)) ∧
    (∀ req cs t, PassMakes E req cs σ.world t → StartKept t.before t.after) ∧
    (∀ req, σ.restoring req = true → Undeleted req σ.world →
      ∀ cs t, PassMakes E req cs σ.world t → Spared t.op) := by
  have hsafe := h.safe
  refine ⟨hsafe.now, fun req cs hpanic => ?_, fun req cs t ht => (ht.start hsafe.now).2,
    fun req hreq hdel cs t ht => ht.spared (hsafe.awaiting req hreq) hdel⟩
  have hpost := Meets.exec monitor_startSteps cs (traceOk_true cs) hpanic
  obtain ⟨ici, hici, hboot, hnone⟩ := hpost rfl
  have href := (hsafe.now req ici hici).1 hboot
  rw [hnone] at href
  cases href

/-! ## A restored installation -/

theorem RestoreRun.step [DecidableEq B] {E : Env B} {σ σ' : Restored B} (h : RestoreRun E σ)
    (ev : RestoreEvent B) (hs : ev.Fires E σ σ') : RestoreRun E σ' :=
  .next h trivial hs

/-- The installation under way when the backup is taken. -/
def backupWorld : World Doc :=
  samplePass sampleKey slowly
    (samplePass sampleKey slowly (sampleWorld.setICI sampleKey (some sampleICI)))

/-- The object as the restore creates it. -/
def restoredICI : ImageClusterInstall :=
  { sampleICI with labels := fun key => if key = restoreSourceLabel then some "daily" else none }

theorem installation_start_recorded_restored :
    ∃ (σ : Restored Doc) (ici : ImageClusterInstall), σ.world.icis sampleKey = some ici ∧
      (ici.labels restoreSourceLabel).isSome = true ∧ ici.status.bootTime.isSome = true ∧
      StartPaired σ.world ∧
      (∀ req cs, ((monitor Env.symbolic req).run.exec answer cs σ.world).2 ≠
        some (.error .panic)) ∧
      (∀ req cs t, PassMakes Env.symbolic req cs σ.world t → StartKept t.before t.after) := by
  have hbooted : (backupWorld.icis sampleKey).any fun ici => ici.status.bootTime.isSome := by
    decide +kernel
  obtain ⟨old, hold, hboot⟩ := (Option.any_eq_true _ _).1 hbooted
  have hbackup : ∃ σ, RestoreRun Env.symbolic σ ∧ σ.world = backupWorld := by
    have h₀ : RestoreRun Env.symbolic { world := sampleWorld } :=
      .start ⟨fun _ => rfl, rfl, fun _ => rfl⟩
    exact ⟨_, ((h₀.step (.create sampleKey sampleICI) ⟨rfl, rfl, rfl⟩).step
      (.reconcilerPass sampleKey slowly) rfl).step (.reconcilerPass sampleKey slowly) rfl, rfl⟩
  obtain ⟨σ, h₁, hworld⟩ := hbackup
  -- the cluster is lost, and the restore creates the object again
  have h₂ := h₁.step .others
    ⟨{ backupWorld with icis := fun _ => none }, fun _ _ h => (nomatch h), rfl⟩
  have h₃ := h₂.step (.create sampleKey restoredICI) ⟨rfl, rfl, rfl⟩
  have h₄ := h₃.step (.restoreStatus sampleKey old.status)
    ⟨restoredICI, by simp [Restored.go, World.setICI], by simp [restoredICI], ?_,
      ⟨backupWorld, by simp [Restored.go, hworld], sampleKey, old, hold, rfl⟩, rfl⟩
  · obtain ⟨hpaired, hpanic, hkept, -⟩ := installation_start_recorded Env.symbolic _ h₄
    exact ⟨_, { restoredICI with status := old.status }, by simp [Restored.go, World.setICI],
      by simp [restoredICI], hboot, hpaired, hpanic, hkept⟩
  · intro he
    rw [he] at hboot
    cases hboot

/-! ## An update during a pass -/

def Spec.unplaced (s : Spec) : Spec := { s with bareMetalHostRef := none }

/-- The pass that boots the host has read it when the spec stops naming one. -/
def unplacedDuring : Passes Doc :=
  sampleMoves (List.replicate 100 (.call 1 { elapsed := 1 }))
    { firstCalls 16 with world := (firstCalls 16).world.edit sampleKey Spec.unplaced }

/-- The pass goes on with the host it has read and records the reference of its refreshed copy: the
boot time goes without a host, and the next pass of the monitor dereferences a nil pointer. -/
theorem start_unpaired_by_update :
    (firstCalls 16).world.admits Env.symbolic sampleKey Spec.unplaced = true ∧
    EditedRun Env.symbolic (fun _ _ => True) sampleStart unplacedDuring ∧
    ¬StartPaired unplacedDuring.world ∧
    ((monitor Env.symbolic sampleKey).run.exec answer instantly unplacedDuring.world).2 =
      some (.error .panic) := by
  have hadmitted : (firstCalls 16).world.admits Env.symbolic sampleKey Spec.unplaced = true := by
    decide +kernel
  have hrun : EditedRun Env.symbolic (fun _ _ => True) sampleStart unplacedDuring :=
    .sampleMoves (fun _ _ _ => trivial)
      (.edit (.sampleMoves (fun _ _ _ => trivial) (.start rfl) _) hadmitted fun _ => trivial) _
  have hunpaired : (unplacedDuring.world.icis sampleKey).any fun ici =>
      ici.status.bootTime.isSome && ici.status.bareMetalHostRef.isNone := by decide +kernel
  refine ⟨hadmitted, hrun, fun hpaired => ?_, by decide +kernel⟩
  obtain ⟨ici, hici, hstart⟩ := (Option.any_eq_true _ _).1 hunpaired
  obtain ⟨hboot, hnone⟩ := Bool.and_eq_true_iff.1 hstart
  have href := (hpaired sampleKey ici hici).1 hboot
  rw [Option.isNone_iff_eq_none.1 hnone] at href
  cases href

end ImageBasedInstall

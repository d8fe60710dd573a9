import ImageBasedInstall.Verify.Boot
import ImageBasedInstall.Verify.Interleaving

/-!
# Condition updates of interleaved passes

A status patch carries the whole condition list if the pass changed it in its copy, so it also
writes back the other controller's conditions as they were when that copy was made. If every such
patch is made from an up-to-date copy then no update is lost; otherwise a pass of the reconciler can
take back the end of the installation.
-/

namespace ImageBasedInstall

open Interactive Patch

variable {B : Type}

/-- The condition list a call in the history stored. -/
def conditionsStored (key : NamespacedName) (m : Made (Op B) (World B) (Choice B) Request) :
    Option (List Condition) :=
  storedConditions key m.op m.choice m.before

/-- The list of the latest successful condition patch of a controller. -/
def latestConditions (who : Controller) (key : NamespacedName)
    (history : List (Made (Op B) (World B) (Choice B) Request)) : Option (List Condition) :=
  history.findSome? fun m => if m.tag.controller = who then conditionsStored key m else none

/-- The condition patch a thread is about to make is made from an up-to-date copy of the list. -/
def upToDate (cfg : Passes B) : Label (Choice B) Request Unit → Bool
  | .call i c =>
    match cfg.threads i with
    | some ⟨_, _, .call (.patchICIStatus key base new) _⟩ =>
      decide (new.status.conditions = base.status.conditions) || !c.effective ||
        (cfg.world.icis key).all fun stored => stored.status.conditions == base.status.conditions
    | _ => true
  | _ => true

/-- The entry is the initial one, or was added by the initialisation. -/
def AsInitially (initial : List Condition) (T : ConditionType) (conds : List Condition) : Prop :=
  findCondition conds T = findCondition initial T ∨
    findCondition initial T = none ∧
      ∃ c, findCondition conds T = some c ∧ c.SaysAs (initialCondition T)

/-- The completion was stored at some time: initially, or by one of the patches. -/
def WasCompleted (initial : List Condition) (key : NamespacedName)
    (history : List (Made (Op B) (World B) (Choice B) Request)) : Prop :=
  Completed initial ∨ ∃ m ∈ history, ∃ reported, conditionsStored key m = some reported ∧
    Completed reported

/-- No condition update is lost: the stored install conditions are those of the monitor's latest
patch, the stored RequirementsMet is that of the reconciler's latest patch, and a completed
installation stays completed. -/
structure NothingLost (initial : List Condition) (key : NamespacedName)
    (history : List (Made (Op B) (World B) (Choice B) Request)) (conds : List Condition) :
    Prop where
  install : ∀ T ∈ installTypes,
    match latestConditions .monitor key history with
    | some reported => findCondition conds T = findCondition reported T
    | none => AsInitially initial T conds
  requirements :
    match latestConditions .reconciler key history with
    | some reported =>
      findCondition conds .requirementsMet = findCondition reported .requirementsMet
    | none => findCondition conds .requirementsMet = findCondition initial .requirementsMet
  completed : WasCompleted initial key history → Completed conds

/-! ## The patches -/

/-- A status patch carries no conditions, or those its controller makes of its copy. -/
def ConditionShape (req : Request) (_ : Calls B) : Op B → Prop
  | .patchICIStatus key base new =>
    key = req.key ∧ (new.status.conditions ≠ base.status.conditions →
      match req.controller with
      | .reconciler => ReconcilerEdit base.status.conditions new.status.conditions
      | .monitor => installationCompleted base = false ∧
        ∃ conds, MonitorReport conds ∧ Sets conds base.status.conditions new.status.conditions)
  | _ => True

theorem conditionShape_other (req : Request) (l : Calls B) (op : Op B) (h : op.target ≠ .ici) :
    ConditionShape req l op := by
  cases op with
  | patchICIStatus key base new => exact absurd rfl h
  | _ => trivial

theorem conditionShape_passRules (key : NamespacedName) :
    PassRules (B := B) key (fun _ _ => True) (ConditionShape ⟨.reconciler, key⟩) where
  other := conditionShape_other _
  object _ _ _ _ _ := trivial
  conditions _ _ _ _ he := ⟨rfl, fun _ => he⟩
  boot _ _ _ _ _ _ _ _ _ := ⟨rfl, fun h => absurd rfl h⟩
  edited _ _ _ _ _ := trivial

theorem conditionShape_monitorRules (key : NamespacedName) :
    MonitorRules (B := B) key (fun _ _ => True) (ConditionShape ⟨.monitor, key⟩) where
  other := conditionShape_other _
  report _ _ _ _ _ hrun hr hs := ⟨rfl, fun _ => ⟨hrun, _, hr, hs⟩⟩

/-! ## What a patch keeps -/

/-- `NothingLost`, and the monitor has stored all of its three conditions. -/
structure Tracked (initial : List Condition) (key : NamespacedName)
    (history : List (Made (Op B) (World B) (Choice B) Request)) (conds : List Condition) : Prop
    extends NothingLost initial key history conds where
  present : ∀ reported, latestConditions .monitor key history = some reported →
    ∀ T ∈ installTypes, (findCondition reported T).isSome

section Track

variable {initial old conds : List Condition} {key : NamespacedName} {T : ConditionType}
  {history : List (Made (Op B) (World B) (Choice B) Request)}
  {m : Made (Op B) (World B) (Choice B) Request}

theorem latestConditions_skip (hm : conditionsStored key m = none) (who : Controller) :
    latestConditions who key (m :: history) = latestConditions who key history := by
  simp [latestConditions, hm]

theorem latestConditions_other {who : Controller} (hm : m.tag.controller ≠ who) :
    latestConditions who key (m :: history) = latestConditions who key history := by
  simp [latestConditions, hm]

theorem latestConditions_own {who : Controller} (hwho : m.tag.controller = who)
    (hm : conditionsStored key m = some conds) :
    latestConditions who key (m :: history) = some conds := by
  simp [latestConditions, hwho, hm]

theorem wasCompleted_cons : WasCompleted initial key (m :: history) ↔
    WasCompleted initial key history ∨
      ∃ reported, conditionsStored key m = some reported ∧ Completed reported := by
  simp only [WasCompleted, List.exists_mem_cons_iff]
  rw [or_assoc]
  exact or_congr_right or_comm

theorem Tracked.start (initial : List Condition) (key : NamespacedName) :
    Tracked (B := B) initial key [] initial where
  install _ _ := .inl rfl
  requirements := rfl
  completed h := h.resolve_right fun ⟨_, hm, _⟩ => nomatch hm
  present _ h := nomatch h

theorem Tracked.skip (h : Tracked initial key history conds)
    (hm : conditionsStored key m = none) : Tracked initial key (m :: history) conds where
  install T hT := by
    rw [latestConditions_skip hm]
    exact h.install T hT
  requirements := by
    rw [latestConditions_skip hm]
    exact h.requirements
  completed hwas := h.completed ((wasCompleted_cons.1 hwas).resolve_right (by simp [hm]))
  present reported hr := by
    rw [latestConditions_skip hm] at hr
    exact h.present reported hr

theorem AsInitially.edit (h : AsInitially initial T old) (he : ReconcilerEdit old conds)
    (hT : T ∈ installTypes) : AsInitially initial T conds := by
  rcases he.install hT with heq | ⟨hnone, hadded⟩
  · unfold AsInitially
    rwa [heq]
  · rcases h with hsame | ⟨-, c, hc, -⟩
    · exact .inr ⟨hsame.symm.trans hnone, hadded⟩
    · rw [hnone] at hc
      cases hc

/-- The reconciler keeps an install condition that is there. -/
theorem ReconcilerEdit.keeps {c : Condition} (he : ReconcilerEdit old conds)
    (hT : T ∈ installTypes) (hc : findCondition old T = some c) :
    findCondition conds T = some c := by
  rcases he.install hT with heq | ⟨hnone, -⟩
  · exact heq.trans hc
  · rw [hnone] at hc
    cases hc

theorem Tracked.reconciler (h : Tracked initial key history old)
    (hm : conditionsStored key m = some conds) (hwho : m.tag.controller = .reconciler)
    (he : ReconcilerEdit old conds) : Tracked initial key (m :: history) conds := by
  have hother : m.tag.controller ≠ .monitor := by rw [hwho]; decide
  refine ⟨⟨fun T hT => ?_, ?_, fun hwas => ?_⟩, fun reported hr => ?_⟩
  · rw [latestConditions_other hother]
    have hold := h.install T hT
    cases hl : latestConditions .monitor key history with
    | none =>
      rw [hl] at hold
      exact AsInitially.edit hold he hT
    | some reported =>
      rw [hl] at hold
      obtain ⟨c, hc⟩ := Option.isSome_iff_exists.1 (h.present reported hl T hT)
      exact (he.keeps hT (hold.trans hc)).trans hc.symm
  · rw [latestConditions_own hwho hm]
  · rcases wasCompleted_cons.1 hwas with hbefore | ⟨reported, hr, hdone⟩
    · obtain ⟨c, hc, htrue⟩ := h.completed hbefore
      exact ⟨c, he.keeps (by decide) hc, htrue⟩
    · rw [hm] at hr
      cases hr
      exact hdone
  · rw [latestConditions_other hother] at hr
    exact h.present reported hr

theorem Tracked.monitor (h : Tracked initial key history old)
    (hm : conditionsStored key m = some conds) (hwho : m.tag.controller = .monitor)
    (hrun : ¬Completed old) {report : List Condition} (hr : MonitorReport report)
    (hs : Sets report old conds) : Tracked initial key (m :: history) conds := by
  have hother : m.tag.controller ≠ .reconciler := by rw [hwho]; decide
  have hpresent : ∀ T ∈ installTypes, (findCondition conds T).isSome := by
    intro T hT
    rw [← hr.types] at hT
    obtain ⟨d, hd, rfl⟩ := List.mem_map.1 hT
    obtain ⟨c, hc, -⟩ := hs.find hr.nodup hd
    simp [hc]
  refine ⟨⟨fun T hT => ?_, ?_, fun hwas => ?_⟩, fun reported hrep => ?_⟩
  · rw [latestConditions_own hwho hm]
  · rw [latestConditions_other hother, hs.other (by rw [hr.types]; decide)]
    exact h.requirements
  · rcases wasCompleted_cons.1 hwas with hbefore | ⟨reported, hrep, hdone⟩
    · exact absurd (h.completed hbefore) hrun
    · rw [hm] at hrep
      cases hrep
      exact hdone
  · rw [latestConditions_own hwho hm] at hrep
    cases hrep
    exact hpresent

end Track

/-! ## Runs -/

/-- Others leave the conditions of the stored objects alone and create no object. -/
def KeepsConditions (w w' : World B) : Prop :=
  ∀ key ici', w'.icis key = some ici' →
    ∃ ici, w.icis key = some ici ∧ ici'.status.conditions = ici.status.conditions

variable [DecidableEq B]

/-- Interleaved passes over current reads, with others acting in between. -/
abbrev LiveRun (E : Env B) (cond : Passes B → Label (Choice B) Request Unit → Prop)
    (w₀ : World B) :=
  Reaches (Sched answer (controllerPass E) fun w (_ : Unit) w' => KeepsConditions w w') cond
    (fun cfg => cfg = { world := w₀ })

section Runs

variable {E : Env B} {cond : Passes B → Label (Choice B) Request Unit → Prop} {w₀ : World B}
  {cfg : Passes B}

/-- Every call a thread is about to make has the shape of its controller's calls. -/
theorem LiveRun.shape (h : LiveRun E cond w₀ cfg) {i : Nat} {req : Request} {log : Calls B}
    {op : Op B} {k : Resp op → Program B Unit} (hi : cfg.threads i = some ⟨req, log, .call op k⟩) :
    ConditionShape req log op := by
  have hinv := Sched.invariant (I := fun _ => True)
    (T := fun _ t => Meets (.logged (CopyReplies t.tag.key fun _ _ => True) (ConditionShape t.tag))
      t.prog (fun _ _ => True) t.log) h ?_ ?_ ?_ ?_ ?_
  · exact call_allowed (hinv.2 i _ hi)
  · rintro cfg rfl
    exact ⟨trivial, fun _ => rfl⟩
  · rintro w ⟨controller, key⟩ -
    refine controllerPass_copy E (fun hc => ?_) fun hc => ?_
    · obtain rfl : controller = .reconciler := hc
      exact conditionShape_passRules key
    · obtain rfl : controller = .monitor := hc
      exact conditionShape_monitorRules key
  · exact fun _ _ _ => logged_ret.2 trivial
  · intro cfg i tag log op k c _ _ _ hT
    exact ⟨trivial, call_next hT (copyReplies_of_after rfl fun _ _ => trivial), fun _ => id⟩
  · exact fun _ _ _ _ _ _ => ⟨trivial, fun _ _ _ => id⟩

omit [DecidableEq B] in
/-- The copy a condition patch is made from has the stored list. -/
theorem upToDate_base {i : Nat} {req : Request} {log : Calls B} {key : NamespacedName}
    {base new stored : ImageClusterInstall} {k : Except Err ImageClusterInstall → Program B Unit}
    {c : Choice B} (h : upToDate cfg (.call i c) = true)
    (hi : cfg.threads i = some ⟨req, log, .call (.patchICIStatus key base new) k⟩)
    (hne : new.status.conditions ≠ base.status.conditions) (hc : c.effective = true)
    (hs : cfg.world.icis key = some stored) :
    stored.status.conditions = base.status.conditions := by
  simpa [upToDate, hi, hne, hc, hs] using h

end Runs

theorem condition_updates_kept (E : Env B) (w₀ : World B) (key : NamespacedName)
    (ici₀ : ImageClusterInstall) (h₀ : w₀.icis key = some ici₀) (cfg : Passes B)
    (h : LiveRun E (fun cfg lab => upToDate cfg lab = true) w₀ cfg) (ici : ImageClusterInstall)
    (hici : cfg.world.icis key = some ici) :
    NothingLost ici₀.status.conditions key cfg.history ici.status.conditions := by
  suffices htracked : ∀ ici, cfg.world.icis key = some ici →
      Tracked ici₀.status.conditions key cfg.history ici.status.conditions from
    (htracked ici hici).toNothingLost
  refine h.induct (I := fun cfg => ∀ ici, cfg.world.icis key = some ici →
    Tracked ici₀.status.conditions key cfg.history ici.status.conditions) ?_ ?_
  · rintro cfg rfl ici hici
    obtain rfl : ici₀ = ici := Option.some.inj (h₀.symm.trans hici)
    exact .start ..
  · intro cfg lab cfg' hr hI hcond hs ici' hici'
    cases hs with
    | spawn tag hnone => exact hI ici' hici'
    | stop hi => exact hI ici' hici'
    | env henv =>
      obtain ⟨ici, hici, heq⟩ := henv key ici' hici'
      rw [heq]
      exact hI ici hici
    | @call i req log op k c hi =>
      have hafter := conditions_after hici'
      cases hm : storedConditions key op c cfg.world with
      | none =>
        rw [hm] at hafter
        obtain ⟨ici, hici, heq⟩ := hafter
        rw [heq]
        exact (hI ici hici).skip hm
      | some conds =>
        rw [hm] at hafter
        obtain ⟨base, new, stored, rfl, hne, hc, hstored, rfl⟩ := storedConditions_some hm
        -- the patch was made from the stored list, so it keeps the other controller's conditions
        have hbase := upToDate_base hcond hi hne hc hstored
        have hold := hI stored hstored
        have hshape := (LiveRun.shape hr hi).2 hne
        rw [hbase] at hold
        rw [show ici'.status.conditions = new.status.conditions from hafter]
        obtain ⟨controller, key'⟩ := req
        cases controller with
        | reconciler => exact hold.reconciler hm rfl hshape
        | monitor =>
          obtain ⟨hrun, report, hreport, hsets⟩ := hshape
          exact hold.monitor hm rfl (not_completed_of hrun) hreport hsets

/-! ## A run of both controllers -/

/-- A pass of the reconciler that fails to get the cluster deployment, after its first read. -/
def failingSteps : List (Label (Choice Doc) Request Unit) :=
  .call 0 { ending := .fail "timeout" } :: List.replicate 100 (.call 0 { elapsed := 1 })

/-- A pass of the monitor that finds the cluster installed. -/
def installedSteps : List (Label (Choice Doc) Request Unit) :=
  passSteps 1 100 ⟨.monitor, sampleKey⟩ { status := ⟨true, ""⟩ }

def readSteps : List (Label (Choice Doc) Request Unit) :=
  passSteps 0 1 ⟨.reconciler, sampleKey⟩ { elapsed := 1 }

/-- One pass after the other. -/
def sampleInTurn : Passes Doc :=
  Config.moves answer (controllerPass Env.symbolic) upToDate
    (readSteps ++ failingSteps ++ installedSteps) { world := startedWorld }

theorem condition_updates_kept_sample :
    ∃ ici₀ ici, startedWorld.icis sampleKey = some ici₀ ∧
      sampleInTurn.world.icis sampleKey = some ici ∧ Completed ici.status.conditions ∧
      (latestConditions .reconciler sampleKey sampleInTurn.history).isSome ∧
      NothingLost ici₀.status.conditions sampleKey sampleInTurn.history ici.status.conditions := by
  have hrun : LiveRun Env.symbolic (fun cfg lab => upToDate cfg lab = true) startedWorld
      sampleInTurn :=
    Reaches.moves (fun _ _ => id) _ (.start rfl)
  have hstart : (startedWorld.icis sampleKey).isSome := by decide +kernel
  have hend : (sampleInTurn.world.icis sampleKey).any fun ici =>
      Completed ici.status.conditions := by decide +kernel
  obtain ⟨ici₀, h₀⟩ := Option.isSome_iff_exists.1 hstart
  obtain ⟨ici, hici, hdone⟩ := (Option.any_eq_true _ _).1 hend
  exact ⟨ici₀, ici, h₀, hici, of_decide_eq_true hdone, by decide +kernel,
    condition_updates_kept Env.symbolic startedWorld sampleKey ici₀ h₀ _ hrun ici hici⟩

/-- The monitor's pass falls between the first read and the patch of the reconciler's. -/
def sampleInterleaved : Passes Doc :=
  Config.moves answer (controllerPass Env.symbolic) (fun _ _ => true)
    (readSteps ++ installedSteps ++ failingSteps) { world := startedWorld }

/-- The reconciler stores its copy of the conditions over the report that the installation is
complete. -/
theorem completion_taken_back :
    ∃ ici₀ ici, startedWorld.icis sampleKey = some ici₀ ∧
      LiveRun Env.symbolic (fun _ _ => True) startedWorld sampleInterleaved ∧
      sampleInterleaved.world.icis sampleKey = some ici ∧
      ¬NothingLost ici₀.status.conditions sampleKey sampleInterleaved.history
        ici.status.conditions := by
  have hrun : LiveRun Env.symbolic (fun _ _ => True) startedWorld sampleInterleaved :=
    Reaches.moves (fun _ _ _ => trivial) _ (.start rfl)
  have hstart : (startedWorld.icis sampleKey).isSome := by decide +kernel
  have hend : (sampleInterleaved.world.icis sampleKey).any fun ici =>
      ¬Completed ici.status.conditions := by decide +kernel
  have hreported : sampleInterleaved.history.any fun m =>
      (conditionsStored sampleKey m).any fun reported => Completed reported := by decide +kernel
  obtain ⟨ici₀, h₀⟩ := Option.isSome_iff_exists.1 hstart
  obtain ⟨ici, hici, hopen⟩ := (Option.any_eq_true _ _).1 hend
  obtain ⟨m, hm, hstored⟩ := List.any_eq_true.1 hreported
  obtain ⟨reported, hr, hdone⟩ := (Option.any_eq_true _ _).1 hstored
  refine ⟨ici₀, ici, h₀, hrun, hici, fun hkept => ?_⟩
  have hwas : WasCompleted ici₀.status.conditions sampleKey sampleInterleaved.history :=
    .inr ⟨m, hm, reported, hr, of_decide_eq_true hdone⟩
  exact of_decide_eq_true hopen (hkept.completed hwas)

end ImageBasedInstall

import ImageBasedInstall.Controllers.Conditions

/-!
# Condition lists

What the condition functions do to a list, entry by entry: setting a condition leaves the other
types alone, the reconciler's initialisation adds what is missing, and the monitor's functions
replace the three install conditions together. `Coherent` is the invariant of stored lists.
-/

namespace ImageBasedInstall

/-! ## Setting one condition -/

section Set

variable {t : Time} {cs : List Condition} {new : Condition} {T : ConditionType}

theorem updateWith_type (t : Time) (new existing : Condition) :
    (Condition.updateWith t new existing).type = existing.type := rfl

theorem updateFirst_types (f : Condition → Condition) (hf : ∀ c, (f c).type = c.type)
    (cs : List Condition) : (updateFirst T f cs).map Condition.type = cs.map Condition.type := by
  induction cs with
  | nil => rfl
  | cons c cs ih =>
    unfold updateFirst
    split
    · simp [hf]
    · simp [ih]

theorem findCondition_updateFirst_ne {T' : ConditionType} (f : Condition → Condition)
    (hf : ∀ c, (f c).type = c.type) (hne : T ≠ T') (cs : List Condition) :
    findCondition (updateFirst T' f cs) T = findCondition cs T := by
  induction cs with
  | nil => rfl
  | cons c cs ih =>
    unfold updateFirst
    unfold findCondition at ih ⊢
    split
    · next hc =>
      have hcT : ¬c.type = T := fun h => hne (h.symm.trans hc)
      simp [hf, hcT]
    · simp only [List.find?_cons, ih]

theorem findCondition_updateFirst_self (f : Condition → Condition)
    (hf : ∀ c, (f c).type = c.type) (cs : List Condition) :
    findCondition (updateFirst T f cs) T = (findCondition cs T).map f := by
  induction cs with
  | nil => rfl
  | cons c cs ih =>
    unfold updateFirst
    unfold findCondition at ih ⊢
    split
    · next hc => simp [hf, hc]
    · next hc => simp [hc, ih]

/-- Without the flag the list is the old one. -/
theorem set_unchanged (h : (setClusterInstallCondition t cs new).2 = false) :
    (setClusterInstallCondition t cs new).1 = cs := by
  unfold setClusterInstallCondition at h ⊢
  split at h
  · cases h
  · next existing hfind =>
    split at h
    · next hsame => simp only [if_pos hsame]
    · cases h

/-- Other types are left alone. -/
theorem findCondition_set_ne (hne : T ≠ new.type) :
    findCondition (setClusterInstallCondition t cs new).1 T = findCondition cs T := by
  unfold setClusterInstallCondition
  split
  · have hne' : ¬new.type = T := fun h => hne h.symm
    simp [findCondition, List.find?_append, hne']
  · split
    · rfl
    · exact findCondition_updateFirst_ne _ (updateWith_type t new) hne cs

/-- The entry of the type has the new status, reason and message. -/
theorem findCondition_set_self (t : Time) (cs : List Condition) (new : Condition) :
    ∃ c, findCondition (setClusterInstallCondition t cs new).1 new.type = some c ∧
      c.status = new.status ∧ c.reason = new.reason ∧ c.message = new.message := by
  unfold setClusterInstallCondition
  split
  · next hnone =>
    refine ⟨{ new with lastTransitionTime := t, lastProbeTime := t }, ?_, rfl, rfl, rfl⟩
    have hnone : cs.find? (fun c => c.type == new.type) = none := hnone
    simp [findCondition, List.find?_append, hnone]
  · next existing hsome =>
    split
    · next hsame => exact ⟨existing, hsome, hsame⟩
    · refine ⟨Condition.updateWith t new existing, ?_, rfl, rfl, rfl⟩
      rw [findCondition_updateFirst_self _ (updateWith_type t new), hsome]
      rfl

theorem findCondition_eq_none : findCondition cs T = none ↔ T ∉ cs.map Condition.type := by
  simp [findCondition]

/-- A list with one entry per type keeps one entry per type. -/
theorem nodup_set (h : (cs.map Condition.type).Nodup) :
    ((setClusterInstallCondition t cs new).1.map Condition.type).Nodup := by
  unfold setClusterInstallCondition
  split
  · next hnone =>
    have hnot := findCondition_eq_none.1 hnone
    simp only [List.map_append, List.map_cons, List.map_nil]
    rw [List.nodup_append]
    refine ⟨h, by simp, fun a ha b hb hab => hnot ?_⟩
    obtain rfl : b = new.type := by simpa using hb
    exact hab ▸ ha
  · split
    · exact h
    · rw [updateFirst_types _ (updateWith_type t new)]
      exact h

end Set

/-! ## Setting several conditions -/

/-- `c` has the status, the reason and the message of `d`. -/
def Condition.SaysAs (c d : Condition) : Prop :=
  c.status = d.status ∧ c.reason = d.reason ∧ c.message = d.message

/-- `cs'` results from setting the conditions `todo`, one after the other, each at some time. -/
inductive Sets : List Condition → List Condition → List Condition → Prop where
  | nil (cs : List Condition) : Sets [] cs cs
  | cons {c : Condition} {todo cs cs' : List Condition} (t : Time)
    (h : Sets todo (setClusterInstallCondition t cs c).1 cs') : Sets (c :: todo) cs cs'

/-- The same, but conditions whose type is there already are left as they are. -/
inductive Adds : List Condition → List Condition → List Condition → Prop where
  | nil (cs : List Condition) : Adds [] cs cs
  | skip {c : Condition} {todo cs cs' : List Condition} (hc : (findCondition cs c.type).isSome)
    (h : Adds todo cs cs') : Adds (c :: todo) cs cs'
  | cons {c : Condition} {todo cs cs' : List Condition} (t : Time)
    (hc : findCondition cs c.type = none)
    (h : Adds todo (setClusterInstallCondition t cs c).1 cs') : Adds (c :: todo) cs cs'

section Several

variable {todo cs cs' : List Condition} {T : ConditionType}

theorem Sets.nodup (h : Sets todo cs cs') (hcs : (cs.map Condition.type).Nodup) :
    (cs'.map Condition.type).Nodup := by
  induction h with
  | nil cs => exact hcs
  | cons t _ ih => exact ih (nodup_set hcs)

theorem Sets.other (h : Sets todo cs cs') (hT : T ∉ todo.map Condition.type) :
    findCondition cs' T = findCondition cs T := by
  induction h with
  | nil cs => rfl
  | cons t _ ih =>
    rw [List.map_cons, List.mem_cons, not_or] at hT
    rw [ih hT.2, findCondition_set_ne hT.1]

theorem Sets.find (h : Sets todo cs cs') (hnodup : (todo.map Condition.type).Nodup)
    {d : Condition} (hd : d ∈ todo) : ∃ c, findCondition cs' d.type = some c ∧ c.SaysAs d := by
  induction h with
  | nil cs => cases hd
  | @cons new todo cs cs' t h ih =>
    rw [List.map_cons, List.nodup_cons] at hnodup
    rcases List.mem_cons.1 hd with rfl | hd
    · obtain ⟨c, hc, hsays⟩ := findCondition_set_self t cs d
      exact ⟨c, (h.other hnodup.1).trans hc, hsays⟩
    · exact ih hnodup.2 hd

theorem Adds.nodup (h : Adds todo cs cs') (hcs : (cs.map Condition.type).Nodup) :
    (cs'.map Condition.type).Nodup := by
  induction h with
  | nil cs => exact hcs
  | skip _ _ ih => exact ih hcs
  | cons t _ _ ih => exact ih (nodup_set hcs)

/-- An entry that is there stays as it is. -/
theorem Adds.kept (h : Adds todo cs cs') {c : Condition} (hc : findCondition cs T = some c) :
    findCondition cs' T = some c := by
  induction h with
  | nil cs => exact hc
  | skip _ _ ih => exact ih hc
  | @cons new todo cs cs' t hnone _ ih =>
    have hne : T ≠ new.type := by
      rintro rfl
      rw [hnone] at hc
      cases hc
    exact ih ((findCondition_set_ne hne).trans hc)

/-- An entry that is missing is added. -/
theorem Adds.added (h : Adds todo cs cs') (hc : findCondition cs T = none)
    (hT : T ∈ todo.map Condition.type) :
    ∃ c, findCondition cs' T = some c ∧ ∃ d ∈ todo, d.type = T ∧ c.SaysAs d := by
  induction h with
  | nil cs => cases hT
  | @skip new todo cs cs' hsome h ih =>
    rw [List.map_cons, List.mem_cons] at hT
    rcases hT with rfl | hT
    · rw [hc] at hsome
      cases hsome
    · obtain ⟨c, hfind, d, hd, hsays⟩ := ih hc hT
      exact ⟨c, hfind, d, List.mem_cons_of_mem _ hd, hsays⟩
  | @cons new todo cs cs' t hnone h ih =>
    by_cases hnew : T = new.type
    · obtain ⟨c, hfind, hsays⟩ := findCondition_set_self t cs new
      rw [← hnew] at hfind
      exact ⟨c, h.kept hfind, new, List.mem_cons_self .., hnew.symm, hsays⟩
    · rw [List.map_cons, List.mem_cons] at hT
      obtain ⟨c, hfind, d, hd, hsays⟩ :=
        ih ((findCondition_set_ne hnew).trans hc) (hT.resolve_left hnew)
      exact ⟨c, hfind, d, List.mem_cons_of_mem _ hd, hsays⟩

end Several

/-! ## The two controllers -/

/-- The reconciler's changes of a list: its initialisation, and its own condition. -/
inductive ReconcilerEdit (cs : List Condition) : List Condition → Prop where
  | init {cs' : List Condition} (h : Adds initialConditions cs cs') : ReconcilerEdit cs cs'
  | requirements (t : Time) (status : ConditionStatus) (reason message : String) :
    ReconcilerEdit cs
      (setClusterInstallCondition t cs { type := .requirementsMet, status, reason, message }).1

/-- The three reports of the monitor. -/
inductive MonitorReport : List Condition → Prop where
  | installing (message : String) : MonitorReport (installingConditions message)
  | timeout (timeout : String) : MonitorReport (timeoutConditions timeout)
  | installed : MonitorReport installedConditions

/-- The installation is reported as completed. -/
def Completed (conds : List Condition) : Prop :=
  ∃ c, findCondition conds .completed = some c ∧ c.status = .true

instance (conds : List Condition) : Decidable (Completed conds) :=
  decidable_of_iff ((findCondition conds .completed).any fun c => c.status = .true) (by
    simp [Completed, Option.any_eq_true])

theorem not_completed_of {ici : ImageClusterInstall} (h : installationCompleted ici = false) :
    ¬Completed ici.status.conditions := by
  rintro ⟨c, hc, htrue⟩
  simp [installationCompleted, hc, htrue] at h

/-- The types the monitor reports. -/
def installTypes : List ConditionType := [.completed, .stopped, .failed]

theorem MonitorReport.types {conds : List Condition} (h : MonitorReport conds) :
    conds.map Condition.type = installTypes := by
  cases h <;> rfl

theorem MonitorReport.nodup {conds : List Condition} (h : MonitorReport conds) :
    (conds.map Condition.type).Nodup := by
  rw [h.types]
  decide

section Edits

variable {cs cs' conds : List Condition} {T : ConditionType}

theorem ReconcilerEdit.nodup (h : ReconcilerEdit cs cs') (hcs : (cs.map Condition.type).Nodup) :
    (cs'.map Condition.type).Nodup := by
  cases h with
  | init h => exact h.nodup hcs
  | requirements t status reason message => exact nodup_set hcs

theorem Adds.initial (h : Adds initialConditions cs cs') (hT : T ∈ installTypes)
    (hnone : findCondition cs T = none) :
    ∃ c, findCondition cs' T = some c ∧ c.SaysAs (initialCondition T) := by
  have hmem : T ∈ initialConditions.map Condition.type := by
    simp only [installTypes, List.mem_cons, List.not_mem_nil, or_false] at hT
    rcases hT with rfl | rfl | rfl <;> decide
  obtain ⟨c, hc, d, hd, rfl, hsays⟩ := h.added hnone hmem
  have hdi : d = initialCondition d.type := by
    simp only [initialConditions, List.mem_cons, List.not_mem_nil, or_false] at hd
    rcases hd with rfl | rfl | rfl | rfl <;> rfl
  exact ⟨c, hc, hdi ▸ hsays⟩

theorem findCondition_requirements {t : Time} {status : ConditionStatus} {reason message : String}
    (hT : T ∈ installTypes) :
    findCondition (setClusterInstallCondition t cs
      { type := .requirementsMet, status, reason, message }).1 T = findCondition cs T := by
  have hne : T ≠ .requirementsMet := by
    rintro rfl
    revert hT
    decide
  exact findCondition_set_ne hne

/-- The reconciler leaves the install conditions as they are, or adds them with unknown status. -/
theorem ReconcilerEdit.install (h : ReconcilerEdit cs cs') (hT : T ∈ installTypes) :
    findCondition cs' T = findCondition cs T ∨
      findCondition cs T = none ∧
        ∃ c, findCondition cs' T = some c ∧ c.SaysAs (initialCondition T) := by
  cases h with
  | init h =>
    cases hfind : findCondition cs T with
    | some c => exact .inl (h.kept hfind)
    | none => exact .inr ⟨rfl, h.initial hT hfind⟩
  | requirements t status reason message => exact .inl (findCondition_requirements hT)

end Edits

/-! ## Coherent lists -/

/-- The reasons of the install conditions, with the statuses of Completed, Stopped and Failed. -/
def installReasons : List (String × ConditionStatus × ConditionStatus × ConditionStatus) :=
  [("Unknown", .unknown, .unknown, .unknown),
   ("ClusterInstallationInProgress", .false, .false, .false),
   ("ClusterInstallationTimedOut", .false, .false, .true),
   ("ClusterInstallationSucceeded", .true, .true, .false)]

/-- No entry of the three types, or all three with one reason that fixes their statuses. -/
def InstallCoherent (cs : List Condition) : Prop :=
  (∀ T ∈ installTypes, findCondition cs T = none) ∨
  ∃ completed stopped failed reason,
    findCondition cs .completed = some completed ∧ findCondition cs .stopped = some stopped ∧
    findCondition cs .failed = some failed ∧
    completed.reason = reason ∧ stopped.reason = reason ∧ failed.reason = reason ∧
    (reason, completed.status, stopped.status, failed.status) ∈ installReasons

structure Coherent (cs : List Condition) : Prop where
  nodup : (cs.map Condition.type).Nodup
  install : InstallCoherent cs

theorem coherent_nil : Coherent [] := ⟨List.nodup_nil, .inl fun _ _ => rfl⟩

section Coherence

variable {cs cs' conds : List Condition}

theorem InstallCoherent.of_eq (h : InstallCoherent cs)
    (heq : ∀ T ∈ installTypes, findCondition cs' T = findCondition cs T) : InstallCoherent cs' := by
  rcases h with h | h
  · exact .inl fun T hT => (heq T hT).trans (h T hT)
  · right
    rwa [heq _ (by decide), heq _ (by decide), heq _ (by decide)]

/-- A list in which all three conditions are reported at once. -/
theorem InstallCoherent.of_common (completed stopped failed : Condition) (reason : String)
    (hfind : ∀ d ∈ [completed, stopped, failed],
      ∃ c, findCondition cs d.type = some c ∧ c.SaysAs d)
    (htypes : [completed, stopped, failed].map Condition.type = installTypes)
    (hreasons : ∀ d ∈ [completed, stopped, failed], d.reason = reason)
    (hmem : (reason, completed.status, stopped.status, failed.status) ∈ installReasons) :
    InstallCoherent cs := by
  simp only [List.map_cons, List.map_nil, installTypes, List.cons.injEq, and_true] at htypes
  obtain ⟨hct, hst, hft⟩ := htypes
  obtain ⟨c, hc, hcs, hcr, -⟩ := hfind completed (by simp)
  obtain ⟨s, hs, hss, hsr, -⟩ := hfind stopped (by simp)
  obtain ⟨f, hf, hfs, hfr, -⟩ := hfind failed (by simp)
  rw [hct] at hc
  rw [hst] at hs
  rw [hft] at hf
  refine .inr ⟨c, s, f, reason, hc, hs, hf, ?_, ?_, ?_, ?_⟩
  · exact hcr.trans (hreasons completed (by simp))
  · exact hsr.trans (hreasons stopped (by simp))
  · exact hfr.trans (hreasons failed (by simp))
  · rwa [hcs, hss, hfs]

theorem Coherent.reconcilerEdit (h : Coherent cs) (he : ReconcilerEdit cs cs') : Coherent cs' := by
  refine ⟨he.nodup h.nodup, ?_⟩
  cases he with
  | requirements t status reason message =>
    exact h.install.of_eq fun T hT => findCondition_requirements hT
  | init he =>
    rcases h.install with habsent | ⟨c, s, f, _, hc, hs, hf, -⟩
    · -- all three are missing and all three are added
      refine .of_common (initialCondition .completed) (initialCondition .stopped)
        (initialCondition .failed) "Unknown" ?_ rfl (by decide) (by decide)
      intro d hd
      simp only [List.mem_cons, List.not_mem_nil, or_false] at hd
      rcases hd with rfl | rfl | rfl
      · exact he.initial (by decide) (habsent _ (by decide))
      · exact he.initial (by decide) (habsent _ (by decide))
      · exact he.initial (by decide) (habsent _ (by decide))
    · refine h.install.of_eq fun T hT => ?_
      simp only [installTypes, List.mem_cons, List.not_mem_nil, or_false] at hT
      rcases hT with rfl | rfl | rfl
      · rw [he.kept hc, hc]
      · rw [he.kept hs, hs]
      · rw [he.kept hf, hf]

theorem Coherent.monitorReport (h : Coherent cs) (hr : MonitorReport conds)
    (hsets : Sets conds cs cs') : Coherent cs' := by
  refine ⟨hsets.nodup h.nodup, ?_⟩
  have hfind : ∀ d ∈ conds, ∃ c, findCondition cs' d.type = some c ∧ c.SaysAs d :=
    fun d hd => hsets.find hr.nodup hd
  cases hr with
  | installing message =>
    exact .of_common _ _ _ installInProgressReason hfind rfl (by simp)
      (by simp [installReasons, installInProgressReason])
  | timeout timeout =>
    exact .of_common _ _ _ installTimedoutReason hfind rfl (by simp)
      (by simp [installReasons, installTimedoutReason])
  | installed =>
    exact .of_common _ _ _ installSucceededReason hfind rfl (by simp)
      (by simp [installReasons, installSucceededReason])

/-- Completed and failed exclude each other. -/
theorem Coherent.not_both (h : Coherent cs) :
    ¬∃ completed failed, findCondition cs .completed = some completed ∧
      findCondition cs .failed = some failed ∧
      completed.status = .true ∧ failed.status = .true := by
  rintro ⟨completed, failed, hc, hf, hct, hft⟩
  rcases h.install with habsent | ⟨c, s, f, reason, hc', -, hf', -, -, -, hmem⟩
  · rw [habsent .completed (by decide)] at hc
    cases hc
  · obtain rfl : completed = c := Option.some.inj (hc.symm.trans hc')
    obtain rfl : failed = f := Option.some.inj (hf.symm.trans hf')
    rw [hct, hft] at hmem
    simp [installReasons] at hmem

end Coherence

end ImageBasedInstall

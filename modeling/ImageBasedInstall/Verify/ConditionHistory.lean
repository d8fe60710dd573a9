import ImageBasedInstall.Interactive.Reach
import ImageBasedInstall.Verify.Conditions

/-!
# Histories of a condition list

A condition list after any sequence of calls of `setClusterInstallCondition`. It is a map whose keys
stand in the order of their first appearance, the flag of a call says whether the map has changed,
and the two times of an entry tell the latest call that moved its status and the latest call that
changed anything in it.
-/

namespace ImageBasedInstall

open Interactive

/-- A call of `setClusterInstallCondition`, with the time it reads. -/
structure SetCall where
  now : Time
  newCondition : Condition

namespace SetCall

/-- The list after the call. -/
def next (conditions : List Condition) (call : SetCall) : List Condition :=
  (setClusterInstallCondition call.now conditions call.newCondition).1

/-- The flag the call returns. -/
def updated (conditions : List Condition) (call : SetCall) : Bool :=
  (setClusterInstallCondition call.now conditions call.newCondition).2

/-- The time of a call that creates the entry of a type or changes its status. -/
def transition (T : ConditionType) (conditions : List Condition) (call : SetCall) : Option Time :=
  if call.newCondition.type = T ∧
      (findCondition conditions T).map Condition.status ≠ some call.newCondition.status then
    some call.now
  else none

/-- The time of a call on a type that returns true. -/
def probe (T : ConditionType) (conditions : List Condition) (call : SetCall) : Option Time :=
  if call.newCondition.type = T ∧ call.updated conditions = true then some call.now else none

/-- What a call owes to its caller. -/
structure Honest (conditions : List Condition) (call : SetCall) : Prop where
  written : ∃ c, findCondition (call.next conditions) call.newCondition.type = some c ∧
    c.SaysAs call.newCondition
  others : (call.next conditions).filter (·.type ≠ call.newCondition.type) =
    conditions.filter (·.type ≠ call.newCondition.type)
  updated_iff : call.updated conditions = true ↔
    findCondition conditions call.newCondition.type = none ∨
    ∃ c, findCondition conditions call.newCondition.type = some c ∧ ¬c.SaysAs call.newCondition
  unchanged : call.updated conditions = false → call.next conditions = conditions

end SetCall

/-! ## One call -/

section Call

variable {cs : List Condition} {call : SetCall} {T : ConditionType}

/-- What a call can do: append an entry, nothing, or rewrite the entry of its type. -/
inductive SetCall.Does (cs : List Condition) (call : SetCall) : Prop where
  | appends (hfind : findCondition cs call.newCondition.type = none)
    (hflag : call.updated cs = true)
    (hnext : call.next cs = cs ++ [{ call.newCondition with
      lastTransitionTime := call.now, lastProbeTime := call.now }])
  | nothing {c : Condition} (hfind : findCondition cs call.newCondition.type = some c)
    (hsame : c.SaysAs call.newCondition) (hflag : call.updated cs = false)
    (hnext : call.next cs = cs)
  | rewrites {c : Condition} (hfind : findCondition cs call.newCondition.type = some c)
    (hdiffers : ¬c.SaysAs call.newCondition) (hflag : call.updated cs = true)
    (hnext : call.next cs =
      updateFirst call.newCondition.type (.updateWith call.now call.newCondition) cs)

theorem SetCall.does (cs : List Condition) (call : SetCall) : call.Does cs := by
  cases hfind : findCondition cs call.newCondition.type with
  | none =>
    have hset : setClusterInstallCondition call.now cs call.newCondition =
        (cs ++ [{ call.newCondition with
          lastTransitionTime := call.now, lastProbeTime := call.now }], true) := by
      rw [setClusterInstallCondition, hfind]
    exact .appends hfind (congrArg Prod.snd hset) (congrArg Prod.fst hset)
  | some c =>
    by_cases hsame : c.SaysAs call.newCondition
    · have hset : setClusterInstallCondition call.now cs call.newCondition = (cs, false) := by
        rw [setClusterInstallCondition, hfind]
        exact if_pos hsame
      exact .nothing hfind hsame (congrArg Prod.snd hset) (congrArg Prod.fst hset)
    · have hset : setClusterInstallCondition call.now cs call.newCondition =
          (updateFirst call.newCondition.type (.updateWith call.now call.newCondition) cs,
            true) := by
        rw [setClusterInstallCondition, hfind]
        exact if_neg hsame
      exact .rewrites hfind hsame (congrArg Prod.snd hset) (congrArg Prod.fst hset)

theorem filter_updateFirst {f : Condition → Condition} (hf : ∀ c, (f c).type = c.type)
    (cs : List Condition) :
    (updateFirst T f cs).filter (·.type ≠ T) = cs.filter (·.type ≠ T) := by
  induction cs with
  | nil => rfl
  | cons c cs ih =>
    unfold updateFirst
    split
    · next hc => simp [hf, hc]
    · simp only [List.filter_cons, ih]

theorem SetCall.honest (cs : List Condition) (call : SetCall) : call.Honest cs := by
  refine ⟨findCondition_set_self _ _ _, ?_, ?_, set_unchanged⟩
  · cases call.does cs with
    | appends _ _ hnext => simp [hnext]
    | nothing _ _ _ hnext => rw [hnext]
    | rewrites _ _ _ hnext => rw [hnext, filter_updateFirst (updateWith_type _ _)]
  · cases call.does cs with
    | appends hfind hflag _ => simp [hfind, hflag]
    | nothing hfind hsame hflag _ => simp [hfind, hflag, hsame]
    | rewrites hfind hdiffers hflag _ => simp [hfind, hflag, hdiffers]

/-- The types after a call: a new type comes last. -/
theorem SetCall.types_next (cs : List Condition) (call : SetCall) :
    (call.next cs).map Condition.type =
      if call.newCondition.type ∈ cs.map Condition.type then cs.map Condition.type
      else cs.map Condition.type ++ [call.newCondition.type] := by
  have hmem : ∀ {c}, findCondition cs call.newCondition.type = some c →
      call.newCondition.type ∈ cs.map Condition.type := by
    intro c hfind
    by_contra hnot
    rw [findCondition_eq_none.2 hnot] at hfind
    cases hfind
  cases call.does cs with
  | appends hfind _ hnext =>
    rw [hnext, if_neg (findCondition_eq_none.1 hfind)]
    simp
  | nothing hfind _ _ hnext => rw [hnext, if_pos (hmem hfind)]
  | rewrites hfind _ _ hnext =>
    rw [hnext, if_pos (hmem hfind), updateFirst_types _ (updateWith_type _ _)]

/-- The transition time of an entry is overwritten by the calls that move its status. -/
theorem SetCall.lastTransitionTime_next (T : ConditionType) (cs : List Condition) (call : SetCall) :
    (findCondition (call.next cs) T).map Condition.lastTransitionTime =
      (call.transition T cs).or ((findCondition cs T).map Condition.lastTransitionTime) := by
  by_cases hT : T = call.newCondition.type
  · subst hT
    cases call.does cs with
    | appends hfind _ hnext =>
      have hfind' : cs.find? (fun c => c.type == call.newCondition.type) = none := hfind
      simp [SetCall.transition, hnext, findCondition, List.find?_append, hfind']
    | nothing hfind hsame _ hnext => simp [SetCall.transition, hnext, hfind, hsame.1]
    | @rewrites c hfind _ _ hnext =>
      rw [hnext, findCondition_updateFirst_self _ (updateWith_type _ _), hfind]
      by_cases hstatus : c.status = call.newCondition.status
      · simp [SetCall.transition, Condition.updateWith, hfind, hstatus]
      · simp [SetCall.transition, Condition.updateWith, hfind, hstatus]
  · have hT' : ¬call.newCondition.type = T := fun h => hT h.symm
    rw [SetCall.next, findCondition_set_ne hT]
    simp [SetCall.transition, hT']

/-- The probe time of an entry is overwritten by the calls on it that return true. -/
theorem SetCall.lastProbeTime_next (T : ConditionType) (cs : List Condition) (call : SetCall) :
    (findCondition (call.next cs) T).map Condition.lastProbeTime =
      (call.probe T cs).or ((findCondition cs T).map Condition.lastProbeTime) := by
  by_cases hT : T = call.newCondition.type
  · subst hT
    cases call.does cs with
    | appends hfind hflag hnext =>
      have hfind' : cs.find? (fun c => c.type == call.newCondition.type) = none := hfind
      simp [SetCall.probe, hflag, hnext, findCondition, List.find?_append, hfind']
    | nothing _ _ hflag hnext => simp [SetCall.probe, hflag, hnext]
    | rewrites hfind _ hflag hnext =>
      rw [hnext, findCondition_updateFirst_self _ (updateWith_type _ _), hfind]
      simp [SetCall.probe, hflag, Condition.updateWith]
  · have hT' : ¬call.newCondition.type = T := fun h => hT h.symm
    rw [SetCall.next, findCondition_set_ne hT]
    simp [SetCall.probe, hT']

end Call

/-! ## Histories -/

/-- The list after the calls of a history. -/
def setConditions (conditions : List Condition) (calls : List SetCall) : List Condition :=
  calls.foldl SetCall.next conditions

section History

variable {cs : List Condition}

theorem eraseDups_of_nodup {α : Type} [DecidableEq α] {l : List α} (h : l.Nodup) :
    l.eraseDups = l := by
  induction l with
  | nil => rfl
  | cons a l ih =>
    rw [List.nodup_cons] at h
    have hfilter : l.filter (fun b => !b == a) = l := by
      rw [List.filter_eq_self]
      intro b hb
      simpa using ne_of_mem_of_not_mem hb h.1
    rw [List.eraseDups_cons, hfilter, ih h.2]

theorem eraseDups_append_cons_of_mem {α : Type} [DecidableEq α] {a : α} {l r : List α} (h : a ∈ l) :
    (l ++ a :: r).eraseDups = (l ++ r).eraseDups := by
  have hdrop : (a :: r).removeAll l = r.removeAll l := by simp [List.removeAll, h]
  rw [List.eraseDups_append, List.eraseDups_append, hdrop]

theorem setConditions_types (hcs : (cs.map Condition.type).Nodup) (calls : List SetCall) :
    (setConditions cs calls).map Condition.type =
      (cs.map Condition.type ++ calls.map fun call => call.newCondition.type).eraseDups := by
  induction calls generalizing cs with
  | nil =>
    rw [List.map_nil, List.append_nil, eraseDups_of_nodup hcs]
    rfl
  | cons call calls ih =>
    have htail : (setConditions (call.next cs) calls).map Condition.type = _ := ih (nodup_set hcs)
    rw [setConditions, List.foldl_cons, ← setConditions, htail, call.types_next, List.map_cons]
    split
    · next hmem => rw [eraseDups_append_cons_of_mem hmem]
    · rw [List.append_assoc, List.singleton_append]

theorem setConditions_nodup (hcs : (cs.map Condition.type).Nodup) (calls : List SetCall) :
    ((setConditions cs calls).map Condition.type).Nodup := by
  induction calls generalizing cs with
  | nil => exact hcs
  | cons call calls ih => exact ih (nodup_set hcs)

theorem setConditions_lastTransitionTime (T : ConditionType) (cs : List Condition)
    (calls : List SetCall) :
    (findCondition (setConditions cs calls) T).map Condition.lastTransitionTime =
      (latest SetCall.next (SetCall.transition T) cs calls).or
        ((findCondition cs T).map Condition.lastTransitionTime) :=
  register_foldl (fun cs => (findCondition cs T).map Condition.lastTransitionTime)
    (SetCall.lastTransitionTime_next T) calls cs

theorem setConditions_lastProbeTime (T : ConditionType) (cs : List Condition)
    (calls : List SetCall) :
    (findCondition (setConditions cs calls) T).map Condition.lastProbeTime =
      (latest SetCall.next (SetCall.probe T) cs calls).or
        ((findCondition cs T).map Condition.lastProbeTime) :=
  register_foldl (fun cs => (findCondition cs T).map Condition.lastProbeTime)
    (SetCall.lastProbeTime_next T) calls cs

/-- With one entry per type, an entry is found under its type. -/
theorem findCondition_of_mem (hcs : (cs.map Condition.type).Nodup) {c : Condition} (hc : c ∈ cs) :
    findCondition cs c.type = some c := by
  induction cs with
  | nil => cases hc
  | cons d cs ih =>
    rw [List.map_cons, List.nodup_cons] at hcs
    rcases List.mem_cons.1 hc with rfl | hc
    · simp [findCondition]
    · have hne : ¬d.type = c.type := fun h => hcs.1 (h ▸ List.mem_map_of_mem hc)
      have htail := ih hcs.2 hc
      unfold findCondition at htail ⊢
      simp [hne, htail]

end History

/-- A list with one entry per type behaves as a map over every history of calls, and its times are
those of the latest calls that changed an entry. -/
theorem conditions_behave_as_map (cs : List Condition) (hcs : (cs.map Condition.type).Nodup)
    (calls : List SetCall) :
    (setConditions cs calls).map Condition.type =
      (cs.map Condition.type ++ calls.map fun call => call.newCondition.type).eraseDups ∧
    ((setConditions cs calls).map Condition.type).Nodup ∧
    (∀ before call after, calls = before ++ call :: after → call.Honest (setConditions cs before)) ∧
    ∀ c ∈ setConditions cs calls,
      some c.lastTransitionTime = (latest SetCall.next (SetCall.transition c.type) cs calls).or
        ((findCondition cs c.type).map Condition.lastTransitionTime) ∧
      some c.lastProbeTime = (latest SetCall.next (SetCall.probe c.type) cs calls).or
        ((findCondition cs c.type).map Condition.lastProbeTime) := by
  refine ⟨setConditions_types hcs calls, setConditions_nodup hcs calls,
    fun before call _ _ => call.honest _, fun c hc => ?_⟩
  have hfind := findCondition_of_mem (setConditions_nodup hcs calls) hc
  constructor
  · rw [← setConditions_lastTransitionTime, hfind]
    rfl
  · rw [← setConditions_lastProbeTime, hfind]
    rfl

/-- The installation is reported, completed, and reported as completed again. -/
theorem conditions_behave_as_map_sample :
    let cs := [initialCondition .failed]
    let calls : List SetCall := [⟨1, initialCondition .completed⟩,
      ⟨2, { initialCondition .completed with status := .true }⟩,
      ⟨3, { initialCondition .completed with status := .true }⟩]
    ((setConditions cs calls).map Condition.type).Nodup ∧
    ∀ c ∈ setConditions cs calls, some c.lastTransitionTime =
      (latest SetCall.next (SetCall.transition c.type) cs calls).or
        ((findCondition cs c.type).map Condition.lastTransitionTime) := by
  intro cs calls
  obtain ⟨-, hnodup, -, htimes⟩ := conditions_behave_as_map cs (by decide) calls
  exact ⟨hnodup, fun c hc => (htimes c hc).1⟩

end ImageBasedInstall

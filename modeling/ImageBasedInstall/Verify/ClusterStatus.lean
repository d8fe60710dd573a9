import ImageBasedInstall.ClusterStatus

/-!
# When a cluster counts as installed

The verdict of `getClusterInstallStatus` in terms of what the three reads reply. The loop over the
nodes looks for `Ready` conditions that are not true, so a node that has no `Ready` condition, as
one whose kubelet has not reported yet, counts as ready.
-/

namespace ImageBasedInstall

/-- The first `Available` condition is true, and some condition changed late enough. -/
structure VersionAvailable (created : Time) (cv : ClusterVersion) : Prop where
  available : ∃ cond, cv.conditions.find? (·.type = operatorAvailable) = some cond ∧
    cond.status = conditionTrue
  started : ∃ cond ∈ cv.conditions, created - 60 * 60 < cond.lastTransitionTime

/-- No `Ready` condition of the node is other than true. -/
def Node.neverUnready (node : Node) : Prop :=
  ∀ cond ∈ node.conditions, cond.type = nodeReady → cond.status = conditionTrue

def Node.reportsReady (node : Node) : Prop := ∃ cond ∈ node.conditions, cond.type = nodeReady

/-! ## The loops -/

theorem didCVOStarted_iff {cv : ClusterVersion} {created : Time} :
    didCVOStarted cv created = true ↔
      ∃ cond ∈ cv.conditions, created - 60 * 60 < cond.lastTransitionTime := by
  simp [didCVOStarted]

theorem availableStatus_iff {cv : ClusterVersion} {created : Time} (conds : List ClusterCondition) :
    (availableStatus cv created conds).1 = true ↔
      (∃ cond, conds.find? (·.type = operatorAvailable) = some cond ∧ cond.status = conditionTrue) ∧
      didCVOStarted cv created = true := by
  induction conds with
  | nil => simp [availableStatus]
  | cons cond conds ih =>
    by_cases htype : cond.type = operatorAvailable
    · by_cases hstarted : didCVOStarted cv created = true
      · by_cases hstatus : cond.status = conditionTrue
        · simp [availableStatus, htype, hstarted, hstatus]
        · simp [availableStatus, htype, hstarted, hstatus]
      · simp [availableStatus, htype, hstarted]
    · simp only [availableStatus, htype, if_false, ih, List.find?_cons, decide_false]

theorem checkNodeCondition_iff {node : Node} {acc : Bool × List String} {cond : ClusterCondition} :
    (checkNodeCondition node acc cond).1 = true ↔
      acc.1 = true ∧ (cond.type = nodeReady → cond.status = conditionTrue) := by
  unfold checkNodeCondition
  by_cases htype : cond.type = nodeReady
  · by_cases hstatus : cond.status = conditionTrue
    · simp [htype, hstatus]
    · simp [htype, hstatus]
  · simp [htype]

theorem checkNode_iff {node : Node} {acc : Bool × List String} :
    (checkNode acc node).1 = true ↔ acc.1 = true ∧ node.neverUnready := by
  unfold checkNode Node.neverUnready
  generalize node.conditions = conds
  induction conds generalizing acc with
  | nil => simp
  | cons cond conds ih =>
    rw [List.foldl_cons, ih, checkNodeCondition_iff, List.forall_mem_cons, and_assoc]

theorem checkNodes_iff {nodes : List Node} {acc : Bool × List String} :
    (nodes.foldl checkNode acc).1 = true ↔ acc.1 = true ∧ ∀ node ∈ nodes, node.neverUnready := by
  induction nodes generalizing acc with
  | nil => simp
  | cons node nodes ih => rw [List.foldl_cons, ih, checkNode_iff, List.forall_mem_cons, and_assoc]

/-! ## The verdict -/

theorem clusterVersionStatus_true {c : SpokeClient} {created : Time} :
    (∃ text, clusterVersionStatus c created = .ok (true, text)) ↔
      ∃ cv, c.getClusterVersion "version" = .ok cv ∧ VersionAvailable created cv := by
  unfold clusterVersionStatus
  cases hcv : c.getClusterVersion "version" with
  | error e => simp [bind, Except.bind]
  | ok cv =>
    have hiff : (availableStatus cv created cv.conditions).1 = true ↔ _ :=
      availableStatus_iff cv.conditions
    rw [didCVOStarted_iff] at hiff
    constructor
    · rintro ⟨text, htext⟩
      have hfst : (availableStatus cv created cv.conditions).1 = true :=
        congrArg Prod.fst (Except.ok.inj htext)
      exact ⟨cv, rfl, (hiff.1 hfst).1, (hiff.1 hfst).2⟩
    · rintro ⟨cv', hcv', havailable, hstarted⟩
      cases hcv'
      exact ⟨_, congrArg Except.ok (Prod.ext (hiff.2 ⟨havailable, hstarted⟩) rfl)⟩

theorem nodesStatus_true {c : SpokeClient} :
    (∃ text, nodesStatus c = .ok (true, text)) ↔
      ∃ nodes, c.listNodes = .ok nodes ∧ nodes ≠ [] ∧ ∀ node ∈ nodes, node.neverUnready := by
  unfold nodesStatus
  cases hnodes : c.listNodes with
  | error e => simp [bind, Except.bind]
  | ok nodes =>
    by_cases hnil : nodes = []
    · simp [bind, Except.bind, pure, Except.pure, hnil]
    · have hready : (nodes.foldl checkNode (true, [])).1 = true ↔ _ := checkNodes_iff
      simp [bind, Except.bind, pure, Except.pure, hnil, hready]

theorem installed_true {c : SpokeClient} :
    (getClusterInstallStatus c).installed = true ↔
      ∃ created, c.getConfigMap ibioStartTimeCM = .ok created ∧
        (∃ text, clusterVersionStatus c created = .ok (true, text)) ∧
        ∃ text, nodesStatus c = .ok (true, text) := by
  unfold getClusterInstallStatus getIBIOStartTime
  cases c.getConfigMap ibioStartTimeCM with
  | error e => simp
  | ok created =>
    dsimp only
    cases hversion : clusterVersionStatus c created with
    | error e => simp [hversion]
    | ok version =>
      cases hnodes : nodesStatus c with
      | error e => simp
      | ok nodes => simp [hversion, Prod.ext_iff]

/-- What the verdict stands for. -/
def ClusterInstalled (c : SpokeClient) : Prop :=
  ∃ created cv nodes, c.getConfigMap ibioStartTimeCM = .ok created ∧
    c.getClusterVersion "version" = .ok cv ∧ c.listNodes = .ok nodes ∧
    VersionAvailable created cv ∧ nodes ≠ [] ∧
    ∀ node ∈ nodes, node.reportsReady ∧ node.neverUnready

/-- Some read fails. -/
def ReadFails (c : SpokeClient) : Prop :=
  ∃ e, c.getConfigMap ibioStartTimeCM = .error e ∨ c.getClusterVersion "version" = .error e ∨
    c.listNodes = .error e

theorem ReadFails.not_installed {c : SpokeClient} (h : ReadFails c) :
    (getClusterInstallStatus c).installed = false := by
  rw [← Bool.not_eq_true, installed_true]
  rintro ⟨created, hcreated, hversion, hnodes⟩
  obtain ⟨cv, hcv, -⟩ := clusterVersionStatus_true.1 hversion
  obtain ⟨nodes, hlist, -⟩ := nodesStatus_true.1 hnodes
  obtain ⟨e, h | h | h⟩ := h
  · simp [hcreated] at h
  · simp [hcv] at h
  · simp [hlist] at h

/-- A cluster counts as installed exactly when it is, and never after a failed read, if and only if
no node without a `Ready` condition is all that is missing. -/
theorem installed_iff (c : SpokeClient) :
    (((getClusterInstallStatus c).installed = true ↔ ClusterInstalled c) ∧
      (ReadFails c → (getClusterInstallStatus c).installed = false)) ↔
    ∀ created cv nodes, c.getConfigMap ibioStartTimeCM = .ok created →
      c.getClusterVersion "version" = .ok cv → c.listNodes = .ok nodes →
      VersionAvailable created cv → (∀ node ∈ nodes, node.neverUnready) →
      ∀ node ∈ nodes, node.reportsReady := by
  rw [and_iff_left ReadFails.not_installed, installed_true]
  constructor
  · intro h created cv nodes hcreated hcv hnodes hversion hready node hnode
    have hne : nodes ≠ [] := List.ne_nil_of_mem hnode
    obtain ⟨_, _, nodes', -, -, hnodes', -, -, hall⟩ := h.1 ⟨created, hcreated,
      clusterVersionStatus_true.2 ⟨cv, hcv, hversion⟩,
      nodesStatus_true.2 ⟨nodes, hnodes, hne, hready⟩⟩
    obtain rfl : nodes = nodes' := Except.ok.inj (hnodes.symm.trans hnodes')
    exact (hall node hnode).1
  · intro h
    constructor
    · rintro ⟨created, hcreated, hversion, hnodes⟩
      obtain ⟨cv, hcv, hversion⟩ := clusterVersionStatus_true.1 hversion
      obtain ⟨nodes, hlist, hne, hready⟩ := nodesStatus_true.1 hnodes
      have hreports := h created cv nodes hcreated hcv hlist hversion hready
      exact ⟨created, cv, nodes, hcreated, hcv, hlist, hversion, hne, fun node hnode =>
        ⟨hreports node hnode, hready node hnode⟩⟩
    · rintro ⟨created, cv, nodes, hcreated, hcv, hlist, hversion, hne, hall⟩
      exact ⟨created, hcreated, clusterVersionStatus_true.2 ⟨cv, hcv, hversion⟩,
        nodesStatus_true.2 ⟨nodes, hlist, hne, fun node hnode => (hall node hnode).2⟩⟩

/-- A cluster whose version is available and whose only node has not reported yet. -/
def silentNode : SpokeClient where
  getConfigMap _ := .ok 7200
  getClusterVersion _ := .ok ⟨[⟨operatorAvailable, conditionTrue, "", "", 7200⟩]⟩
  listNodes := .ok [⟨"sno", []⟩]

theorem silent_node_installed :
    (getClusterInstallStatus silentNode).installed = true ∧ ¬ClusterInstalled silentNode := by
  refine ⟨by decide, ?_⟩
  rintro ⟨created, cv, nodes, -, -, hnodes, -, -, hall⟩
  obtain rfl : [⟨"sno", []⟩] = nodes := Except.ok.inj hnodes
  obtain ⟨⟨cond, hcond, -⟩, -⟩ := hall _ (List.mem_singleton_self _)
  cases hcond

end ImageBasedInstall

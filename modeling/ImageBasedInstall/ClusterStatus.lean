import ImageBasedInstall.Cluster.World

/-!
# The status of an installed cluster

`internal/monitor/monitor.go` decides from three reads of the spoke cluster whether its installation
has finished. Types and statuses of conditions are open strings of the API.
-/

namespace ImageBasedInstall

/-- The fields of `configv1.ClusterOperatorStatusCondition` and `corev1.NodeCondition` that are
read. -/
structure ClusterCondition where
  type : String
  status : String
  reason : String := ""
  message : String := ""
  lastTransitionTime : Time := 0
  deriving DecidableEq, Repr

/-- `configv1.ClusterVersion`. -/
structure ClusterVersion where
  conditions : List ClusterCondition
  deriving DecidableEq, Repr

/-- `corev1.Node`. -/
structure Node where
  name : String
  conditions : List ClusterCondition
  deriving DecidableEq, Repr

/-- A client of the spoke cluster: what each of its reads replies. A config map is reduced to its
creation timestamp. -/
structure SpokeClient where
  getConfigMap : NamespacedName → Except Err Time
  getClusterVersion : String → Except Err ClusterVersion
  listNodes : Except Err (List Node)

def nodesReadyMessage := "All nodes are ready"
def clusterVersionAvailableMessage := "ClusterVersion is available"
def clusterVersionNotAvailableMessage := "ClusterVersion is not yet available due to stale data"
def ibioStartTimeCM : NamespacedName := ⟨"openshift-config", "ibi-monitor-cm"⟩
def operatorAvailable := "Available"
def nodeReady := "Ready"
def conditionTrue := "True"

structure ClusterInstallStatus where
  installed : Bool
  clusterVersionStatus : String
  nodesStatus : String := ""
  deriving DecidableEq, Repr

def ClusterInstallStatus.toString (status : ClusterInstallStatus) : String :=
  "Cluster is " ++ (if status.installed then "installed" else "installing") ++
    "\nClusterVersion Status: " ++ status.clusterVersionStatus ++
    "\nNodes Status: " ++ status.nodesStatus

/-- What the monitor's `spokeStatus` call replies. -/
def ClusterInstallStatus.report (status : ClusterInstallStatus) : InstallStatus :=
  ⟨status.installed, status.toString⟩

def getIBIOStartTime (c : SpokeClient) : Except Err Time := c.getConfigMap ibioStartTimeCM

/-- Some condition has changed since an hour before the reconfiguration started. -/
def didCVOStarted (cv : ClusterVersion) (reconfigurationStartTime : Time) : Bool :=
  let startTime := reconfigurationStartTime - 60 * 60
  cv.conditions.any fun cond => startTime < cond.lastTransitionTime

/-- The loop of `clusterVersionStatus`, left at the first `Available` condition. -/
def availableStatus (cv : ClusterVersion) (reconfigurationStartTime : Time) :
    List ClusterCondition → Bool × String
  | [] => (false, "ClusterVersion Available condition not found")
  | cond :: conds =>
    if cond.type = operatorAvailable then
      if !didCVOStarted cv reconfigurationStartTime then (false, clusterVersionNotAvailableMessage)
      else if cond.status = conditionTrue then (true, clusterVersionAvailableMessage)
      else (false, "ClusterVersion is not yet available because " ++ cond.reason ++ ": " ++
        cond.message)
    else availableStatus cv reconfigurationStartTime conds

def clusterVersionStatus (c : SpokeClient) (reconfigurationStartTime : Time) :
    Except Err (Bool × String) := do
  let cv ← c.getClusterVersion "version"
  return availableStatus cv reconfigurationStartTime cv.conditions

/-- The inner loop body of `nodesStatus`. -/
def checkNodeCondition (node : Node) (acc : Bool × List String) (cond : ClusterCondition) :
    Bool × List String :=
  if cond.type = nodeReady then
    if cond.status ≠ conditionTrue then
      (false, acc.2 ++ ["Node " ++ node.name ++ " is not yet ready because " ++
        cond.reason ++ ": " ++ cond.message])
    else acc
  else acc

/-- The outer loop body of `nodesStatus`. -/
def checkNode (acc : Bool × List String) (node : Node) : Bool × List String :=
  node.conditions.foldl (checkNodeCondition node) acc

def nodesStatus (c : SpokeClient) : Except Err (Bool × String) := do
  let nodes ← c.listNodes
  if nodes.length = 0 then return (false, "No nodes found")
  let (nodesReady, messages) := nodes.foldl checkNode (true, [])
  let message := if messages.length > 0 then " ".intercalate messages else nodesReadyMessage
  return (nodesReady, message)

/-- A failed node list leaves its own text and no verdict. -/
def getClusterInstallStatus (c : SpokeClient) : ClusterInstallStatus :=
  match getIBIOStartTime c with
  | .error err =>
    { installed := false
      clusterVersionStatus := "Failed to get " ++ ibioStartTimeCM.name ++ " : " ++ err.text }
  | .ok reconfigurationStartTime =>
    match clusterVersionStatus c reconfigurationStartTime with
    | .error err =>
      { installed := false
        clusterVersionStatus := "Failed to check cluster version status: " ++ err.text }
    | .ok (cvAvailable, cvMessage) =>
      match nodesStatus c with
      | .error err =>
        { installed := false
          clusterVersionStatus := cvMessage
          nodesStatus := "Failed to check node status: " ++ err.text }
      | .ok (nodesReady, nodesMessage) =>
        { installed := cvAvailable && nodesReady
          clusterVersionStatus := cvMessage
          nodesStatus := nodesMessage }

end ImageBasedInstall

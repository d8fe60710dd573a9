import ImageBasedInstall.Cluster.Client

/-!
# Conditions

`controllers/conditions.go`: the condition list of an `ImageClusterInstall` and the functions of
both controllers that write it. Each works on the object in memory and stores the whole list with
one status patch, if it changed anything.
-/

namespace ImageBasedInstall

open Interactive

variable {B : Type}

def findCondition (conditions : List Condition) (condType : ConditionType) : Option Condition :=
  conditions.find? fun c => c.type == condType

/-- The existing entry with the new status, reason and message. -/
def Condition.updateWith (now : Time) (new existing : Condition) : Condition :=
  { existing with
    status := new.status
    lastTransitionTime :=
      if existing.status ≠ new.status then now else existing.lastTransitionTime
    lastProbeTime := now
    reason := new.reason
    message := new.message }

/-- Rewrite the first entry of a type, as an assignment through `findCondition`'s pointer does. -/
def updateFirst (condType : ConditionType) (f : Condition → Condition) :
    List Condition → List Condition
  | [] => []
  | c :: cs => if c.type = condType then f c :: cs else c :: updateFirst condType f cs

/-- Returns the new list and whether anything changed. -/
def setClusterInstallCondition (now : Time) (conditions : List Condition)
    (newCondition : Condition) : List Condition × Bool :=
  match findCondition conditions newCondition.type with
  | none =>
    (conditions ++ [{ newCondition with lastTransitionTime := now, lastProbeTime := now }], true)
  | some existing =>
    if existing.status = newCondition.status ∧ existing.reason = newCondition.reason ∧
        existing.message = newCondition.message then
      (conditions, false)
    else
      (updateFirst newCondition.type (.updateWith now newCondition) conditions, true)

/-- The object with another condition list. -/
def ImageClusterInstall.withConditions (ici : ImageClusterInstall) (conditions : List Condition) :
    ImageClusterInstall :=
  { ici with status := { ici.status with conditions } }

/-! ## The reconciler's conditions -/

def initialCondition (type : ConditionType) : Condition :=
  { type, status := .unknown, reason := "Unknown", message := "Unknown" }

def initialConditions : List Condition :=
  [initialCondition .requirementsMet, initialCondition .completed, initialCondition .failed,
    initialCondition .stopped]

/-- Add one condition if its type is missing; the flag is `needToPatch`. -/
def initializeCondition (acc : List Condition × Bool) (cond : Condition) :
    Program B (List Condition × Bool) := do
  match findCondition acc.1 cond.type with
  | some _ => return acc
  | none =>
    let t ← now
    let (conditions, set) := setClusterInstallCondition t acc.1 cond
    return (conditions, acc.2 || set)

def initializeConditions (key : NamespacedName) (ici : ImageClusterInstall) :
    Program B (ImageClusterInstall × Except Err Unit) := do
  let (conditions, needToPatch) ←
    initialConditions.foldlM initializeCondition (ici.status.conditions, false)
  if !needToPatch then return (ici, .ok ())
  patchICIStatus key ici (ici.withConditions conditions)

/-- The error of the patch is only logged. -/
def setRequirementsMetCondition (key : NamespacedName) (ici : ImageClusterInstall)
    (status : ConditionStatus) (reason msg : String) : Program B ImageClusterInstall := do
  let t ← now
  let (conditions, updated) := setClusterInstallCondition t ici.status.conditions
    { type := .requirementsMet, status, reason, message := msg }
  if !updated then return ici
  let (ici, _) ← patchICIStatus key ici (ici.withConditions conditions)
  return ici

def installationTimedout (ici : ImageClusterInstall) : Bool :=
  match findCondition ici.status.conditions .failed with
  | some cond => cond.status == .true && cond.reason == installTimedoutReason
  | none => false

def installationCompleted (ici : ImageClusterInstall) : Bool :=
  match findCondition ici.status.conditions .completed with
  | some cond => cond.status == .true
  | none => false

/-! ## The monitor's conditions -/

/-- Set one condition; the flag collects whether any was updated. -/
def updateCondition (acc : List Condition × Bool) (cond : Condition) :
    Program B (List Condition × Bool) := do
  let t ← now
  let (conditions, updated) := setClusterInstallCondition t acc.1 cond
  return (conditions, acc.2 || updated)

/-- Set several conditions with one patch, as the monitor's three functions do. -/
def setInstallConditions (key : NamespacedName) (ici : ImageClusterInstall)
    (conds : List Condition) : Program B (ImageClusterInstall × Except Err Unit) := do
  let (conditions, updated) ← conds.foldlM updateCondition (ici.status.conditions, false)
  if !updated then return (ici, .ok ())
  patchICIStatus key ici (ici.withConditions conditions)

def installingConditions (message : String) : List Condition :=
  [{ type := .completed, status := .false, reason := installInProgressReason,
     message := installInProgressMessage },
   { type := .stopped, status := .false, reason := installInProgressReason, message },
   { type := .failed, status := .false, reason := installInProgressReason,
     message := installInProgressMessage }]

def timeoutConditions (timeout : String) : List Condition :=
  [{ type := .completed, status := .false, reason := installTimedoutReason,
     message := "Cluster failed to install within the timeout (" ++ timeout ++ ")" },
   { type := .stopped, status := .false, reason := installTimedoutReason,
     message := installTimedoutMessage },
   { type := .failed, status := .true, reason := installTimedoutReason,
     message := "Cluster failed to install within the timeout (" ++ timeout ++ ")" }]

def installedConditions : List Condition :=
  [{ type := .completed, status := .true, reason := installSucceededReason,
     message := installSucceededMessage },
   { type := .stopped, status := .true, reason := installSucceededReason,
     message := installSucceededMessage },
   { type := .failed, status := .false, reason := installSucceededReason,
     message := installSucceededMessage }]

def setClusterInstallingConditions (key : NamespacedName) (ici : ImageClusterInstall)
    (message : String) : Program B (ImageClusterInstall × Except Err Unit) :=
  setInstallConditions key ici (installingConditions message)

def setClusterTimeoutConditions (key : NamespacedName) (ici : ImageClusterInstall)
    (timeout : String) : Program B (ImageClusterInstall × Except Err Unit) :=
  setInstallConditions key ici (timeoutConditions timeout)

def setClusterInstalledConditions (key : NamespacedName) (ici : ImageClusterInstall) :
    Program B (ImageClusterInstall × Except Err Unit) :=
  setInstallConditions key ici installedConditions

end ImageBasedInstall

import ImageBasedInstall.Controllers.Conditions

/-!
# Shared helpers

`controllers/common.go`: removing a host's `DataImage` and rebooting the host, annotations, and the
post-install cleanup.
-/

namespace ImageBasedInstall

open Interactive

variable {B : Type}

/-- `ctrl.Result`. -/
structure Result where
  requeue : Bool := false
  requeueAfter : Time := 0
  deriving DecidableEq, Repr

def Result.isZero (res : Result) : Bool := res == {}

def rebootAnnotation := "reboot.metal3.io"
def rebootAnnotationValue := ""
def inspectAnnotation := "inspect.metal3.io"
def ibioManagedBMH := "image-based-install-managed"
def postCleanupAnnotation := "imageclusterinstall.extensions.hive.openshift.io/post-cleanup"
def postCleanupAnnotationValue := "true"

/-- `namespace/name`, as it appears in messages. -/
def NamespacedName.text (key : NamespacedName) : String := key.ns ++ "/" ++ key.name

/-- The new annotations, and whether the key was missing. -/
def setAnnotationIfNotExists (annotations : String → Option String) (key value : String) :
    (String → Option String) × Bool :=
  match annotations key with
  | some _ => (annotations, false)
  | none => (Function.update annotations key (some value), true)

def annotationExists (annotations : String → Option String) (key : String) : Bool :=
  (annotations key).isSome

/-- Returns the deleted object, `none` if there was none. -/
def deleteDataImage (dataImageRef : NamespacedName) : Act B (Option DataImage) := do
  match ← (getDataImage dataImageRef).attempt with
  | .error e =>
    if e.isNotFound then return none
    throw (.wrap ("failed to get DataImage " ++ dataImageRef.text) e)
  | .ok dataImage =>
    requestDelete dataImageRef
    return some dataImage

def rebootBMH (key : NamespacedName) (bmh : BareMetalHost) : Act B Unit := do
  let (annotations, set) :=
    setAnnotationIfNotExists bmh.annotations rebootAnnotation rebootAnnotationValue
  if set then
    let _ ← requestPatchBMH key bmh { bmh with annotations }

/-- Returns the deleted object as long as its deletion has to be waited for. -/
def removeBMHDataImage (bmhRef : NamespacedName) : Act B (Option DataImage) := do
  match ← deleteDataImage bmhRef with
  | none => return none
  | some dataImage =>
    match ← (getBMH bmhRef).attempt with
    | .error e =>
      if e.isNotFound then return none
      throw (.wrap ("failed to get BareMetalHost " ++ bmhRef.text) e)
    | .ok bmh =>
      rebootBMH bmhRef bmh
      return some dataImage

/-- Deletes the `DataImage` of a completed `ImageClusterInstall` that a restore brought back. -/
def handlePostCleanup (ici : ImageClusterInstall) : Act B Result := do
  if !annotationExists ici.annotations postCleanupAnnotation then return {}
  match ici.spec.bareMetalHostRef with
  | none => return {}
  | some bmhRef =>
    let _ ← (removeBMHDataImage bmhRef).wrap ("failed to delete DataImage " ++ bmhRef.text)
    match ← (getDataImage bmhRef).attempt with
    | .ok _ => return { requeueAfter := 60 }
    | .error e =>
      if e.isNotFound then return {}
      throw (.wrap ("failed to get DataImage " ++ bmhRef.text) e)

end ImageBasedInstall

import ImageBasedInstall.Cluster.Answer

/-!
# Client calls

The calls as fallible programs, under the names of the Go client and of package `os`. A patch also
changes the object in memory: it becomes the server's reply, or stays as modified if the patch
failed.
-/

namespace ImageBasedInstall

open Interactive

variable {B : Type} {α : Type}

/-- Programs of the operator. -/
abbrev Program (B : Type) := Prog (Op B) Resp

/-- Fallible programs of the operator. -/
abbrev Act (B : Type) := ExceptT Err (Program B)

/-- `fmt.Errorf("text: %w", err)` on the error of a call. -/
def Act.wrap (x : Act B α) (text : String) : Act B α := ExceptT.adapt (.within text) x

/-- Run a fallible program and look at its error. -/
def Act.attempt (x : Act B α) : Act B (Except Err α) := ExceptT.lift x.run

/-- Run a fallible program and ignore its error, as code that only logs it does. -/
def Act.ignore (x : Act B α) : Program B Unit := do
  let _ ← x.run

/-- Go on with a value, or stop with its error. -/
def liftExcept (r : Except Err α) : Act B α := ExceptT.mk (pure r)

section Calls

abbrev getICI (key : NamespacedName) : Act B ImageClusterInstall :=
  .mk (Prog.perform (Op.getICI key))

abbrev getBMH (key : NamespacedName) : Act B BareMetalHost :=
  .mk (Prog.perform (Op.getBMH key))

abbrev getDataImage (key : NamespacedName) : Act B DataImage :=
  .mk (Prog.perform (Op.getDataImage key))

abbrev createDataImage (key : NamespacedName) (url : String) : Act B Unit :=
  .mk (Prog.perform (Op.createDataImage key url))

/-- `Delete` of a `DataImage`. -/
abbrev requestDelete (key : NamespacedName) : Act B Unit :=
  .mk (Prog.perform (Op.deleteDataImage key))

/-- `Patch` of a host whose copy in memory is not used again. -/
abbrev requestPatchBMH (key : NamespacedName) (base new : BareMetalHost) : Act B BareMetalHost :=
  .mk (Prog.perform (Op.patchBMH key base new))

abbrev getCD (key : NamespacedName) : Act B ClusterDeployment :=
  .mk (Prog.perform (Op.getCD key))

abbrev getImageSet (name : String) : Act B String :=
  .mk (Prog.perform (Op.getImageSet name))

abbrev getConfigMap (key : NamespacedName) : Act B ConfigMap :=
  .mk (Prog.perform (Op.getConfigMap key))

/-- `Get` of the manager's client, which reads secrets through its cache. -/
abbrev getSecret (key : NamespacedName) : Act B (Secret B) :=
  .mk (Prog.perform (Op.getSecret true key))

/-- `NoncachedClient.Get`. -/
abbrev getSecretNoncached (key : NamespacedName) : Act B (Secret B) :=
  .mk (Prog.perform (Op.getSecret false key))

abbrev createSecret (key : NamespacedName) (secret : Secret B) : Act B Unit :=
  .mk (Prog.perform (Op.createSecret key secret))

abbrev updateSecret (key : NamespacedName) (secret : Secret B) : Act B Unit :=
  .mk (Prog.perform (Op.updateSecret key secret))

abbrev patchSecret (key : NamespacedName) (base new : Secret B) : Act B (Secret B) :=
  .mk (Prog.perform (Op.patchSecret key base new))

abbrev patchConfigMap (key : NamespacedName) (base new : ConfigMap) : Act B ConfigMap :=
  .mk (Prog.perform (Op.patchConfigMap key base new))

abbrev spokeStatus (kubeconfig : B) : Act B InstallStatus :=
  .mk (Prog.perform (Op.spokeStatus kubeconfig))

abbrev mkdirAll (path : Path) : Act B Unit := .mk (Prog.perform (Op.mkdirAll path))

abbrev mkdirTemp : Act B Path := .mk (Prog.perform Op.mkdirTemp)

abbrev stat (path : Path) : Act B Unit := .mk (Prog.perform (Op.stat path))

abbrev readFile (path : Path) : Act B B := .mk (Prog.perform (Op.readFile path))

abbrev writeFile (path : Path) (content : B) : Act B Unit :=
  .mk (Prog.perform (Op.writeFile path content))

abbrev writeIso (path : Path) (image : IsoImage B) (builtFrom : Spec) : Act B Unit :=
  .mk (Prog.perform (Op.writeIso path image builtFrom))

abbrev purge (which : Path → Bool) : Act B Unit := .mk (Prog.perform (Op.purge which))

abbrev removeAll (path : Path) : Act B Unit := .mk (Prog.perform (Op.removeAll path))

abbrev loadDir (path : Path) : Act B (Snapshot B) := .mk (Prog.perform (Op.loadDir path))

abbrev tryLock (dir : Path) : Act B Bool := .mk (Prog.perform (Op.tryLock dir))

abbrev drawAssets : Act B Draw := ExceptT.lift (Prog.perform Op.drawAssets)

/-- `time.Now`. -/
abbrev now : Program B Time := Prog.perform Op.now

end Calls

/-! ## Patches of an object in memory -/

/-- The object in memory after a patch: the server's reply, or the modified copy on failure. -/
def afterPatch (new : α) : Except Err α → α × Except Err Unit
  | .ok stored => (stored, .ok ())
  | .error e => (new, .error e)

def patchICI (key : NamespacedName) (base new : ImageClusterInstall) :
    Program B (ImageClusterInstall × Except Err Unit) := do
  return afterPatch new (← Prog.perform (Op.patchICI key base new))

def patchICIStatus (key : NamespacedName) (base new : ImageClusterInstall) :
    Program B (ImageClusterInstall × Except Err Unit) := do
  return afterPatch new (← Prog.perform (Op.patchICIStatus key base new))

def patchBMH (key : NamespacedName) (base new : BareMetalHost) :
    Program B (BareMetalHost × Except Err Unit) := do
  return afterPatch new (← Prog.perform (Op.patchBMH key base new))

end ImageBasedInstall

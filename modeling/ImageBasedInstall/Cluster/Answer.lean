import ImageBasedInstall.Cluster.World

/-!
# How calls are answered

`answer` is the API server and the operating system. Patches are three-way merges: the main resource
of an `ImageClusterInstall` ignores the status, the status sub-resource ignores the rest. An object
marked for deletion disappears with its last finalizer.
-/

namespace ImageBasedInstall

open Interactive Patch

variable {B : Type}

/-! ## Objects -/

def Spec.merge (base new stored : Spec) : Spec where
  clusterDeploymentRef :=
    mergeField base.clusterDeploymentRef new.clusterDeploymentRef stored.clusterDeploymentRef
  imageSetRef := mergeField base.imageSetRef new.imageSetRef stored.imageSetRef
  clusterMetadata := mergeField base.clusterMetadata new.clusterMetadata stored.clusterMetadata
  nodeIP := mergeField base.nodeIP new.nodeIP stored.nodeIP
  hostname := mergeField base.hostname new.hostname stored.hostname
  sshKey := mergeField base.sshKey new.sshKey stored.sshKey
  imageDigestSources :=
    mergeField base.imageDigestSources new.imageDigestSources stored.imageDigestSources
  caBundleRef := mergeField base.caBundleRef new.caBundleRef stored.caBundleRef
  extraManifestsRefs :=
    mergeField base.extraManifestsRefs new.extraManifestsRefs stored.extraManifestsRefs
  bareMetalHostRef := mergeField base.bareMetalHostRef new.bareMetalHostRef stored.bareMetalHostRef
  machineNetwork := mergeField base.machineNetwork new.machineNetwork stored.machineNetwork
  machineNetworks := mergeField base.machineNetworks new.machineNetworks stored.machineNetworks
  proxy := mergeField base.proxy new.proxy stored.proxy
  additionalNTPSources :=
    mergeField base.additionalNTPSources new.additionalNTPSources stored.additionalNTPSources

def Status.merge (base new stored : Status) : Status where
  conditions := mergeField base.conditions new.conditions stored.conditions
  installRestarts := mergeField base.installRestarts new.installRestarts stored.installRestarts
  bareMetalHostRef := mergeField base.bareMetalHostRef new.bareMetalHostRef stored.bareMetalHostRef
  bootTime := mergeField base.bootTime new.bootTime stored.bootTime

/-- `Patch` on the main resource. -/
def ImageClusterInstall.merge (base new stored : ImageClusterInstall) : ImageClusterInstall where
  uid := stored.uid
  annotations := mergeMap base.annotations new.annotations stored.annotations
  labels := mergeMap base.labels new.labels stored.labels
  finalizers := mergeField base.finalizers new.finalizers stored.finalizers
  deletionTimestamp := stored.deletionTimestamp
  spec := Spec.merge base.spec new.spec stored.spec
  status := stored.status

/-- `Status().Patch`. -/
def ImageClusterInstall.mergeStatus (base new stored : ImageClusterInstall) :
    ImageClusterInstall :=
  { stored with status := Status.merge base.status new.status stored.status }

/-- What remains of an object: nothing if it is being deleted and has no finalizer left. -/
def ImageClusterInstall.remains (ici : ImageClusterInstall) : Option ImageClusterInstall :=
  if ici.deletionTimestamp.isSome ∧ ici.finalizers = [] then none else some ici

def BareMetalHost.merge (base new stored : BareMetalHost) : BareMetalHost :=
  { stored with
    annotations := mergeMap base.annotations new.annotations stored.annotations
    labels := mergeMap base.labels new.labels stored.labels
    automatedCleaningMode :=
      mergeField base.automatedCleaningMode new.automatedCleaningMode stored.automatedCleaningMode
    externallyProvisioned :=
      mergeField base.externallyProvisioned new.externallyProvisioned stored.externallyProvisioned
    online := mergeField base.online new.online stored.online }

/-- The operator patches the labels of config maps and secrets only. -/
def ConfigMap.merge (base new stored : ConfigMap) : ConfigMap :=
  { stored with labels := mergeMap base.labels new.labels stored.labels }

def Secret.merge (base new stored : Secret B) : Secret B :=
  { stored with labels := mergeMap base.labels new.labels stored.labels }

/-- `Delete`: the object is gone, or marked if a finalizer holds it. -/
def DataImage.delete (clock : Time) (image : DataImage) : Option DataImage :=
  if image.finalizers = [] then none
  else some { image with deletionTimestamp := some (image.deletionTimestamp.getD clock) }

theorem DataImage.delete_some {image d : DataImage} {clock : Time}
    (h : image.delete clock = some d) :
    d = { image with deletionTimestamp := some (image.deletionTimestamp.getD clock) } := by
  unfold DataImage.delete at h
  split at h
  · cases h
  · exact (Option.some.inj h).symm

/-- The label by which the manager's cache selects secrets (`SecretResourceLabel`). -/
def secretResourceLabel : String := "image-based-installed.openshift.io/created"

def Secret.isCached (s : Secret B) : Bool := s.labels secretResourceLabel == some "true"

/-! ## The world after a call -/

namespace World

variable (w : World B)

def setICI (key : NamespacedName) (ici : Option ImageClusterInstall) : World B :=
  { w with icis := Function.update w.icis key ici }

def setBMH (key : NamespacedName) (bmh : BareMetalHost) : World B :=
  { w with bmhs := Function.update w.bmhs key (some bmh) }

def setDataImage (key : NamespacedName) (image : Option DataImage) : World B :=
  { w with dataImages := Function.update w.dataImages key image }

def setSecret (key : NamespacedName) (secret : Secret B) : World B :=
  { w with secrets := Function.update w.secrets key (some secret) }

def setConfigMap (key : NamespacedName) (cm : ConfigMap) : World B :=
  { w with configMaps := Function.update w.configMaps key (some cm) }

def setEntry (path : Path) (entry : Option (Entry B)) : World B :=
  { w with fs := Function.update w.fs path entry }

/-- `os.MkdirAll`: the directory and its missing parents. -/
def mkdirs (path : Path) : World B :=
  { w with fs := fun q => if path.within q && (w.fs q).isNone then some .dir else w.fs q }

/-- What `which` selects is removed, except what `kept` keeps. -/
def prune (which kept : Path → Bool) : World B :=
  { w with fs := fun q => if which q && !kept q then none else w.fs q }

/-- The regular files below a directory. -/
def files (dir : Path) : Snapshot B := fun rel => (w.fs (dir.join rel)).bind Entry.content

end World

/-- A call that only reads. -/
def Choice.read {α : Type} (c : Choice B) (w : World B) (r : Except Err α) :
    Except Err α × World B :=
  match c.ending with
  | .ok => (r, w)
  | .fail e | .lost e => (.error (.api e), w)

/-- A call with an effect. -/
def Choice.write {α : Type} (c : Choice B) (w w' : World B) (r : α) : Except Err α × World B :=
  match c.ending with
  | .ok => (.ok r, w')
  | .fail e => (.error (.api e), w)
  | .lost e => (.error (.api e), w')

/-- `o` or "not found". -/
def orNotFound {α : Type} (o : Option α) : Except Err α :=
  match o with
  | some a => .ok a
  | none => .error .notFound

/-- A patch of the object `o`, stored back by `store`. -/
def Choice.patch {α : Type} (c : Choice B) (w : World B) (o : Option α) (merge : α → α)
    (store : α → World B) : Except Err α × World B :=
  match o with
  | none => c.read w (.error .notFound)
  | some a => c.write w (store (merge a)) (merge a)

/-- A removal of files; a failed one leaves some of them. -/
def Choice.removal (c : Choice B) (w : World B) (which : Path → Bool) :
    Except Err Unit × World B :=
  match c.ending with
  | .ok => (.ok (), w.prune which fun _ => false)
  | .fail e | .lost e => (.error (.api e), w.prune which c.kept)

/-- The machine. -/
def answer : (op : Op B) → Choice B → World B → Resp op × World B
  | .getICI key, c, w => c.read w (orNotFound (w.icis key))
  | .patchICI key base new, c, w =>
    c.patch w (w.icis key) (.merge base new) fun ici => w.setICI key ici.remains
  | .patchICIStatus key base new, c, w =>
    c.patch w (w.icis key) (.mergeStatus base new) fun ici => w.setICI key (some ici)
  | .getBMH key, c, w => c.read w (orNotFound (w.bmhs key))
  | .patchBMH key base new, c, w => c.patch w (w.bmhs key) (.merge base new) (w.setBMH key)
  | .getDataImage key, c, w => c.read w (orNotFound (w.dataImages key))
  | .createDataImage key url, c, w =>
    match w.dataImages key with
    | some _ => c.read w (.error .alreadyExists)
    | none =>
      let w := { w with clock := w.clock + c.elapsed }
      c.write w (w.setDataImage key (some { url, creationTimestamp := w.clock })) ()
  | .deleteDataImage key, c, w =>
    match w.dataImages key with
    | none => c.read w (.error .notFound)
    | some image => c.write w (w.setDataImage key (image.delete w.clock)) ()
  | .getCD key, c, w => c.read w (orNotFound (w.cds key))
  | .getImageSet name, c, w => c.read w (orNotFound (w.imageSets name))
  | .getConfigMap key, c, w => c.read w (orNotFound (w.configMaps key))
  | .patchConfigMap key base new, c, w =>
    c.patch w (w.configMaps key) (.merge base new) (w.setConfigMap key)
  | .getSecret cached key, c, w =>
    c.read w (orNotFound ((w.secrets key).filter fun s => !cached || s.isCached))
  | .createSecret key secret, c, w =>
    match w.secrets key with
    | some _ => c.read w (.error .alreadyExists)
    | none => c.write w (w.setSecret key secret) ()
  | .updateSecret key secret, c, w =>
    match w.secrets key with
    | none => c.read w (.error .notFound)
    | some _ => c.write w (w.setSecret key secret) ()
  | .patchSecret key base new, c, w =>
    c.patch w (w.secrets key) (.merge base new) (w.setSecret key)
  | .spokeStatus _, c, w => c.read w (.ok c.status)
  | .mkdirAll path, c, w => c.write w (w.mkdirs path) ()
  | .mkdirTemp, c, w =>
    let path : Path := ⟨.temp c.tempName, []⟩
    c.write w ((w.prune (·.within path) fun _ => false).mkdirs path) path
  | .stat path, c, w => c.read w ((orNotFound (w.fs path)).map fun _ => ())
  | .readFile path, c, w => c.read w (orNotFound ((w.fs path).bind Entry.content))
  | .writeFile path content, c, w =>
    match c.ending, c.leftover with
    | .fail e, some b => (.error (.api e), w.setEntry path (some (.file b)))
    | _, _ => c.write w (w.setEntry path (some (.file content))) ()
  | .writeIso path image builtFrom, c, w =>
    match c.ending, c.leftoverIso with
    | .fail e, some i => (.error (.api e), w.setEntry path (some (.iso i builtFrom)))
    | _, _ => c.write w (w.setEntry path (some (.iso image builtFrom))) ()
  | .purge which, c, w => c.removal w which
  | .removeAll path, c, w => c.removal w (·.within path)
  | .loadDir path, c, w => c.read w (.ok (w.files path))
  | .tryLock _, c, w => c.read w (.ok c.lockFree)
  | .now, c, w => (w.clock + c.elapsed, { w with clock := w.clock + c.elapsed })
  | .newUUID, c, w => (c.uuid, w)
  | .randString, c, w => (c.suffix, w)
  | .drawAssets, c, w => (c.draw, w)

end ImageBasedInstall

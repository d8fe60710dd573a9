import ImageBasedInstall.Interactive.Watcher
import ImageBasedInstall.Cluster.Frame
import ImageBasedInstall.Controllers.Monitor

/-!
# The monitor at work

How the monitor is set up: `SetupWithManager` of `controllers/imageclusterinstall_monitor.go` with
its event filter, and `EnqueueExistingImageClusterInstall` of `cmd/manager/main.go`, which writes
the status of every object whose installation has not completed once more when the operator starts,
for the sake of the event. A write that fails is logged and left at that. The cache, the work queue
and the retries are those of controller-runtime.
-/

namespace ImageBasedInstall

open Interactive

variable {B : Type}

/-- `bootTimeInitialized`, on the object before and after: updates only, and only of objects with a
boot time. -/
def bootTimeInitialized : Option ImageClusterInstall → Option ImageClusterInstall → Bool
  | some _, some new => new.status.bootTime.isSome
  | _, _ => false

/-- The results after which a request is put back into the queue, at once or after a while. A panic
is recovered and counts as an error. -/
def putsBack : Except Err Result → Bool
  | .error _ => true
  | .ok res => res.requeue || decide (0 < res.requeueAfter)

/-- The objects that `EnqueueExistingImageClusterInstall` writes again. -/
def enqueueExisting (ici : Option ImageClusterInstall) : Bool :=
  ici.any fun ici => !installationCompleted ici

/-- The object is read from the cache. -/
def Cached (key : NamespacedName) (version : Option ImageClusterInstall) :
    (op : Op B) → Resp op → Prop
  | .getICI k, r => k = key → r = orNotFound version
  | _, _ => True

/-- The monitor of one object. Its other reads may be outdated, so their replies are arbitrary;
others do what they like, but do not create an object with a boot time. `announced`: the server
stores, and so announces, a status update that changes nothing; `late`: the objects are listed after
the monitor has started to listen; `reliable`: the status update of
`EnqueueExistingImageClusterInstall` does not fail, except on a conflict with a later version. -/
def monitorWatcher [DecidableEq B] (E : Env B) (key : NamespacedName)
    (announced late reliable : Bool) :
    Watcher (Op B) Resp (World B) (Option ImageClusterInstall) (Except Err Result) where
  view w := w.icis key
  others w w' := w.icis key = none → ∀ ici, w'.icis key = some ici → ici.status.bootTime = none
  does version op w r w' :=
    Cached key version op r ∧ ((∃ c, answer op c w = (r, w')) ∨ op.target = .nothing ∧ w' = w)
  body := (monitor E key).run
  again := putsBack
  greets := bootTimeInitialized none
  hears := bootTimeInitialized
  due := enqueueExisting
  announced := announced
  late := late
  reliable := reliable

end ImageBasedInstall

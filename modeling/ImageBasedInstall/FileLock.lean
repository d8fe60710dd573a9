import ImageBasedInstall.Interactive.Reach
import ImageBasedInstall.Posix.Locks

/-!
# The lock of a directory (`internal/filelock`)

`WithWriteLock` and `WithReadLock` with the system calls they make: looking for the lock file,
making it, opening it, locking the inode that was opened, running the callback, releasing. Any
number of callers take these steps in any order; each of them first prepares the directory. A
callback is any program on names, so it may remove the lock file, as that of `handleFinalizer` does.

The vendored `flock` library is modelled with its handle (`setFh`, `resetFh`) and its second try
after `EIO` and `EBADF`. `Flock` objects are not shared: every call makes its own, so its flags are
not set when `try` looks at them.
-/

namespace ImageBasedInstall.FileLock

open Interactive Posix

def lockFileName : RelPath := ["lock"]

/-- Makes sure that the lock file exists. -/
def lockForDir : Sys (Except Errno Unit) := do
  match ← sys (.file (.stat lockFileName)) with
  | .ok _ => return .ok ()
  | .error .noent => sys (.file (.writeFile lockFileName))
  | .error e => return .error e

/-! ## The library -/

/-- The lock file is made if it is missing. -/
def setFh : Sys (Except Errno Unit) := sys (.openFile lockFileName)

def resetFh : Sys Unit := do
  let _ ← sys .close

/-- Whether to try again, on a handle opened anew. -/
def reopenFDOnError (err : Errno) : Sys (Except Errno Bool) := do
  if err ≠ .io ∧ err ≠ .badf then return .ok false
  match ← sys .fstat with
  | .error _ | .ok false => return .ok false
  | .ok true =>
    resetFh
    match ← setFh with
    | .error e => return .error e
    | .ok () => return .ok true

/-- One `flock`; an open file without a lock is closed in the end (`ensureFhState`). -/
def tryOnce (k : LockKind) (onError : Errno → Sys (Except Errno Bool)) :
    Sys (Except Errno Bool) := do
  match ← sys (.flock k) with
  | .ok () => return .ok true
  | .error .wouldblock =>
    resetFh
    return .ok false
  | .error e => onError e

def failWith (e : Errno) : Sys (Except Errno Bool) := do
  resetFh
  return .error e

/-- `try`: `TryLock` and `TryRLock`. -/
def tryFlock (k : LockKind) : Sys (Except Errno Bool) := do
  match ← setFh with
  | .error e => return .error e
  | .ok () =>
    tryOnce k fun err => do
      match ← reopenFDOnError err with
      | .error e => return .error e
      | .ok false => failWith err
      | .ok true => tryOnce k failWith

/-- An error of `flock` leaves the file open and locked. -/
def unlock : Sys Unit := do
  match ← sys .funlock with
  | .ok () => resetFh
  | .error _ => return ()

/-! ## Callers -/

/-- How a callback ends. -/
inductive Ended where
  | err (funcErr : Option Errno)
  | panic
  deriving DecidableEq, Repr

/-- What `WithWriteLock` and `WithReadLock` return. -/
structure Returned where
  locked : Bool
  lockErr : Option Errno
  funcErr : Option Errno
  deriving DecidableEq, Repr

/-- A call, with what its caller does before: an error there and the call is not made. -/
structure Call where
  prepare : Files (Except Errno Unit)
  kind : LockKind
  f : Files Ended

def withWriteLock (prepare : Files (Except Errno Unit)) (f : Files Ended) : Call :=
  ⟨prepare, .exclusive, f⟩

def withReadLock (prepare : Files (Except Errno Unit)) (f : Files Ended) : Call :=
  ⟨prepare, .shared, f⟩

/-- The part of a call before its callback. -/
def acquire (k : LockKind) : Sys (Except Errno Bool) := do
  match ← lockForDir with
  | .error e => return .error e
  | .ok () => tryFlock k

/-- How far a caller is. `unlock` is deferred: it runs after the callback, also after a panic. -/
inductive Stage where
  | preparing (p : Files (Except Errno Unit))
  | acquiring (p : Sys (Except Errno Bool))
  | inside (p : Files Ended)
  | releasing (p : Sys Unit) (r : Ended)
  | gaveUp (e : Errno)
  | returned (r : Returned)
  | unwound

structure Caller where
  call : Call
  stage : Stage
  /-- The callback was started. -/
  ran : Bool := false

namespace Caller

variable (x : Caller)

def inside : Bool :=
  match x.stage with
  | .inside _ => true
  | _ => false

/-- The next system call. -/
def nextCall : Option SysCall :=
  match x.stage with
  | .preparing (.call op _) | .inside (.call op _) => some (.file op)
  | .acquiring (.call op _) | .releasing (.call op _) _ => some op
  | _ => none

/-- A step of caller `i`: a system call, or the passage to the next stage. -/
def step (i : Nat) (c : Posix.Choice) (κ : Kernel) : Option (Caller × Kernel) :=
  match x.stage with
  | .preparing (.ret (.error e)) => some ({ x with stage := .gaveUp e }, κ)
  | .preparing (.ret (.ok ())) => some ({ x with stage := .acquiring (acquire x.call.kind) }, κ)
  | .preparing (.call op k) =>
    let r := κ.answer i (.file op) c
    some ({ x with stage := .preparing (k r.1) }, r.2)
  | .acquiring (.ret (.error e)) => some ({ x with stage := .returned ⟨false, some e, none⟩ }, κ)
  | .acquiring (.ret (.ok false)) => some ({ x with stage := .returned ⟨false, none, none⟩ }, κ)
  | .acquiring (.ret (.ok true)) => some ({ x with stage := .inside x.call.f, ran := true }, κ)
  | .acquiring (.call op k) =>
    let r := κ.answer i op c
    some ({ x with stage := .acquiring (k r.1) }, r.2)
  | .inside (.ret r) => some ({ x with stage := .releasing unlock r }, κ)
  | .inside (.call op k) =>
    let r := κ.answer i (.file op) c
    some ({ x with stage := .inside (k r.1) }, r.2)
  | .releasing (.ret ()) (.err e) => some ({ x with stage := .returned ⟨true, none, e⟩ }, κ)
  | .releasing (.ret ()) .panic => some ({ x with stage := .unwound }, κ)
  | .releasing (.call op k) r =>
    let a := κ.answer i op c
    some ({ x with stage := .releasing (k a.1) r }, a.2)
  | .gaveUp _ | .returned _ | .unwound => none

/-- The call is over. -/
def isOver : Bool :=
  match x.stage with
  | .returned _ | .unwound => true
  | _ => false

end Caller

/-! ## All callers -/

structure System where
  kernel : Kernel
  callers : List Caller := []

inductive Event where
  | start (call : Call)
  | step (i : Nat) (c : Posix.Choice)
  /-- The garbage collector closes a file that `unlock` left open. -/
  | collect (i : Nat)

namespace System

variable (s : System)

/-- Nobody calls yet; the directory may hold anything. -/
def Init : Prop := s.callers = [] ∧ ∀ i, s.kernel.handle i = none

def next : Event → Option System
  | .start call => some { s with callers := s.callers ++ [⟨call, .preparing call.prepare, false⟩] }
  | .step i c =>
    (s.callers[i]?).bind fun x =>
      (x.step i c s.kernel).map fun r => ⟨r.2, s.callers.set i r.1⟩
  | .collect i =>
    (s.callers[i]?).bind fun x =>
      if x.isOver then some { s with kernel := s.kernel.dropHandle i } else none

def Next (s : System) (ev : Event) (s' : System) : Prop := s.next ev = some s'

/-- Caller `i` is inside its callback. -/
def Inside (i : Nat) (k : LockKind) : Prop :=
  ∃ x ∈ s.callers[i]?, x.inside = true ∧ x.call.kind = k

instance (i : Nat) (k : LockKind) : Decidable (s.Inside i k) :=
  inferInstanceAs (Decidable (∃ x ∈ s.callers[i]?, _))

/-- While a caller is inside its write callback, no other caller is inside a callback. -/
def Excludes : Prop := ∀ i j k, i ≠ j → s.Inside i .exclusive → ¬ s.Inside j k

/-- Of the calls that returned, those that ran their callback returned `true` and no lock error. -/
def RunsLocked : Prop :=
  ∀ x ∈ s.callers, ∀ r, x.stage = .returned r → x.ran = true → r.locked = true ∧ r.lockErr = none

end System

/-! ## The calls of the reconciler -/

def filesDir : RelPath := ["files"]

def configDirs : Files (Except Errno Unit) := Posix.mkdirAll filesDir

/-- `writeInputData`: `build` writes below the files directory. -/
def writeInputData (build : Files Ended) : Call := withWriteLock configDirs build

/-- `handleFinalizer`: the callback removes the whole directory. -/
def handleFinalizer (depth : Nat) : Call :=
  withWriteLock
    (do
      match ← configDirs with
      | .error e => return .error e
      | .ok () => return (← perform (.stat [])).map fun _ => ())
    (do
      match ← Posix.removeAll depth [] with
      | .ok () => return .err none
      | .error e => return .err (some e))

end ImageBasedInstall.FileLock

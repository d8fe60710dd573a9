import ImageBasedInstall.Posix.Files

/-!
# Open files and advisory locks

An owner, named by a number, has at most one open file. `flock` is the call that does not wait: it
is refused while another owner's lock on the same inode clashes. `Kernel.LocksExclude` is what the
kernel guarantees of the locks, kept by every call. `Kernel.Effect` says once what a call can do.
-/

namespace Posix

open Interactive

inductive LockKind where
  | shared
  | exclusive
  deriving DecidableEq, Repr

/-- An open file and the lock its owner has on it. -/
structure Handle where
  inode : Nat
  lock : Option LockKind := none
  deriving DecidableEq, Repr

/-- Locks on one inode, one of them exclusive. -/
def Handle.Clashes (h h' : Handle) : Prop :=
  h.inode = h'.inode ∧ h.lock.isSome ∧ h'.lock.isSome ∧
    (h.lock = some .exclusive ∨ h'.lock = some .exclusive)

instance (h h' : Handle) : Decidable (h.Clashes h') :=
  inferInstanceAs (Decidable (_ ∧ _ ∧ _ ∧ _))

theorem Handle.Clashes.symm {h h' : Handle} (hc : h.Clashes h') : h'.Clashes h :=
  ⟨hc.1.symm, hc.2.2.1, hc.2.1, hc.2.2.2.symm⟩

structure Kernel where
  disk : Disk := {}
  handle : Nat → Option Handle := fun _ => none
  /-- Only owners below this number have open files. -/
  owners : Nat := 0
  handle_of_le : ∀ i, owners ≤ i → handle i = none := by exact fun _ _ => rfl

namespace Kernel

variable (κ : Kernel) (i : Nat)

def withDisk (d : Disk) : Kernel := { κ with disk := d }

def setHandle (h : Handle) : Kernel where
  disk := κ.disk
  handle := Function.update κ.handle i (some h)
  owners := max κ.owners (i + 1)
  handle_of_le j hj := by
    have hne : j ≠ i := by omega
    rw [Function.update_of_ne hne]
    exact κ.handle_of_le j (by omega)

def dropHandle : Kernel where
  disk := κ.disk
  handle := Function.update κ.handle i none
  owners := κ.owners
  handle_of_le j hj := by
    by_cases hji : j = i
    · simp [hji]
    · rw [Function.update_of_ne hji]
      exact κ.handle_of_le j hj

/-- A number that neither a name nor an open file leads to. -/
def unusedInode : Nat :=
  let named := κ.disk.entries.filterMap fun e => match e.2 with
    | .file n => some n
    | .dir => none
  let opened := (List.range κ.owners).filterMap fun i => (κ.handle i).map (·.inode)
  (named ++ opened).foldr max 0 + 1

/-- Another owner's lock clashes with the lock the owner has on `h`. -/
def Contended (h : Handle) : Prop :=
  ∃ j < κ.owners, j ≠ i ∧ ∃ h' ∈ κ.handle j, h'.Clashes h

instance (h : Handle) : Decidable (κ.Contended i h) :=
  inferInstanceAs (Decidable (∃ j < _, j ≠ _ ∧ ∃ h' ∈ κ.handle j, _))

end Kernel

/-! ## Calls -/

inductive SysCall where
  | file (op : FileOp)
  /-- `open` with `O_CREAT`. -/
  | openFile (p : RelPath)
  /-- `flock` with `LOCK_NB`. -/
  | flock (k : LockKind)
  /-- `flock` with `LOCK_UN`. -/
  | funlock
  /-- Whether the open file has the permissions it is made with. -/
  | fstat
  | close
  deriving DecidableEq

def SysCall.Value : SysCall → Type
  | .file op => op.Value
  | .fstat => Bool
  | .openFile _ | .flock _ | .funlock | .close => Unit

abbrev SysCall.Reply (op : SysCall) : Type := Except Errno op.Value

abbrev Sys := Prog SysCall SysCall.Reply

/-- One system call. -/
abbrev sys (op : SysCall) : Sys op.Reply := Prog.perform op

namespace Kernel

def answer (i : Nat) : (op : SysCall) → Choice → Kernel → op.Reply × Kernel
  | .file op, c, κ =>
    ((op.answer κ.unusedInode c κ.disk).1, κ.withDisk (op.answer κ.unusedInode c κ.disk).2)
  | .openFile p, c, κ =>
    match κ.disk.create p κ.unusedInode, c.fault with
    | .ok (n, d), none => (.ok (), (κ.withDisk d).setHandle i ⟨n, none⟩)
    | .ok (_, d), some e => (.error e, if c.late then κ.withDisk d else κ)
    | .error e, _ => (.error e, κ)
  | .flock k, c, κ =>
    match κ.handle i, c.fault with
    | none, _ => (.error .badf, κ)
    | some _, some e => (.error e, κ)
    | some h, none =>
      if κ.Contended i ⟨h.inode, some k⟩ then (.error .wouldblock, κ)
      else (.ok (), κ.setHandle i ⟨h.inode, some k⟩)
  | .funlock, c, κ =>
    match κ.handle i, c.fault with
    | none, _ => (.error .badf, κ)
    | some _, some e => (.error e, κ)
    | some h, none => (.ok (), κ.setHandle i ⟨h.inode, none⟩)
  | .fstat, c, κ =>
    match κ.handle i, c.fault with
    | none, _ => (.error .badf, κ)
    | some _, some e => (.error e, κ)
    | some _, none => (.ok (c.answer == 0), κ)
  | .close, c, κ =>
    -- the descriptor is gone even when `close` reports an error
    (c.fault.elim (.ok ()) .error, κ.dropHandle i)

variable {κ : Kernel} {i j : Nat} {op : SysCall} {c : Choice} {h : Handle} {d : Disk}

@[simp] theorem withDisk_handle : (κ.withDisk d).handle = κ.handle := rfl

@[simp] theorem withDisk_disk : (κ.withDisk d).disk = d := rfl

@[simp] theorem setHandle_disk : (κ.setHandle i h).disk = κ.disk := rfl

@[simp] theorem setHandle_handle :
    (κ.setHandle i h).handle = Function.update κ.handle i (some h) := rfl

@[simp] theorem dropHandle_disk : (κ.dropHandle i).disk = κ.disk := rfl

@[simp] theorem dropHandle_handle : (κ.dropHandle i).handle = Function.update κ.handle i none := rfl

theorem lt_owners (hj : κ.handle j = some h) : j < κ.owners := by
  by_contra hle
  rw [κ.handle_of_le j (by omega)] at hj
  cases hj

/-- What a call does to the kernel: nothing, something on the disk, or something to the handle of
its owner. -/
inductive Effect (i : Nat) (κ : Kernel) : SysCall → Kernel → Prop
  | none {op : SysCall} : Effect i κ op κ
  | file (op : FileOp) (c : Choice) :
    Effect i κ (.file op) (κ.withDisk (op.answer κ.unusedInode c κ.disk).2)
  | create {p : RelPath} {n : Nat} {d : Disk} (h : κ.disk.create p κ.unusedInode = .ok (n, d)) :
    Effect i κ (.openFile p) (κ.withDisk d)
  | opened {p : RelPath} {n : Nat} {d : Disk} (h : κ.disk.create p κ.unusedInode = .ok (n, d)) :
    Effect i κ (.openFile p) ((κ.withDisk d).setHandle i ⟨n, Option.none⟩)
  | locked {k : LockKind} {h : Handle} (hi : κ.handle i = some h)
    (hfree : ¬ κ.Contended i ⟨h.inode, some k⟩) :
    Effect i κ (.flock k) (κ.setHandle i ⟨h.inode, some k⟩)
  | unlocked {h : Handle} (hi : κ.handle i = some h) :
    Effect i κ .funlock (κ.setHandle i ⟨h.inode, Option.none⟩)
  | closed : Effect i κ .close (κ.dropHandle i)

theorem effect_answer (i : Nat) (op : SysCall) (c : Choice) (κ : Kernel) :
    Effect i κ op (κ.answer i op c).2 := by
  cases op with
  | file op => exact .file op c
  | openFile p =>
    simp only [answer]
    split
    · next hc _ => exact .opened hc
    · next hc _ =>
      split
      · exact .create hc
      · exact .none
    · exact .none
  | flock k =>
    simp only [answer]
    split
    · exact .none
    · exact .none
    · next hi _ =>
      split
      · exact .none
      · next hfree => exact .locked hi hfree
  | funlock =>
    simp only [answer]
    split
    · exact .none
    · exact .none
    · next hi _ => exact .unlocked hi
  | fstat =>
    simp only [answer]
    split <;> exact .none
  | close => exact .closed

/-- No two owners have clashing locks. -/
def LocksExclude (κ : Kernel) : Prop :=
  ∀ i j h h', i ≠ j → κ.handle i = some h → κ.handle j = some h' → ¬ h.Clashes h'

variable {κ' : Kernel}

/-- One owner's handle changes: only its clashes with the others are in question. -/
theorem LocksExclude.update (hκ : κ.LocksExclude)
    (hne : ∀ j, j ≠ i → κ'.handle j = κ.handle j)
    (hi : ∀ h, κ'.handle i = some h → ∀ j h', j ≠ i → κ.handle j = some h' → ¬ h'.Clashes h) :
    κ'.LocksExclude := by
  intro a b h h' hab ha hb
  by_cases hai : a = i
  · subst hai
    rw [hne b hab.symm] at hb
    exact fun hc => hi h ha b h' hab.symm hb hc.symm
  · rw [hne a hai] at ha
    by_cases hbi : b = i
    · subst hbi
      exact hi h' hb a h hai ha
    · rw [hne b hbi] at hb
      exact hκ a b h h' hab ha hb

namespace Effect

/-- A call leaves the open files of the other owners alone. -/
theorem handle_ne (heff : Effect i κ op κ') (hji : j ≠ i) : κ'.handle j = κ.handle j := by
  cases heff <;> simp [hji]

/-- A handle after a call: one that was there, on the same inode, or the caller's, on the inode its
name leads to now. -/
theorem handle_some (heff : Effect i κ op κ') (hj : κ'.handle j = some h) :
    (∃ h₀, κ.handle j = some h₀ ∧ h₀.inode = h.inode) ∨
    j = i ∧ ∃ p, op = .openFile p ∧ κ'.disk.inode p = some h.inode := by
  by_cases hji : j = i
  · subst hji
    cases heff with
    | none | file | create => exact .inl ⟨h, hj, rfl⟩
    | opened hc =>
      simp only [setHandle_handle, Function.update_self, Option.some.injEq] at hj
      subst hj
      exact .inr ⟨rfl, _, rfl, Disk.inode_of_create hc⟩
    | locked hi | unlocked hi =>
      simp only [setHandle_handle, Function.update_self, Option.some.injEq] at hj
      subst hj
      exact .inl ⟨_, hi, rfl⟩
    | closed => simp at hj
  · rw [heff.handle_ne hji] at hj
    exact .inl ⟨h, hj, rfl⟩

/-- What a call can do to the inode of a name: remove it, or make it where nothing was. -/
theorem inode_eq (heff : Effect i κ op κ') (p : RelPath) :
    κ'.disk.inode p = κ.disk.inode p ∨
    op = .file (.unlink p) ∧ κ'.disk.inode p = Option.none ∨
    (op = .file (.writeFile p) ∨ op = .openFile p) ∧ κ.disk.Vacant p := by
  cases heff with
  | none | locked | unlocked | closed => exact .inl rfl
  | file op c =>
    rcases FileOp.inode_answer (p := p) op with hsame | ⟨rfl, hgone⟩ | ⟨rfl, hnew⟩
    · exact .inl hsame
    · exact .inr (.inl ⟨rfl, hgone⟩)
    · exact .inr (.inr ⟨.inl rfl, hnew⟩)
  | create hc | opened hc =>
    rcases Disk.inode_create (p := p) hc with hsame | ⟨rfl, hnew⟩
    · exact .inl hsame
    · exact .inr (.inr ⟨.inr rfl, hnew⟩)

theorem locksExclude (heff : Effect i κ op κ') (hκ : κ.LocksExclude) : κ'.LocksExclude := by
  refine hκ.update (i := i) (fun j hj => heff.handle_ne hj) fun h hh j h' hji hj hc => ?_
  -- an owner without a lock clashes with nobody
  have hlock : h.lock ≠ Option.none := by
    intro hnone
    have hsome := hc.2.2.1
    rw [hnone] at hsome
    cases hsome
  cases heff with
  | none | file | create => exact hκ j i h' h hji hj hh hc
  | opened | unlocked =>
    simp only [setHandle_handle, Function.update_self, Option.some.injEq] at hh
    subst hh
    exact hlock rfl
  | locked hi hfree =>
    simp only [setHandle_handle, Function.update_self, Option.some.injEq] at hh
    subst hh
    exact hfree ⟨j, lt_owners hj, hji, h', hj, hc⟩
  | closed => simp at hh

end Effect

end Kernel

end Posix

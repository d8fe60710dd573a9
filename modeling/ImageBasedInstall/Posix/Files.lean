import ImageBasedInstall.Interactive.Prog

/-!
# Files, open files and advisory locks

The calls of one process family on the files below one directory. A path is relative to that
directory, `[]` is the directory itself; nothing above it is ever removed. The name of a file and
the file are two things: a name leads to an inode, an open file keeps its inode when the name is
removed, and an advisory lock (`flock`) belongs to the inode that was opened.

Everything the calls do not determine is a `Choice`: failures, which may come before or after the
call took effect, and what a program learns from elsewhere.
-/

namespace Posix

open Interactive

abbrev RelPath := List String

inductive Errno where
  | noent
  | exist
  | notdir
  | isdir
  | notempty
  | wouldblock
  | io
  | badf
  | other (code : Nat)
  deriving DecidableEq, Repr

structure Choice where
  fault : Option Errno := none
  /-- The call failed after it had taken effect. -/
  late : Bool := false
  answer : Nat := 0

/-! ## Names -/

inductive Node where
  | dir
  | file (inode : Nat)
  deriving DecidableEq, Repr

/-- What is below the directory, by path. -/
structure Disk where
  entries : List (RelPath × Node) := []

namespace Disk

variable (d : Disk) (p q : RelPath)

def lookup : Option Node := d.entries.lookup p

def inode : Option Nat :=
  match d.lookup p with
  | some (.file n) => some n
  | _ => none

def add (n : Node) : Disk := ⟨(p, n) :: d.entries⟩

def remove : Disk := ⟨d.entries.filter fun e => e.1 != p⟩

/-- The names in a directory. -/
def names : List String :=
  d.entries.filterMap fun e => if e.1.dropLast = p then e.1.getLast? else none

/-- The directory a path lies in exists. -/
def HasParent : Prop := p = [] ∨ d.lookup p.dropLast = some .dir

instance : Decidable (d.HasParent p) := inferInstanceAs (Decidable (_ ∨ _))

/-- Nothing has this path, and a file can be made there. -/
def Vacant : Prop := d.lookup p = none ∧ d.HasParent p

instance : Decidable (d.Vacant p) := inferInstanceAs (Decidable (_ ∧ _))

@[simp] theorem lookup_add (n : Node) :
    (d.add p n).lookup q = if q = p then some n else d.lookup q := by
  by_cases h : q = p
  · simp [add, lookup, h]
  · have hne : (q == p) = false := beq_false_of_ne h
    simp [add, lookup, List.lookup_cons, h, hne]

@[simp] theorem lookup_remove :
    (d.remove p).lookup q = if q = p then none else d.lookup q := by
  obtain ⟨entries⟩ := d
  induction entries with
  | nil => simp [remove, lookup]
  | cons e es ih =>
    obtain ⟨r, n⟩ := e
    by_cases hr : r = p
    · subst hr
      by_cases hq : q = r
      · simpa [remove, lookup, hq] using ih
      · have hne : (q == r) = false := beq_false_of_ne hq
        simpa [remove, lookup, List.lookup_cons, hq, hne] using ih
    · have hkeep : (r != p) = true := by simpa using hr
      by_cases hq : q = r
      · subst hq
        simp [remove, lookup, hkeep, hr]
      · have hne : (q == r) = false := beq_false_of_ne hq
        simpa [remove, lookup, List.lookup_cons, List.filter_cons, hkeep, hne] using ih

theorem inode_congr {d d' : Disk} (h : d'.lookup p = d.lookup p) : d'.inode p = d.inode p := by
  unfold inode
  rw [h]

/-- `open` with `O_CREAT`: the inode the name leads to, a new one if there was none. -/
def create (new : Nat) : Except Errno (Nat × Disk) :=
  match d.lookup p with
  | some (.file n) => .ok (n, d)
  | some .dir => .error .isdir
  | none => if d.HasParent p then .ok (new, d.add p (.file new)) else .error .noent

def mkdir : Except Errno Disk :=
  match d.lookup p with
  | some _ => .error .exist
  | none => if d.HasParent p then .ok (d.add p .dir) else .error .noent

def unlink : Except Errno Disk :=
  match d.lookup p with
  | some (.file _) => .ok (d.remove p)
  | some .dir => .error .isdir
  | none => .error .noent

def rmdir : Except Errno Disk :=
  match d.lookup p with
  | some .dir => if d.names p = [] then .ok (d.remove p) else .error .notempty
  | some (.file _) => .error .notdir
  | none => .error .noent

variable {d p q}

theorem inode_of_create {new n : Nat} {d' : Disk} (h : d.create p new = .ok (n, d')) :
    d'.inode p = some n := by
  unfold create at h
  split at h
  · next hfile =>
    cases h
    simp [inode, hfile]
  · cases h
  · split at h
    · cases h
      simp [inode]
    · cases h

/-- Making a file changes the inode of its own name only, and only where nothing was. -/
theorem inode_create {new n : Nat} {d' : Disk} (h : d.create q new = .ok (n, d')) :
    d'.inode p = d.inode p ∨ p = q ∧ d.Vacant p := by
  unfold create at h
  split at h
  · cases h
    exact .inl rfl
  · cases h
  · next hnone =>
    split at h
    · next hparent =>
      cases h
      by_cases hpq : p = q
      · subst hpq
        exact .inr ⟨rfl, hnone, hparent⟩
      · exact .inl (inode_congr _ (by simp [hpq]))
    · cases h

theorem inode_mkdir {d' : Disk} (h : d.mkdir q = .ok d') : d'.inode p = d.inode p := by
  unfold mkdir at h
  split at h
  · cases h
  · next hnone =>
    split at h
    · cases h
      by_cases hpq : p = q
      · subst hpq
        simp [inode, hnone]
      · exact inode_congr _ (by simp [hpq])
    · cases h

/-- Only a name that is unlinked itself loses its inode. -/
theorem inode_unlink {d' : Disk} (h : d.unlink q = .ok d') :
    d'.inode p = d.inode p ∨ p = q ∧ d'.inode p = none := by
  unfold unlink at h
  split at h
  · cases h
    by_cases hpq : p = q
    · subst hpq
      exact .inr ⟨rfl, by simp [inode]⟩
    · exact .inl (inode_congr _ (by simp [hpq]))
  · cases h
  · cases h

theorem inode_rmdir {d' : Disk} (h : d.rmdir q = .ok d') : d'.inode p = d.inode p := by
  unfold rmdir at h
  split at h
  · next hdir =>
    split at h
    · cases h
      by_cases hpq : p = q
      · subst hpq
        simp [inode, hdir]
      · exact inode_congr _ (by simp [hpq])
    · cases h
  · cases h
  · cases h

end Disk

/-! ## Calls on names -/

inductive FileOp where
  | stat (p : RelPath)
  | readDir (p : RelPath)
  | mkdir (p : RelPath)
  | writeFile (p : RelPath)
  | unlink (p : RelPath)
  | rmdir (p : RelPath)
  /-- Anything else a program may depend on: contents of files, other services. -/
  | ask
  deriving DecidableEq

namespace FileOp

/-- `stat` tells whether the path is a directory. -/
def Value : FileOp → Type
  | .stat _ => Bool
  | .readDir _ => List String
  | .ask => Nat
  | .mkdir _ | .writeFile _ | .unlink _ | .rmdir _ => Unit

abbrev Reply (op : FileOp) : Type := Except Errno op.Value

/-- What a call does when nothing fails. -/
def run (new : Nat) (c : Choice) (d : Disk) : (op : FileOp) → Except Errno (op.Value × Disk)
  | .stat p =>
    match d.lookup p with
    | some n => .ok (decide (n = .dir), d)
    | none => .error .noent
  | .readDir p =>
    match d.lookup p with
    | some .dir => .ok (d.names p, d)
    | some (.file _) => .error .notdir
    | none => .error .noent
  | .mkdir p => (d.mkdir p).map fun d' => ((), d')
  | .writeFile p => (d.create p new).map fun r => ((), r.2)
  | .unlink p => (d.unlink p).map fun d' => ((), d')
  | .rmdir p => (d.rmdir p).map fun d' => ((), d')
  | .ask => .ok (c.answer, d)

def answer (new : Nat) (c : Choice) (d : Disk) (op : FileOp) : op.Reply × Disk :=
  match op.run new c d, c.fault with
  | .ok (a, d'), none => (.ok a, d')
  | .ok (_, d'), some e => (.error e, if c.late then d' else d)
  | .error e, _ => (.error e, d)

variable {op : FileOp} {new : Nat} {c : Choice} {d : Disk} {p : RelPath}

theorem exists_of_map_eq_ok {α β : Type} {f : α → β} {x : Except Errno α} {b : β}
    (h : x.map f = .ok b) : ∃ a, x = .ok a ∧ f a = b := by
  cases x with
  | error e => cases h
  | ok a => exact ⟨a, rfl, Except.ok.inj h⟩

theorem answer_disk (op : FileOp) (new : Nat) (c : Choice) (d : Disk) :
    (op.answer new c d).2 = d ∨ ∃ a, op.run new c d = .ok (a, (op.answer new c d).2) := by
  unfold answer
  split
  · next h _ => exact .inr ⟨_, h⟩
  · next h _ =>
    by_cases hlate : c.late = true
    · exact .inr ⟨_, by simpa [hlate] using h⟩
    · exact .inl (by simp [hlate])
  · exact .inl rfl

/-- What a call can do to the inode of a name: remove it, or make it where nothing was. -/
theorem inode_answer (op : FileOp) : (op.answer new c d).2.inode p = d.inode p ∨
    op = .unlink p ∧ (op.answer new c d).2.inode p = none ∨
    op = .writeFile p ∧ d.Vacant p := by
  rcases answer_disk op new c d with h | ⟨a, h⟩
  · rw [h]
    exact .inl rfl
  generalize (op.answer new c d).2 = d' at h ⊢
  cases op with
  | stat q =>
    simp only [run] at h
    split at h <;> cases h
    exact .inl rfl
  | readDir q =>
    simp only [run] at h
    split at h <;> cases h
    exact .inl rfl
  | mkdir q =>
    obtain ⟨_, hd, he⟩ := exists_of_map_eq_ok h
    cases he
    exact .inl (Disk.inode_mkdir hd)
  | writeFile q =>
    obtain ⟨_, hd, he⟩ := exists_of_map_eq_ok h
    cases he
    rcases Disk.inode_create (p := p) hd with hsame | ⟨rfl, hnew⟩
    · exact .inl hsame
    · exact .inr (.inr ⟨rfl, hnew⟩)
  | unlink q =>
    obtain ⟨_, hd, he⟩ := exists_of_map_eq_ok h
    cases he
    rcases Disk.inode_unlink (p := p) hd with hsame | ⟨rfl, hgone⟩
    · exact .inl hsame
    · exact .inr (.inl ⟨rfl, hgone⟩)
  | rmdir q =>
    obtain ⟨_, hd, he⟩ := exists_of_map_eq_ok h
    cases he
    exact .inl (Disk.inode_rmdir hd)
  | ask =>
    cases h
    exact .inl rfl

end FileOp

/-! ## Directories as a whole -/

abbrev Files := Prog FileOp FileOp.Reply

/-- A call on names. -/
abbrev perform (op : FileOp) : Files op.Reply := Prog.perform op

/-- `os.MkdirAll`, the path from its end. -/
def mkdirAllRev : List String → Files (Except Errno Unit)
  | [] => mkdirIn [] (.ret (.ok ()))
  | name :: up => mkdirIn (name :: up).reverse (mkdirAllRev up)
where
  /-- One level: `parents` makes the levels above. -/
  mkdirIn (p : RelPath) (parents : Files (Except Errno Unit)) : Files (Except Errno Unit) := do
    match ← perform (.stat p) with
    | .ok true => return .ok ()
    | .ok false => return .error .notdir
    | .error _ =>
      match ← parents with
      | .error e => return .error e
      | .ok () =>
        match ← perform (.mkdir p) with
        | .ok () => return .ok ()
        | .error e =>
          match ← perform (.stat p) with
          | .ok true => return .ok ()
          | _ => return .error e

def mkdirAll (p : RelPath) : Files (Except Errno Unit) := mkdirAllRev p.reverse

/-- `os.Remove`. -/
def remove (p : RelPath) : Files (Except Errno Unit) := do
  match ← perform (.unlink p) with
  | .ok () => return .ok ()
  | .error e =>
    match ← perform (.rmdir p) with
    | .ok () => return .ok ()
    | .error .notdir => return .error e
    | .error e' => return .error e'

/-- The recursive part of `os.RemoveAll`: the entries of a directory one by one, then the directory.
`depth` bounds the levels; the first error is kept until the directory itself cannot be removed. -/
def removeAllFrom : Nat → RelPath → Files (Except Errno Unit)
  | depth, p => do
    match ← perform (.unlink p), depth with
    | .ok (), _ | .error .noent, _ => return .ok ()
    | .error .isdir, depth + 1 =>
      match ← perform (.readDir p) with
      | .error .noent => return .ok ()
      | .error e => return .error e
      | .ok names =>
        let recurse ← names.foldlM
          (fun (acc : Except Errno Unit) name => do
            let r ← removeAllFrom depth (p ++ [name])
            return acc.bind fun _ => r) (.ok ())
        match ← perform (.rmdir p), recurse with
        | .ok (), _ | .error .noent, _ => return .ok ()
        | .error _, .error e => return .error e
        | .error e, .ok () => return .error e
    | .error e, _ => return .error e

/-- `os.RemoveAll`. -/
def removeAll (depth : Nat) (p : RelPath) : Files (Except Errno Unit) := do
  match ← remove p with
  | .ok () | .error .noent => return .ok ()
  | .error _ => removeAllFrom depth p

end Posix

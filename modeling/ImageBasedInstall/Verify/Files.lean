import ImageBasedInstall.Verify.Build

/-!
# File contents

`World.content` is the content of the regular file at a path. Making directories does not change it,
and a write that succeeds changes it at one path.
-/

namespace ImageBasedInstall

open Interactive

variable {B : Type}

def World.content (w : World B) (path : Path) : Option B := (w.fs path).bind Entry.content

theorem World.fs_of_content {w : World B} {path : Path} {b : B} (h : w.content path = some b) :
    w.fs path = some (.file b) :=
  Entry.of_content h

@[simp] theorem World.content_setEntry (w : World B) (path : Path) (b : B) :
    (w.setEntry path (some (.file b))).content = Function.update w.content path (some b) := by
  funext q
  by_cases hq : q = path
  · subst hq
    simp [World.content, World.setEntry, Entry.content]
  · simp [World.content, World.setEntry, hq]

@[simp] theorem World.content_mkdirs (w : World B) (path : Path) :
    (w.mkdirs path).content = w.content := by
  funext q
  simp only [World.content, World.mkdirs]
  split
  · next h =>
    rw [Bool.and_eq_true, Option.isNone_iff_eq_none] at h
    rw [h.2]
    rfl
  · rfl

section Alone

variable {ok : World B → (op : Op B) → Resp op → World B → Prop} {w : World B} {path : Path} {b : B}

theorem tries_mkdirAll :
    Tries (Alone ok) (mkdirAll path) (fun _ w' => w' = w.mkdirs path) (fun _ _ => True) w :=
  meets_call fun c r w' hc _ => by
    refine ⟨trivial, meets_ret.2 ?_⟩
    rcases Choice.write_eq hc with ⟨rfl, rfl | ⟨e, rfl⟩⟩ | ⟨rfl, e, rfl⟩
    · rfl
    · trivial
    · trivial

theorem tries_writeFile :
    Tries (Alone ok) (writeFile path b) (fun _ w' => w' = w.setEntry path (some (.file b)))
      (fun _ _ => True) w :=
  meets_call fun c r w' hc _ => by
    refine ⟨trivial, meets_ret.2 ?_⟩
    obtain ⟨rfl, rfl⟩ | ⟨e, rfl, -⟩ := answer_writeFile hc
    · rfl
    · trivial

/-- A directory is made and a file written. -/
theorem tries_mkdir_write {dir : Path} {text text' : String} :
    Tries (Alone ok) (do (mkdirAll dir).wrap text; (writeFile path b).wrap text')
      (fun _ w' => w' = (w.mkdirs dir).setEntry path (some (.file b))) (fun _ _ => True) w := by
  refine Tries.seq (tries_wrap tries_mkdirAll) ?_
  rintro _ _ rfl
  exact tries_wrap tries_writeFile

/-- The directory is loaded as it is. -/
theorem tries_loadDir {dir : Path} :
    Tries (Alone ok) (loadDir dir) (fun snap w' => snap = w.files dir ∧ w' = w)
      (fun _ _ => True) w :=
  meets_call fun c r w' hc _ => by
    refine ⟨trivial, meets_ret.2 ?_⟩
    obtain ⟨rfl, rfl | ⟨e, rfl⟩⟩ := Choice.read_eq hc
    · exact ⟨rfl, rfl⟩
    · trivial

end Alone

end ImageBasedInstall

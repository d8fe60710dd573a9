import Mathlib.Data.List.Defs

/-!
# Machines with a read cache

`aged answer cached` is the machine `answer` behind a cache: the calls in `cached` are answered from
some version of the world, the current one or any earlier one, and change nothing. The choice of a
call says how many versions it lags behind.
-/

namespace Interactive

variable {Op : Type} {Resp : Op → Type} {W C : Type}

/-- A world with its earlier versions, the latest first. -/
structure Aged (W : Type) where
  now : W
  past : List W := []

namespace Aged

def versions (s : Aged W) : List W := s.now :: s.past

/-- The version that lies `lag` steps back; the current one if there is none. -/
def version (s : Aged W) (lag : Nat) : W := s.versions.getD lag s.now

/-- The number of that version, counted from the start. -/
def position (s : Aged W) (lag : Nat) : Nat :=
  if lag ≤ s.past.length then s.past.length - lag else s.past.length

def update (s : Aged W) (w : W) : Aged W := ⟨w, s.versions⟩

theorem now_mem (s : Aged W) : s.now ∈ s.versions := List.mem_cons_self ..

theorem version_mem (s : Aged W) (lag : Nat) : s.version lag ∈ s.versions := by
  unfold version
  rw [List.getD_eq_getElem?_getD]
  cases h : s.versions[lag]? with
  | none => exact s.now_mem
  | some w => exact List.mem_of_getElem? h

/-- What holds of all versions holds of all versions after an update that satisfies it. -/
theorem forall_update {P : W → Prop} {s : Aged W} {w : W} (hs : ∀ v ∈ s.versions, P v) (hw : P w) :
    ∀ v ∈ (s.update w).versions, P v := by
  intro v hv
  rcases List.mem_cons.1 hv with rfl | hv
  · exact hw
  · exact hs v hv

end Aged

/-- The machine behind the cache. -/
def aged (answer : (op : Op) → C → W → Resp op × W) (cached : Op → Bool) (op : Op) (c : C × Nat)
    (s : Aged W) : Resp op × Aged W :=
  if cached op then ((answer op c.1 (s.version c.2)).1, s)
  else ((answer op c.1 s.now).1, s.update (answer op c.1 s.now).2)

end Interactive

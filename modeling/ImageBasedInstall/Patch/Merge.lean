import Mathlib.Logic.Function.Basic

/-!
# Three-way merge patches

A client that patches an object sends the difference between the copy it started from (`base`) and
its own version (`new`); the server applies that difference to what is stored by then. A field that
the client did not change keeps its stored value, however old the client's copy is; a field it did
change is overwritten, whatever others stored in between. Lists are single fields.
-/

namespace Patch

variable {α κ ν : Type} [DecidableEq α] [DecidableEq ν]

/-- The patch on one field. -/
def mergeField (base new stored : α) : α := if new = base then stored else new

/-- The patch on a map, key by key. -/
def mergeMap (base new stored : κ → Option ν) : κ → Option ν :=
  fun k => mergeField (base k) (new k) (stored k)

@[simp] theorem mergeField_unchanged (base stored : α) : mergeField base base stored = stored :=
  if_pos rfl

/-- A patch made from a current copy stores the client's version. -/
@[simp] theorem mergeField_current (base new : α) : mergeField base new base = new := by
  unfold mergeField
  split
  · next h => exact h.symm
  · rfl

/-- The field is either kept or overwritten. -/
theorem mergeField_cases (base new stored : α) :
    (new = base ∧ mergeField base new stored = stored) ∨
      (new ≠ base ∧ mergeField base new stored = new) := by
  by_cases h : new = base
  · exact .inl ⟨h, if_pos h⟩
  · exact .inr ⟨h, if_neg h⟩

/-- What holds of the client's version and of the stored one holds of the merged field. -/
theorem mergeField_elim {P : α → Prop} {base new stored : α} (hnew : P new) (hstored : P stored) :
    P (mergeField base new stored) := by
  rcases mergeField_cases base new stored with ⟨-, h⟩ | ⟨-, h⟩
  · exact h.symm ▸ hstored
  · exact h.symm ▸ hnew

/-- A field that the patch leaves alone or sets to a value of a kind. -/
theorem mergeField_set {P : α → Prop} {base new stored : α}
    (h : new = base ∨ P new) :
    mergeField base new stored = stored ∨ P (mergeField base new stored) := by
  rcases mergeField_cases base new stored with ⟨-, heq⟩ | ⟨hne, heq⟩
  · exact .inl heq
  · exact .inr (heq.symm ▸ h.resolve_left hne)

@[simp] theorem mergeMap_unchanged (base stored : κ → Option ν) :
    mergeMap base base stored = stored :=
  funext fun _ => mergeField_unchanged ..

@[simp] theorem mergeMap_current (base new : κ → Option ν) : mergeMap base new base = new :=
  funext fun _ => mergeField_current ..

theorem mergeMap_apply (base new stored : κ → Option ν) (k : κ) :
    mergeMap base new stored k = mergeField (base k) (new k) (stored k) := rfl

end Patch

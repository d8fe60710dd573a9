import Mathlib.Data.List.Induction
import Mathlib.Data.List.Nodup

/-!
# Layers of maps

Partial maps written one over the other: a key shows the value of the last layer that has it. An
association list without repeated keys is a layer, whatever the order of its entries.
-/

namespace Patch

variable {κ β : Type}

/-- Later layers hide earlier ones. -/
def overlay (layers : List (κ → Option β)) : κ → Option β :=
  layers.foldl (fun under layer k => (layer k).or (under k)) fun _ => none

theorem overlay_concat (layers : List (κ → Option β)) (layer : κ → Option β) :
    overlay (layers ++ [layer]) = fun k => (layer k).or (overlay layers k) := by
  simp [overlay]

/-- Some layer has the value, and no later one has another value. -/
def Shows (layers : List (κ → Option β)) (k : κ) (b : β) : Prop :=
  ∃ below layer above, layers = below ++ layer :: above ∧ layer k = some b ∧
    ∀ m ∈ above, ∀ b', m k = some b' → b' = b

theorem shows_concat {layers : List (κ → Option β)} {layer : κ → Option β} {k : κ} {b : β} :
    Shows (layers ++ [layer]) k b ↔
      layer k = some b ∨ (Shows layers k b ∧ layer k = none) := by
  constructor
  · rintro ⟨below, m, above, heq, hm, habove⟩
    rcases List.eq_nil_or_concat above with rfl | ⟨above', last, rfl⟩
    · obtain ⟨-, h⟩ := List.append_inj' heq rfl
      obtain rfl : layer = m := by simpa using h
      exact .inl hm
    · rw [List.concat_eq_append, ← List.cons_append, ← List.append_assoc] at heq
      obtain ⟨hinit, hlast⟩ := List.append_inj' heq rfl
      obtain rfl : layer = last := by simpa using hlast
      cases hk : layer k with
      | some b' =>
        obtain rfl := habove layer (by simp) b' hk
        exact .inl rfl
      | none =>
        exact .inr ⟨⟨below, m, above', hinit, hm, fun m' hm' => habove m' (by simp [hm'])⟩, rfl⟩
  · rintro (h | ⟨⟨below, m, above, rfl, hm, habove⟩, hnone⟩)
    · exact ⟨layers, layer, [], rfl, h, by simp⟩
    · refine ⟨below, m, above ++ [layer], by simp, hm, fun m' hm' b' hb' => ?_⟩
      rcases List.mem_append.1 hm' with hm' | hm'
      · exact habove m' hm' b' hb'
      · obtain rfl : m' = layer := by simpa using hm'
        simp [hnone] at hb'

theorem overlay_eq_some_iff {layers : List (κ → Option β)} {k : κ} {b : β} :
    overlay layers k = some b ↔ Shows layers k b := by
  induction layers using List.reverseRecOn with
  | nil => simp [overlay, Shows]
  | append_singleton layers layer ih =>
    rw [overlay_concat, shows_concat, ← ih]
    cases hk : layer k with
    | none => simp [hk]
    | some b' => simp [hk]

section Entries

variable [DecidableEq κ]

theorem lookup_cons_of_ne {l : List (κ × β)} {k k' : κ} (b : β) (h : k ≠ k') :
    ((k', b) :: l).lookup k = l.lookup k := by
  rw [List.lookup_cons, beq_eq_false_iff_ne.2 h]

/-- A key with one value. -/
theorem lookup_of_unique {l : List (κ × β)} {k : κ} {b : β} (hmem : (k, b) ∈ l)
    (huniq : ∀ b', (k, b') ∈ l → b' = b) : l.lookup k = some b := by
  induction l with
  | nil => cases hmem
  | cons kv l ih =>
    obtain ⟨k', b'⟩ := kv
    by_cases hk : k = k'
    · subst hk
      rw [huniq b' (List.mem_cons_self ..)]
      exact List.lookup_cons_self
    · rw [lookup_cons_of_ne b' hk]
      refine ih ?_ fun b'' h => huniq b'' (List.mem_cons_of_mem _ h)
      simpa [hk] using hmem

theorem mem_of_lookup {l : List (κ × β)} {k : κ} {b : β} (h : l.lookup k = some b) :
    (k, b) ∈ l := by
  obtain ⟨l₁, l₂, rfl, -⟩ := List.lookup_eq_some_iff.1 h
  simp

theorem lookup_eq_some_iff_mem {l : List (κ × β)} (hl : (l.map Prod.fst).Nodup) {k : κ} {b : β} :
    l.lookup k = some b ↔ (k, b) ∈ l := by
  refine ⟨mem_of_lookup, fun hmem => lookup_of_unique hmem fun b' hb' => ?_⟩
  exact congrArg Prod.snd (List.inj_on_of_nodup_map hl hb' hmem rfl)

/-- The order of the entries does not matter. -/
theorem lookup_perm {l l' : List (κ × β)} (hperm : l'.Perm l) (hl : (l.map Prod.fst).Nodup) :
    (l'.lookup ·) = (l.lookup ·) := by
  have hl' : (l'.map Prod.fst).Nodup := (hperm.map Prod.fst).nodup_iff.2 hl
  funext k
  ext b
  rw [lookup_eq_some_iff_mem hl', lookup_eq_some_iff_mem hl, hperm.mem_iff]

end Entries

end Patch

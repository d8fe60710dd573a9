import Mathlib.Data.List.Range
import ImageBasedInstall.Interactive.Meets

/-!
# What a program may do

The counterpart of the triples of `Meets`: `May answer p Q w` says that some choices of the
environment lead `p` from `w` to a result that satisfies `Q`. A program returns on every infinite
stream of choices, after finitely many of them.
-/

namespace Interactive

variable {Op : Type} {Resp : Op → Type} {W C α β : Type}
  {answer : (op : Op) → C → W → Resp op × W}

/-- Some choices lead the program to a result that satisfies `Q`. -/
def May (answer : (op : Op) → C → W → Resp op × W) :
    Prog Op Resp α → (α → W → Prop) → W → Prop
  | .ret a, Q, w => Q a w
  | .call op k, Q, w => ∃ c, May answer (k (answer op c w).1) Q (answer op c w).2

namespace May

variable {p : Prog Op Resp α} {Q Q' : α → W → Prop} {w : W}

theorem call {op : Op} {k : Resp op → Prog Op Resp α} (c : C) {r : Resp op} {w' : W}
    (hc : answer op c w = (r, w')) (h : May answer (k r) Q w') :
    May answer (.call op k) Q w := by
  refine ⟨c, ?_⟩
  rw [hc]
  exact h

theorem seq {f : α → Prog Op Resp β} {R : β → W → Prop} (h : May answer p Q w)
    (hf : ∀ a w, Q a w → May answer (f a) R w) : May answer (p >>= f) R w := by
  induction p generalizing w with
  | ret a => exact hf a w h
  | call op k ih =>
    obtain ⟨c, hc⟩ := h
    exact ⟨c, ih _ hc⟩

/-- What holds in every run holds in this one. -/
theorem and_meets {ok guar : W → (op : Op) → Resp op → W → Prop} (h : May answer p Q w)
    (hm : Meets (.atomic answer ok guar) p Q' w) (hok : ∀ w op r w', ok w op r w') :
    May answer p (fun a w => Q a w ∧ Q' a w) w := by
  induction p generalizing w with
  | ret a => exact ⟨h, hm w rfl⟩
  | call op k ih =>
    obtain ⟨c, hc⟩ := h
    have hk := (hm w rfl (answer op c w).1 (answer op c w).2 ⟨⟨c, rfl⟩, hok _ _ _ _⟩).2
    exact ⟨c, ih _ hc hk⟩

/-- What holds in every run of some kind, if there is always a choice of that kind. -/
theorem of_meets {ok guar : W → (op : Op) → Resp op → W → Prop}
    (h : Meets (.atomic answer ok guar) p Q w)
    (hok : ∀ op w, ∃ c, ok w op (answer op c w).1 (answer op c w).2) : May answer p Q w := by
  induction p generalizing w with
  | ret a => exact h w rfl
  | call op k ih =>
    obtain ⟨c, hc⟩ := hok op w
    exact ⟨c, ih _ (h w rfl _ _ ⟨⟨c, rfl⟩, hc⟩).2⟩

/-- A machine that can leave the world alone lets every program pass without a trace. -/
theorem idle (hidle : ∀ (op : Op) (w : W), ∃ c, (answer op c w).2 = w) :
    May answer p (fun _ w' => w' = w) w := by
  induction p with
  | ret a => rfl
  | call op k ih =>
    obtain ⟨c, hc⟩ := hidle op w
    refine ⟨c, ?_⟩
    rw [hc]
    exact ih _

theorem exec (h : May answer p Q w) :
    ∃ cs a w', p.exec answer cs w = (w', some a) ∧ Q a w' := by
  induction p generalizing w with
  | ret a => exact ⟨[], a, w, rfl, h⟩
  | call op k ih =>
    obtain ⟨c, hc⟩ := h
    obtain ⟨cs, a, w', hexec, hQ⟩ := ih _ hc
    exact ⟨c :: cs, a, w', hexec, hQ⟩

end May

/-! ## Streams of choices -/

section Streams

variable {p : Prog Op Resp α} {w : W}

/-- The first `n` choices of a stream. -/
def firstChoices (cs : Nat → C) (n : Nat) : List C := (List.range n).map cs

theorem firstChoices_succ (cs : Nat → C) (n : Nat) :
    firstChoices cs (n + 1) = cs 0 :: firstChoices (fun i => cs (i + 1)) n := by
  simp [firstChoices, List.range_succ_eq_map, Function.comp_def]

theorem firstChoices_add (cs : Nat → C) (n m : Nat) :
    firstChoices cs (n + m) = firstChoices cs n ++ firstChoices (fun i => cs (n + i)) m := by
  simp [firstChoices, List.range_add, Function.comp_def]

/-- A list of choices, continued. -/
theorem firstChoices_getD (cs : List C) (c : C) :
    firstChoices (fun i => cs.getD i c) cs.length = cs := by
  refine List.ext_getElem (by simp [firstChoices]) fun i h₁ h₂ => ?_
  simp [firstChoices, h₂]

theorem exec_total (cs : Nat → C) :
    ∃ n a, (p.exec answer (firstChoices cs n) w).2 = some a := by
  induction p generalizing cs w with
  | ret a => exact ⟨0, a, by rw [exec_ret]⟩
  | call op k ih =>
    obtain ⟨n, a, h⟩ := ih (answer op (cs 0) w).1 (w := (answer op (cs 0) w).2)
      fun i => cs (i + 1)
    refine ⟨n + 1, a, ?_⟩
    rw [firstChoices_succ]
    exact h

/-- A stream leads to one result. -/
theorem exec_unique {cs : Nat → C} {n m : Nat} {a b : α}
    (ha : (p.exec answer (firstChoices cs n) w).2 = some a)
    (hb : (p.exec answer (firstChoices cs m) w).2 = some b) : a = b := by
  have hlong : ∀ {n m : Nat} {a b : α}, n ≤ m →
      (p.exec answer (firstChoices cs n) w).2 = some a →
      (p.exec answer (firstChoices cs m) w).2 = some b → a = b := by
    intro n m a b hle ha hb
    obtain ⟨d, rfl⟩ := Nat.exists_eq_add_of_le hle
    rw [firstChoices_add, exec_append answer (Prod.ext rfl ha)] at hb
    exact Option.some.inj hb
  rcases Nat.le_total n m with hle | hle
  · exact hlong hle ha hb
  · exact (hlong hle hb ha).symm

end Streams

end Interactive

import ImageBasedInstall.Interactive.May

/-!
# Runs to the end, over and over

A program returns on every stream of choices, so a run on a stream is a total function: its result
and the world it leaves. It is the run of `Prog.exec` on as many choices as the program needs.

A system that is run turn after turn gets an input, makes a report and leaves a new state in each of
them. `Settles`: within a number of turns a goal holds for good, every turn before the last asks for
another one, and no turn fails.
-/

namespace Interactive

section Complete

variable {Op : Type} {Resp : Op → Type} {W C α β : Type}
  (answer : (op : Op) → C → W → Resp op × W)

/-- Run a program on a stream of choices to its end. -/
def Prog.complete : Prog Op Resp α → (Nat → C) → W → α × W
  | .ret a, _, w => (a, w)
  | .call op k, cs, w =>
    (k (answer op (cs 0) w).1).complete (fun i => cs (i + 1)) (answer op (cs 0) w).2

variable {answer} {p : Prog Op Resp α} {w : W}

theorem exec_complete (cs : Nat → C) :
    ∃ n, p.exec answer (firstChoices cs n) w =
      ((p.complete answer cs w).2, some (p.complete answer cs w).1) := by
  induction p generalizing cs w with
  | ret a => exact ⟨0, rfl⟩
  | call op k ih =>
    obtain ⟨n, h⟩ := ih (answer op (cs 0) w).1 (w := (answer op (cs 0) w).2) fun i => cs (i + 1)
    refine ⟨n + 1, ?_⟩
    rw [firstChoices_succ]
    exact h

/-- A complete run satisfies the postcondition. -/
theorem Meets.complete {ok guar : W → (op : Op) → Resp op → W → Prop} {Q : α → W → Prop}
    (h : Meets (.atomic answer ok guar) p Q w) {cs : Nat → C}
    (hok : ∀ i w op, ok w op (answer op (cs i) w).1 (answer op (cs i) w).2) :
    Q (p.complete answer cs w).1 (p.complete answer cs w).2 := by
  induction p generalizing cs w with
  | ret a => exact h w rfl
  | call op k ih =>
    obtain ⟨-, hk⟩ := h w rfl _ _ ⟨⟨cs 0, rfl⟩, hok 0 w op⟩
    exact ih _ hk fun i => hok (i + 1)

end Complete

/-! ## Turns -/

section Loop

variable {S W R : Type} (turn : S → W → R × W)

/-- The state after a number of turns. -/
def loop : (Nat → S) → Nat → W → W
  | _, 0, w => w
  | ss, n + 1, w => loop (fun i => ss (i + 1)) n (turn (ss 0) w).2

/-- What the turn after a number of others reports. -/
def loopReport (ss : Nat → S) (n : Nat) (w : W) : R := (turn (ss n) (loop turn ss n w)).1

/-- Within `k` turns the goal holds, and from then on; until then every turn asks for another one,
and no turn fails. -/
def Settles (goal : W → Prop) (again fine : R → Prop) (ss : Nat → S) (k : Nat) (w : W) : Prop :=
  ∃ n ≤ k, (∀ m, n ≤ m → goal (loop turn ss m w)) ∧
    (∀ m, m + 1 < n → again (loopReport turn ss m w)) ∧ ∀ m, fine (loopReport turn ss m w)

variable {turn} {goal : W → Prop} {again fine : R → Prop} {input : S → Prop}
  {ss : Nat → S} {k : Nat} {w w' : W} {r : R}

/-- A goal that every turn keeps is kept by all of them. -/
theorem loop_keeps (hstep : ∀ s w, input s → goal w → goal (turn s w).2) (hss : ∀ n, input (ss n))
    (h : goal w) (m : Nat) : goal (loop turn ss m w) := by
  induction m generalizing w ss with
  | zero => exact h
  | succ m ih => exact ih (fun n => hss (n + 1)) (hstep _ _ (hss 0) h)

namespace Settles

/-- A goal that turns keep. -/
theorem now (hstep : ∀ s w, input s → goal w → fine (turn s w).1 ∧ goal (turn s w).2)
    (hss : ∀ n, input (ss n)) (h : goal w) : Settles turn goal again fine ss 0 w := by
  have hkeeps := loop_keeps (fun s w hs hw => (hstep s w hs hw).2) hss h
  refine ⟨0, Nat.le_refl 0, fun m _ => hkeeps m, fun m hm => ?_, fun m => ?_⟩
  · exact absurd hm (Nat.not_lt_zero _)
  · exact (hstep _ _ (hss m) (hkeeps m)).1

theorem mono {k' : Nat} (h : Settles turn goal again fine ss k w) (hk : k ≤ k') :
    Settles turn goal again fine ss k' w := by
  obtain ⟨n, hn, h⟩ := h
  exact ⟨n, Nat.le_trans hn hk, h⟩

/-- A turn before the others: it reaches the goal, or asks for another one. -/
theorem next (hturn : turn (ss 0) w = (r, w')) (hfine : fine r) (hagain : again r ∨ k = 0)
    (h : Settles turn goal again fine (fun i => ss (i + 1)) k w') :
    Settles turn goal again fine ss (k + 1) w := by
  obtain ⟨n, hn, hgoal, hrepeats, hfines⟩ := h
  have hloop : ∀ m, loop turn ss (m + 1) w = loop turn (fun i => ss (i + 1)) m w' := by
    intro m
    rw [loop, hturn]
  have hreport : ∀ m, loopReport turn ss (m + 1) w =
      loopReport turn (fun i => ss (i + 1)) m w' := by
    intro m
    rw [loopReport, hloop, loopReport]
  have hfirst : loopReport turn ss 0 w = r := congrArg Prod.fst hturn
  refine ⟨n + 1, Nat.succ_le_succ hn, fun m hm => ?_, fun m hm => ?_, fun m => ?_⟩
  · obtain ⟨m, rfl⟩ := Nat.exists_eq_add_one_of_ne_zero (Nat.ne_zero_of_lt hm)
    rw [hloop]
    exact hgoal m (Nat.le_of_succ_le_succ hm)
  · cases m with
    | zero =>
      rw [hfirst]
      exact hagain.resolve_right (by omega)
    | succ m =>
      rw [hreport]
      exact hrepeats m (by omega)
  · cases m with
    | zero => rwa [hfirst]
    | succ m =>
      rw [hreport]
      exact hfines m

end Settles

end Loop

end Interactive

import ImageBasedInstall.Interactive.Fallible

/-!
# Recorded runs

A machine that also keeps the list of its transitions. Triples over it can speak about what has
happened so far: that some program was run to its end, and with which transitions (`meets_ran`).
Whatever holds on the plain machine holds on the recording one (`Meets.recorded`).

A guarantee about the world before each call holds also in the world in which a run that was cut
short has stopped (`Meets.pending`).
-/

namespace Interactive

variable {Op : Type} {Resp : Op → Type} {W C α β : Type}

/-- The worlds of a recording machine. -/
abbrev Recorded (Op : Type) (Resp : Op → Type) (W C : Type) := W × List (Transition Op Resp W C)

/-- The machine that adds each transition to the record. -/
def recording (answer : (op : Op) → C → W → Resp op × W) (op : Op) (c : C)
    (s : Recorded Op Resp W C) : Resp op × Recorded Op Resp W C :=
  ((answer op c s.1).1, (answer op c s.1).2,
    s.2 ++ [⟨s.1, op, c, (answer op c s.1).1, (answer op c s.1).2⟩])

variable {answer : (op : Op) → C → W → Resp op × W}
  {ok guar : W → (op : Op) → Resp op → W → Prop} {p : Prog Op Resp α} {w : W}
  {l : List (Transition Op Resp W C)}

/-- The contract of a program that runs alone on the recording machine. -/
abbrev Recording (answer : (op : Op) → C → W → Resp op × W)
    (ok : W → (op : Op) → Resp op → W → Prop)
    (guar : Recorded Op Resp W C → (op : Op) → Resp op → Recorded Op Resp W C → Prop) :
    Contract Op Resp (Recorded Op Resp W C) :=
  .atomic (recording answer) (fun s op r s' => ok s.1 op r s'.1) guar

theorem exec_recording (p : Prog Op Resp α) (cs : List C) (w : W)
    (l : List (Transition Op Resp W C)) :
    p.exec (recording answer) cs (w, l) =
      (((p.exec answer cs w).1, l ++ p.trace answer cs w), (p.exec answer cs w).2) := by
  induction p generalizing cs w l with
  | ret a => simp
  | call op k ih =>
    cases cs with
    | nil => simp [Prog.exec, Prog.trace]
    | cons c cs =>
      have h := ih (answer op c w).1 cs (answer op c w).2
        (l ++ [⟨w, op, c, (answer op c w).1, (answer op c w).2⟩])
      rw [List.append_assoc] at h
      exact h

/-- The transitions of the recording machine are those of the plain one, each with its past. -/
theorem mem_trace_recording {p : Prog Op Resp α} {cs : List C} {w : W}
    {l pre post : List (Transition Op Resp W C)} {t : Transition Op Resp W C}
    (h : p.trace answer cs w = pre ++ t :: post) :
    (⟨(t.before, l ++ pre), t.op, t.choice, t.resp, (t.after, l ++ pre ++ [t])⟩ :
        Transition Op Resp (Recorded Op Resp W C) C) ∈
      p.trace (recording answer) cs (w, l) := by
  induction p generalizing cs w l pre with
  | ret a => simp at h
  | call op k ih =>
    cases cs with
    | nil => simp [Prog.trace] at h
    | cons c cs =>
      cases pre with
      | nil =>
        obtain ⟨rfl, -⟩ := List.cons.inj h
        simp [Prog.trace, recording]
      | cons t' pre =>
        obtain ⟨rfl, hrest⟩ := List.cons.inj h
        have ih := ih _ (l := l ++ [⟨w, op, c, (answer op c w).1, (answer op c w).2⟩]) hrest
        refine List.mem_cons_of_mem _ ?_
        simpa [recording] using ih

theorem traceOk_recording {cs : List C} (h : TraceOk answer ok p cs w) :
    TraceOk (recording answer) (fun s op r s' => ok s.1 op r s'.1) p cs (w, l) := by
  induction p generalizing cs w l with
  | ret a => exact traceOk_ret
  | call op k ih =>
    cases cs with
    | nil => exact traceOk_nil
    | cons c cs =>
      obtain ⟨hc, h⟩ := traceOk_cons.1 h
      exact traceOk_cons.2 ⟨hc, ih _ h⟩

/-- A triple over the plain machine. -/
theorem Meets.recorded {Q : α → W → Prop} (h : Meets (.atomic answer ok guar) p Q w) :
    Meets (Recording answer ok fun s op r s' => guar s.1 op r s'.1) p (fun a s => Q a s.1)
      (w, l) := by
  induction p generalizing w l with
  | ret a => exact fun s hs => hs ▸ h w rfl
  | call op k ih =>
    rintro _ rfl r s ⟨⟨c, hc⟩, ho⟩
    obtain ⟨rfl, rfl⟩ := Prod.mk.inj hc
    obtain ⟨hg, hk⟩ := h w rfl _ _ ⟨⟨c, rfl⟩, ho⟩
    exact ⟨hg, ih _ hk⟩

/-- A program that returns was run, and its transitions are recorded. -/
theorem meets_ran (p : Prog Op Resp α) (w : W) (l : List (Transition Op Resp W C)) :
    Meets (Recording answer ok fun _ _ _ _ => True) p (fun a s => ∃ cs,
      p.exec answer cs w = (s.1, some a) ∧ s.2 = l ++ p.trace answer cs w) (w, l) := by
  induction p generalizing w l with
  | ret a =>
    rintro _ rfl
    exact ⟨[], by simp⟩
  | call op k ih =>
    rintro _ rfl r s ⟨⟨c, hc⟩, -⟩
    obtain ⟨rfl, rfl⟩ := Prod.mk.inj hc
    refine ⟨trivial, (ih _ _ _).mono fun a s h => ?_⟩
    obtain ⟨cs, hexec, hrec⟩ := h
    refine ⟨c :: cs, hexec, ?_⟩
    rw [hrec, List.append_assoc]
    rfl

/-- In the world where a run stopped, the guarantee holds for the call it did not make. -/
theorem Meets.pending {S : W → Prop} {Q : α → W → Prop}
    (h : Meets (.atomic answer ok guar) p Q w) (cs : List C) (hok : TraceOk answer ok p cs w)
    (hS : ∀ w op r w', guar w op r w' → S w)
    (hgoes : ∀ op w, ∃ c, ok w op (answer op c w).1 (answer op c w).2)
    (hstop : (p.exec answer cs w).2 = none) : S (p.exec answer cs w).1 := by
  induction p generalizing w cs with
  | ret a => simp at hstop
  | call op k ih =>
    cases cs with
    | nil =>
      obtain ⟨c, hc⟩ := hgoes op w
      exact hS _ _ _ _ (h w rfl _ _ ⟨⟨c, rfl⟩, hc⟩).1
    | cons c cs =>
      have hc := hok _ (List.mem_cons_self ..)
      obtain ⟨-, hk⟩ := h w rfl _ _ ⟨⟨c, rfl⟩, hc⟩
      exact ih _ hk cs (fun t ht => hok t (List.mem_cons_of_mem _ ht)) hstop

/-- A family of guarantees and postconditions. -/
theorem Meets.all {ι : Type} {guar : ι → W → (op : Op) → Resp op → W → Prop}
    {Q : ι → α → W → Prop} (h : ∀ i, Meets (.atomic answer ok (guar i)) p (Q i) w) :
    Meets (.atomic answer ok fun w op r w' => ∀ i, guar i w op r w') p
      (fun a w => ∀ i, Q i a w) w := by
  induction p generalizing w with
  | ret a => exact fun w' hr i => h i w' hr
  | call op k ih =>
    intro w₁ hr r w₂ hs
    exact ⟨fun i => (h i w₁ hr r w₂ hs).1, ih r fun i => (h i w₁ hr r w₂ hs).2⟩

end Interactive

import ImageBasedInstall.Interactive.Meets

/-!
# Fallible programs

Programs that may stop with an error are `ExceptT ε (Prog Op Resp)`. `Tries K x Q R w` is the triple
for them, with one postcondition for success and one for failure; `Tries.bind` carries the failure
case past a sequence of calls, so a proof about `x >>= f` speaks about success only.
-/

namespace Interactive

variable {Op : Type} {Resp : Op → Type} {W ε ε' α β : Type}

/-- The postcondition of a fallible program: `Q` on success, `R` on failure. -/
def Outcome (Q : α → W → Prop) (R : ε → W → Prop) : Except ε α → W → Prop
  | .ok a, w => Q a w
  | .error e, w => R e w

@[simp] theorem outcome_ok {Q : α → W → Prop} {R : ε → W → Prop} {a : α} {w : W} :
    Outcome Q R (.ok a) w ↔ Q a w := Iff.rfl

@[simp] theorem outcome_error {Q : α → W → Prop} {R : ε → W → Prop} {e : ε} {w : W} :
    Outcome Q R (.error e) w ↔ R e w := Iff.rfl

/-- The triple of a fallible program. -/
def Tries (K : Contract Op Resp W) (x : ExceptT ε (Prog Op Resp) α) (Q : α → W → Prop)
    (R : ε → W → Prop) (w : W) : Prop :=
  Meets K x.run (Outcome Q R) w

namespace Tries

variable {K : Contract Op Resp W} {x : ExceptT ε (Prog Op Resp) α} {Q Q' : α → W → Prop}
  {R R' : ε → W → Prop} {w : W}

theorem pure {a : α} (h : ∀ w', K.rely w w' → Q a w') :
    Tries K (Pure.pure a : ExceptT ε (Prog Op Resp) α) Q R w := h

theorem mono (h : Tries K x Q R w) (hQ : ∀ a w, Q a w → Q' a w) (hR : ∀ e w, R e w → R' e w) :
    Tries K x Q' R' w :=
  Meets.mono h fun r w hr => by
    cases r with
    | ok a => exact hQ a w hr
    | error e => exact hR e w hr

/-- Sequencing. The failure of the first program is the failure of the whole. -/
theorem bind {f : α → ExceptT ε (Prog Op Resp) β} {Q : β → W → Prop}
    (h : Tries K x (fun a w => Tries K (f a) Q R w) R w) : Tries K (x >>= f) Q R w := by
  refine Meets.bind (Meets.consequence h fun r w hr => ?_)
  cases r with
  | ok a => exact hr w (K.rely_refl w)
  | error e => exact hr

theorem seq {f : α → ExceptT ε (Prog Op Resp) β} {Q' : β → W → Prop} (h : Tries K x Q R w)
    (hf : ∀ a w, Q a w → Tries K (f a) Q' R w) : Tries K (x >>= f) Q' R w :=
  bind (h.mono hf fun _ _ => id)

theorem lift {p : Prog Op Resp α} (h : Meets K p Q w) :
    Tries K (ExceptT.lift p : ExceptT ε (Prog Op Resp) α) Q R w :=
  Meets.bind (h.consequence fun _ _ ha => ha)

/-- A loop, with what holds after the rounds that are done. -/
theorem forM {f : β → ExceptT ε (Prog Op Resp) PUnit} {I : List β → W → Prop} (l : List β)
    (hrely : ∀ done w w', I done w → K.rely w w' → I done w')
    (hf : ∀ done b rest, l = done ++ b :: rest → ∀ w, I done w →
      Tries K (f b) (fun _ w' => I (done ++ [b]) w') R w)
    (hw : I [] w) : Tries K (l.forM f) (fun _ w' => I l w') R w := by
  suffices h : ∀ rest done w, l = done ++ rest → I done w →
      Tries K (rest.forM f) (fun _ w' => I l w') R w from h l [] w rfl hw
  intro rest
  induction rest with
  | nil =>
    intro done w hl hw
    rw [List.append_nil] at hl
    exact Tries.pure fun w' hr => hl ▸ hrely done w w' hw hr
  | cons b rest ih =>
    intro done w hl hw
    refine (hf done b rest hl w hw).seq fun _ w₁ h₁ => ?_
    exact ih (done ++ [b]) w₁ (by simp [hl]) h₁

/-- A program whose error is rewrapped. -/
theorem adapt {f : ε → ε'} {R : ε' → W → Prop} (h : Tries K x Q (fun e w => R (f e) w) w) :
    Tries K (x.adapt f) Q R w := by
  refine Meets.bind (Meets.consequence h fun r w hr => ?_)
  cases r with
  | ok a => exact hr
  | error e => exact hr

end Tries

/-! ## Values -/

/-- A sequence of values that succeeds: so does its first one. -/
theorem exists_of_bind_eq_ok {x : Except ε α} {f : α → Except ε β} {b : β}
    (h : (x >>= f) = .ok b) : ∃ a, x = .ok a ∧ f a = .ok b := by
  cases x with
  | error e => cases h
  | ok a => exact ⟨a, rfl, h⟩

/-! ## Runs of a sequence -/

section Run

variable {C : Type} {answer : (op : Op) → C → W → Resp op × W} {x : ExceptT ε (Prog Op Resp) α}
  {f : α → ExceptT ε (Prog Op Resp) β} {cs : List C} {w w' : W}

/-- A sequence that succeeded: so did its first program. -/
theorem exec_bind_ok {b : β} (h : (x >>= f).run.exec answer cs w = (w', some (.ok b))) :
    ∃ cs₁ cs₂ a w₁, cs = cs₁ ++ cs₂ ∧ x.run.exec answer cs₁ w = (w₁, some (.ok a)) ∧
      (f a).run.exec answer cs₂ w₁ = (w', some (.ok b)) := by
  obtain ⟨cs₁, cs₂, r, w₁, hcs, hx, hf⟩ := exec_bind answer (p := x.run) h
  cases r with
  | ok a => exact ⟨cs₁, cs₂, a, w₁, hcs, hx, hf⟩
  | error e =>
    have hret := (exec_ret answer (Except.error e : Except ε β) cs₂ w₁).symm.trans hf
    cases hret

/-- A transition of a sequence belongs to the first program, or to the second after the first has
succeeded. -/
theorem mem_trace_bind_ok {t : Transition Op Resp W C} (h : t ∈ (x >>= f).run.trace answer cs w) :
    t ∈ x.run.trace answer cs w ∨ ∃ cs₁ cs₂ a w₁, cs = cs₁ ++ cs₂ ∧
      x.run.exec answer cs₁ w = (w₁, some (.ok a)) ∧ t ∈ (f a).run.trace answer cs₂ w₁ := by
  rcases mem_trace_bind answer (p := x.run) h with h | ⟨cs₁, cs₂, r, w₁, hcs, hx, hf⟩
  · exact .inl h
  · cases r with
    | ok a => exact .inr ⟨cs₁, cs₂, a, w₁, hcs, hx, hf⟩
    | error e =>
      have hnil : t ∈ ([] : List (Transition Op Resp W C)) :=
        trace_ret answer (Except.error e : Except ε β) cs₂ w₁ ▸ hf
      cases hnil

end Run

/-! ## Calls of a fallible program -/

section Uses

variable {A : Op → Prop} {x : ExceptT ε (Prog Op Resp) α}

@[simp] theorem uses_pure (a : α) : (pure a : ExceptT ε (Prog Op Resp) α).run.Uses A := trivial

@[simp] theorem uses_throw (e : ε) : (throw e : ExceptT ε (Prog Op Resp) α).run.Uses A := trivial

theorem uses_bind {f : α → ExceptT ε (Prog Op Resp) β} (hx : x.run.Uses A)
    (hf : ∀ a, (f a).run.Uses A) : (x >>= f).run.Uses A :=
  Prog.Uses.bind hx fun r => by
    cases r with
    | ok a => exact hf a
    | error e => trivial

theorem uses_adapt {f : ε → ε'} (hx : x.run.Uses A) : (x.adapt f).run.Uses A :=
  Prog.Uses.bind hx fun r => by cases r <;> trivial

theorem uses_lift {p : Prog Op Resp α} (hp : p.Uses A) :
    (ExceptT.lift p : ExceptT ε (Prog Op Resp) α).run.Uses A :=
  Prog.Uses.bind hp fun _ => trivial

theorem uses_forM {f : β → ExceptT ε (Prog Op Resp) PUnit} (l : List β)
    (hf : ∀ b ∈ l, (f b).run.Uses A) : (l.forM f).run.Uses A := by
  induction l with
  | nil => exact uses_pure _
  | cons b l ih =>
    exact uses_bind (hf b (List.mem_cons_self ..)) fun _ =>
      ih fun b' hb' => hf b' (List.mem_cons_of_mem _ hb')

theorem uses_allM {f : β → Prog Op Resp Bool} (l : List β) (hf : ∀ b, (f b).Uses A) :
    (l.allM f).Uses A := by
  induction l with
  | nil => trivial
  | cons b l ih =>
    refine (hf b).bind fun r => ?_
    cases r with
    | true => exact ih
    | false => trivial

theorem uses_forM' {f : β → Prog Op Resp PUnit} (l : List β) (hf : ∀ b ∈ l, (f b).Uses A) :
    (l.forM f).Uses A := by
  induction l with
  | nil => trivial
  | cons b l ih =>
    exact (hf b (List.mem_cons_self ..)).bind fun _ =>
      ih fun b' hb' => hf b' (List.mem_cons_of_mem _ hb')

theorem uses_foldlM {f : α → β → Prog Op Resp α} (l : List β) (a : α)
    (hf : ∀ a b, (f a b).Uses A) : (l.foldlM f a).Uses A := by
  induction l generalizing a with
  | nil => trivial
  | cons b l ih => exact (hf a b).bind fun a' => ih a'

end Uses

end Interactive

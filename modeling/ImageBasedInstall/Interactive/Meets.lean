import ImageBasedInstall.Interactive.Prog

/-!
# Rely/guarantee triples for interactive programs

A `Contract` says how calls are answered (`step`), what others may do to the world between two
calls (`rely`), and what each own transition must satisfy (`guar`). `Meets K p Q w`: started in
`w`, every transition of `p` satisfies the guarantee, whatever the others do within the rely, and
if `p` returns `a` then `Q a` holds, and keeps holding under the rely.

The atomic reading is the contract whose rely is equality: `Meets.exec` and `Meets.trace` then
speak about `Prog.exec` and `Prog.trace`.
-/

namespace Interactive

/-- How calls are answered, what others may do in between, what each own transition must satisfy. -/
structure Contract (Op : Type) (Resp : Op → Type) (W : Type) where
  step : (op : Op) → W → Resp op → W → Prop
  rely : W → W → Prop
  guar : W → (op : Op) → Resp op → W → Prop
  rely_refl : ∀ w, rely w w
  rely_trans : ∀ {u v w}, rely u v → rely v w → rely u w

variable {Op : Type} {Resp : Op → Type} {W C α β : Type}

/-- The triple: from `w`, `p` keeps the guarantee and returns only in states satisfying `Q`. -/
def Meets (K : Contract Op Resp W) : Prog Op Resp α → (α → W → Prop) → W → Prop
  | .ret a, Q, w => ∀ w', K.rely w w' → Q a w'
  | .call op k, Q, w => ∀ w₁, K.rely w w₁ → ∀ r w₂, K.step op w₁ r w₂ →
      K.guar w₁ op r w₂ ∧ Meets K (k r) Q w₂

namespace Meets

variable {K : Contract Op Resp W} {p : Prog Op Resp α} {Q Q' : α → W → Prop} {w w' : W}

/-- A triple survives whatever the others may do before the program's next call. -/
theorem stable (h : Meets K p Q w) (hr : K.rely w w') : Meets K p Q w' := by
  cases p with
  | ret a => exact fun w'' hr' => h w'' (K.rely_trans hr hr')
  | call op k => exact fun w₁ hr' => h w₁ (K.rely_trans hr hr')

/-- Consequence. The old postcondition may be used in every world the others can still reach. -/
theorem consequence (h : Meets K p Q w)
    (hQ : ∀ a w, (∀ w', K.rely w w' → Q a w') → Q' a w) : Meets K p Q' w := by
  induction p generalizing w with
  | ret a => exact fun w' hr => hQ a w' fun w'' hr' => h w'' (K.rely_trans hr hr')
  | call op k ih =>
    intro w₁ hr r w₂ hs
    obtain ⟨hg, hk⟩ := h w₁ hr r w₂ hs
    exact ⟨hg, ih r hk⟩

theorem mono (h : Meets K p Q w) (hQ : ∀ a w, Q a w → Q' a w) : Meets K p Q' w :=
  h.consequence fun a w ha => hQ a w (ha w (K.rely_refl w))

/-- Sequencing: the first program establishes what the second one starts from. -/
theorem bind {f : α → Prog Op Resp β} {R : β → W → Prop}
    (h : Meets K p (fun a w => Meets K (f a) R w) w) : Meets K (p >>= f) R w := by
  induction p generalizing w with
  | ret a => exact h w (K.rely_refl w)
  | call op k ih =>
    intro w₁ hr r w₂ hs
    obtain ⟨hg, hk⟩ := h w₁ hr r w₂ hs
    exact ⟨hg, ih r hk⟩

/-- Sequencing with the intermediate assertion named. -/
theorem seq {f : α → Prog Op Resp β} {R : β → W → Prop} (h : Meets K p Q w)
    (hf : ∀ a w, Q a w → Meets K (f a) R w) : Meets K (p >>= f) R w :=
  (h.mono hf).bind

/-- Both postconditions of a program that meets two triples. -/
theorem and (h : Meets K p Q w) (h' : Meets K p Q' w) :
    Meets K p (fun a w => Q a w ∧ Q' a w) w := by
  induction p generalizing w with
  | ret a => exact fun w' hr => ⟨h w' hr, h' w' hr⟩
  | call op k ih =>
    intro w₁ hr r w₂ hs
    obtain ⟨hg, hk⟩ := h w₁ hr r w₂ hs
    exact ⟨hg, ih r hk (h' w₁ hr r w₂ hs).2⟩

/-- A program all of whose possible calls keep an assertion keeps it. The assertion has to be
stable under the rely and give the guarantee of those calls. -/
theorem of_uses {A : Op → Prop} {I : W → Prop} (hp : p.Uses A)
    (hrely : ∀ w w', I w → K.rely w w' → I w')
    (hstep : ∀ op w r w', A op → I w → K.step op w r w' → K.guar w op r w' ∧ I w')
    (hw : I w) : Meets K p (fun _ w => I w) w := by
  induction p generalizing w with
  | ret a => exact fun w' hr => hrely w w' hw hr
  | call op k ih =>
    intro w₁ hr r w₂ hs
    obtain ⟨hg, hi⟩ := hstep op w₁ r w₂ hp.1 (hrely w w₁ hw hr) hs
    exact ⟨hg, ih r (hp.2 r) hi⟩

/-- Every value the program can return is one it yields. -/
theorem yields {P : α → Prop} (h : Meets K p Q w) (hp : p.Yields P) :
    Meets K p (fun a w => Q a w ∧ P a) w := by
  induction p generalizing w with
  | ret a => exact fun w' hr => ⟨h w' hr, hp⟩
  | call op k ih =>
    intro w₁ hr r w₂ hs
    obtain ⟨hg, hk⟩ := h w₁ hr r w₂ hs
    exact ⟨hg, ih r hk (hp r)⟩

/-- Where the guarantee says nothing, every program meets the trivial triple. -/
theorem triv (hg : ∀ w op r w', K.guar w op r w') : Meets K p (fun _ _ => True) w := by
  induction p generalizing w with
  | ret a => exact fun _ _ => trivial
  | call op k ih => exact fun w₁ _ r w₂ _ => ⟨hg w₁ op r w₂, ih r⟩

/-- A loop keeps what each round keeps. -/
theorem forM {f : β → Prog Op Resp PUnit} {I : W → Prop} (l : List β)
    (hrely : ∀ w w', I w → K.rely w w' → I w')
    (hf : ∀ b ∈ l, ∀ w, I w → Meets K (f b) (fun _ w' => I w') w) (hw : I w) :
    Meets K (l.forM f) (fun _ w' => I w') w := by
  induction l generalizing w with
  | nil => exact fun w' hr => hrely w w' hw hr
  | cons b l ih =>
    refine (hf b (List.mem_cons_self ..) w hw).seq fun _ w₁ h₁ => ?_
    exact ih (fun b' hb' => hf b' (List.mem_cons_of_mem _ hb')) h₁

/-- A conjunction of checks that keep an assertion: if it comes out true, each check did. -/
theorem allM {f : β → Prog Op Resp Bool} {P : β → Prop} {I : W → Prop} (l : List β)
    (hrely : ∀ w w', I w → K.rely w w' → I w')
    (hf : ∀ b w, I w → Meets K (f b) (fun r w' => I w' ∧ (r = true → P b)) w) (hw : I w) :
    Meets K (l.allM f) (fun r w' => I w' ∧ (r = true → ∀ b ∈ l, P b)) w := by
  induction l generalizing w with
  | nil => exact fun w' hr => ⟨hrely w w' hw hr, fun _ _ h => nomatch h⟩
  | cons b l ih =>
    refine (hf b w hw).seq fun r w₁ h₁ => ?_
    cases r with
    | false => exact fun w' hr => ⟨hrely w₁ w' h₁.1 hr, fun h => nomatch h⟩
    | true =>
      refine (ih h₁.1).mono fun r' w₂ h₂ => ⟨h₂.1, fun hr' b' hb' => ?_⟩
      rcases List.mem_cons.1 hb' with rfl | hb'
      · exact h₁.2 rfl
      · exact h₂.2 hr' b' hb'

end Meets

/-! ## The atomic reading -/

/-- The contract of a program that runs alone: calls are answered by the machine `answer` under
some choice allowed by `ok`, and nobody else touches the world. -/
def Contract.atomic (answer : (op : Op) → C → W → Resp op × W)
    (ok : W → (op : Op) → Resp op → W → Prop) (guar : W → (op : Op) → Resp op → W → Prop) :
    Contract Op Resp W where
  step op w r w' := (∃ c, answer op c w = (r, w')) ∧ ok w op r w'
  rely w w' := w = w'
  guar := guar
  rely_refl _ := rfl
  rely_trans := Eq.trans

section Atomic

variable {answer : (op : Op) → C → W → Resp op × W}
  {ok guar : W → (op : Op) → Resp op → W → Prop}
  {p : Prog Op Resp α} {Q : α → W → Prop} {w : W}

/-- The transitions of a run all satisfy `ok`. -/
def TraceOk (answer : (op : Op) → C → W → Resp op × W)
    (ok : W → (op : Op) → Resp op → W → Prop) (p : Prog Op Resp α) (cs : List C) (w : W) : Prop :=
  ∀ t ∈ p.trace answer cs w, ok t.before t.op t.resp t.after

theorem traceOk_ret {a : α} {cs : List C} : TraceOk answer ok (.ret a) cs w := by
  intro t ht
  simp at ht

theorem traceOk_nil : TraceOk answer ok p [] w := by
  intro t ht
  cases p <;> cases ht

theorem traceOk_cons {op : Op} {k : Resp op → Prog Op Resp α} {c : C} {cs : List C} :
    TraceOk answer ok (.call op k) (c :: cs) w ↔
      ok w op (answer op c w).1 (answer op c w).2 ∧
        TraceOk answer ok (k (answer op c w).1) cs (answer op c w).2 :=
  List.forall_mem_cons

theorem traceOk_true (cs : List C) : TraceOk answer (fun _ _ _ _ => True) p cs w :=
  fun _ _ => trivial

theorem traceOk_saw (cs : List C) :
    TraceOk answer (fun _ op r _ => p.Saw answer cs w op r) p cs w :=
  fun t ht => ⟨t, ht, rfl⟩

/-- Two guarantees and two postconditions at once. -/
theorem Meets.both {guar' : W → (op : Op) → Resp op → W → Prop} {Q' : α → W → Prop}
    (h : Meets (.atomic answer ok guar) p Q w) (h' : Meets (.atomic answer ok guar') p Q' w) :
    Meets (.atomic answer ok fun w op r w' => guar w op r w' ∧ guar' w op r w') p
      (fun a w => Q a w ∧ Q' a w) w := by
  induction p generalizing w with
  | ret a => exact fun w' hr => ⟨h w' hr, h' w' hr⟩
  | call op k ih =>
    intro w₁ hr r w₂ hs
    obtain ⟨hg, hk⟩ := h w₁ hr r w₂ hs
    obtain ⟨hg', hk'⟩ := h' w₁ hr r w₂ hs
    exact ⟨⟨hg, hg'⟩, ih r hk hk'⟩

theorem Meets.guar_mono {guar' : W → (op : Op) → Resp op → W → Prop}
    (h : Meets (.atomic answer ok guar) p Q w)
    (hg : ∀ w op r w', guar w op r w' → guar' w op r w') :
    Meets (.atomic answer ok guar') p Q w := by
  induction p generalizing w with
  | ret a => exact h
  | call op k ih =>
    intro w₁ hr r w₂ hs
    obtain ⟨hw, hk⟩ := h w₁ hr r w₂ hs
    exact ⟨hg _ _ _ _ hw, ih r hk⟩

/-- A triple holds for fewer replies as well. -/
theorem Meets.ok_mono {ok' : W → (op : Op) → Resp op → W → Prop}
    (h : Meets (.atomic answer ok guar) p Q w)
    (hok : ∀ w op r w', ok' w op r w' → ok w op r w') :
    Meets (.atomic answer ok' guar) p Q w := by
  induction p generalizing w with
  | ret a => exact h
  | call op k ih =>
    rintro w₁ hr r w₂ ⟨hc, ho⟩
    obtain ⟨hg, hk⟩ := h w₁ hr r w₂ ⟨hc, hok _ _ _ _ ho⟩
    exact ⟨hg, ih r hk⟩

/-- An assertion that the guarantee carries on may be assumed before every call. -/
theorem Meets.assume {I : W → Prop}
    (h : Meets (.atomic answer (fun w op r w' => I w ∧ ok w op r w') guar) p Q w)
    (hI : ∀ w op r w', I w → guar w op r w' → I w') (hw : I w) :
    Meets (.atomic answer ok guar) p Q w := by
  induction p generalizing w with
  | ret a => exact h
  | call op k ih =>
    rintro _ rfl r w₂ ⟨hc, ho⟩
    obtain ⟨hg, hk⟩ := h w rfl r w₂ ⟨hc, hw, ho⟩
    exact ⟨hg, ih r hk (hI w op r w₂ hw hg)⟩

/-- What the first call may assume about the world before it may be assumed at the start. -/
theorem Meets.given {I : W → Prop} (hp : ∀ a, p ≠ .ret a) (hI : ∀ op r w', ok w op r w' → I w)
    (h : I w → Meets (.atomic answer ok guar) p Q w) : Meets (.atomic answer ok guar) p Q w := by
  cases p with
  | ret a => exact absurd rfl (hp a)
  | call op k =>
    rintro _ rfl r w₂ hs
    exact h (hI op r w₂ hs.2) w rfl r w₂ hs

/-- Every transition of an atomic run satisfies the guarantee. -/
theorem Meets.trace (h : Meets (.atomic answer ok guar) p Q w) (cs : List C)
    (hok : TraceOk answer ok p cs w) : TraceOk answer guar p cs w := by
  induction p generalizing w cs with
  | ret a => exact traceOk_ret
  | call op k ih =>
    cases cs with
    | nil => exact traceOk_nil
    | cons c cs =>
      obtain ⟨hc, hok⟩ := traceOk_cons.1 hok
      obtain ⟨hg, hk⟩ := h w rfl _ _ ⟨⟨c, rfl⟩, hc⟩
      exact traceOk_cons.2 ⟨hg, ih _ hk cs hok⟩

/-- An atomic run that returns satisfies the postcondition. -/
theorem Meets.exec (h : Meets (.atomic answer ok guar) p Q w) (cs : List C)
    (hok : TraceOk answer ok p cs w) {a : α} (ha : (p.exec answer cs w).2 = some a) :
    Q a (p.exec answer cs w).1 := by
  induction p generalizing w cs with
  | ret b =>
    simp only [exec_ret, Option.some.injEq] at ha ⊢
    exact ha ▸ h w rfl
  | call op k ih =>
    cases cs with
    | nil => cases ha
    | cons c cs =>
      obtain ⟨hc, hok⟩ := traceOk_cons.1 hok
      obtain ⟨-, hk⟩ := h w rfl _ _ ⟨⟨c, rfl⟩, hc⟩
      exact ih _ hk cs hok ha

/-- A value folded along the run, and an assertion about it and the world that every transition
keeps: it holds in the last world of every run, also of one that stopped half-way. -/
theorem Meets.fold {G : Type} {I : G → W → Prop} (upd : G → Transition Op Resp W C → G) {g : G}
    (h : Meets (.atomic answer ok guar) p Q w) (cs : List C) (hok : TraceOk answer ok p cs w)
    (hI : ∀ g t, I g t.before → answer t.op t.choice t.before = (t.resp, t.after) →
      guar t.before t.op t.resp t.after → I (upd g t) t.after)
    (hw : I g w) : I ((p.trace answer cs w).foldl upd g) (p.exec answer cs w).1 := by
  induction p generalizing w cs g with
  | ret a => simpa using hw
  | call op k ih =>
    cases cs with
    | nil => exact hw
    | cons c cs =>
      obtain ⟨hc, hok⟩ := traceOk_cons.1 hok
      obtain ⟨hg, hk⟩ := h w rfl _ _ ⟨⟨c, rfl⟩, hc⟩
      exact ih _ hk cs hok (hI g _ hw rfl hg)

/-- An assertion about the world that the guarantee carries from each transition to the next. -/
theorem Meets.last {I : W → Prop} (h : Meets (.atomic answer ok guar) p Q w) (cs : List C)
    (hok : TraceOk answer ok p cs w) (hI : ∀ w op r w', I w → guar w op r w' → I w')
    (hw : I w) : I (p.exec answer cs w).1 :=
  h.fold (I := fun _ : Unit => I) (fun g _ => g) (g := ()) cs hok
    (fun _ _ hbefore _ hg => hI _ _ _ _ hbefore hg) hw

/-- Such an assertion holds before every transition of the run. -/
theorem Meets.before {I : W → Prop} (h : Meets (.atomic answer ok guar) p Q w) (cs : List C)
    (hok : TraceOk answer ok p cs w) (hI : ∀ w op r w', I w → guar w op r w' → I w')
    (hw : I w) : ∀ t ∈ p.trace answer cs w, I t.before := by
  induction p generalizing w cs with
  | ret a => intro t ht; simp at ht
  | call op k ih =>
    cases cs with
    | nil => intro t ht; cases ht
    | cons c cs =>
      obtain ⟨hc, hok⟩ := traceOk_cons.1 hok
      obtain ⟨hg, hk⟩ := h w rfl _ _ ⟨⟨c, rfl⟩, hc⟩
      intro t ht
      rcases List.mem_cons.1 ht with rfl | ht
      · exact hw
      · exact ih _ hk cs hok (hI _ _ _ _ hw hg) t ht

end Atomic

end Interactive

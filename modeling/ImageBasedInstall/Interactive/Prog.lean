import Mathlib.Logic.Function.Basic

/-!
# Interactive programs

A program is a tree of calls: it returns a value, or it makes a call and continues with the reply.
What a call does is not part of the program: a *machine* answers it from a world and from a choice
(everything the environment decides: failures, random draws), so that one program text runs
atomically, interleaved with others, or against a stale cache, under different machines.

`Prog.exec` runs a program on a list of choices. The list may end before the program does: the
process then stopped there, and the run has no result. `Prog.trace` is the list of the transitions
of that run, in order.
-/

namespace Interactive

/-- A program with calls in `Op` whose replies lie in `Resp`. -/
inductive Prog (Op : Type) (Resp : Op → Type) (α : Type) where
  | ret (a : α)
  | call (op : Op) (k : Resp op → Prog Op Resp α)

namespace Prog

variable {Op : Type} {Resp : Op → Type} {α β γ : Type}

/-- Sequencing: the calls of the first program, then those of the second. -/
def bind : Prog Op Resp α → (α → Prog Op Resp β) → Prog Op Resp β
  | ret a, f => f a
  | call op k, f => call op fun r => (k r).bind f

instance : Monad (Prog Op Resp) where
  pure := ret
  bind := bind

/-- The program that makes one call and returns its reply. -/
def perform (op : Op) : Prog Op Resp (Resp op) := call op ret

@[simp] theorem pure_eq (a : α) : (pure a : Prog Op Resp α) = ret a := rfl

@[simp] theorem ret_bind (a : α) (f : α → Prog Op Resp β) : (ret a >>= f) = f a := rfl

@[simp] theorem call_bind (op : Op) (k : Resp op → Prog Op Resp α) (f : α → Prog Op Resp β) :
    (call op k >>= f) = call op fun r => k r >>= f := rfl

@[simp] theorem bind_ret (p : Prog Op Resp α) : (p >>= ret) = p := by
  induction p with
  | ret a => rfl
  | call op k ih => simp only [call_bind, ih]

theorem bind_assoc' (p : Prog Op Resp α) (f : α → Prog Op Resp β) (g : β → Prog Op Resp γ) :
    ((p >>= f) >>= g) = p >>= fun a => f a >>= g := by
  induction p with
  | ret a => rfl
  | call op k ih => simp only [call_bind, ih]

instance : LawfulMonad (Prog Op Resp) :=
  LawfulMonad.mk' _ (fun p => bind_ret p) (fun _ _ => rfl) bind_assoc'

/-- Every call the program can make, whatever the replies, lies in `A`. -/
def Uses (A : Op → Prop) : Prog Op Resp α → Prop
  | ret _ => True
  | call op k => A op ∧ ∀ r, (k r).Uses A

section Uses

variable {A A' : Op → Prop}

@[simp] theorem uses_ret (a : α) : (ret a : Prog Op Resp α).Uses A := trivial

@[simp] theorem uses_call {op : Op} {k : Resp op → Prog Op Resp α} :
    (call op k).Uses A ↔ A op ∧ ∀ r, (k r).Uses A := Iff.rfl

theorem uses_perform {op : Op} (h : A op) : (perform op : Prog Op Resp (Resp op)).Uses A :=
  ⟨h, fun _ => trivial⟩

theorem Uses.bind {p : Prog Op Resp α} {f : α → Prog Op Resp β} (hp : p.Uses A)
    (hf : ∀ a, (f a).Uses A) : (p >>= f).Uses A := by
  induction p with
  | ret a => exact hf a
  | call op k ih => exact ⟨hp.1, fun r => ih r (hp.2 r)⟩

theorem Uses.mono {p : Prog Op Resp α} (hp : p.Uses A) (h : ∀ op, A op → A' op) : p.Uses A' := by
  induction p with
  | ret a => trivial
  | call op k ih => exact ⟨h op hp.1, fun r => ih r (hp.2 r)⟩

theorem Uses.and {p : Prog Op Resp α} (h : p.Uses A) (h' : p.Uses A') :
    p.Uses fun op => A op ∧ A' op := by
  induction p with
  | ret a => trivial
  | call op k ih => exact ⟨⟨h.1, h'.1⟩, fun r => ih r (h.2 r) (h'.2 r)⟩

/-- Some replies lead the program to the call `o`. -/
def Makes (o : Op) : Prog Op Resp α → Prop
  | ret _ => False
  | call op k => op = o ∨ ∃ r, (k r).Makes o

/-- A call the program can make lies in its footprint. -/
theorem Uses.makes {p : Prog Op Resp α} {o : Op} (hp : p.Uses A) (h : p.Makes o) : A o := by
  induction p with
  | ret a => exact h.elim
  | call op k ih =>
    rcases h with rfl | ⟨r, hr⟩
    · exact hp.1
    · exact ih r (hp.2 r) hr

end Uses

/-- Every value the program can return, whatever the replies, satisfies `P`. -/
def Yields (P : α → Prop) : Prog Op Resp α → Prop
  | ret a => P a
  | call _ k => ∀ r, (k r).Yields P

section Yields

variable {P : α → Prop} {R : β → Prop}

theorem Yields.bind {p : Prog Op Resp α} {f : α → Prog Op Resp β} (hp : p.Yields P)
    (hf : ∀ a, P a → (f a).Yields R) : (p >>= f).Yields R := by
  induction p with
  | ret a => exact hf a hp
  | call op k ih => exact fun r => ih r (hp r)

theorem Yields.mono {P' : α → Prop} {p : Prog Op Resp α} (hp : p.Yields P)
    (h : ∀ a, P a → P' a) : p.Yields P' := by
  induction p with
  | ret a => exact h a hp
  | call op k ih => exact fun r => ih r (hp r)

theorem yields_true (p : Prog Op Resp α) : p.Yields fun _ => True := by
  induction p with
  | ret a => trivial
  | call op k ih => exact ih

/-- After a program about whose value nothing is known. -/
theorem yields_bind {p : Prog Op Resp α} {f : α → Prog Op Resp β}
    (hf : ∀ a, (f a).Yields R) : (p >>= f).Yields R :=
  (yields_true p).bind fun a _ => hf a

end Yields

/-- A program that does the same as another and returns more. -/
theorem map_bind_eq {f : β → γ} {p : Prog Op Resp α} {k' : α → Prog Op Resp β}
    {k : α → Prog Op Resp γ} (h : ∀ a, f <$> k' a = k a) : f <$> (p >>= k') = p >>= k := by
  rw [map_bind]
  exact congrArg (p >>= ·) (funext h)

end Prog

/-! ## Running a program -/

/-- One transition of a run: a call, the choice that answered it, and the worlds around it. -/
structure Transition (Op : Type) (Resp : Op → Type) (W C : Type) where
  before : W
  op : Op
  choice : C
  resp : Resp op
  after : W

section Run

variable {Op : Type} {Resp : Op → Type} {W C α β : Type}
  (answer : (op : Op) → C → W → Resp op × W)

/-- Run a program on a list of choices: the last world, and the result if the program returned. -/
def Prog.exec : Prog Op Resp α → List C → W → W × Option α
  | .ret a, _, w => (w, some a)
  | .call _ _, [], w => (w, none)
  | .call op k, c :: cs, w => (k (answer op c w).1).exec cs (answer op c w).2

/-- The transitions of the same run. -/
def Prog.trace : Prog Op Resp α → List C → W → List (Transition Op Resp W C)
  | .ret _, _, _ => []
  | .call _ _, [], _ => []
  | .call op k, c :: cs, w =>
    ⟨w, op, c, (answer op c w).1, (answer op c w).2⟩ ::
      (k (answer op c w).1).trace cs (answer op c w).2

/-- In this run the call `op` was answered with `r`. -/
def Prog.Saw (p : Prog Op Resp α) (cs : List C) (w : W) (op : Op) (r : Resp op) : Prop :=
  ∃ t ∈ p.trace answer cs w, (⟨t.op, t.resp⟩ : (op : Op) × Resp op) = ⟨op, r⟩

@[simp] theorem exec_ret (a : α) (cs : List C) (w : W) :
    (Prog.ret a : Prog Op Resp α).exec answer cs w = (w, some a) := by
  cases cs <;> rfl

@[simp] theorem trace_ret (a : α) (cs : List C) (w : W) :
    (Prog.ret a : Prog Op Resp α).trace answer cs w = [] := by
  cases cs <;> rfl

variable {p : Prog Op Resp α} {cs : List C} {w : W} {t : Transition Op Resp W C}

/-- A transition of a run is its first one, or one of the run of what follows. -/
theorem trace_rule {P : Prog Op Resp α → List C → Transition Op Resp W C → Prop}
    (head : ∀ op k c cs w,
      P (.call op k) (c :: cs) ⟨w, op, c, (answer op c w).1, (answer op c w).2⟩)
    (tail : ∀ op k c cs r t, P (k r) cs t → P (.call op k) (c :: cs) t)
    (ht : t ∈ p.trace answer cs w) : P p cs t := by
  induction p generalizing cs w with
  | ret a => simp at ht
  | call op k ih =>
    cases cs with
    | nil => cases ht
    | cons c cs =>
      rcases List.mem_cons.1 ht with rfl | ht
      · exact head op k c cs w
      · exact tail op k c cs _ t (ih _ ht)

/-- The program can make the calls of its runs. -/
theorem makes_of_mem_trace (ht : t ∈ p.trace answer cs w) : p.Makes t.op :=
  trace_rule answer (P := fun p _ t => p.Makes t.op) (fun _ _ _ _ _ => .inl rfl)
    (fun _ _ _ _ r _ h => .inr ⟨r, h⟩) ht

/-- Every transition is answered by the machine. -/
theorem trace_answer (ht : t ∈ p.trace answer cs w) :
    answer t.op t.choice t.before = (t.resp, t.after) :=
  trace_rule answer (P := fun _ _ t => answer t.op t.choice t.before = (t.resp, t.after))
    (fun _ _ _ _ _ => rfl) (fun _ _ _ _ _ _ h => h) ht

/-- The choices of a run are those of its list. -/
theorem trace_choice (ht : t ∈ p.trace answer cs w) : t.choice ∈ cs :=
  trace_rule answer (P := fun _ cs t => t.choice ∈ cs) (fun _ _ _ _ _ => List.mem_cons_self ..)
    (fun _ _ _ _ _ _ h => List.mem_cons_of_mem _ h) ht

theorem exec_map (f : α → β) (p : Prog Op Resp α) (cs : List C) (w : W) :
    (f <$> p).exec answer cs w = ((p.exec answer cs w).1, (p.exec answer cs w).2.map f) := by
  induction p generalizing cs w with
  | ret a => cases cs <;> rfl
  | call op k ih =>
    cases cs with
    | nil => rfl
    | cons c cs => exact ih _ cs _

theorem trace_map (f : α → β) (p : Prog Op Resp α) (cs : List C) (w : W) :
    (f <$> p).trace answer cs w = p.trace answer cs w := by
  induction p generalizing cs w with
  | ret a => cases cs <;> rfl
  | call op k ih =>
    cases cs with
    | nil => rfl
    | cons c cs => exact congrArg _ (ih _ cs _)

/-- A program that has returned looks at no further choice. -/
theorem exec_append {p : Prog Op Resp α} {cs : List C} {w w' : W} {a : α}
    (h : p.exec answer cs w = (w', some a)) (cs' : List C) :
    p.exec answer (cs ++ cs') w = (w', some a) := by
  induction p generalizing cs w with
  | ret b => simpa using h
  | call op k ih =>
    cases cs with
    | nil => cases h
    | cons c cs => exact ih _ h

/-- A sequence that returned: the first program returned on a part of the choices, the second on the
rest. -/
theorem exec_bind {p : Prog Op Resp α} {f : α → Prog Op Resp β} {cs : List C} {w w' : W} {b : β}
    (h : (p >>= f).exec answer cs w = (w', some b)) :
    ∃ cs₁ cs₂ a w₁, cs = cs₁ ++ cs₂ ∧ p.exec answer cs₁ w = (w₁, some a) ∧
      (f a).exec answer cs₂ w₁ = (w', some b) := by
  induction p generalizing cs w with
  | ret a => exact ⟨[], cs, a, w, rfl, rfl, h⟩
  | call op k ih =>
    cases cs with
    | nil => cases h
    | cons c cs =>
      obtain ⟨cs₁, cs₂, a, w₁, rfl, hp, hf⟩ := ih _ h
      exact ⟨c :: cs₁, cs₂, a, w₁, rfl, hp, hf⟩

/-- A sequence whose first program returns goes on with the second. -/
theorem exec_bind_of {p : Prog Op Resp α} {f : α → Prog Op Resp β} {cs : List C} {w : W} {a : α}
    (h : (p.exec answer cs w).2 = some a) :
    ∃ cs₂, (p >>= f).exec answer cs w = (f a).exec answer cs₂ (p.exec answer cs w).1 ∧
      (p >>= f).trace answer cs w =
        p.trace answer cs w ++ (f a).trace answer cs₂ (p.exec answer cs w).1 := by
  induction p generalizing cs w with
  | ret b =>
    simp only [exec_ret, Option.some.injEq] at h
    subst h
    exact ⟨cs, by simp, by simp⟩
  | call op k ih =>
    cases cs with
    | nil => cases h
    | cons c cs =>
      obtain ⟨cs₂, hexec, htrace⟩ := ih _ h
      exact ⟨cs₂, hexec, congrArg (_ :: ·) htrace⟩

/-- A transition of a sequence belongs to the first program, or to the second after the first has
returned. -/
theorem mem_trace_bind {p : Prog Op Resp α} {f : α → Prog Op Resp β} {cs : List C} {w : W}
    {t : Transition Op Resp W C} (h : t ∈ (p >>= f).trace answer cs w) :
    t ∈ p.trace answer cs w ∨ ∃ cs₁ cs₂ a w₁, cs = cs₁ ++ cs₂ ∧
      p.exec answer cs₁ w = (w₁, some a) ∧ t ∈ (f a).trace answer cs₂ w₁ := by
  induction p generalizing cs w with
  | ret a => exact .inr ⟨[], cs, a, w, rfl, rfl, h⟩
  | call op k ih =>
    cases cs with
    | nil => cases h
    | cons c cs =>
      rcases List.mem_cons.1 h with rfl | h
      · exact .inl (List.mem_cons_self ..)
      rcases ih _ h with h | ⟨cs₁, cs₂, a, w₁, rfl, hp, hf⟩
      · exact .inl (List.mem_cons_of_mem _ h)
      · exact .inr ⟨c :: cs₁, cs₂, a, w₁, rfl, hp, hf⟩

end Run

end Interactive

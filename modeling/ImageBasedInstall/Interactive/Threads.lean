import ImageBasedInstall.Interactive.Meets
import ImageBasedInstall.Interactive.Reach

/-!
# Interleaved programs

Threads run programs against one world, a call at a time, in any order; between two calls the
environment may change the world. A thread is named by a number, knows what kind of program it runs
(`tag`) and the calls it has made so far (`log`); a thread that is stopped half-way has nothing left
to do. The configuration keeps the calls of all threads (`history`), the latest first.

`Sched.invariant` is the rule for invariants that have a part about the world and a part about each
thread. The part about a thread is often a triple in the contract `Contract.logged`, which assumes
something of every reply (`R`) and guarantees something of every call (`A`, given the calls before).
-/

namespace Interactive

variable {Op : Type} {Resp : Op → Type} {W C Tag Ev α : Type}

/-- Calls with their replies, the latest first. -/
abbrev Log (Op : Type) (Resp : Op → Type) := List ((op : Op) × Resp op)

/-- Replies are assumed to satisfy `R`, each call has to satisfy `A`, given the calls before it. -/
def Contract.logged (R : (op : Op) → Resp op → Prop) (A : Log Op Resp → Op → Prop) :
    Contract Op Resp (Log Op Resp) where
  step op l r l' := R op r ∧ l' = ⟨op, r⟩ :: l
  rely l l' := l = l'
  guar l op _ _ := A l op
  rely_refl _ := rfl
  rely_trans := Eq.trans

section Logged

variable {R : (op : Op) → Resp op → Prop} {A : Log Op Resp → Op → Prop}
  {p : Prog Op Resp α} {Q : α → Log Op Resp → Prop} {l : Log Op Resp}

@[simp] theorem logged_ret {a : α} : Meets (.logged R A) (.ret a) Q l ↔ Q a l :=
  ⟨fun h => h l rfl, fun h _ hl => hl ▸ h⟩

@[simp] theorem logged_call {op : Op} {k : Resp op → Prog Op Resp α} :
    Meets (.logged R A) (.call op k) Q l ↔
      ∀ r, R op r → A l op ∧ Meets (.logged R A) (k r) Q (⟨op, r⟩ :: l) := by
  constructor
  · intro h r hr
    exact h l rfl r _ ⟨hr, rfl⟩
  · rintro h _ rfl r _ ⟨hr, rfl⟩
    exact h r hr

theorem logged_perform {op : Op} {Q : Resp op → Log Op Resp → Prop}
    (h : ∀ r, R op r → A l op ∧ Q r (⟨op, r⟩ :: l)) :
    Meets (.logged R A) (Prog.perform op) Q l :=
  logged_call.2 fun r hr => ⟨(h r hr).1, logged_ret.2 (h r hr).2⟩

/-- A program whose calls are always allowed; the log grows. -/
theorem logged_of_uses {P : Log Op Resp → Prop} (hp : p.Uses fun op => ∀ l, A l op)
    (hP : ∀ l e, P l → P (e :: l)) (hl : P l) : Meets (.logged R A) p (fun _ l => P l) l := by
  refine Meets.of_uses (I := P) hp (fun _ _ h hr => hr ▸ h) ?_ hl
  rintro op l r _ hA hI ⟨-, rfl⟩
  exact ⟨hA l, hP _ _ hI⟩

/-- A run whose replies are as assumed, and that returns, satisfies the postcondition for the calls
it has made. -/
theorem Meets.exec_logged {answer : (op : Op) → C → W → Resp op × W} {w : W}
    (h : Meets (.logged R A) p Q l) (cs : List C)
    (hR : ∀ t ∈ p.trace answer cs w, R t.op t.resp) {a : α}
    (ha : (p.exec answer cs w).2 = some a) :
    ∃ l', Q a l' ∧ (∀ e ∈ l, e ∈ l') ∧ ∀ t ∈ p.trace answer cs w, ⟨t.op, t.resp⟩ ∈ l' := by
  induction p generalizing w cs l with
  | ret b =>
    simp only [exec_ret, Option.some.injEq] at ha
    subst ha
    exact ⟨l, logged_ret.1 h, fun _ he => he, by simp⟩
  | call op k ih =>
    cases cs with
    | nil => cases ha
    | cons c cs =>
      obtain ⟨hr, hrest⟩ := List.forall_mem_cons.1 hR
      obtain ⟨l', hQ, hl, ht⟩ := ih _ (logged_call.1 h _ hr).2 cs hrest ha
      obtain ⟨hhead, hl⟩ := List.forall_mem_cons.1 hl
      exact ⟨l', hQ, hl, List.forall_mem_cons.2 ⟨hhead, ht⟩⟩

end Logged

/-! ## Configurations -/

structure Thread (Op : Type) (Resp : Op → Type) (Tag : Type) where
  tag : Tag
  log : Log Op Resp
  prog : Prog Op Resp Unit

/-- The thread has a call to make. -/
def Thread.live (t : Thread Op Resp Tag) : Bool :=
  match t.prog with
  | .ret _ => false
  | .call .. => true

/-- A call in the history. -/
structure Made (Op W C Tag : Type) where
  thread : Nat
  tag : Tag
  op : Op
  choice : C
  before : W

structure Config (Op : Type) (Resp : Op → Type) (W C Tag : Type) where
  world : W
  threads : Nat → Option (Thread Op Resp Tag) := fun _ => none
  history : List (Made Op W C Tag) := []

/-- What happens in a step. -/
inductive Label (C Tag Ev : Type) where
  | spawn (i : Nat) (tag : Tag)
  | call (i : Nat) (choice : C)
  | stop (i : Nat)
  | env (ev : Ev)

namespace Config

variable (answer : (op : Op) → C → W → Resp op × W) (body : Tag → Prog Op Resp Unit)
  (cfg : Config Op Resp W C Tag)

def setThread (i : Nat) (t : Thread Op Resp Tag) : Config Op Resp W C Tag :=
  { cfg with threads := Function.update cfg.threads i (some t) }

/-- Thread `i` makes the call `op`. -/
def reply (i : Nat) (tag : Tag) (log : Log Op Resp) (op : Op) (k : Resp op → Prog Op Resp Unit)
    (c : C) : Config Op Resp W C Tag where
  world := (answer op c cfg.world).2
  threads := Function.update cfg.threads i
    (some ⟨tag, ⟨op, (answer op c cfg.world).1⟩ :: log, k (answer op c cfg.world).1⟩)
  history := ⟨i, tag, op, c, cfg.world⟩ :: cfg.history

/-- The steps that threads make. -/
def move : Label C Tag Ev → Option (Config Op Resp W C Tag)
  | .spawn i tag =>
    match cfg.threads i with
    | none => some (cfg.setThread i ⟨tag, [], body tag⟩)
    | some _ => none
  | .call i c =>
    match cfg.threads i with
    | some ⟨tag, log, .call op k⟩ => some (cfg.reply answer i tag log op k c)
    | _ => none
  | .stop i => (cfg.threads i).map fun t => cfg.setThread i { t with prog := .ret () }
  | .env _ => none

end Config

/-- The steps. A thread starts the program of its tag. -/
inductive Sched (answer : (op : Op) → C → W → Resp op × W) (body : Tag → Prog Op Resp Unit)
    (env : W → Ev → W → Prop) :
    Config Op Resp W C Tag → Label C Tag Ev → Config Op Resp W C Tag → Prop where
  | spawn {cfg : Config Op Resp W C Tag} {i : Nat} (tag : Tag) (h : cfg.threads i = none) :
    Sched answer body env cfg (.spawn i tag) (cfg.setThread i ⟨tag, [], body tag⟩)
  | call {cfg : Config Op Resp W C Tag} {i : Nat} {tag : Tag} {log : Log Op Resp} {op : Op}
    {k : Resp op → Prog Op Resp Unit} (c : C)
    (h : cfg.threads i = some ⟨tag, log, .call op k⟩) :
    Sched answer body env cfg (.call i c) (cfg.reply answer i tag log op k c)
  | stop {cfg : Config Op Resp W C Tag} {i : Nat} {t : Thread Op Resp Tag}
    (h : cfg.threads i = some t) :
    Sched answer body env cfg (.stop i) (cfg.setThread i { t with prog := .ret () })
  | env {cfg : Config Op Resp W C Tag} {ev : Ev} {w' : W} (h : env cfg.world ev w') :
    Sched answer body env cfg (.env ev) { cfg with world := w' }

section Invariant

variable {answer : (op : Op) → C → W → Resp op × W} {body : Tag → Prog Op Resp Unit}
  {env : W → Ev → W → Prop} {cond : Config Op Resp W C Tag → Label C Tag Ev → Prop}
  {init : Config Op Resp W C Tag → Prop} {cfg cfg' : Config Op Resp W C Tag}

theorem Sched.of_move {lab : Label C Tag Ev} (h : cfg.move answer body lab = some cfg') :
    Sched answer body env cfg lab cfg' := by
  cases lab with
  | spawn i tag =>
    simp only [Config.move] at h
    split at h
    · next hnone =>
      cases h
      exact .spawn tag hnone
    · cases h
  | call i c =>
    simp only [Config.move] at h
    split at h
    · next hsome =>
      cases h
      exact .call c hsome
    · cases h
  | stop i =>
    obtain ⟨t, ht, rfl⟩ := Option.map_eq_some_iff.1 h
    exact .stop ht
  | env ev => cases h

theorem setThread_some {i j : Nat} {t t' : Thread Op Resp Tag}
    (h : (cfg.setThread i t).threads j = some t') : t' = t ∨ cfg.threads j = some t' := by
  simp only [Config.setThread, Function.update_apply] at h
  split at h
  · exact .inl (Option.some.inj h).symm
  · exact .inr h

/-- An invariant made of an assertion `I` about the world and an assertion `T` about each thread in
the world. A call has to keep `I`, the assertion of its own thread and those of the others. -/
theorem Sched.invariant {I : W → Prop} {T : W → Thread Op Resp Tag → Prop}
    (h : Reaches (Sched answer body env) cond init cfg)
    (hinit : ∀ cfg, init cfg → I cfg.world ∧ ∀ i, cfg.threads i = none)
    (hspawn : ∀ w tag, I w → T w ⟨tag, [], body tag⟩)
    (hstop : ∀ w t, T w t → T w { t with prog := .ret () })
    (hcall : ∀ cfg i tag log op k c, cfg.threads i = some ⟨tag, log, .call op k⟩ →
      cond cfg (.call i c) → I cfg.world → T cfg.world ⟨tag, log, .call op k⟩ →
      I (answer op c cfg.world).2 ∧
      T (answer op c cfg.world).2
        ⟨tag, ⟨op, (answer op c cfg.world).1⟩ :: log, k (answer op c cfg.world).1⟩ ∧
      ∀ t, T cfg.world t → T (answer op c cfg.world).2 t)
    (henv : ∀ cfg ev w', I cfg.world → cond cfg (.env ev) → env cfg.world ev w' →
      I w' ∧ ∀ i t, cfg.threads i = some t → T cfg.world t → T w' t) :
    I cfg.world ∧ ∀ i t, cfg.threads i = some t → T cfg.world t := by
  refine h.invariant
    (I := fun cfg => I cfg.world ∧ ∀ i t, cfg.threads i = some t → T cfg.world t) ?_ ?_
  · intro cfg hcfg
    obtain ⟨hI, hnone⟩ := hinit cfg hcfg
    refine ⟨hI, fun i t ht => ?_⟩
    rw [hnone i] at ht
    cases ht
  · rintro cfg lab cfg' ⟨hI, hT⟩ hcond hs
    cases hs with
    | spawn tag hnone =>
      refine ⟨hI, fun j t ht => ?_⟩
      rcases setThread_some ht with rfl | ht
      · exact hspawn _ tag hI
      · exact hT j t ht
    | @call i tag log op k c hi =>
      obtain ⟨hI', hown, hothers⟩ := hcall _ i _ _ _ _ c hi hcond hI (hT _ _ hi)
      refine ⟨hI', fun j t ht => ?_⟩
      simp only [Config.reply, Function.update_apply] at ht
      split at ht
      · cases ht
        exact hown
      · exact hothers t (hT j t ht)
    | @stop i t hi =>
      refine ⟨hI, fun j t' ht => ?_⟩
      rcases setThread_some ht with rfl | ht
      · exact hstop _ t (hT i t hi)
      · exact hT j t' ht
    | env he =>
      obtain ⟨hI', hT'⟩ := henv _ _ _ hI hcond he
      exact ⟨hI', fun i t ht => hT' i t ht (hT i t ht)⟩

/-- Programs that keep to a footprint: so does every call in the history. -/
theorem Reaches.made {A : Op → Prop} (h : Reaches (Sched answer body env) cond init cfg)
    (hinit : ∀ cfg, init cfg → (∀ i, cfg.threads i = none) ∧ cfg.history = [])
    (hbody : ∀ tag, (body tag).Uses A) : ∀ m ∈ cfg.history, A m.op := by
  refine And.right (h.invariant (I := fun cfg => (∀ i t, cfg.threads i = some t → t.prog.Uses A) ∧
    ∀ m ∈ cfg.history, A m.op) ?_ ?_)
  · intro cfg hcfg
    obtain ⟨hnone, hempty⟩ := hinit cfg hcfg
    refine ⟨fun i t ht => ?_, fun m hm => ?_⟩
    · rw [hnone i] at ht
      cases ht
    · rw [hempty] at hm
      cases hm
  · rintro cfg lab cfg' ⟨hT, hH⟩ - hs
    cases hs with
    | spawn tag hnone =>
      refine ⟨fun j t ht => ?_, hH⟩
      rcases setThread_some ht with rfl | ht
      · exact hbody tag
      · exact hT j t ht
    | @call i tag log op k c hi =>
      obtain ⟨hop, hk⟩ := hT i _ hi
      refine ⟨fun j t ht => ?_, fun m hm => ?_⟩
      · simp only [Config.reply, Function.update_apply] at ht
        split at ht
        · cases ht
          exact hk _
        · exact hT j t ht
      · rcases List.mem_cons.1 hm with rfl | hm
        · exact hop
        · exact hH m hm
    | @stop i t hi =>
      refine ⟨fun j t' ht => ?_, hH⟩
      rcases setThread_some ht with rfl | ht
      · trivial
      · exact hT j t' ht
    | env he => exact ⟨hT, hH⟩

end Invariant

/-! ## Runs on a list of labels -/

section Moves

variable (answer : (op : Op) → C → W → Resp op × W) (body : Tag → Prog Op Resp Unit)

/-- The threads make the steps of a list. -/
def Config.moves (ok : Config Op Resp W C Tag → Label C Tag Ev → Bool) :
    List (Label C Tag Ev) → Config Op Resp W C Tag → Config Op Resp W C Tag :=
  follow (fun cfg lab => cfg.move answer body lab) ok

variable {answer body} {env : W → Ev → W → Prop}
  {cond : Config Op Resp W C Tag → Label C Tag Ev → Prop}
  {ok : Config Op Resp W C Tag → Label C Tag Ev → Bool}
  {init : Config Op Resp W C Tag → Prop} {cfg : Config Op Resp W C Tag}

theorem Reaches.moves (hok : ∀ cfg lab, ok cfg lab = true → cond cfg lab)
    (labs : List (Label C Tag Ev)) (h : Reaches (Sched answer body env) cond init cfg) :
    Reaches (Sched answer body env) cond init (cfg.moves answer body ok labs) :=
  h.follow (fun _ _ _ => .of_move) hok labs

end Moves

end Interactive

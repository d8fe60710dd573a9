import ImageBasedInstall.Interactive.Threads

/-!
# Projections

A system of interleaved threads as some of them see it. Suppose their calls look only at a part of
the world, `agree` says that two worlds have the same such part, and whatever the other threads and
the environment do to that part is a `drift`. Then the chosen threads make the same calls, get the
same replies and have the same programs left in a run in which no other thread takes part
(`Reaches.project`): what is proved about them alone holds among the others.
-/

namespace Interactive

variable {Op : Type} {Resp : Op → Type} {W C Tag Ev : Type}

/-- The calls of threads are answered under choices that `ok` allows. -/
def Allowing (ok : Tag → Op → C → Prop) (cfg : Config Op Resp W C Tag) : Label C Tag Ev → Prop
  | .call i c => ∀ tag log op k, cfg.threads i = some ⟨tag, log, .call op k⟩ → ok tag op c
  | _ => True

/-- Besides, only threads that `mine` selects are started. -/
def AllowingAmong (mine : Tag → Bool) (ok : Tag → Op → C → Prop) (cfg : Config Op Resp W C Tag)
    (lab : Label C Tag Ev) : Prop :=
  Allowing ok cfg lab ∧ ∀ i tag, lab = .spawn i tag → mine tag = true

/-- A call of the history without the world it was made in. -/
def Made.act (m : Made Op W C Tag) : Nat × Tag × Op × C := (m.thread, m.tag, m.op, m.choice)

/-- `small` has the threads of `cfg` that `mine` selects, their calls in the same order, and a world
that looks the same to them. -/
structure Projects (mine : Tag → Bool) (agree : W → W → Prop)
    (cfg small : Config Op Resp W C Tag) : Prop where
  threads : ∀ i, small.threads i = (cfg.threads i).filter fun t => mine t.tag
  history : small.history.map Made.act = (cfg.history.filter fun m => mine m.tag).map Made.act
  world : agree small.world cfg.world

namespace Projects

variable {mine : Tag → Bool} {agree : W → W → Prop} {cfg small : Config Op Resp W C Tag}

theorem mine_thread (h : Projects mine agree cfg small) {i : Nat} {t : Thread Op Resp Tag}
    (hi : cfg.threads i = some t) (hmine : mine t.tag = true) : small.threads i = some t := by
  rw [h.threads i, hi]
  simp [hmine]

theorem idle (h : Projects mine agree cfg small) {i : Nat} (hi : cfg.threads i = none) :
    small.threads i = none := by
  rw [h.threads i, hi]
  rfl

/-- Both configurations put the same thread in place `i`, if it is one of the selected ones. -/
theorem update (h : Projects mine agree cfg small) (i : Nat) {t : Thread Op Resp Tag}
    (hmine : mine t.tag = true) (j : Nat) :
    Function.update small.threads i (some t) j =
      (Function.update cfg.threads i (some t) j).filter fun t => mine t.tag := by
  by_cases hj : j = i
  · subst hj
    simp [Option.filter_some, hmine]
  · simp [hj, h.threads j]

/-- Another thread in place `i` is not seen, if the one it replaces was not seen either. -/
theorem update_other (h : Projects mine agree cfg small) {i : Nat} {t : Thread Op Resp Tag}
    (hi : (cfg.threads i).filter (fun t => mine t.tag) = none) (hmine : mine t.tag = false)
    (j : Nat) : small.threads j =
      (Function.update cfg.threads i (some t) j).filter fun t => mine t.tag := by
  by_cases hj : j = i
  · subst hj
    simp [h.threads j, hi, Option.filter_some, hmine]
  · simp [hj, h.threads j]

theorem with_world (h : Projects mine agree cfg small) {v w : W} (hw : agree v w) :
    Projects mine agree { cfg with world := w } { small with world := v } :=
  ⟨h.threads, h.history, hw⟩

end Projects

section Project

variable {answer : (op : Op) → C → W → Resp op × W} {body : Tag → Prog Op Resp Unit}
  {env : W → Ev → W → Prop} {ok : Tag → Op → C → Prop} {mine : Tag → Bool}
  {agree drift : W → W → Prop} {cfg cfg' small : Config Op Resp W C Tag}

/-- What the calls of a configuration have to do with what the selected threads see: their own calls
are determined by it, the calls of the others are drifts. -/
structure Separate (answer : (op : Op) → C → W → Resp op × W) (ok : Tag → Op → C → Prop)
    (mine : Tag → Bool) (agree drift : W → W → Prop) (cfg : Config Op Resp W C Tag) : Prop where
  own : ∀ i tag log op k c v, cfg.threads i = some ⟨tag, log, .call op k⟩ → mine tag = true →
    ok tag op c → agree v cfg.world →
    (answer op c v).1 = (answer op c cfg.world).1 ∧
      agree (answer op c v).2 (answer op c cfg.world).2
  others : ∀ i tag log op k c v, cfg.threads i = some ⟨tag, log, .call op k⟩ → mine tag = false →
    ok tag op c → agree v cfg.world →
    ∃ v', drift v v' ∧ agree v' (answer op c cfg.world).2

/-- A step of the system is a step of the selected threads, a drift, or not seen at all. -/
theorem Projects.step {lab : Label C Tag Ev} (h : Projects mine agree cfg small)
    (hsep : Separate answer ok mine agree drift cfg)
    (henv : ∀ v w ev w', agree v w → env w ev w' → ∃ v', drift v v' ∧ agree v' w')
    (hcond : Allowing ok cfg lab) (hs : Sched answer body env cfg lab cfg') :
    ∃ small', Projects mine agree cfg' small' ∧ (small' = small ∨
      ∃ lab' : Label C Tag Unit, AllowingAmong mine ok small lab' ∧
        Sched answer body (fun v _ v' => drift v v') small lab' small') := by
  cases hs with
  | @spawn i tag hi =>
    cases hmine : mine tag with
    | true =>
      refine ⟨small.setThread i ⟨tag, [], body tag⟩, ⟨h.update i hmine, h.history, h.world⟩,
        .inr ⟨.spawn i tag, ⟨trivial, fun j tag' heq => ?_⟩, .spawn tag (h.idle hi)⟩⟩
      cases heq
      exact hmine
    | false =>
      exact ⟨small, ⟨h.update_other (by simp [hi]) hmine, h.history, h.world⟩, .inl rfl⟩
  | @call i tag log op k c hi =>
    have hok : ok tag op c := hcond tag log op k hi
    cases hmine : mine tag with
    | true =>
      have hi' := h.mine_thread hi hmine
      obtain ⟨hreply, hworld⟩ := hsep.own i tag log op k c small.world hi hmine hok h.world
      refine ⟨small.reply answer i tag log op k c, ⟨fun j => ?_, ?_, hworld⟩,
        .inr ⟨.call i c, ⟨fun tag' log' op' k' heq => ?_, fun _ _ heq => by cases heq⟩,
          .call c hi'⟩⟩
      · -- the reply is the same, so the thread goes on in the same way
        simp only [Config.reply, hreply]
        exact h.update i hmine j
      · simp only [Config.reply, List.map_cons, List.filter_cons, hmine, if_true, h.history]
        rfl
      · rw [hi'] at heq
        cases heq
        exact hok
    | false =>
      obtain ⟨v', hd, hworld⟩ := hsep.others i tag log op k c small.world hi hmine hok h.world
      refine ⟨{ small with world := v' }, ⟨h.update_other (by simp [hi, hmine]) hmine, ?_, hworld⟩,
        .inr ⟨.env (), ⟨trivial, fun _ _ heq => by cases heq⟩, .env hd⟩⟩
      simpa [Config.reply, hmine] using h.history
  | @stop i t hi =>
    cases hmine : mine t.tag with
    | true =>
      refine ⟨small.setThread i { t with prog := .ret () },
        ⟨h.update (t := { t with prog := .ret () }) i hmine, h.history, h.world⟩,
        .inr ⟨.stop i, ⟨trivial, fun _ _ heq => by cases heq⟩, .stop (h.mine_thread hi hmine)⟩⟩
    | false =>
      exact ⟨small, ⟨h.update_other (t := { t with prog := .ret () }) (by simp [hi, hmine]) hmine,
        h.history, h.world⟩, .inl rfl⟩
  | @env ev w' he =>
    obtain ⟨v', hd, hworld⟩ := henv _ _ _ _ h.world he
    exact ⟨{ small with world := v' }, h.with_world hworld,
      .inr ⟨.env (), ⟨trivial, fun _ _ heq => by cases heq⟩, .env hd⟩⟩

/-- A run of the system, as the selected threads see it, is a run of these threads alone. -/
theorem Reaches.project {init : Config Op Resp W C Tag → Prop}
    (h : Reaches (Sched answer body env) (Allowing ok) init cfg)
    (hinit : ∀ cfg, init cfg → Projects mine agree cfg cfg)
    (hsep : ∀ cfg, Reaches (Sched answer body env) (Allowing ok) init cfg →
      Separate answer ok mine agree drift cfg)
    (henv : ∀ v w ev w', agree v w → env w ev w' → ∃ v', drift v v' ∧ agree v' w') :
    ∃ small, Reaches (Sched answer body fun v (_ : Unit) v' => drift v v') (AllowingAmong mine ok)
      init small ∧ Projects mine agree cfg small := by
  refine h.induct (I := fun cfg => ∃ small, Reaches
    (Sched answer body fun v (_ : Unit) v' => drift v v') (AllowingAmong mine ok) init small ∧
      Projects mine agree cfg small) (fun cfg hcfg => ⟨cfg, .start hcfg, hinit cfg hcfg⟩) ?_
  rintro cfg lab cfg' hreach ⟨small, hsmall, hproj⟩ hcond hs
  obtain ⟨small', hproj', rfl | ⟨lab', hcond', hs'⟩⟩ :=
    hproj.step (hsep cfg hreach) henv hcond hs
  · exact ⟨small', hsmall, hproj'⟩
  · exact ⟨small', hsmall.next hcond' hs', hproj'⟩

end Project

end Interactive

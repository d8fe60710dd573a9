import Mathlib.Data.List.Chain
import ImageBasedInstall.Interactive.Threads

/-!
# Programs that follow an object

A watcher runs a program for an object whenever it is told to. It hears of the versions of the
object one after the other, through a cache, and a filter decides which of them put the object into
its work queue; an object in the queue is taken once, a pass at a time; a pass that fails or asks
for it puts the object back after a while. A restart forgets all of that. After it the watcher
starts to listen, and another party sweeps through the objects in the cache and writes each that is
due again, as it is; it goes on if a write fails.

An object *needs* passes or not, which depends on its version. `Watcher.follows` is the rule for a
watcher that never forgets an object that needs it: the filter lets through the versions that need a
pass, a pass for such a version asks for another one unless it has changed the object to a version
without need, the sweep's writes succeed, and what it writes comes back to a watcher that listens.
-/

namespace Interactive

variable {Op : Type} {Resp : Op → Type} {W V α : Type}

structure Watcher (Op : Type) (Resp : Op → Type) (W V α : Type) where
  /-- The stored version of the object. -/
  view : W → V
  /-- What other parties may do. -/
  others : W → W → Prop
  /-- How a call is answered while the cache holds this version. -/
  does : V → (op : Op) → W → Resp op → W → Prop
  body : Prog Op Resp α
  /-- The results after which the object is put back. -/
  again : α → Bool
  /-- Versions that are queued when the watcher starts to listen. -/
  greets : V → Bool
  /-- Updates that are queued. -/
  hears : V → V → Bool
  /-- Versions that the sweep writes again. -/
  due : V → Bool
  /-- A write that changes nothing is announced. -/
  announced : Bool
  /-- The sweep waits until the watcher listens. -/
  late : Bool
  /-- The sweep's writes succeed, unless the copy is outdated. -/
  reliable : Bool

structure Desk (Op : Type) (Resp : Op → Type) (W V α : Type) where
  world : W
  cache : V
  /-- Versions on their way to the cache, the oldest first. -/
  news : List V := []
  /-- How many versions were stored, and how many of them the cache has seen. -/
  stored : Nat := 0
  seen : Nat := 0
  listening : Bool := false
  queued : Bool := false
  delayed : Bool := false
  pass : Option (Prog Op Resp α) := none
  /-- The copy of the sweep, with its number. -/
  copy : Option (Nat × V) := none
  swept : Bool := false

/-- The object is in the queue, comes back to it, is in a pass, or there is news of it. -/
def Desk.Active (s : Desk Op Resp W V α) : Prop :=
  s.queued = true ∨ s.delayed = true ∨ s.pass.isSome = true ∨ s.news ≠ []

namespace Watcher

variable (K : Watcher Op Resp W V α)

/-- The versions that a change of the world stores. -/
inductive Stores (w w' : W) : List V → Prop where
  | same (h : K.view w' = K.view w) : Stores w w' []
  | changed (h : K.view w' ≠ K.view w) : Stores w w' [K.view w']

def start (w : W) : Desk Op Resp W V α := { world := w, cache := K.view w }

/-- The versions that the sweep stores when it writes its copy: none if the copy is outdated. -/
def rewritten (s : Desk Op Resp W V α) (n : Nat) (v : V) : List V :=
  if K.due v && n == s.stored && K.announced then [v] else []

inductive Step (s : Desk Op Resp W V α) : Unit → Desk Op Resp W V α → Prop where
  | other {w : W} {vs : List V} (h : K.others s.world w) (hvs : K.Stores s.world w vs) :
    Step s () { s with world := w, news := s.news ++ vs, stored := s.stored + vs.length }
  | deliver {v : V} {vs : List V} (h : s.news = v :: vs) :
    Step s ()
      { s with cache := v, news := vs, seen := s.seen + 1
               queued := s.queued || (s.listening && K.hears s.cache v) }
  | wake (h : s.delayed = true) : Step s () { s with delayed := false, queued := true }
  | take (h : s.queued = true) (hp : s.pass = none) :
    Step s () { s with queued := false, pass := some K.body }
  | call {op : Op} {k : Resp op → Prog Op Resp α} {r : Resp op} {w : W} {vs : List V}
    (hp : s.pass = some (.call op k)) (h : K.does s.cache op s.world r w)
    (hvs : K.Stores s.world w vs) :
    Step s ()
      { s with world := w, news := s.news ++ vs, stored := s.stored + vs.length
               pass := some (k r) }
  | finish {a : α} (hp : s.pass = some (.ret a)) :
    Step s () { s with pass := none, delayed := s.delayed || K.again a }
  | restart : Step s () (K.start s.world)
  | listen (h : s.listening = false) :
    Step s () { s with listening := true, queued := s.queued || K.greets s.cache }
  | list (h : K.late = true → s.listening = true) :
    Step s () { s with copy := some (s.seen, s.cache) }
  | rewrite {n : Nat} {v : V} (h : s.copy = some (n, v)) :
    Step s ()
      { s with news := s.news ++ K.rewritten s n v, stored := s.stored + (K.rewritten s n v).length
               copy := none, swept := true }
  | rewriteFails {n : Nat} {v : V} (h : s.copy = some (n, v)) (hfails : K.reliable = false) :
    Step s () { s with copy := none, swept := true }

/-- The states of all runs, from any world. -/
abbrev Reached (s : Desk Op Resp W V α) : Prop :=
  Reaches K.Step (fun _ _ => True) (fun s => ∃ w, s = K.start w) s

/-! ## Never forgotten -/

variable (need : V → Prop) (closes : (op : Op) → Resp op → Prop)

/-- Whatever is answered while the cache holds `v`, the program asks for another pass, unless a
reply closes the matter. -/
def Owes (v : V) (p : Prog Op Resp α) : Prop :=
  ∃ l, Meets (.logged (fun op r => (∃ w w', K.does v op w r w') ∧ ¬closes op r) fun _ _ => True) p
    (fun a _ => K.again a = true) l

/-- What the rule asks of a watcher. -/
structure Attentive : Prop where
  /-- A version that needs a pass is heard of. -/
  heard_other : ∀ {w w'}, K.others w w' → K.view w' ≠ K.view w → need (K.view w') →
    K.hears (K.view w) (K.view w') = true
  heard_own : ∀ {v op w r w'}, K.does v op w r w' → K.view w' ≠ K.view w → need (K.view w') →
    K.hears (K.view w) (K.view w') = true
  heard_again : ∀ {v}, need v → K.hears v v = true
  due : ∀ {v}, need v → K.due v = true
  /-- A reply that closes the matter leaves a version without need. -/
  closed : ∀ {v op w r w'}, K.does v op w r w' → closes op r → ¬need (K.view w')
  owes : ∀ {v}, need v → K.Owes closes v K.body

/-- An object that needs it is queued, comes back, is on its way, or is in a pass that owes
another. -/
def Covered (s : Desk Op Resp W V α) : Prop :=
  need (K.view s.world) → s.queued = true ∨ s.delayed = true ∨ s.news ≠ [] ∨
    ∃ p, s.pass = some p ∧ K.Owes closes s.cache p

structure Invariant (s : Desk Op Resp W V α) : Prop where
  last : (s.cache :: s.news).getLast? = some (K.view s.world)
  chain : (s.cache :: s.news).IsChain fun v v' => need v' → K.hears v v' = true
  count : s.stored = s.seen + s.news.length
  /-- Since the sweep took its copy, the cache is the same, or the watcher has heard of the
  change. -/
  listed : ∀ n v, s.copy = some (n, v) → s.listening = true ∧ n ≤ s.seen ∧
    (n = s.seen → v = s.cache) ∧ (n = s.seen ∨ K.Covered need closes s)
  swept : s.swept = true → s.listening = true ∧ K.Covered need closes s

variable {K need closes} {s : Desk Op Resp W V α}

theorem Covered.active (h : K.Covered need closes s) (hneed : need (K.view s.world)) :
    s.Active := by
  rcases h hneed with hq | hd | hn | ⟨p, hp, -⟩
  · exact .inl hq
  · exact .inr (.inl hd)
  · exact .inr (.inr (.inr hn))
  · exact .inr (.inr (.inl (by rw [hp]; rfl)))

/-! ### What each step keeps -/

/-- The versions that a change stores go to the end of the news. -/
theorem Invariant.stores {w : W} {vs : List V} (h : K.Invariant need closes s)
    (hvs : K.Stores s.world w vs)
    (hheard : K.view w ≠ K.view s.world → need (K.view w) →
      K.hears (K.view s.world) (K.view w) = true) :
    (s.cache :: (s.news ++ vs)).getLast? = some (K.view w) ∧
      (s.cache :: (s.news ++ vs)).IsChain fun v v' => need v' → K.hears v v' = true := by
  rw [← List.cons_append]
  cases hvs with
  | same hsame =>
    rw [List.append_nil, hsame]
    exact ⟨h.last, h.chain⟩
  | changed hchanged =>
    refine ⟨List.getLast?_concat .., List.isChain_append.2 ⟨h.chain, List.isChain_singleton _, ?_⟩⟩
    intro v hv v' hv'
    rw [h.last] at hv
    obtain rfl := Option.some.inj hv
    obtain rfl := Option.some.inj hv'
    exact hheard hchanged

/-- An object of which there is news is covered, and so is one that was covered and is as before. -/
theorem Covered.stores {s' : Desk Op Resp W V α} {vs : List V} (h : K.Covered need closes s)
    (hvs : K.Stores s.world s'.world vs) (hnews : s'.news = s.news ++ vs)
    (hqueued : s'.queued = s.queued) (hdelayed : s'.delayed = s.delayed)
    (hpass : (∃ p, s.pass = some p ∧ K.Owes closes s.cache p) → need (K.view s'.world) →
      ∃ p, s'.pass = some p ∧ K.Owes closes s'.cache p) : K.Covered need closes s' := by
  intro hneed
  rw [hqueued, hdelayed, hnews]
  cases hvs with
  | same hsame =>
    rw [List.append_nil]
    rcases h (hsame ▸ hneed) with hq | hd | hn | hp
    · exact .inl hq
    · exact .inr (.inl hd)
    · exact .inr (.inr (.inl hn))
    · exact .inr (.inr (.inr (hpass hp hneed)))
  | changed _ => exact .inr (.inr (.inl (by simp)))

/-- Once the latest news is delivered to a watcher that listens, the object is queued. -/
theorem Invariant.delivered {v : V} {vs : List V} (h : K.Invariant need closes s)
    (hnews : s.news = v :: vs) (hlistening : s.listening = true) :
    K.Covered need closes
      { s with cache := v, news := vs, seen := s.seen + 1
               queued := s.queued || (s.listening && K.hears s.cache v) } := by
  intro hneed
  have hlast := h.last
  have hchain := h.chain
  rw [hnews] at hlast hchain
  cases vs with
  | cons v' vs => exact .inr (.inr (.inl (List.cons_ne_nil _ _)))
  | nil =>
    obtain rfl : v = K.view s.world := by simpa using hlast
    have hheard : K.hears s.cache (K.view s.world) = true :=
      List.IsChain.rel hchain hneed
    exact .inl (by simp [hlistening, hheard])

/-- A covered object is covered after the next call of its pass. -/
theorem Attentive.call (hK : K.Attentive need closes) {op : Op} {k : Resp op → Prog Op Resp α}
    {r : Resp op} {w : W} {vs : List V} (h : K.Covered need closes s)
    (hp : s.pass = some (.call op k)) (hdoes : K.does s.cache op s.world r w)
    (hvs : K.Stores s.world w vs) :
    K.Covered need closes
      { s with world := w, news := s.news ++ vs, stored := s.stored + vs.length
               pass := some (k r) } := by
  refine h.stores hvs rfl rfl rfl ?_
  rintro ⟨p, hpass, howes⟩ hneed
  obtain rfl : Prog.call op k = p := Option.some.inj (hp.symm.trans hpass)
  obtain ⟨l, howes⟩ := howes
  -- a reply that closes the matter leaves no need
  have hopen : ¬closes op r := fun hcloses => hK.closed hdoes hcloses hneed
  exact ⟨k r, rfl, _, (logged_call.1 howes r ⟨⟨_, _, hdoes⟩, hopen⟩).2⟩

/-- A step that leaves the cache and the sweep as they are has to keep the object covered. -/
theorem Invariant.next {s' : Desk Op Resp W V α} (h : K.Invariant need closes s)
    (hlast : (s'.cache :: s'.news).getLast? = some (K.view s'.world))
    (hchain : (s'.cache :: s'.news).IsChain fun v v' => need v' → K.hears v v' = true)
    (hcount : s'.stored = s'.seen + s'.news.length) (hcache : s'.cache = s.cache)
    (hseen : s'.seen = s.seen) (hcopy : s'.copy = s.copy) (hswept : s'.swept = s.swept)
    (hlistening : s.listening = true → s'.listening = true)
    (hcovered : K.Covered need closes s → K.Covered need closes s') :
    K.Invariant need closes s' where
  last := hlast
  chain := hchain
  count := hcount
  listed := by
    intro n v hv
    obtain ⟨hl, hle, hsame, hc⟩ := h.listed n v (hcopy ▸ hv)
    rw [hseen, hcache]
    exact ⟨hlistening hl, hle, hsame, hc.imp_right hcovered⟩
  swept := by
    intro hs
    obtain ⟨hl, hc⟩ := h.swept (hswept ▸ hs)
    exact ⟨hlistening hl, hcovered hc⟩

theorem Invariant.start (w : W) : K.Invariant need closes (K.start w) where
  last := rfl
  chain := List.isChain_singleton _
  count := rfl
  listed := fun _ _ h => by cases h
  swept := fun h => by cases h

/-- What the sweep writes is news, unless the watcher has heard of a later version. -/
theorem Invariant.rewrite (hK : K.Attentive need closes) (hannounced : K.announced = true) {n : Nat}
    {v : V} (h : K.Invariant need closes s) (hcopy : s.copy = some (n, v)) :
    K.Covered need closes
      { s with news := s.news ++ K.rewritten s n v, stored := s.stored + (K.rewritten s n v).length
               copy := none, swept := true } := by
  intro hneed
  obtain ⟨-, -, hsame, rfl | hcovered⟩ := h.listed n v hcopy
  · obtain rfl := hsame rfl
    by_cases hnews : s.news = []
    · have hview : s.cache = K.view s.world := by simpa [hnews] using h.last
      have hstored : s.seen = s.stored := by simp [h.count, hnews]
      have hdue : K.due s.cache = true := hK.due (hview ▸ hneed)
      exact .inr (.inr (.inl (by simp [rewritten, hdue, hstored, hannounced])))
    · exact .inr (.inr (.inl (by simp [hnews])))
  · rcases hcovered hneed with hq | hd | hn | hp
    · exact .inl hq
    · exact .inr (.inl hd)
    · exact .inr (.inr (.inl (by simp [hn])))
    · exact .inr (.inr (.inr hp))

/-- The sweep stores the version that is stored already. -/
theorem Invariant.rewritten_eq {n : Nat} {v : V} (h : K.Invariant need closes s)
    (hcopy : s.copy = some (n, v)) :
    K.rewritten s n v = [] ∨ K.rewritten s n v = [K.view s.world] := by
  unfold rewritten
  split
  · next hwritten =>
    simp only [Bool.and_eq_true, beq_iff_eq] at hwritten
    obtain ⟨-, hle, hsame, -⟩ := h.listed n v hcopy
    have hcount := h.count
    -- the copy has the number of the last version, so the cache has seen all of them
    have hnews : s.news = [] := List.eq_nil_of_length_eq_zero (by omega)
    obtain rfl := hsame (by simp [hwritten, hcount, hnews])
    have hview : s.cache = K.view s.world := by simpa [hnews] using h.last
    exact .inr (by rw [hview])
  · exact .inl rfl

theorem Invariant.rewritten_chain (hK : K.Attentive need closes) {n : Nat} {v : V}
    (h : K.Invariant need closes s) (hcopy : s.copy = some (n, v)) :
    (s.cache :: (s.news ++ K.rewritten s n v)).getLast? = some (K.view s.world) ∧
      (s.cache :: (s.news ++ K.rewritten s n v)).IsChain fun v v' =>
        need v' → K.hears v v' = true := by
  rcases h.rewritten_eq hcopy with hnone | hsame
  · rw [hnone, List.append_nil]
    exact ⟨h.last, h.chain⟩
  · rw [hsame, ← List.cons_append]
    refine ⟨List.getLast?_concat .., List.isChain_append.2 ⟨h.chain, List.isChain_singleton _, ?_⟩⟩
    intro v hv v' hv' hneed
    rw [h.last] at hv
    obtain rfl := Option.some.inj hv
    obtain rfl := Option.some.inj hv'
    exact hK.heard_again hneed

theorem Attentive.step (hK : K.Attentive need closes) (hannounced : K.announced = true)
    (hlate : K.late = true) (hreliable : K.reliable = true) {ev : Unit} {s' : Desk Op Resp W V α}
    (hs : K.Step s ev s') (h : K.Invariant need closes s) : K.Invariant need closes s' := by
  cases hs with
  | other hother hvs =>
    obtain ⟨hlast, hchain⟩ := h.stores hvs (hK.heard_other hother)
    refine h.next hlast hchain (by simp [h.count, Nat.add_assoc]) rfl rfl rfl rfl id ?_
    intro hc
    exact hc.stores hvs rfl rfl rfl fun hp _ => hp
  | deliver hnews =>
    have hlast := h.last
    have hchain := h.chain
    have hcount := h.count
    rw [hnews] at hlast hchain hcount
    constructor
    · simpa using hlast
    · exact hchain.tail
    · simp only [List.length_cons] at hcount
      dsimp only
      omega
    · intro n v hcopy
      obtain ⟨hl, hle, -, -⟩ := h.listed n v hcopy
      refine ⟨hl, Nat.le_succ_of_le hle, ?_, .inr (h.delivered hnews hl)⟩
      intro heq
      exact absurd heq (Nat.ne_of_lt (Nat.lt_succ_of_le hle))
    · intro hswept
      have hl := (h.swept hswept).1
      exact ⟨hl, h.delivered hnews hl⟩
  | wake hdelayed => exact h.next h.last h.chain h.count rfl rfl rfl rfl id fun _ _ => .inl rfl
  | take hqueued hpass =>
    refine h.next h.last h.chain h.count rfl rfl rfl rfl id ?_
    intro hc hneed
    by_cases hnews : s.news = []
    · have hview : s.cache = K.view s.world := by simpa [hnews] using h.last
      exact .inr (.inr (.inr ⟨K.body, rfl, hK.owes (hview ▸ hneed)⟩))
    · exact .inr (.inr (.inl hnews))
  | call hp hdoes hvs =>
    obtain ⟨hlast, hchain⟩ := h.stores hvs (hK.heard_own hdoes)
    refine h.next hlast hchain (by simp [h.count, Nat.add_assoc]) rfl rfl rfl rfl id ?_
    exact fun hc => hK.call hc hp hdoes hvs
  | finish hp =>
    refine h.next h.last h.chain h.count rfl rfl rfl rfl id ?_
    intro hc hneed
    rcases hc hneed with hq | hd | hn | ⟨p, hpass, l, howes⟩
    · exact .inl hq
    · exact .inr (.inl (by simp [hd]))
    · exact .inr (.inr (.inl hn))
    · obtain rfl := Option.some.inj (hp.symm.trans hpass)
      exact .inr (.inl (by simp [logged_ret.1 howes]))
  | restart => exact .start _
  | listen hlistening =>
    refine h.next h.last h.chain h.count rfl rfl rfl rfl (fun _ => rfl) ?_
    intro hc hneed
    rcases hc hneed with hq | hd | hn | hp
    · exact .inl (by simp [hq])
    · exact .inr (.inl hd)
    · exact .inr (.inr (.inl hn))
    · exact .inr (.inr (.inr hp))
  | list hlist =>
    refine ⟨h.last, h.chain, h.count, ?_, h.swept⟩
    intro n v hcopy
    obtain ⟨rfl, rfl⟩ := Prod.mk.inj (Option.some.inj hcopy)
    exact ⟨hlist hlate, Nat.le_refl _, fun _ => rfl, .inl rfl⟩
  | rewrite hcopy =>
    obtain ⟨hlast, hchain⟩ := h.rewritten_chain hK hcopy
    constructor
    · exact hlast
    · exact hchain
    · simp [h.count, Nat.add_assoc]
    · intro n v hnone
      cases hnone
    · intro _
      exact ⟨(h.listed _ _ hcopy).1, h.rewrite hK hannounced hcopy⟩
  | rewriteFails hcopy hfails => exact absurd (hreliable.symm.trans hfails) (by decide)

/-- In every state of every run, an object that needs passes is followed by a watcher that listens,
once the sweep is through. -/
theorem Attentive.follows (hK : K.Attentive need closes) (hannounced : K.announced = true)
    (hlate : K.late = true) (hreliable : K.reliable = true) (hs : K.Reached s)
    (hswept : s.swept = true) (hneed : need (K.view s.world)) : s.Active := by
  have hinv : K.Invariant need closes s := by
    refine hs.invariant ?_ fun _ _ _ h _ hstep => hK.step hannounced hlate hreliable hstep h
    rintro _ ⟨w, rfl⟩
    exact .start w
  exact (hinv.swept hswept).2.active hneed

end Watcher

end Interactive

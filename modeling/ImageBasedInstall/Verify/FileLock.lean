import ImageBasedInstall.FileLock
import ImageBasedInstall.Interactive.Meets

/-!
# Whether the directory lock excludes

The lock is on an inode, the callers meet at a name. As long as the name leads to the inode that is
locked, the kernel's guarantee is enough. It stops being enough when a holder unlinks the lock file:
a caller that comes later makes a new lock file and locks that, and a caller that had opened the old
one can still lock it.

`Orderly` rules out these two steps: the lock file is unlinked only while nobody else has it open,
and made only while no callback runs. `excludes_of_orderly`: then, in every reachable state, no
caller is inside its write callback while another is inside a callback. That a callback runs only in
a call that returns `true` without a lock error needs no condition.
-/

namespace ImageBasedInstall.FileLock

open Interactive Posix

variable {s s' : System} {κ κ' : Kernel} {i j : Nat} {x x' : Caller} {c : Posix.Choice}
  {k : LockKind} {op : SysCall}

/-- The inode the lock file's name leads to. -/
abbrev lockInode (κ : Kernel) : Option Nat := κ.disk.inode lockFileName

/-- The step does not unlink the lock file while another caller has it open, and does not make it
while a callback runs. -/
def Orderly (s : System) : Event → Prop
  | .step i _ => ∀ x ∈ s.callers[i]?,
    (x.nextCall = some (.file (.unlink lockFileName)) →
      ∀ j < s.kernel.owners, j ≠ i → ∀ h ∈ s.kernel.handle j, lockInode s.kernel ≠ some h.inode) ∧
    (x.nextCall = some (.file (.writeFile lockFileName)) ∨
        x.nextCall = some (.openFile lockFileName) →
      s.kernel.disk.Vacant lockFileName → ∀ y ∈ s.callers, y.inside = false)
  | .start _ | .collect _ => True

instance (s : System) (ev : Event) : Decidable (Orderly s ev) :=
  match ev with
  | .step i _ => inferInstanceAs (Decidable (∀ x ∈ s.callers[i]?, _))
  | .start _ | .collect _ => inferInstanceAs (Decidable True)

/-! ## One caller -/

/-- Owner `i` has a lock of kind `k`. -/
def Holds (i : Nat) (k : LockKind) (κ : Kernel) : Prop :=
  ∃ h, κ.handle i = some h ∧ h.lock = some k

/-- The calls of caller `i` on its own lock: nobody else touches its open file, and it opens nothing
but the lock file and unlinks nothing. -/
def own (i : Nat) : Contract SysCall SysCall.Reply Kernel where
  step op κ r κ' := ∃ c, κ.answer i op c = (r, κ')
  rely κ κ' := κ'.handle i = κ.handle i
  guar _ op _ _ := (∀ p, op = .openFile p → p = lockFileName) ∧
    op ≠ .file (.unlink lockFileName)
  rely_refl _ := rfl
  rely_trans h h' := h'.trans h

/-- Whatever `acquire` returns, `true` comes with the lock. -/
abbrev Acquires (i : Nat) (k : LockKind) (p : Sys (Except Errno Bool)) (κ : Kernel) : Prop :=
  Meets (own i) p (fun r κ => r = .ok true → Holds i k κ) κ

theorem meets_sys {Q : op.Reply → Kernel → Prop}
    (hguar : (∀ p, op = .openFile p → p = lockFileName) ∧ op ≠ .file (.unlink lockFileName))
    (hQ : ∀ (c : Posix.Choice) (κ₁ κ₂ : Kernel), κ₂.handle i = (κ₁.answer i op c).2.handle i →
      Q (κ₁.answer i op c).1 κ₂) :
    Meets (own i) (sys op) Q κ := by
  rintro κ₁ - r κ₂ ⟨c, hc⟩
  refine ⟨hguar, fun κ₃ h₃ => ?_⟩
  have hr : r = (κ₁.answer i op c).1 := by rw [hc]
  have hκ : κ₂ = (κ₁.answer i op c).2 := by rw [hc]
  subst hr hκ
  exact hQ c κ₁ κ₃ h₃

theorem meets_resetFh : Meets (own i) resetFh (fun _ _ => True) κ :=
  Meets.seq (Q := fun _ _ => True) (meets_sys ⟨nofun, nofun⟩ fun _ _ _ _ => trivial)
    fun _ _ _ _ _ => trivial

theorem meets_setFh : Meets (own i) setFh (fun _ _ => True) κ :=
  meets_sys ⟨fun _ h => (SysCall.openFile.inj h).symm, nofun⟩ fun _ _ _ _ => trivial

theorem meets_unlock : Meets (own i) unlock (fun _ _ => True) κ := by
  refine Meets.seq (Q := fun _ _ => True) (meets_sys ⟨nofun, nofun⟩ fun _ _ _ _ => trivial) ?_
  rintro (_ | ⟨⟨⟩⟩) κ₁ -
  · exact fun _ _ => trivial
  · exact meets_resetFh

theorem acquires_ret {r : Except Errno Bool} (h : r ≠ .ok true) : Acquires i k (.ret r) κ :=
  fun _ _ hr => absurd hr h

theorem acquires_reset {r : Except Errno Bool} (h : r ≠ .ok true) :
    Acquires i k (do resetFh; return r) κ :=
  Meets.seq meets_resetFh fun _ _ _ => acquires_ret h

theorem acquires_tryOnce {onError : Errno → Sys (Except Errno Bool)}
    (herr : ∀ e κ, Acquires i k (onError e) κ) : Acquires i k (tryOnce k onError) κ := by
  refine Meets.seq (Q := fun r κ => r = .ok () → Holds i k κ) (meets_sys ⟨nofun, nofun⟩ ?_) ?_
  · intro c κ₁ κ₂ hown hok
    simp only [Kernel.answer] at hown hok
    split at hok
    · cases hok
    · cases hok
    · next h hi hfault =>
      simp only [hi, hfault] at hown
      split at hok
      · cases hok
      · next hfree =>
        simp only [hfree, ↓reduceIte, Kernel.setHandle_handle, Function.update_self] at hown
        exact ⟨_, hown, rfl⟩
  · rintro (e | ⟨⟨⟩⟩) κ₁ hlock
    · cases e with
      | wouldblock => exact acquires_reset (by simp)
      | _ => exact herr _ _
    · exact fun κ₂ h₂ _ => by
        obtain ⟨h, hh, hk⟩ := hlock rfl
        exact ⟨h, Eq.trans h₂ hh, hk⟩

theorem meets_reopenFDOnError {err : Errno} :
    Meets (own i) (reopenFDOnError err) (fun _ _ => True) κ := by
  unfold reopenFDOnError
  by_cases herr : err ≠ .io ∧ err ≠ .badf
  · simp only [herr, and_self, ↓reduceIte, ne_eq, not_false_eq_true]
    exact fun _ _ => trivial
  · simp only [herr, ↓reduceIte]
    refine Meets.seq (Q := fun _ _ => True) (meets_sys ⟨nofun, nofun⟩ fun _ _ _ _ => trivial) ?_
    rintro (_ | _ | _) κ₁ -
    · exact fun _ _ => trivial
    · exact fun _ _ => trivial
    · refine Meets.seq meets_resetFh fun _ _ _ => Meets.seq meets_setFh ?_
      rintro (_ | ⟨⟨⟩⟩) κ₂ - <;> exact fun _ _ => trivial

theorem acquires_tryFlock : Acquires i k (tryFlock k) κ := by
  refine Meets.seq meets_setFh ?_
  rintro (e | ⟨⟨⟩⟩) κ₁ -
  · exact acquires_ret nofun
  refine acquires_tryOnce fun err κ₂ => Meets.seq meets_reopenFDOnError ?_
  rintro (e | _ | _) κ₃ -
  · exact acquires_ret nofun
  · exact acquires_reset nofun
  · exact acquires_tryOnce fun e κ₄ => acquires_reset nofun

theorem acquires_acquire : Acquires i k (acquire k) κ := by
  have hlock : Meets (own i) lockForDir (fun _ _ => True) κ := by
    refine Meets.seq (Q := fun _ _ => True) (meets_sys ⟨nofun, nofun⟩ fun _ _ _ _ => trivial) ?_
    rintro (e | _) κ₁ -
    · cases e with
      | noent => exact meets_sys ⟨nofun, nofun⟩ fun _ _ _ _ => trivial
      | _ => exact fun _ _ => trivial
    · exact fun _ _ => trivial
  refine Meets.seq hlock ?_
  rintro (e | ⟨⟨⟩⟩) κ₁ -
  · exact acquires_ret nofun
  · exact acquires_tryFlock

/-- Where a caller is with regard to its callback. -/
inductive Phase where
  | before
  | inside
  | after
  deriving DecidableEq

def Caller.phase (x : Caller) : Phase :=
  match x.stage with
  | .preparing _ | .acquiring _ => .before
  | .inside _ => .inside
  | .releasing .. | .gaveUp _ | .returned _ | .unwound => .after

theorem Caller.inside_iff : x.inside = true ↔ x.phase = .inside := by
  unfold inside phase
  cases x.stage <;> simp

/-- What caller `i` knows about its open file. -/
def Caller.Sound (i : Nat) (κ : Kernel) (x : Caller) : Prop :=
  match x.stage with
  | .preparing _ => κ.handle i = none
  | .acquiring p => Acquires i x.call.kind p κ
  | .inside _ => Holds i x.call.kind κ
  | .releasing p _ => Meets (own i) p (fun _ _ => True) κ
  | .gaveUp _ | .returned _ | .unwound => True

theorem Caller.Sound.stable (hx : x.Sound i κ) (h : κ'.handle i = κ.handle i) : x.Sound i κ' := by
  unfold Sound at hx ⊢
  cases hstage : x.stage with
  | preparing p =>
    simp only [hstage] at hx ⊢
    rw [h, hx]
  | acquiring p =>
    simp only [hstage] at hx ⊢
    exact Meets.stable hx h
  | inside p =>
    simp only [hstage] at hx ⊢
    obtain ⟨l, hl, hk⟩ := hx
    exact ⟨l, h.trans hl, hk⟩
  | releasing p r =>
    simp only [hstage] at hx ⊢
    exact Meets.stable hx h
  | gaveUp | returned | unwound => trivial

theorem Caller.sound_of_isOver (h : x.isOver = true) : x.Sound i κ := by
  unfold isOver at h
  unfold Sound
  cases hstage : x.stage with
  | returned | unwound => trivial
  | _ =>
    rw [hstage] at h
    cases h

/-- What a step of a caller can do. Only a caller that holds the lock enters its callback; a caller
on the way there opens the lock file only, and unlinks it only while it has nothing open. -/
inductive Moved (i : Nat) (κ : Kernel) (x x' : Caller) : Kernel → Prop
  | call {op : SysCall} {κ' : Kernel} (hnext : x.nextCall = some op)
    (heff : Kernel.Effect i κ op κ') (hphase : x'.phase = x.phase)
    (hopen : ∀ p, op = .openFile p → x.phase = .after ∨ p = lockFileName)
    (hunlink : op = .file (.unlink lockFileName) → κ.handle i = none ∨ x.phase ≠ .before) :
    Moved i κ x x' κ'
  | enter (hx : x.phase = .before) (hx' : x'.phase = .inside) (hlock : Holds i x.call.kind κ) :
    Moved i κ x x' κ
  | pass (h : x'.phase = x.phase ∨ x'.phase = .after) : Moved i κ x x' κ

theorem Caller.step_sound (h : x.step i c κ = some (x', κ')) (hx : x.Sound i κ) :
    x'.call = x.call ∧ x'.Sound i κ' ∧ Moved i κ x x' κ' := by
  obtain ⟨call, stage, ran⟩ := x
  unfold step at h
  unfold Sound at hx
  cases stage with
  | preparing p =>
    cases p with
    | ret r =>
      cases r with
      | error e =>
        cases h
        exact ⟨rfl, trivial, .pass (.inr rfl)⟩
      | ok u =>
        cases h
        exact ⟨rfl, acquires_acquire, .pass (.inl rfl)⟩
    | call op q =>
      cases h
      exact ⟨rfl, hx, .call rfl (Kernel.effect_answer ..) rfl nofun fun _ => .inl hx⟩
  | acquiring p =>
    cases p with
    | ret r =>
      cases r with
      | error e =>
        cases h
        exact ⟨rfl, trivial, .pass (.inr rfl)⟩
      | ok b =>
        cases b with
        | false =>
          cases h
          exact ⟨rfl, trivial, .pass (.inr rfl)⟩
        | true =>
          cases h
          have hlock : Holds i call.kind κ := hx κ rfl rfl
          exact ⟨rfl, hlock, .enter rfl rfl hlock⟩
    | call op q =>
      cases h
      obtain ⟨hguar, hq⟩ := hx κ rfl _ _ ⟨c, rfl⟩
      exact ⟨rfl, hq, .call rfl (Kernel.effect_answer ..) rfl (fun p hp => .inr (hguar.1 p hp))
        fun hop => absurd hop hguar.2⟩
  | inside p =>
    cases p with
    | ret r =>
      cases h
      exact ⟨rfl, meets_unlock, .pass (.inr rfl)⟩
    | call op q =>
      cases h
      exact ⟨rfl, hx, .call rfl (Kernel.effect_answer ..) rfl nofun fun _ => .inr nofun⟩
  | releasing p r =>
    cases p with
    | ret u =>
      cases r with
      | err e =>
        cases h
        exact ⟨rfl, trivial, .pass (.inr rfl)⟩
      | panic =>
        cases h
        exact ⟨rfl, trivial, .pass (.inr rfl)⟩
    | call op q =>
      cases h
      obtain ⟨hguar, hq⟩ := hx κ rfl _ _ ⟨c, rfl⟩
      exact ⟨rfl, hq, .call rfl (Kernel.effect_answer ..) rfl (fun _ _ => .inl rfl)
        fun _ => .inr nofun⟩
  | gaveUp | returned | unwound => cases h

/-! ## All callers -/

/-- An open file of caller `i` is the lock file, or it is not needed any more: its callback is over,
or it is the only one that runs and there is no lock file. -/
def Kept (s : System) (i : Nat) (x : Caller) (inode : Nat) : Prop :=
  lockInode s.kernel = some inode ∨ x.phase = .after ∨
    x.phase = .inside ∧ lockInode s.kernel = none ∧
      ∀ (j : Nat) (y : Caller), j ≠ i → s.callers[j]? = some y → y.phase ≠ .inside

structure LockInv (s : System) : Prop where
  locks : s.kernel.LocksExclude
  sound : ∀ (i : Nat) (x : Caller), s.callers[i]? = some x → x.Sound i s.kernel
  handle : ∀ i h, s.kernel.handle i = some h → ∃ x, s.callers[i]? = some x ∧ Kept s i x h.inode

theorem LockInv.init (h : s.Init) : LockInv s where
  locks i j l l' _ hi := by
    rw [h.2 i] at hi
    cases hi
  sound i x hx := by
    rw [h.1] at hx
    cases hx
  handle i l hi := by
    rw [h.2 i] at hi
    cases hi

namespace LockInv

variable (hs : LockInv s)
include hs

theorem kept {h : Handle} (hx : s.callers[i]? = some x) (hi : s.kernel.handle i = some h) :
    Kept s i x h.inode := by
  obtain ⟨y, hy, hkept⟩ := hs.handle i h hi
  rw [hx] at hy
  cases hy
  exact hkept

/-- A caller inside its callback holds its lock. -/
theorem holds_of_inside (hx : s.callers[i]? = some x) (hin : x.phase = .inside) :
    Holds i x.call.kind s.kernel := by
  have hsound := hs.sound i x hx
  unfold Caller.phase at hin
  unfold Caller.Sound at hsound
  split at hin <;> cases hin
  next hstage => simpa only [hstage] using hsound

/-- Two callers inside their callbacks have opened the same inode. -/
theorem not_exclusive {y : Caller} (hij : i ≠ j) (hx : s.callers[i]? = some x)
    (hy : s.callers[j]? = some y) (hxin : x.phase = .inside) (hyin : y.phase = .inside) :
    x.call.kind ≠ .exclusive := by
  obtain ⟨h, hi, hk⟩ := hs.holds_of_inside hx hxin
  obtain ⟨h', hj, hk'⟩ := hs.holds_of_inside hy hyin
  intro hex
  rcases hs.kept hx hi with hlock | hafter | ⟨-, -, halone⟩
  · rcases hs.kept hy hj with hlock' | hafter | ⟨-, hnone, -⟩
    · have hinode : h.inode = h'.inode := Option.some.inj (hlock.symm.trans hlock')
      exact hs.locks i j h h' hij hi hj
        ⟨hinode, by simp [hk], by simp [hk'], .inl (by rw [hk, hex])⟩
    · rw [hyin] at hafter
      cases hafter
    · rw [hlock] at hnone
      cases hnone
  · rw [hxin] at hafter
    cases hafter
  · exact halone j y hij.symm hy hyin

theorem excludes : s.Excludes := by
  rintro i j k hij ⟨x, hx, hxin, hkind⟩ ⟨y, hy, hyin, -⟩
  exact hs.not_exclusive hij hx hy (Caller.inside_iff.1 hxin) (Caller.inside_iff.1 hyin) hkind

/-- A new caller has nothing open. -/
theorem start (call : Call) :
    LockInv { s with callers := s.callers ++ [⟨call, .preparing call.prepare, false⟩] } := by
  have hnew : s.kernel.handle s.callers.length = none := by
    cases hh : s.kernel.handle s.callers.length with
    | none => rfl
    | some h =>
      obtain ⟨x, hx, -⟩ := hs.handle _ h hh
      simp at hx
  have hcases : ∀ j y, (s.callers ++ [⟨call, .preparing call.prepare, false⟩])[j]? = some y →
      s.callers[j]? = some y ∨
        j = s.callers.length ∧ y = ⟨call, .preparing call.prepare, false⟩ := by
    intro j y hy
    by_cases hj : j < s.callers.length
    · rw [List.getElem?_append_left hj] at hy
      exact .inl hy
    · rw [List.getElem?_append_right (by omega)] at hy
      rw [List.getElem?_singleton] at hy
      split at hy
      · next hz =>
        cases hy
        exact .inr ⟨by omega, rfl⟩
      · cases hy
  refine ⟨hs.locks, fun j y hy => ?_, fun j h hj => ?_⟩
  · rcases hcases j y hy with hy | ⟨rfl, rfl⟩
    · exact hs.sound j y hy
    · exact hnew
  · obtain ⟨x, hx, hkept⟩ := hs.handle j h hj
    have hlt : j < s.callers.length := (List.getElem?_eq_some_iff.1 hx).1
    refine ⟨x, by rw [List.getElem?_append_left hlt, hx], ?_⟩
    rcases hkept with hlock | hafter | ⟨hin, hnone, halone⟩
    · exact .inl hlock
    · exact .inr (.inl hafter)
    · refine .inr (.inr ⟨hin, hnone, fun j' y hne hy => ?_⟩)
      rcases hcases j' y hy with hy | ⟨rfl, rfl⟩
      · exact halone j' y hne hy
      · nofun

/-- A caller whose call is over does not need its open file. -/
theorem collect (hx : s.callers[i]? = some x) (hover : x.isOver = true) :
    LockInv { s with kernel := s.kernel.dropHandle i } := by
  have hne : ∀ j, j ≠ i → (s.kernel.dropHandle i).handle j = s.kernel.handle j := fun j hj => by
    simp [hj]
  refine ⟨hs.locks.update (i := i) hne (fun h hh => by simp at hh), fun j y hy => ?_,
    fun j h hj => ?_⟩
  · by_cases hji : j = i
    · subst hji
      rw [show s.callers[j]? = some y from hy] at hx
      cases hx
      exact Caller.sound_of_isOver hover
    · exact (hs.sound j y hy).stable (hne j hji)
  · by_cases hji : j = i
    · subst hji
      simp at hj
    · rw [hne j hji] at hj
      exact hs.handle j h hj

end LockInv

section Step

variable {y : Caller} {n : Nat} (hx : s.callers[i]? = some x)

include hx in
/-- The callers after a step of caller `i`. -/
theorem getElem?_set_eq (j : Nat) :
    (s.callers.set i x')[j]? = if j = i then some x' else s.callers[j]? := by
  have hlt : i < s.callers.length := (List.getElem?_eq_some_iff.1 hx).1
  rw [List.getElem?_set]
  by_cases hji : j = i
  · simp [hji, hlt]
  · simp [hji, Ne.symm hji]

include hx in
/-- If the step does not enter a callback, a caller inside one was there before. -/
theorem inside_of_set (hstay : x'.phase = x.phase ∨ x'.phase = .after)
    (hy : (s.callers.set i x')[j]? = some y) (hin : y.phase = .inside) :
    ∃ y₀, s.callers[j]? = some y₀ ∧ y₀.phase = .inside := by
  rw [getElem?_set_eq hx] at hy
  split at hy
  · next hji =>
    subst hji
    cases hy
    rcases hstay with hsame | hafter
    · exact ⟨x, hx, hsame ▸ hin⟩
    · rw [hin] at hafter
      cases hafter
  · exact ⟨y, hy, hin⟩

include hx in
theorem exists_set (hstay : x'.phase = x.phase ∨ x'.phase = .after) (hy : s.callers[j]? = some y) :
    ∃ y', (s.callers.set i x')[j]? = some y' ∧ (y'.phase = y.phase ∨ y'.phase = .after) := by
  rw [getElem?_set_eq hx]
  by_cases hji : j = i
  · subst hji
    rw [hx] at hy
    cases hy
    exact ⟨x', by simp, hstay⟩
  · exact ⟨y, by simp [hji, hy], .inl rfl⟩

include hx in
/-- A caller whose callback is over needs its file no more, whatever happens to the lock file. -/
theorem kept_set_of_after (hstay : x'.phase = x.phase ∨ x'.phase = .after)
    (hy : s.callers[j]? = some y) (hafter : y.phase = .after) :
    ∃ y', (s.callers.set i x')[j]? = some y' ∧ Kept ⟨κ', s.callers.set i x'⟩ j y' n := by
  obtain ⟨y', hy', hsame | hafter'⟩ := exists_set hx hstay hy
  · exact ⟨y', hy', .inr (.inl (hsame.trans hafter))⟩
  · exact ⟨y', hy', .inr (.inl hafter')⟩

include hx in
/-- A caller keeps its file when caller `i` goes on without entering its callback and the lock file
stays. -/
theorem kept_set (hstay : x'.phase = x.phase ∨ x'.phase = .after)
    (hlock : lockInode κ' = lockInode s.kernel) (hy : s.callers[j]? = some y)
    (hkept : Kept s j y n) :
    ∃ y', (s.callers.set i x')[j]? = some y' ∧ Kept ⟨κ', s.callers.set i x'⟩ j y' n := by
  obtain ⟨y', hy', hsame | hafter⟩ := exists_set hx hstay hy
  · refine ⟨y', hy', ?_⟩
    rcases hkept with hl | hafter | ⟨hin, hnone, halone⟩
    · exact .inl (hlock.trans hl)
    · exact .inr (.inl (hsame.trans hafter))
    · refine .inr (.inr ⟨hsame.trans hin, hlock.trans hnone, fun j' z hne hz hzin => ?_⟩)
      obtain ⟨z₀, hz₀, hzin₀⟩ := inside_of_set hx hstay hz hzin
      exact halone j' z₀ hne hz₀ hzin₀
  · exact ⟨y', hy', .inr (.inl hafter)⟩

end Step

namespace LockInv

variable (hs : LockInv s) (hx : s.callers[i]? = some x)
include hs hx

/-- A caller that enters its callback has opened the lock file, so no callback runs without it. -/
theorem handle_enter {h : Handle} (hbefore : x.phase = .before)
    (hlock : Holds i x.call.kind s.kernel) (hj : s.kernel.handle j = some h) :
    ∃ y, (s.callers.set i x')[j]? = some y ∧ Kept ⟨s.kernel, s.callers.set i x'⟩ j y h.inode := by
  have hfirst : ∀ h, s.kernel.handle i = some h → lockInode s.kernel = some h.inode := by
    intro h hi
    rcases hs.kept hx hi with hl | hafter | ⟨hin, -, -⟩
    · exact hl
    · rw [hbefore] at hafter
      cases hafter
    · rw [hbefore] at hin
      cases hin
  rw [getElem?_set_eq hx]
  by_cases hji : j = i
  · subst hji
    exact ⟨x', by simp, .inl (hfirst h hj)⟩
  · obtain ⟨y, hy, hkept⟩ := hs.handle j h hj
    refine ⟨y, by simp [hji, hy], ?_⟩
    rcases hkept with hl | hafter | ⟨-, hnone, -⟩
    · exact .inl hl
    · exact .inr (.inl hafter)
    · obtain ⟨h', hi, -⟩ := hlock
      rw [show lockInode s.kernel = _ from hfirst h' hi] at hnone
      cases hnone

/-- Nobody else has the lock file open when it is unlinked: from then on the caller's own callback
is the only one that runs. -/
theorem handle_unlink {h h₀ : Handle} (hphase : x'.phase = x.phase)
    (hopened : s.kernel.handle i = none ∨ x.phase ≠ .before)
    (hothers : ∀ j < s.kernel.owners, j ≠ i → ∀ h ∈ s.kernel.handle j,
      lockInode s.kernel ≠ some h.inode)
    (hgone : lockInode κ' = none) (hj : s.kernel.handle j = some h₀) :
    ∃ y, (s.callers.set i x')[j]? = some y ∧ Kept ⟨κ', s.callers.set i x'⟩ j y h.inode := by
  have hother : ∀ (j : Nat) (h : Handle), j ≠ i → s.kernel.handle j = some h →
      lockInode s.kernel ≠ some h.inode :=
    fun j h hne hj => hothers j (Kernel.lt_owners hj) hne h hj
  obtain ⟨y, hy, hkept⟩ := hs.handle j h₀ hj
  rcases hkept with hl | hafter | ⟨hin, hnone, halone⟩
  · -- the lock file is the caller's own
    have hji : j = i := by
      by_contra hji
      exact hother j h₀ hji hj hl
    subst hji
    rw [hx] at hy
    cases hy
    refine ⟨x', by rw [getElem?_set_eq hx]; simp, ?_⟩
    rcases hopened with hnone | hnb
    · rw [hnone] at hj
      cases hj
    cases hp : x.phase with
    | before => exact absurd hp hnb
    | after => exact .inr (.inl (hphase.trans hp))
    | inside =>
      refine .inr (.inr ⟨hphase.trans hp, hgone, fun j' z hne hz hzin => ?_⟩)
      obtain ⟨z₀, hz₀, hzin₀⟩ := inside_of_set hx (.inl hphase) hz hzin
      obtain ⟨l, hl', -⟩ := hs.holds_of_inside hz₀ hzin₀
      rcases hs.kept hz₀ hl' with hlz | hafter | ⟨-, hnone, -⟩
      · exact hother j' l hne hl' hlz
      · rw [hzin₀] at hafter
        cases hafter
      · rw [hl] at hnone
        cases hnone
  · exact kept_set_of_after hx (.inl hphase) hy hafter
  · exact kept_set hx (.inl hphase) (hgone.trans hnone.symm) hy (.inr (.inr ⟨hin, hnone, halone⟩))

/-- No callback runs when the lock file is made. -/
theorem handle_make {h h₀ : Handle} (hphase : x'.phase = x.phase)
    (hvacant : s.kernel.disk.Vacant lockFileName) (hidle : ∀ y ∈ s.callers, y.inside = false)
    (hj : s.kernel.handle j = some h₀) :
    ∃ y, (s.callers.set i x')[j]? = some y ∧ Kept ⟨κ', s.callers.set i x'⟩ j y h.inode := by
  have hnone : lockInode s.kernel = none := by simp [lockInode, Disk.inode, hvacant.1]
  obtain ⟨y, hy, hkept⟩ := hs.handle j h₀ hj
  rcases hkept with hl | hafter | ⟨hin, -, -⟩
  · rw [hnone] at hl
    cases hl
  · exact kept_set_of_after hx (.inl hphase) hy hafter
  · have hfalse := hidle y (List.mem_of_getElem? hy)
    rw [Caller.inside_iff.2 hin] at hfalse
    cases hfalse

/-- The open files after a system call of caller `i`. -/
theorem handle_call {h : Handle} (hcond : Orderly s (.step i c)) (hnext : x.nextCall = some op)
    (heff : Kernel.Effect i s.kernel op κ') (hphase : x'.phase = x.phase)
    (hopen : ∀ p, op = .openFile p → x.phase = .after ∨ p = lockFileName)
    (hunlink : op = .file (.unlink lockFileName) → s.kernel.handle i = none ∨ x.phase ≠ .before)
    (hj : κ'.handle j = some h) :
    ∃ y, (s.callers.set i x')[j]? = some y ∧ Kept ⟨κ', s.callers.set i x'⟩ j y h.inode := by
  obtain ⟨hcondUnlink, hcondMake⟩ := hcond x hx
  rcases heff.handle_some hj with ⟨h₀, hj₀, hinode⟩ | ⟨rfl, p, rfl, hp⟩
  · rcases heff.inode_eq lockFileName with hsame | ⟨rfl, hgone⟩ | ⟨hmakes, hvacant⟩
    · obtain ⟨y, hy, hkept⟩ := hs.handle j h₀ hj₀
      obtain ⟨y', hy', hkept'⟩ := kept_set hx (.inl hphase) hsame hy hkept
      exact ⟨y', hy', hinode ▸ hkept'⟩
    · exact hs.handle_unlink hx hphase (hunlink rfl) (hcondUnlink hnext) hgone hj₀
    · refine hs.handle_make hx hphase hvacant (hcondMake ?_ hvacant) hj₀
      rcases hmakes with rfl | rfl
      · exact .inl hnext
      · exact .inr hnext
  · -- the caller opened a file
    refine ⟨x', by rw [getElem?_set_eq hx]; simp, ?_⟩
    rcases hopen p rfl with hafter | rfl
    · exact .inr (.inl (hphase.trans hafter))
    · exact .inl hp

theorem step (hcond : Orderly s (.step i c)) (hstep : x.step i c s.kernel = some (x', κ')) :
    LockInv ⟨κ', s.callers.set i x'⟩ := by
  obtain ⟨-, hsound, hmoved⟩ := Caller.step_sound hstep (hs.sound i x hx)
  have hframe : s.kernel.LocksExclude → κ'.LocksExclude ∧
      ∀ j, j ≠ i → κ'.handle j = s.kernel.handle j := by
    intro hlocks
    cases hmoved with
    | call _ heff => exact ⟨heff.locksExclude hlocks, fun j hj => heff.handle_ne hj⟩
    | enter | pass => exact ⟨hlocks, fun _ _ => rfl⟩
  obtain ⟨hlocks, hne⟩ := hframe hs.locks
  refine ⟨hlocks, fun j y hy => ?_, fun j h hj => ?_⟩
  · replace hy : (s.callers.set i x')[j]? = some y := hy
    rw [getElem?_set_eq hx] at hy
    split at hy
    · next hji =>
      subst hji
      cases hy
      exact hsound
    · next hji => exact (hs.sound j y hy).stable (hne j hji)
  · cases hmoved with
    | call hnext heff hphase hopen hunlink =>
      exact hs.handle_call hx hcond hnext heff hphase hopen hunlink hj
    | enter hbefore _ hlock => exact hs.handle_enter hx hbefore hlock hj
    | pass hstay =>
      obtain ⟨y, hy, hkept⟩ := hs.handle j h hj
      exact kept_set hx hstay rfl hy hkept

end LockInv

theorem LockInv.next {ev : Event} (hs : LockInv s) (hcond : Orderly s ev) (h : s.Next ev s') :
    LockInv s' := by
  cases ev with
  | start call =>
    cases h
    exact hs.start call
  | step i c =>
    obtain ⟨x, hx, hstep⟩ := Option.bind_eq_some_iff.1 h
    obtain ⟨⟨x', κ'⟩, hmove, rfl⟩ := Option.map_eq_some_iff.1 hstep
    exact hs.step hx hcond hmove
  | collect i =>
    obtain ⟨x, hx, hover⟩ := Option.bind_eq_some_iff.1 h
    split at hover
    · next hx' =>
      cases hover
      exact hs.collect hx hx'
    · cases hover

/-! ## Callbacks and results -/

/-- A callback that was started belongs to a call that returns `true` and no lock error. -/
def Caller.Honest (x : Caller) : Prop :=
  match x.stage with
  | .preparing _ | .acquiring _ | .gaveUp _ => x.ran = false
  | .inside _ | .releasing .. | .unwound => True
  | .returned r => x.ran = true → r.locked = true ∧ r.lockErr = none

theorem Caller.Honest.step (hx : x.Honest) (h : x.step i c κ = some (x', κ')) : x'.Honest := by
  obtain ⟨call, stage, ran⟩ := x
  unfold Caller.step at h
  unfold Honest at hx
  cases stage with
  | preparing p =>
    cases p with
    | ret r => cases r <;> cases h <;> exact hx
    | call op q =>
      cases h
      exact hx
  | acquiring p =>
    cases p with
    | ret r =>
      rcases r with e | _ | _
      · cases h
        exact fun hran => nomatch hx.symm.trans hran
      · cases h
        exact fun hran => nomatch hx.symm.trans hran
      · cases h
        trivial
    | call op q =>
      cases h
      exact hx
  | inside p => cases p <;> cases h <;> trivial
  | releasing p r =>
    cases p with
    | ret u =>
      cases r with
      | err e =>
        cases h
        exact fun _ => ⟨rfl, rfl⟩
      | panic =>
        cases h
        trivial
    | call op q =>
      cases h
      trivial
  | gaveUp | returned | unwound => cases h

theorem honest_next {ev : Event} (hs : ∀ x ∈ s.callers, x.Honest) (h : s.Next ev s') :
    ∀ x ∈ s'.callers, x.Honest := by
  cases ev with
  | start call =>
    cases h
    intro x hx
    rcases List.mem_append.1 hx with hx | hx
    · exact hs x hx
    · rw [List.mem_singleton.1 hx]
      rfl
  | step i c =>
    obtain ⟨x, hx, hstep⟩ := Option.bind_eq_some_iff.1 h
    obtain ⟨⟨x', κ'⟩, hmove, rfl⟩ := Option.map_eq_some_iff.1 hstep
    intro y hy
    rcases List.mem_or_eq_of_mem_set hy with hy | rfl
    · exact hs y hy
    · exact (hs x (List.mem_of_getElem? hx)).step hmove
  | collect i =>
    obtain ⟨x, hx, hover⟩ := Option.bind_eq_some_iff.1 h
    split at hover
    · cases hover
      exact hs
    · cases hover

/-- A callback runs only in a call that returns `true` and no lock error, in every run. -/
theorem runsLocked {cond : System → Event → Prop}
    (h : Reaches System.Next cond System.Init s) : s.RunsLocked := by
  have honest : ∀ x ∈ s.callers, x.Honest := by
    refine h.invariant (I := fun s => ∀ x ∈ s.callers, x.Honest) (fun s hinit x hx => ?_)
      fun s ev s' hs _ hnext => honest_next hs hnext
    rw [hinit.1] at hx
    cases hx
  intro x hx r hr hran
  have hret := honest x hx
  unfold Caller.Honest at hret
  rw [hr] at hret
  exact hret hran

/-- The directory lock excludes in every run in which the lock file is not unlinked while another
caller has it open and not made while a callback runs. -/
theorem excludes_of_orderly (h : Reaches System.Next Orderly System.Init s) :
    s.Excludes ∧ s.RunsLocked := by
  have hinv : LockInv s :=
    h.invariant (fun _ hinit => LockInv.init hinit) fun _ _ _ hs hcond hnext => hs.next hcond hnext
  exact ⟨hinv.excludes, runsLocked h⟩

/-! ## Runs -/

/-- Nothing is there yet. -/
def emptySystem : System := { kernel := {} }

theorem init_emptySystem : emptySystem.Init := ⟨rfl, fun _ => rfl⟩

/-- The names a build makes, in outline. -/
def writeIso : Files Ended := do
  let workDir := filesDir ++ ["cluster-configuration"]
  match ← Posix.mkdirAll workDir with
  | .error e => return .err (some e)
  | .ok () =>
    match ← perform (.writeFile (workDir ++ ["imagebasedconfig.iso"])) with
    | .error e => return .err (some e)
    | .ok () => return .err none

/-- A build enters its callback, a second one comes and is turned away; after both the directory is
removed, and then built again. -/
def contendedRun : List Event :=
  .start (writeInputData writeIso) :: List.replicate 11 (.step 0 {}) ++
    .start (writeInputData writeIso) :: List.replicate 20 (.step 1 {}) ++
    List.replicate 20 (.step 0 {}) ++
    .start (handleFinalizer 3) :: List.replicate 40 (.step 2 {}) ++
    .start (writeInputData writeIso) :: List.replicate 12 (.step 3 {})

theorem excludes_of_orderly_sample :
    let s := follow System.next (fun s ev => decide (Orderly s ev)) contendedRun emptySystem
    s.callers.map (·.ran) = [true, false, true, true] ∧
      s.callers.map (·.isOver) = [true, true, true, false] ∧ s.Inside 3 .exclusive ∧
      s.Excludes ∧ s.RunsLocked :=
  ⟨by decide +kernel, by decide +kernel, by decide +kernel,
    excludes_of_orderly (.follow (fun _ _ _ => id) (fun _ _ h => of_decide_eq_true h) contendedRun
      (.start init_emptySystem))⟩

/-- `handleFinalizer` has unlinked the lock file and goes on removing; `writeInputData` comes, makes
a new one and locks that. -/
def removalRun : List Event :=
  .start (handleFinalizer 3) :: List.replicate 18 (.step 0 {}) ++
    .start (writeInputData writeIso) :: List.replicate 8 (.step 1 {})

theorem removal_lets_second_writer_in :
    ∃ s, Reaches System.Next (fun _ _ => True) System.Init s ∧ ¬ s.Excludes := by
  refine ⟨follow System.next (fun _ _ => true) removalRun emptySystem,
    .follow (fun _ _ _ => id) (fun _ _ _ => trivial) removalRun (.start init_emptySystem),
    fun h => ?_⟩
  exact h 0 1 .exclusive (by decide) (by decide +kernel) (by decide +kernel)

end ImageBasedInstall.FileLock

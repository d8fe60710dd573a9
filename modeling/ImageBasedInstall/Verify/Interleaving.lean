import ImageBasedInstall.Interactive.Aged
import ImageBasedInstall.Verify.Copies

/-!
# Interleaved passes

Passes of the two controllers, over any objects, as threads: their calls come in any order, and
between two of them others may act. What a call does to the stored objects, and what its reply says
about them.
-/

namespace ImageBasedInstall

open Interactive Patch

variable {B : Type}

inductive Controller where
  | reconciler
  | monitor
  deriving DecidableEq, Repr

/-- A request to a controller. -/
structure Request where
  controller : Controller
  key : NamespacedName
  deriving DecidableEq, Repr

/-- The pass a request starts. -/
def controllerPass [DecidableEq B] (E : Env B) : Request → Program B Unit
  | ⟨.reconciler, key⟩ => do let _ ← reconcile E key
  | ⟨.monitor, key⟩ => (monitor E key).ignore

/-- Configurations of passes that read the current objects. -/
abbrev Passes (B : Type) := Config (Op B) Resp (World B) (Choice B) Request

/-- The reads that the manager's client answers from its cache. -/
def Op.cached : Op B → Bool
  | .getICI _ | .getBMH _ | .getDataImage _ | .getCD _ | .getImageSet _ | .getConfigMap _ => true
  | .getSecret cached _ => cached
  | _ => false

/-! ## Calls and the stored objects -/

/-- Where an object comes from that is stored after a call, or that the call replies. -/
inductive IciAfter (w : World B) (key : NamespacedName) : Op B → ImageClusterInstall → Prop where
  | kept {op : Op B} {ici : ImageClusterInstall} (h : w.icis key = some ici) : IciAfter w key op ici
  | patched {base new stored : ImageClusterInstall} (h : w.icis key = some stored) :
    IciAfter w key (.patchICI key base new) (.merge base new stored)
  | statusPatched {base new stored : ImageClusterInstall} (h : w.icis key = some stored) :
    IciAfter w key (.patchICIStatus key base new) (.mergeStatus base new stored)

section Effects

variable {w : World B} {c : Choice B} {op : Op B} {key : NamespacedName}

theorem remains_eq {ici ici' : ImageClusterInstall} (h : ici.remains = some ici') : ici' = ici := by
  unfold ImageClusterInstall.remains at h
  split at h
  · cases h
  · exact (Option.some.inj h).symm

theorem setICI_some {key' : NamespacedName} {o : Option ImageClusterInstall}
    {ici : ImageClusterInstall} (h : (w.setICI key' o).icis key = some ici) :
    (key = key' ∧ o = some ici) ∨ w.icis key = some ici := by
  simp only [World.setICI, Function.update_apply] at h
  split at h
  · next heq => exact .inl ⟨heq, h⟩
  · exact .inr h

theorem iciAfter_stored {ici : ImageClusterInstall} {r : Resp op} {w' : World B}
    (ha : answer op c w = (r, w')) (h : w'.icis key = some ici) : IciAfter w key op ici := by
  by_cases hop : op.target = .ici
  · cases op with
    | patchICI key' base new =>
      cases answer_patchICI ha with
      | failed e => exact .kept h
      | stored a hs | lost a hs =>
        rcases setICI_some h with ⟨rfl, hr⟩ | hk
        · obtain rfl := remains_eq hr
          exact .patched hs
        · exact .kept hk
    | patchICIStatus key' base new =>
      cases answer_patchICIStatus ha with
      | failed e => exact .kept h
      | stored a hs | lost a hs =>
        rcases setICI_some h with ⟨rfl, hr⟩ | hk
        · cases hr
          exact .statusPatched hs
        · exact .kept hk
    | _ => cases hop
  · refine .kept ?_
    rw [← (answer_framed ha).icis (by simpa using fun h => hop h.symm)]
    exact h

/-- What holds of every object a call can reply holds of its reply. -/
theorem copyReplies_of_after {J : CopyPred} {r : Resp op} {w' : World B}
    (ha : answer op c w = (r, w')) (h : ∀ ici, IciAfter w key op ici → J.of ici) :
    CopyReplies key J op r := by
  cases op with
  | getICI key' =>
    obtain ⟨-, ⟨ici, hici, rfl⟩ | ⟨-, rfl⟩ | ⟨e, rfl⟩⟩ := Choice.lookup_eq ha
    · rintro rfl
      exact h ici (.kept hici)
    · trivial
    · trivial
  | patchICI key' base new =>
    cases answer_patchICI ha with
    | stored a hs =>
      rintro rfl
      exact h _ (.patched hs)
    | lost a hs => trivial
    | failed e => trivial
  | patchICIStatus key' base new =>
    cases answer_patchICIStatus ha with
    | stored a hs =>
      rintro rfl
      exact h _ (.statusPatched hs)
    | lost a hs => trivial
    | failed e => trivial
  | _ => trivial

/-- The call has its effect, whatever it replies. -/
def Choice.effective (c : Choice B) : Bool :=
  match c.ending with
  | .ok | .lost _ => true
  | .fail _ => false

/-- The condition list a call stores in an object: the patch carries one, has its effect, and finds
the object. -/
def storedConditions (key : NamespacedName) (op : Op B) (c : Choice B) (w : World B) :
    Option (List Condition) :=
  match op with
  | .patchICIStatus key' base new =>
    if key' = key ∧ new.status.conditions ≠ base.status.conditions ∧ c.effective ∧
        (w.icis key).isSome then
      some new.status.conditions
    else none
  | _ => none

theorem storedConditions_some {conds : List Condition}
    (h : storedConditions key op c w = some conds) :
    ∃ base new stored, op = .patchICIStatus key base new ∧
      new.status.conditions ≠ base.status.conditions ∧ c.effective = true ∧
      w.icis key = some stored ∧ conds = new.status.conditions := by
  unfold storedConditions at h
  split at h
  · next key' base new =>
    split_ifs at h with hcond
    obtain ⟨rfl, hne, hc, hsome⟩ := hcond
    obtain ⟨stored, hs⟩ := Option.isSome_iff_exists.1 hsome
    exact ⟨base, new, stored, rfl, hne, hc, hs, (Option.some.inj h).symm⟩
  · cases h

/-- A status patch that has its effect on a stored object. -/
theorem answer_patchICIStatus_effective {base new stored : ImageClusterInstall}
    (hc : c.effective = true) (hs : w.icis key = some stored) :
    (answer (.patchICIStatus key base new) c w).2 =
      w.setICI key (some (.mergeStatus base new stored)) := by
  simp only [answer, Choice.patch, hs, Choice.write]
  unfold Choice.effective at hc
  split
  · rfl
  · next he =>
    rw [he] at hc
    cases hc
  · rfl

theorem answer_patchICIStatus_failed {base new : ImageClusterInstall}
    (hc : c.effective = false) : (answer (.patchICIStatus key base new) c w).2 = w := by
  unfold Choice.effective at hc
  simp only [answer, Choice.patch, Choice.write, Choice.read]
  split at hc
  · cases hc
  · cases hc
  · next he =>
    simp only [he]
    split <;> rfl

/-- After a call, an object has the list the call stored, if it stored one, else the list it had. -/
theorem conditions_after {ici' : ImageClusterInstall}
    (h : (answer op c w).2.icis key = some ici') :
    match storedConditions key op c w with
    | some conds => ici'.status.conditions = conds
    | none => ∃ ici, w.icis key = some ici ∧ ici'.status.conditions = ici.status.conditions := by
  have hafter : IciAfter w key op ici' := iciAfter_stored rfl h
  cases op with
  | patchICIStatus key' base new =>
    unfold storedConditions
    dsimp only
    split_ifs with hcond
    · obtain ⟨rfl, hne, hc, hsome⟩ := hcond
      obtain ⟨stored, hs⟩ := Option.isSome_iff_exists.1 hsome
      rw [answer_patchICIStatus_effective hc hs] at h
      obtain rfl : ImageClusterInstall.mergeStatus base new stored = ici' := by
        simpa [World.setICI] using h
      exact if_neg hne
    · cases hafter with
      | kept hk => exact ⟨ici', hk, rfl⟩
      | @statusPatched _ _ stored hs =>
        refine ⟨stored, hs, ?_⟩
        cases hc : c.effective with
        | true =>
          have heq : new.status.conditions = base.status.conditions := by
            by_contra hne
            exact hcond ⟨rfl, hne, hc, by simp [hs]⟩
          exact if_pos heq
        | false =>
          rw [answer_patchICIStatus_failed hc, hs] at h
          exact congrArg (fun ici => ici.status.conditions) (Option.some.inj h).symm
  | patchICI key' base new =>
    cases hafter with
    | kept hk => exact ⟨ici', hk, rfl⟩
    | @patched _ _ stored hs => exact ⟨stored, hs, rfl⟩
  | _ =>
    cases hafter
    exact ⟨ici', ‹_›, rfl⟩

/-- Some reply of every call says nothing about the object: that of a failed call. -/
theorem copyReplies_fail (key : NamespacedName) (J : CopyPred) (op : Op B) (w : World B) :
    CopyReplies key J op (answer op { ending := .fail "" } w).1 := by
  cases op with
  | getICI key' => trivial
  | patchICI key' base new =>
    simp only [answer, Choice.patch]
    split <;> trivial
  | patchICIStatus key' base new =>
    simp only [answer, Choice.patch]
    split <;> trivial
  | _ => trivial

end Effects

/-! ## Threads of the controllers -/

section Threads

variable {req : Request} {J : CopyPred} {A : Calls B → Op B → Prop} {l : Calls B}

/-- A pass of either controller makes the calls its rules allow. -/
theorem controllerPass_copy [DecidableEq B] (E : Env B)
    (hp : req.controller = .reconciler → PassRules req.key J A)
    (hm : req.controller = .monitor → MonitorRules req.key J A) :
    Meets (.logged (CopyReplies req.key J) A) (controllerPass E req) (fun _ _ => True) l := by
  obtain ⟨controller, key⟩ := req
  cases controller with
  | reconciler => exact Meets.seq (reconcile_copy (hp rfl) E) fun _ _ _ => logged_ret.2 trivial
  | monitor => exact Meets.seq (monitor_copy (hm rfl) E) fun _ _ _ => logged_ret.2 trivial

theorem call_allowed {key : NamespacedName} {α : Type} {op : Op B} {k : Resp op → Program B α}
    {Q : α → Calls B → Prop} (h : Meets (.logged (CopyReplies key J) A) (.call op k) Q l) :
    A l op :=
  (logged_call.1 h _ (copyReplies_fail key J op {})).1

theorem call_next {key : NamespacedName} {α : Type} {op : Op B} {k : Resp op → Program B α}
    {Q : α → Calls B → Prop} (h : Meets (.logged (CopyReplies key J) A) (.call op k) Q l)
    {r : Resp op} (hr : CopyReplies key J op r) :
    Meets (.logged (CopyReplies key J) A) (k r) Q (⟨op, r⟩ :: l) :=
  (logged_call.1 h r hr).2

/-- Thread `i` serves a request and makes up to `n` calls, all answered under the choice `c`. -/
def passSteps {C Ev : Type} (i n : Nat) (req : Request) (c : C) : List (Label C Request Ev) :=
  .spawn i req :: List.replicate n (.call i c)

end Threads

end ImageBasedInstall

import Mathlib.Logic.Basic

/-!
# Reachable states

A system is a step relation labelled with events. `Reaches step C init w`: some run from an initial
state leads to `w`, and each of its steps meets the condition `C` on the state before it and its
event. A history is a list of events that a function makes one after the other.
-/

namespace Interactive

variable {W Ev : Type}

inductive Reaches (step : W → Ev → W → Prop) (C : W → Ev → Prop) (init : W → Prop) : W → Prop where
  | start {w : W} (h : init w) : Reaches step C init w
  | next {w w' : W} {ev : Ev} (h : Reaches step C init w) (hC : C w ev) (hs : step w ev w') :
    Reaches step C init w'

namespace Reaches

variable {step : W → Ev → W → Prop} {C : W → Ev → Prop} {init : W → Prop} {w : W}

/-- An assertion that holds initially and that every step from a reachable state keeps. -/
theorem induct {I : W → Prop} (h : Reaches step C init w) (hinit : ∀ w, init w → I w)
    (hstep : ∀ w ev w', Reaches step C init w → I w → C w ev → step w ev w' → I w') : I w := by
  induction h with
  | start h => exact hinit _ h
  | next hr hC hs ih => exact hstep _ _ _ hr ih hC hs

/-- The same, for steps from any state. -/
theorem invariant {I : W → Prop} (h : Reaches step C init w) (hinit : ∀ w, init w → I w)
    (hstep : ∀ w ev w', I w → C w ev → step w ev w' → I w') : I w :=
  h.induct hinit fun w ev w' _ => hstep w ev w'

end Reaches

/-! ## Runs on a list of events -/

section Follow

variable (next : W → Ev → Option W) (ok : W → Ev → Bool)

/-- Make the steps of a list, leaving out those that are impossible or do not satisfy `ok`. -/
def follow : List Ev → W → W
  | [], w => w
  | ev :: evs, w =>
    match ok w ev, next w ev with
    | true, some w' => follow evs w'
    | _, _ => follow evs w

variable {next ok} {step : W → Ev → W → Prop} {C : W → Ev → Prop} {init : W → Prop} {w : W}

/-- The steps that are made lead from reachable states to reachable states. -/
theorem Reaches.follow (hnext : ∀ w ev w', next w ev = some w' → step w ev w')
    (hok : ∀ w ev, ok w ev = true → C w ev) (evs : List Ev) (h : Reaches step C init w) :
    Reaches step C init (follow next ok evs w) := by
  induction evs generalizing w with
  | nil => exact h
  | cons ev evs ih =>
    simp only [Interactive.follow]
    split
    · next w' hev hmade => exact ih (h.next (hok _ _ hev) (hnext _ _ _ hmade))
    · exact ih h

end Follow

/-! ## The latest event of a kind -/

section Latest

variable {T : Type} (next : W → Ev → W) (stamp : W → Ev → Option T)

/-- The stamp of the latest event of a history that has one. The stamp depends on the event and on
the state it meets. -/
def latest : W → List Ev → Option T
  | _, [] => none
  | w, ev :: evs => (latest (next w ev) evs).or (stamp w ev)

variable {next stamp}

/-- A register that every event with a stamp overwrites, and no other event, holds the latest
stamp. -/
theorem register_foldl (reg : W → Option T)
    (hstep : ∀ w ev, reg (next w ev) = (stamp w ev).or (reg w)) (evs : List Ev) (w : W) :
    reg (evs.foldl next w) = (latest next stamp w evs).or (reg w) := by
  induction evs generalizing w with
  | nil => rfl
  | cons ev evs ih => rw [List.foldl_cons, ih, hstep, latest, Option.or_assoc]

end Latest

end Interactive

import ImageBasedInstall.Controllers.Setup
import ImageBasedInstall.Verify.Conditions

/-!
# Installations under way are followed

A pass of the monitor over an installation that has started and has not completed asks for another
one, unless it has stored that the installation completed. With the events of the updates this keeps
the object in the monitor's queue for as long as the operator runs. After a restart the monitor
relies on the status updates that change nothing: it follows all installations under way if these
updates succeed, are announced and come after it has started to listen, and only then.
-/

namespace ImageBasedInstall

open Interactive

variable {B : Type}

/-- An installation that has started and has not completed. -/
def InProgress (version : Option ImageClusterInstall) : Prop :=
  ∃ ici, version = some ici ∧ ici.status.bootTime.isSome = true ∧ installationCompleted ici = false

/-- The reply to a status patch that sets the installation to completed. -/
def Completes (key : NamespacedName) : (op : Op B) → Resp op → Prop
  | .patchICIStatus k base new, .ok _ =>
    k = key ∧ installationCompleted base = false ∧ installationCompleted new = true
  | _, _ => False

/-! ## The result of a pass -/

theorem updateConditions_yields (todo : List Condition) (acc : List Condition × Bool) :
    (todo.foldlM (updateCondition (B := B)) acc).Yields fun acc' =>
      Sets todo acc.1 acc'.1 ∧ (acc'.2 = false → acc.2 = false ∧ acc'.1 = acc.1) := by
  induction todo generalizing acc with
  | nil => exact ⟨.nil _, fun h => ⟨h, rfl⟩⟩
  | cons c todo ih =>
    rw [List.foldlM_cons]
    refine Prog.Yields.bind (P := fun acc₁ => ∃ t, acc₁.1 =
      (setClusterInstallCondition t acc.1 c).1 ∧
      (acc₁.2 = false → acc.2 = false ∧ acc₁.1 = acc.1)) ?_ ?_
    · intro t
      refine ⟨t, rfl, fun h => ?_⟩
      rw [Bool.or_eq_false_iff] at h
      exact ⟨h.1, set_unchanged h.2⟩
    · rintro acc₁ ⟨t, hset, hflag⟩
      refine Prog.Yields.mono (ih acc₁) ?_
      rintro acc' ⟨hsets, hflag'⟩
      refine ⟨.cons t (hset ▸ hsets), fun h => ?_⟩
      obtain ⟨h₁, heq⟩ := hflag' h
      obtain ⟨h₀, heq₀⟩ := hflag h₁
      exact ⟨h₀, heq.trans heq₀⟩

theorem installationCompleted_of_sets {ici : ImageClusterInstall} {conds : List Condition}
    (h : Sets installedConditions ici.status.conditions conds) :
    installationCompleted (ici.withConditions conds) = true := by
  obtain ⟨c, hc, hsays⟩ := h.find (by decide) (d := installedConditions.head (by decide))
    (by decide)
  have hstatus : c.status = .true := hsays.1
  have hfind : findCondition conds .completed = some c := hc
  simp [installationCompleted, ImageClusterInstall.withConditions, hfind, hstatus]

section Result

variable {R : (op : Op B) → Resp op → Prop} {key host : NamespacedName} {ici : ImageClusterInstall}
  {l : Log (Op B) Resp}

/-- Replies satisfy `R`; nothing is asked of the calls. -/
abbrev Replying (R : (op : Op B) → Resp op → Prop) : Contract (Op B) Resp (Log (Op B) Resp) :=
  .logged R fun _ _ => True

theorem tries_any {α : Type} (x : Act B α) :
    Tries (Replying R) x (fun _ _ => True) (fun _ _ => True) l :=
  Meets.mono (Meets.triv fun _ _ _ _ => trivial) fun r _ _ => by cases r <;> trivial

theorem meets_any {α : Type} (p : Program B α) : Meets (Replying R) p (fun _ _ => True) l :=
  Meets.triv fun _ _ _ _ => trivial

/-- The result asks for another pass. -/
def AsksAgain (res : Result) : Prop := 0 < res.requeueAfter

theorem asksAgain_minute : AsksAgain { requeueAfter := 60 } :=
  show (0 : Int) < 60 by decide

theorem asksAgain_hour : AsksAgain { requeueAfter := 3600 } :=
  show (0 : Int) < 3600 by decide

theorem reportProgress_asks [DecidableEq B] (E : Env B) (message : String) :
    Tries (Replying R) (reportProgress E key ici message) (fun res _ => AsksAgain res)
      (fun _ _ => True) l := by
  refine Tries.seq (tries_any _) fun expired l₁ _ => ?_
  cases expired with
  | true => exact logged_ret.2 asksAgain_hour
  | false =>
    refine Tries.seq (Tries.lift (meets_any _)) fun _ l₂ _ => ?_
    exact logged_ret.2 asksAgain_minute

theorem handleDataImageDeletion_asks :
    Tries (Replying R) (handleDataImageDeletion key ici host)
      (fun stop _ => ∀ res, stop = some res → AsksAgain res) (fun _ _ => True) l := by
  refine Tries.seq (Tries.lift (meets_any _)) fun r l₁ _ => ?_
  cases r with
  | error e =>
    dsimp only
    split
    · exact logged_ret.2 fun _ h => by cases h
    · exact logged_ret.2 trivial
  | ok image =>
    dsimp only
    split
    · exact logged_ret.2 fun _ h => by cases h
    · refine Tries.seq (Tries.lift (meets_any _)) fun _ l₂ _ => ?_
      refine logged_ret.2 fun res h => ?_
      obtain rfl := Option.some.inj h
      exact asksAgain_minute

/-- Without a reply that completes the installation, the report of its end has failed. -/
theorem setClusterInstalledConditions_fails (hR : ∀ op r, R op r → ¬Completes key op r)
    (hrun : installationCompleted ici = false) :
    Meets (Replying R) (setClusterInstalledConditions key ici)
      (fun res _ => ∃ e, res.2 = .error e) l := by
  refine Meets.seq ((meets_any _).yields (updateConditions_yields installedConditions _)) ?_
  rintro ⟨conds, updated⟩ l₁ ⟨-, hsets, hsame⟩
  have hdone := installationCompleted_of_sets hsets
  cases updated with
  | false =>
    -- nothing to update: then it was completed before
    have hconds : conds = ici.status.conditions := (hsame rfl).2
    rw [hconds] at hdone
    exact absurd (hdone.symm.trans hrun) (by decide)
  | true =>
    refine logged_call.2 fun r hr => ⟨trivial, logged_ret.2 ?_⟩
    cases r with
    | error e => exact ⟨e, rfl⟩
    | ok stored => exact absurd ⟨rfl, hrun, hdone⟩ (hR _ _ hr)

theorem reportInstalled_asks (hR : ∀ op r, R op r → ¬Completes key op r)
    (hrun : installationCompleted ici = false) :
    Tries (Replying R) (reportInstalled key ici host) (fun res _ => AsksAgain res)
      (fun _ _ => True) l := by
  refine Tries.seq (tries_any _) fun _ l₁ _ => ?_
  refine Tries.seq handleDataImageDeletion_asks fun stop l₂ hstop => ?_
  cases stop with
  | some res => exact logged_ret.2 (hstop res rfl)
  | none =>
    refine Tries.seq (Tries.lift (setClusterInstalledConditions_fails hR hrun)) ?_
    rintro ⟨_, _⟩ l₃ ⟨e, rfl⟩
    exact logged_ret.2 trivial

theorem monitorInstallationProgress_asks [DecidableEq B] (E : Env B)
    (hR : ∀ op r, R op r → ¬Completes key op r) (hrun : installationCompleted ici = false) :
    Tries (Replying R) (monitorInstallationProgress E key ici) (fun res _ => AsksAgain res)
      (fun _ _ => True) l := by
  unfold monitorInstallationProgress
  split
  · exact logged_ret.2 trivial
  · refine Tries.seq (tries_any _) fun bmh l₁ _ => ?_
    split
    · refine Tries.seq handleDataImageDeletion_asks fun stop l₂ hstop => ?_
      cases stop with
      | some res => exact logged_ret.2 (hstop res rfl)
      | none =>
        refine Tries.seq (tries_any _) fun kubeconfig l₃ _ => ?_
        refine Tries.seq (tries_any _) fun status l₄ _ => ?_
        split
        · exact reportInstalled_asks hR hrun
        · exact reportProgress_asks E _
    · exact reportProgress_asks E _

/-- A pass over an installation under way, as the cache shows it, asks for another one unless it has
stored that the installation completed. -/
theorem monitor_asks [DecidableEq B] (E : Env B) {version : Option ImageClusterInstall}
    (hR : ∀ op r, R op r → Cached key version op r ∧ ¬Completes key op r)
    (h : InProgress version) :
    Meets (Replying R) (monitor E key).run (fun res _ => putsBack res = true) l := by
  obtain ⟨ici, rfl, hboot, hrun⟩ := h
  have hpass : Tries (Replying R) (monitor E key) (fun res _ => AsksAgain res)
      (fun _ _ => True) l := by
    refine Tries.bind (Tries.lift (logged_perform fun r hr => ⟨trivial, ?_⟩))
    obtain rfl : r = .ok ici := (hR _ _ hr).1 rfl
    dsimp only
    rw [if_neg (by simpa [Option.isSome_iff_ne_none] using hboot), if_neg (by simp [hrun])]
    exact monitorInstallationProgress_asks E (fun op r hr => (hR op r hr).2) hrun
  refine Meets.mono hpass fun res _ hres => ?_
  cases res with
  | error e => rfl
  | ok res => simpa [putsBack] using .inr hres

end Result

/-! ## The monitor in the operator -/

section Follow

variable {key : NamespacedName} {op : Op B} {r : Resp op} {c : Choice B} {w w' : World B}

/-- No call creates an object. -/
theorem answer_icis_none (hc : answer op c w = (r, w')) (h : w.icis key = none) :
    w'.icis key = none := by
  have hset : ∀ {k a ici}, w.icis k = some a → (w.setICI k ici).icis key = none := by
    intro k a ici ha
    have hne : key ≠ k := by
      rintro rfl
      rw [h] at ha
      cases ha
    simp [World.setICI, hne, h]
  by_cases htarget : op.target = .ici
  · cases op with
    | patchICI k base new =>
      cases answer_patchICI hc with
      | stored a ha => exact hset ha
      | lost a ha => exact hset ha
      | failed => exact h
    | patchICIStatus k base new =>
      cases answer_patchICIStatus hc with
      | stored a ha => exact hset ha
      | lost a ha => exact hset ha
      | failed => exact h
    | _ => cases htarget
  · rw [(answer_framed hc).icis (by simpa using Ne.symm htarget), h]

/-- The installation of which the reply says so is completed. -/
theorem Completes.completed (h : Completes key op r) (hc : answer op c w = (r, w')) :
    ¬InProgress (w'.icis key) := by
  rintro ⟨ici, hici, -, hrun⟩
  cases op with
  | patchICIStatus k base new =>
    cases answer_patchICIStatus hc with
    | stored a ha =>
      obtain ⟨rfl, hbase, hnew⟩ := h
      have hne : new.status.conditions ≠ base.status.conditions := by
        intro heq
        simp only [installationCompleted, heq] at hnew
        exact absurd (hnew.symm.trans hbase) (by decide)
      -- the patch replaces the list of conditions
      obtain rfl : ImageClusterInstall.mergeStatus base new a = ici := by
        simpa [World.setICI] using hici
      have hconds : (ImageClusterInstall.mergeStatus base new a).status.conditions =
          new.status.conditions := if_neg hne
      simp only [installationCompleted, hconds] at hrun
      exact absurd (hrun.symm.trans hnew) (by decide)
    | lost a ha => cases h
    | failed => cases h
  | _ => cases h

variable [DecidableEq B] {announced late reliable : Bool}

theorem monitorWatcher_attentive (E : Env B) :
    (monitorWatcher E key announced late reliable).Attentive InProgress (Completes key) where
  heard_other := by
    rintro w w' hother - ⟨ici, hici, hboot, -⟩
    have hview : w'.icis key = some ici := hici
    cases hold : w.icis key with
    | none =>
      rw [hother hold ici hici] at hboot
      cases hboot
    | some old => simpa [monitorWatcher, bootTimeInitialized, hold, hview] using hboot
  heard_own := by
    rintro v op w r w' ⟨-, ⟨c, hc⟩ | ⟨-, rfl⟩⟩ hchanged ⟨ici, hici, hboot, -⟩
    · have hview : w'.icis key = some ici := hici
      cases hold : w.icis key with
      | none =>
        rw [answer_icis_none hc hold] at hview
        cases hview
      | some old => simpa [monitorWatcher, bootTimeInitialized, hold, hview] using hboot
    · exact absurd rfl hchanged
  heard_again := by
    rintro _ ⟨ici, rfl, hboot, -⟩
    exact hboot
  due := by
    rintro _ ⟨ici, rfl, -, hrun⟩
    simp [monitorWatcher, enqueueExisting, hrun]
  closed := by
    rintro v op w r w' ⟨-, ⟨c, hc⟩ | ⟨hread, rfl⟩⟩ hcloses
    · exact hcloses.completed hc
    · cases op with
      | patchICIStatus k base new => cases hread
      | _ => cases hcloses
  owes := by
    intro v hneed
    refine ⟨[], monitor_asks E ?_ hneed⟩
    rintro op r ⟨⟨w, w', hcached, -⟩, hopen⟩
    exact ⟨hcached, hopen⟩

/-- An update that changes nothing and is not announced leads to nothing. -/
theorem forgotten_unannounced (E : Env B) (w : World B) :
    ∃ s, (monitorWatcher E key false late reliable).Reached s ∧ s.world = w ∧ s.listening = true ∧
      s.swept = true ∧ ¬s.Active := by
  have hstart : (monitorWatcher E key false late reliable).Reached
      ((monitorWatcher E key false late reliable).start w) := .start ⟨w, rfl⟩
  have hlisten := hstart.next trivial (.listen rfl)
  have hlist := hlisten.next trivial (.list fun _ => rfl)
  have hrewrite := hlist.next trivial (.rewrite rfl)
  refine ⟨_, hrewrite, rfl, rfl, rfl, ?_⟩
  simp [Desk.Active, Watcher.rewritten, Watcher.start, monitorWatcher, bootTimeInitialized]

/-- An update that is announced before the monitor listens leads to nothing. -/
theorem forgotten_early (E : Env B) (w : World B) (key : NamespacedName)
    (hdue : enqueueExisting (w.icis key) = true) :
    ∃ s, (monitorWatcher E key true false reliable).Reached s ∧ s.world = w ∧ s.listening = true ∧
      s.swept = true ∧ ¬s.Active := by
  have hstart : (monitorWatcher E key true false reliable).Reached
      ((monitorWatcher E key true false reliable).start w) := .start ⟨w, rfl⟩
  have hlist := hstart.next trivial (.list fun hlate => by cases hlate)
  have hrewrite := hlist.next trivial (.rewrite rfl)
  have hdeliver := hrewrite.next trivial (.deliver (show _ = w.icis key :: [] by
    simp [Watcher.rewritten, Watcher.start, monitorWatcher, hdue]))
  have hlisten := hdeliver.next trivial (.listen rfl)
  refine ⟨_, hlisten, rfl, rfl, rfl, ?_⟩
  simp [Desk.Active, Watcher.start, monitorWatcher, bootTimeInitialized]

/-- An update that fails leads to nothing. -/
theorem forgotten_failed (E : Env B) (w : World B) :
    ∃ s, (monitorWatcher E key announced late false).Reached s ∧ s.world = w ∧ s.listening = true ∧
      s.swept = true ∧ ¬s.Active := by
  have hstart : (monitorWatcher E key announced late false).Reached
      ((monitorWatcher E key announced late false).start w) := .start ⟨w, rfl⟩
  have hlisten := hstart.next trivial (.listen rfl)
  have hlist := hlisten.next trivial (.list fun _ => rfl)
  have hfails := hlist.next trivial (.rewriteFails rfl rfl)
  refine ⟨_, hfails, rfl, rfl, rfl, ?_⟩
  simp [Desk.Active, Watcher.start, monitorWatcher, bootTimeInitialized]

/-- An installation that was under way when the operator started. -/
def oldInstallation : ImageClusterInstall where
  uid := ""
  status := { bootTime := some 0 }

/-- In every run of the operator, whoever changes the object and whenever the operator restarts: the
monitor, once it listens and the objects were gone through, follows every installation that has
started and has not completed, iff a status update that changes nothing is announced, the objects
are listed after the monitor has started to listen, and their status updates do not fail. -/
theorem monitor_follows_iff (E : Env B) (key : NamespacedName) (announced late reliable : Bool) :
    (∀ s, (monitorWatcher E key announced late reliable).Reached s → s.listening = true →
      s.swept = true → InProgress (s.world.icis key) → s.Active) ↔
        announced = true ∧ late = true ∧ reliable = true := by
  constructor
  · intro h
    let w : World B := { icis := fun _ => some oldInstallation }
    have hneed : InProgress (w.icis key) := ⟨oldInstallation, rfl, rfl, rfl⟩
    have hfollowed : ∀ s, (monitorWatcher E key announced late reliable).Reached s → s.world = w →
        s.listening = true → s.swept = true → s.Active :=
      fun s hs hw hlistening hswept => h s hs hlistening hswept (hw ▸ hneed)
    cases announced with
    | false =>
      obtain ⟨s, hs, hw, hlistening, hswept, hforgotten⟩ := forgotten_unannounced E w
      exact absurd (hfollowed s hs hw hlistening hswept) hforgotten
    | true =>
      refine ⟨rfl, ?_, ?_⟩
      · cases late with
        | true => rfl
        | false =>
          obtain ⟨s, hs, hw, hlistening, hswept, hforgotten⟩ := forgotten_early E w key rfl
          exact absurd (hfollowed s hs hw hlistening hswept) hforgotten
      · cases reliable with
        | true => rfl
        | false =>
          obtain ⟨s, hs, hw, hlistening, hswept, hforgotten⟩ := forgotten_failed E w
          exact absurd (hfollowed s hs hw hlistening hswept) hforgotten
  · rintro ⟨rfl, rfl, rfl⟩ s hs - hswept hneed
    exact (monitorWatcher_attentive E).follows rfl rfl rfl hs hswept hneed

end Follow

end ImageBasedInstall

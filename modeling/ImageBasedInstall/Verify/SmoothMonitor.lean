import ImageBasedInstall.Verify.Completion
import ImageBasedInstall.Verify.InstallStates
import ImageBasedInstall.Verify.SmoothCleanup

/-!
# The monitor converges

The work queue runs the monitor over a booted object until it asks for no further pass; meanwhile
the baremetal operator removes a `DataImage` that is marked for deletion, in the wait of some turn.
As long as no call fails: a cluster that reports itself installed is reported as such by the turn
after it, with its image gone; one that never does is reported as timed out by the first turn after
the timeout and the removal of the image.
-/

namespace ImageBasedInstall

open Interactive

variable {B : Type} {α : Type}

/-! ## What the spoke cluster tells -/

/-- No call fails, and a spoke cluster that is asked answers so. -/
def telling (installed : Bool) (w : World B) (op : Op B) (r : Resp op) (w' : World B) : Prop :=
  ∃ c : Choice B, c.Smooth ∧ c.status.installed = installed ∧ answer op c w = (r, w')

/-- The fallible program succeeds if nothing fails and the spoke cluster answers so. -/
abbrev Tells (installed : Bool) (x : Act B α) (Q : α → World B → Prop) (w : World B) : Prop :=
  Tries (Alone (telling installed)) x Q (fun _ _ => False) w

section Telling

variable {installed : Bool} {w : World B}

theorem meets_telling {p : Program B α} {Q : α → World B → Prop} (h : Meets (Alone smooth) p Q w) :
    Meets (Alone (telling installed)) p Q w :=
  h.ok_mono fun _ _ _ _ ⟨c, hc, _, heq⟩ => ⟨c, hc, heq⟩

theorem Works.tells {x : Act B α} {Q : α → World B → Prop} (h : Works x Q w) :
    Tells installed x Q w :=
  meets_telling h

theorem telling_spokeStatus {kubeconfig : B} {Q : Except Err InstallStatus → World B → Prop}
    (h : ∀ status, status.installed = installed → Q (.ok status) w) :
    Meets (Alone (telling installed)) (Prog.perform (Op.spokeStatus kubeconfig)) Q w := by
  rintro _ rfl r w' ⟨-, c, hc, hstatus, heq⟩
  have hanswer : answer (.spokeStatus kubeconfig) c w = (.ok c.status, w) := hc.read ..
  cases hanswer.symm.trans heq
  exact ⟨trivial, meets_ret.2 (h _ hstatus)⟩

end Telling

/-! ## The steps of a pass -/

/-- The monitor can find the kubeconfig of the installed cluster. -/
def HasKubeconfig (E : Env B) (key : NamespacedName) (ici : ImageClusterInstall)
    (w : World B) : Prop :=
  ∃ m s b, ici.spec.clusterMetadata = some m ∧ m.adminKubeconfigSecretRef ≠ "" ∧
    w.secrets ⟨key.ns, m.adminKubeconfigSecretRef⟩ = some s ∧ s.isCached = true ∧
    s.get "kubeconfig" = some b ∧ E.isEmpty b = false

/-- The installation has started and is not completed; its host is there, on or off, and once it is
on the kubeconfig can be found. -/
structure Monitored (E : Env B) (key host : NamespacedName) (on : Bool) (ici : ImageClusterInstall)
    (w : World B) : Prop where
  stored : w.icis key = some ici
  bootTime : ici.status.bootTime.isSome
  running : installationCompleted ici = false
  hostRef : ici.status.bareMetalHostRef = some host
  hostStored : ∃ bmh, w.bmhs host = some bmh ∧ bmh.poweredOn = on
  kubeconfig : on = true → HasKubeconfig E key ici w

/-- The conditions `conds` have been set, some time later. -/
def Restated (key : NamespacedName) (ici : ImageClusterInstall) (conds : List Condition)
    (w w' : World B) : Prop :=
  ∃ cs w₁, Sets conds ici.status.conditions cs ∧ Waited w w₁ ∧
    w' = w₁.setICI key (some (ici.withConditions cs))

section Steps

variable {E : Env B} {key host : NamespacedName} {on : Bool} {ici : ImageClusterInstall}
  {w w' : World B} {conds : List Condition}

theorem setInstallConditions_smooth (hstored : w.icis key = some ici) (conds : List Condition) :
    Meets (Alone smooth) (setInstallConditions key ici conds)
      (fun r w' => r.2 = .ok () ∧ Restated key ici conds w w') w := by
  refine Meets.seq (Meets.and
    (meets_sets (P := Waited w) (fun _ _ h hr => Eq.subst hr h) ?_ conds _ (.refl w))
      (meets_sets_unchanged conds _)) ?_
  · exact fun w₁ hw₁ => smooth_now.2 fun d => hw₁.trans ⟨d, rfl⟩
  rintro ⟨cs, updated⟩ w₁ ⟨⟨hsets, hw₁⟩, hsame⟩
  have hstored₁ : w₁.icis key = some ici := by
    obtain ⟨d, rfl⟩ := hw₁
    exact hstored
  cases updated with
  | false =>
    have hcs : cs = ici.status.conditions := (hsame rfl).2
    subst hcs
    refine meets_ret.2 ⟨rfl, _, w₁, hsets, hw₁, ?_⟩
    have hici : ici.withConditions ici.status.conditions = ici := rfl
    rw [hici, ← hstored₁]
    simp [World.setICI]
  | true => exact meets_smooth_patchICIStatus hstored₁ ⟨rfl, cs, w₁, hsets, hw₁, rfl⟩

/-- A report of progress. -/
theorem Monitored.restated (h : Monitored E key host on ici w) (hr : Restated key ici conds w w')
    (hreport : MonitorReport conds) (hne : conds ≠ installedConditions) :
    ∃ cs, Sets conds ici.status.conditions cs ∧ Monitored E key host on (ici.withConditions cs) w' ∧
      w'.dataImages = w.dataImages ∧ w.clock ≤ w'.clock := by
  obtain ⟨cs, w₁, hsets, ⟨d, rfl⟩, rfl⟩ := hr
  refine ⟨cs, hsets, ⟨Function.update_self .., h.bootTime, ?_, h.hostRef, h.hostStored,
    h.kubeconfig⟩, rfl, Int.le_add_of_nonneg_right (Int.natCast_nonneg _)⟩
  refine Bool.eq_false_iff.2 fun hdone => hne (hreport.completed hsets ?_)
  unfold installationCompleted at hdone
  split at hdone
  · next c hc => exact ⟨c, hc, by simpa using hdone⟩
  · cases hdone

theorem spokeKubeconfig_smooth (h : HasKubeconfig E key ici w) :
    Works (spokeKubeconfig E key ici) (fun _ w' => w' = w) w := by
  obtain ⟨m, s, b, hm, hname, hs, hcached, hget, hcontent⟩ := h
  unfold spokeKubeconfig
  rw [hm]
  dsimp only
  rw [if_neg hname]
  refine Tries.bind (tries_wrap (smooth_getSecret.2 ?_))
  have hread : (w.secrets ⟨key.ns, m.adminKubeconfigSecretRef⟩).filter
      (fun s => !true || s.isCached) = some s := by
    simp [hs, Option.filter, hcached]
  rw [hread]
  dsimp only [orNotFound, Outcome]
  have hdata : s.data.isEmpty = false := by
    cases hdata : s.data with
    | nil => simp [Secret.get, hdata] at hget
    | cons p data => rfl
  have hfilter : (s.get "kubeconfig").filter (fun b => !E.isEmpty b) = some b := by
    simp [hget, Option.filter, hcontent]
  rw [hdata, hfilter]
  exact tries_pure.2 rfl

theorem handleDataImageDeletion_stays (himage : ¬ImageMarked host w) :
    Works (handleDataImageDeletion key ici host) (fun o w' => o = none ∧ w' = w) w := by
  refine Tries.bind (tries_attempt (smooth_getDataImage.2 ?_))
  cases hd : w.dataImages host with
  | none => exact tries_pure.2 ⟨rfl, rfl⟩
  | some d =>
    have hstays : d.deletionTimestamp.isNone = true := by
      cases hdeletion : d.deletionTimestamp with
      | none => rfl
      | some t => exact absurd ⟨d, hd, by simp [hdeletion]⟩ himage
    dsimp only [orNotFound, Outcome]
    rw [hstays]
    exact tries_pure.2 ⟨rfl, rfl⟩

theorem handleDataImageDeletion_waits (hstored : w.icis key = some ici)
    (himage : ImageMarked host w) :
    Works (handleDataImageDeletion key ici host) (fun o w' => o = some { requeueAfter := 60 } ∧
      Restated key ici (installingConditions "Waiting for DataImage to be deleted") w w') w := by
  obtain ⟨d, hd, hmarked⟩ := himage
  have hstays : d.deletionTimestamp.isNone = false := by simpa using hmarked
  refine Tries.bind (tries_attempt (smooth_getDataImage.2 ?_))
  rw [hd]
  dsimp only [orNotFound, Outcome]
  rw [hstays]
  refine Tries.bind (Tries.lift (Meets.mono (setInstallConditions_smooth hstored _) ?_))
  rintro r w₁ ⟨-, hr⟩
  exact tries_pure.2 ⟨rfl, hr⟩

end Steps

/-! ## Passes -/

/-- What a pass makes of an installation whose cluster does not report itself installed. -/
inductive Waits (E : Env B) (key host : NamespacedName) (on : Bool) (ici : ImageClusterInstall)
    (w : World B) (res : Result) (w' : World B) : Prop where
  | late {cs : List Condition} (hres : res = { requeueAfter := 3600 })
      (h : Monitored E key host on (ici.withConditions cs) w')
      (htimed : installationTimedout (ici.withConditions cs) = true)
      (himages : w'.dataImages = w.dataImages)
  | early {cs : List Condition} (hres : res = { requeueAfter := 60 }) (hearly : ¬Late E ici w.clock)
      (hopen : installationTimedout ici = false)
      (h : Monitored E key host on (ici.withConditions cs) w')
      (himages : w'.dataImages = w.dataImages) (hclock : w.clock ≤ w'.clock)

/-- The installation is reported as completed, and the `DataImage` is gone. -/
def Done (key host : NamespacedName) (w : World B) : Prop :=
  ∃ ici, w.icis key = some ici ∧ w.dataImages host = none ∧
    ∀ d ∈ installedConditions, ∃ c, findCondition ici.status.conditions d.type = some c ∧ c.SaysAs d

/-- What a pass makes of an installation whose cluster reports itself installed. -/
inductive Closes (E : Env B) (key host : NamespacedName) (ici : ImageClusterInstall) (w : World B)
    (res : Result) (w' : World B) : Prop where
  | waits {cs : List Condition} (hres : res = { requeueAfter := 60 })
      (himage : w.dataImages host ≠ none) (h : Monitored E key host true (ici.withConditions cs) w')
      (hmarked : ImageMarked host w')
  | ends (hres : res = {}) (h : Done key host w')

section Passes

variable {E : Env B} {key host : NamespacedName} {on : Bool} {ici : ImageClusterInstall}
  {w w' : World B}

theorem reportProgress_smooth (h : Monitored E key host on ici w)
    (htimeout : (∃ timeout, installTimeout E ici = .ok timeout) ∨ installationTimedout ici = true)
    (message : String) :
    Works (reportProgress E key ici message) (Waits E key host on ici w) w := by
  refine Tries.bind ?_
  unfold handleClusterTimeout
  split
  · next htimed =>
    have hsame : Monitored E key host on (ici.withConditions ici.status.conditions) w := h
    exact tries_pure.2 (tries_pure.2 (.late rfl hsame htimed rfl))
  next hopen =>
  obtain ⟨timeout, htimeout⟩ := htimeout.resolve_right hopen
  rw [htimeout]
  refine Tries.bind (tries_liftExcept.2 (Tries.bind (Tries.lift (smooth_now.2 fun d => ?_))))
  have h₁ : Monitored E key host on ici { w with clock := w.clock + d } :=
    ⟨h.stored, h.bootTime, h.running, h.hostRef, h.hostStored, h.kubeconfig⟩
  have hwait : w.clock ≤ w.clock + d := Int.le_add_of_nonneg_right (Int.natCast_nonneg _)
  split
  · refine Tries.bind (Tries.lift (Meets.mono (setInstallConditions_smooth h₁.stored _) ?_))
    rintro _ w₂ ⟨-, hr⟩
    obtain ⟨cs, hsets, h₂, himages, -⟩ := h₁.restated hr (.timeout _) (timeout_ne _)
    refine tries_pure.2 (tries_pure.2 (.late rfl h₂ ?_ himages))
    obtain ⟨c, hc, hstatus, hreason, -⟩ := hsets.find (MonitorReport.timeout _).nodup
      (List.mem_cons_of_mem _ (List.mem_cons_of_mem _ (List.mem_cons_self ..)))
    have hcs : (ici.withConditions cs).status.conditions = cs := rfl
    have hfind : findCondition cs .failed = some c := hc
    simp [installationTimedout, hcs, hfind, hstatus, hreason]
  · next hearly =>
    refine tries_pure.2 (Tries.bind (Tries.lift (Meets.mono
      (setInstallConditions_smooth h₁.stored _) ?_)))
    rintro _ w₂ ⟨-, hr⟩
    obtain ⟨cs, -, h₂, himages, hclock⟩ := h₁.restated hr (.installing _) (installing_ne _)
    refine tries_pure.2 (.early rfl ?_ (by simpa using hopen) h₂ himages
      (Int.le_trans hwait hclock))
    rintro ⟨boot, hboot, hlate⟩
    exact hearly ((late_iff htimeout h.bootTime).2 ⟨boot, hboot, Int.lt_of_lt_of_le hlate hwait⟩)

/-- The part of a pass that all booted, uncompleted installations share. -/
theorem Monitored.pass {installed : Bool} {Q : Result → World B → Prop}
    (h : Monitored E key host on ici w)
    (hoff : on = false →
      Tells installed (reportProgress E key ici "Waiting for BMH to power on") Q w)
    (hon : on = true → Tells installed (checkClusterStatus E key ici host) Q w) :
    Tells installed (monitor E key) Q w := by
  refine Tries.bind (tries_attempt (meets_telling (smooth_getICI.2 ?_)))
  rw [h.stored]
  dsimp only [orNotFound, Outcome]
  have hboot : ici.status.bootTime.isNone = false := by simpa using h.bootTime
  rw [hboot, h.running]
  unfold monitorInstallationProgress
  rw [h.hostRef]
  obtain ⟨bmh, hbmh, hpower⟩ := h.hostStored
  refine Tries.bind (meets_telling (smooth_getBMH.2 ?_))
  rw [hbmh]
  dsimp only [orNotFound, Outcome]
  rw [hpower]
  cases on with
  | true => exact hon rfl
  | false => exact hoff rfl

theorem monitor_pending (h : Monitored E key host on ici w)
    (htimeout : (∃ timeout, installTimeout E ici = .ok timeout) ∨ installationTimedout ici = true)
    (himage : on = true → ¬ImageMarked host w) :
    Tells false (monitor E key) (Waits E key host on ici w) w := by
  refine h.pass (fun _ => (reportProgress_smooth h htimeout _).tells) fun hon => ?_
  refine Tries.seq (handleDataImageDeletion_stays (himage hon)).tells ?_
  rintro _ w ⟨rfl, rfl⟩
  refine Tries.seq (spokeKubeconfig_smooth (h.kubeconfig hon)).tells ?_
  rintro kubeconfig w rfl
  refine Tries.bind (tries_wrap (telling_spokeStatus fun status hstatus => ?_))
  rw [outcome_ok, hstatus]
  exact (reportProgress_smooth h htimeout _).tells

/-- While the image is being removed the spoke cluster is not asked. -/
theorem monitor_detaching {installed : Bool} (h : Monitored E key host true ici w)
    (himage : ImageMarked host w) :
    Tells installed (monitor E key) (fun res w' => res = { requeueAfter := 60 } ∧
      ∃ cs, Monitored E key host true (ici.withConditions cs) w' ∧ w'.dataImages = w.dataImages ∧
        w.clock ≤ w'.clock) w := by
  refine h.pass (by simp) fun _ => ?_
  refine Tries.seq (handleDataImageDeletion_waits h.stored himage).tells ?_
  rintro _ w₁ ⟨rfl, hr⟩
  obtain ⟨cs, -, h₁, himages, hclock⟩ := h.restated hr (.installing _) (installing_ne _)
  exact tries_pure.2 ⟨rfl, cs, h₁, himages, hclock⟩

/-- Where its `DataImage` is removed, an installation goes on to be watched. -/
theorem Monitored.of_removal (h : Monitored E key host on ici w)
    (hframed : Framed [.dataImage, .bmh] w w') (hhost : ∀ bmh, w.bmhs host = some bmh →
      ∃ bmh', w'.bmhs host = some bmh' ∧ bmh'.poweredOn = bmh.poweredOn) :
    Monitored E key host on ici w' := by
  obtain ⟨bmh, hbmh, hpower⟩ := h.hostStored
  obtain ⟨bmh', hbmh', hpower'⟩ := hhost bmh hbmh
  refine ⟨?_, h.bootTime, h.running, h.hostRef, ⟨bmh', hbmh', hpower'.trans hpower⟩, fun hon => ?_⟩
  · rw [hframed.icis (by decide)]
    exact h.stored
  · obtain ⟨m, s, b, hm, hname, hs, hrest⟩ := h.kubeconfig hon
    refine ⟨m, s, b, hm, hname, ?_, hrest⟩
    rw [hframed.secrets (by decide)]
    exact hs

/-- The cluster is installed: its `DataImage` is removed, which ends the installation unless a
finalizer holds the image. -/
theorem reportInstalled_closes (h : Monitored E key host true ici w) :
    Works (reportInstalled key ici host) (Closes E key host ici w) w := by
  refine Tries.seq (removeBMHDataImage_smooth host) ?_
  rintro o w₁ ⟨hframed, hdeleted, -, -, hhost⟩
  have h₁ := h.of_removal hframed hhost
  by_cases hmarked : ImageMarked host w₁
  · refine Tries.seq (handleDataImageDeletion_waits h₁.stored hmarked) ?_
    rintro _ w₂ ⟨rfl, hr⟩
    obtain ⟨cs, -, h₂, himages, -⟩ := h₁.restated hr (.installing _) (installing_ne _)
    obtain ⟨d, hd, hdel⟩ := hmarked
    refine tries_pure.2 (.waits rfl (fun hnone => ?_) h₂ ⟨d, by rw [himages, hd], hdel⟩)
    rw [hdeleted, hnone] at hd
    cases hd
  · refine Tries.seq (handleDataImageDeletion_stays hmarked) ?_
    rintro _ w₁ ⟨rfl, rfl⟩
    have hgone : w₁.dataImages host = none := by
      cases hd : w₁.dataImages host with
      | none => rfl
      | some d => exact absurd ⟨d, hd, ImageGone.of_delete hdeleted d hd⟩ hmarked
    refine Tries.bind (Tries.lift (Meets.mono (setInstallConditions_smooth h₁.stored _) ?_))
    rintro ⟨ici', err⟩ w₂ ⟨rfl, cs, w₃, hsets, ⟨d, rfl⟩, rfl⟩
    refine Tries.bind (tries_liftExcept.2
      (tries_pure.2 (.ends rfl ⟨_, Function.update_self .., hgone, ?_⟩)))
    exact fun c hc => hsets.find MonitorReport.installed.nodup hc

theorem monitor_closes (h : Monitored E key host true ici w) :
    Tells true (monitor E key) (Closes E key host ici w) w := by
  by_cases himage : ImageMarked host w
  · refine (monitor_detaching h himage).mono ?_ fun _ _ h => h
    rintro res w₁ ⟨rfl, cs, h₁, himages, -⟩
    obtain ⟨d, hd, hmarked⟩ := himage
    exact .waits rfl (by simp [hd]) h₁ ⟨d, by rw [himages, hd], hmarked⟩
  refine h.pass (by simp) fun _ => ?_
  refine Tries.seq (handleDataImageDeletion_stays himage).tells ?_
  rintro _ w ⟨rfl, rfl⟩
  refine Tries.seq (spokeKubeconfig_smooth (h.kubeconfig rfl)).tells ?_
  rintro kubeconfig w rfl
  refine Tries.bind (tries_wrap (telling_spokeStatus fun status hstatus => ?_))
  rw [outcome_ok, hstatus]
  exact (reportInstalled_closes h).tells

theorem monitor_done (h : Done key host w) :
    Works (monitor E key) (fun res w' => res = {} ∧ w' = w) w := by
  obtain ⟨ici, hstored, -, hfind⟩ := h
  refine Tries.bind (tries_attempt (smooth_getICI.2 ?_))
  rw [hstored]
  dsimp only [orNotFound, Outcome]
  split
  · exact tries_pure.2 ⟨rfl, rfl⟩
  obtain ⟨c, hc, hstatus, -⟩ := hfind _ (List.mem_cons_self ..)
  have hcompleted : installationCompleted ici = true := by
    have hc : findCondition ici.status.conditions .completed = some c := hc
    simp [installationCompleted, hc, hstatus]
  rw [hcompleted]
  exact tries_pure.2 ⟨rfl, rfl⟩

end Passes

/-! ## Turns -/

/-- A pass of the monitor and the wait it asks for, in which the baremetal operator may detach the
image. -/
def monitorTurn (E : Env B) (key host : NamespacedName) (r : Round B) (w : World B) :
    Except Err Result × World B :=
  let (out, w') := (monitor E key).run.complete answer r.calls w
  (out, (w'.later ((out.toOption.map Result.requeueAfter).getD 0)).detach host r.detaches)

/-- No call of the pass fails, and the spoke cluster answers so. -/
def Round.Telling (installed : Bool) (r : Round B) : Prop :=
  ∀ i, (r.calls i).Smooth ∧ (r.calls i).status.installed = installed

/-- The pass asks to be repeated. -/
def asksAgain (out : Except Err Result) : Prop := ∃ res, out = .ok res ∧ res.isZero = false

/-- The pass does not fail. -/
def succeeds (out : Except Err Result) : Prop := ∃ res, out = .ok res

/-- The installation is reported as timed out, and goes on to be watched. -/
def TimedOut (E : Env B) (key host : NamespacedName) (on : Bool) (w : World B) : Prop :=
  ∃ ici, Monitored E key host on ici w ∧ (on = true → ¬ImageMarked host w) ∧
    installationTimedout ici = true

section Turns

variable {E : Env B} {key host : NamespacedName} {on installed : Bool} {ici : ImageClusterInstall}
  {w w' : World B} {r : Round B} {rs : Nat → Round B} {boot timeout : Time}

theorem monitorTurn_spec (hr : r.Telling installed) {Q : Result → World B → Prop}
    (h : Tells installed (monitor E key) Q w) :
    ∃ res w', Q res w' ∧ monitorTurn E key host r w =
      (.ok res, (w'.later res.requeueAfter).detach host r.detaches) := by
  have hrun := Meets.complete h fun i w op => ⟨r.calls i, (hr i).1, (hr i).2, rfl⟩
  unfold monitorTurn
  generalize (monitor E key).run.complete answer r.calls w = out at hrun
  obtain ⟨out | res, w'⟩ := out
  · exact hrun.elim
  · exact ⟨res, w', hrun, rfl⟩

theorem Monitored.rest (h : Monitored E key host on ici w) (t : Time) (detaches : Bool) :
    Monitored E key host on ici ((w.later t).detach host detaches) :=
  ⟨h.stored, h.bootTime, h.running, h.hostRef, h.hostStored, h.kubeconfig⟩

theorem ImageMarked.gone (h : ImageMarked host w) : ImageGone host w := by
  obtain ⟨d, hd, hmarked⟩ := h
  intro d' hd'
  obtain rfl : d = d' := Option.some.inj (hd.symm.trans hd')
  exact hmarked

/-- The wait marks no image. -/
theorem unmarked_rest {t : Time} {detaches : Bool} (himages : w'.dataImages = w.dataImages)
    (h : ¬ImageMarked host w) : ¬ImageMarked host ((w'.later t).detach host detaches) := by
  rintro ⟨d, hd, hmarked⟩
  have hd' : w'.dataImages host = some d := (detach_eq_some.1 hd).1
  exact h ⟨d, himages ▸ hd', hmarked⟩

theorem Done.rest {t : Time} {detaches : Bool} (h : Done key host w) :
    Done key host ((w.later t).detach host detaches) := by
  obtain ⟨ici, hstored, hgone, hfind⟩ := h
  exact ⟨ici, hstored, detach_none hgone, hfind⟩

theorem Done.settles (h : Done key host w) (hrs : ∀ n, (rs n).Telling installed) :
    Settles (monitorTurn E key host) (Done key host) asksAgain succeeds rs 0 w := by
  refine .now (fun r w hr h => ?_) hrs h
  obtain ⟨res, w', ⟨rfl, rfl⟩, heq⟩ := monitorTurn_spec (E := E) hr (monitor_done h).tells
  rw [heq]
  exact ⟨⟨_, rfl⟩, h.rest⟩

/-- A turn either finds the installation done or waits for its image. -/
theorem Monitored.turn (h : Monitored E key host true ici w) (hrs : ∀ n, (rs n).Telling true) :
    Settles (monitorTurn E key host) (Done key host) asksAgain succeeds rs 1 w ∨
      ∃ out ici' w', monitorTurn E key host (rs 0) w = (out, w') ∧ succeeds out ∧ asksAgain out ∧
        Monitored E key host true ici' w' ∧ w.dataImages host ≠ none ∧
        ((rs 0).detaches = true → w'.dataImages host = none) := by
  obtain ⟨res, w', hcloses, heq⟩ := monitorTurn_spec (hrs 0) (monitor_closes h)
  cases hcloses with
  | ends hres hdone =>
    exact .inl (.next heq ⟨_, rfl⟩ (.inr rfl) (hdone.rest.settles fun n => hrs (n + 1)))
  | waits hres himage h' hmarked =>
    subst hres
    exact .inr ⟨_, _, _, heq, ⟨_, rfl⟩, ⟨_, rfl, rfl⟩, h'.rest _ _, himage,
      detach_gone hmarked.gone⟩

theorem TimedOut.settles (h : TimedOut E key host on w) (hrs : ∀ n, (rs n).Telling false) :
    Settles (monitorTurn E key host) (TimedOut E key host on) asksAgain asksAgain rs 0 w := by
  refine .now (fun r w hr h => ?_) hrs h
  obtain ⟨ici, h, himage, htimed⟩ := h
  obtain ⟨res, w', hwaits, heq⟩ :=
    monitorTurn_spec hr (monitor_pending h (.inr htimed) himage)
  rw [heq]
  cases hwaits with
  | late hres h' htimed' himages =>
    subst hres
    exact ⟨⟨_, rfl, rfl⟩, _, h'.rest _ _, fun hon => unmarked_rest himages (himage hon), htimed'⟩
  | early hres hearly hopen => simp [htimed] at hopen

/-- A turn over an installation whose image is not in the way. -/
theorem Monitored.pending (h : Monitored E key host on ici w)
    (himage : on = true → ¬ImageMarked host w) (hboot : ici.status.bootTime = some boot)
    (htimeout : installTimeout E ici = .ok timeout) (hrs : ∀ n, (rs n).Telling false) :
    Settles (monitorTurn E key host) (TimedOut E key host on) asksAgain asksAgain rs 1 w ∨
      ∃ out cs w', monitorTurn E key host (rs 0) w = (out, w') ∧ asksAgain out ∧
        Monitored E key host on (ici.withConditions cs) w' ∧ (on = true → ¬ImageMarked host w') ∧
        w.clock ≤ boot + timeout ∧ w.clock + 60 ≤ w'.clock := by
  obtain ⟨res, w', hwaits, heq⟩ :=
    monitorTurn_spec (hrs 0) (monitor_pending h (.inl ⟨_, htimeout⟩) himage)
  cases hwaits with
  | late hres h' htimed himages =>
    subst hres
    exact .inl (.next heq ⟨_, rfl, rfl⟩ (.inr rfl) (TimedOut.settles
      ⟨_, h'.rest _ _, fun hon => unmarked_rest himages (himage hon), htimed⟩ fun n => hrs (n + 1)))
  | early hres hearly hopen h' himages hclock =>
    subst hres
    refine .inr ⟨_, _, _, heq, ⟨_, rfl, rfl⟩, h'.rest _ _,
      fun hon => unmarked_rest himages (himage hon),
      Int.not_lt.1 fun hlate => hearly ⟨boot, hboot, ?_⟩, Int.add_le_add_right hclock 60⟩
    rw [installTimeout_eq htimeout]
    exact hlate

/-- Of the `n` minutes that are left, a turn that asks to be repeated takes one. -/
theorem minute_less {deadline clock clock' : Time} {n : Nat} (hn : deadline < clock + 60 * n)
    (hclock : clock + 60 ≤ clock') : deadline < clock' + 60 * (n - 1 : Nat) := by
  refine Int.lt_of_lt_of_le hn ?_
  cases n with
  | zero =>
    exact Int.add_le_add_right (Int.le_trans (Int.le_add_of_nonneg_right (by decide)) hclock) _
  | succ n =>
    have hstep : clock + 60 * ((n + 1 : Nat) : Int) = clock + 60 + 60 * n := by
      rw [Int.natCast_add, Int.mul_add, Int.add_comm (60 * (n : Int)), ← Int.add_assoc]
      rfl
    rw [hstep]
    exact Int.add_le_add_right hclock _

/-- Once no image is in the way, the timeout is reported by the first turn after it. -/
theorem Monitored.times_out (h : Monitored E key host on ici w)
    (himage : on = true → ¬ImageMarked host w) (hboot : ici.status.bootTime = some boot)
    (htimeout : installTimeout E ici = .ok timeout) (n : Nat)
    (hn : boot + timeout < w.clock + 60 * n) (hrs : ∀ n, (rs n).Telling false) :
    Settles (monitorTurn E key host) (TimedOut E key host on) asksAgain asksAgain rs (n + 1) w := by
  induction n generalizing ici w rs with
  | zero =>
    obtain hsettles | ⟨out, cs, w', -, -, -, -, hearly, -⟩ := h.pending himage hboot htimeout hrs
    · exact hsettles
    · exact absurd (by simpa using hn) (Int.not_lt.2 hearly)
  | succ n ih =>
    obtain hsettles | ⟨out, cs, w', heq, hagain, h', himage', -, hclock⟩ :=
      h.pending himage hboot htimeout hrs
    · exact hsettles.mono (Nat.le_add_left 1 _)
    · exact .next heq hagain (.inl hagain)
        (ih h' himage' hboot htimeout (minute_less hn hclock) fun n => hrs (n + 1))

/-- A turn over an installation whose image is being removed. -/
theorem Monitored.detaching (h : Monitored E key host true ici w) (himage : ImageMarked host w)
    (hr : r.Telling false) :
    ∃ out cs w', monitorTurn E key host r w = (out, w') ∧ asksAgain out ∧
      Monitored E key host true (ici.withConditions cs) w' ∧
      (r.detaches = true → ¬ImageMarked host w') ∧ w.clock + 60 ≤ w'.clock := by
  obtain ⟨res, w', ⟨rfl, cs, h', himages, hclock⟩, heq⟩ :=
    monitorTurn_spec hr (monitor_detaching h himage)
  refine ⟨_, cs, _, heq, ⟨_, rfl, rfl⟩, h'.rest _ _, ?_, Int.add_le_add_right hclock 60⟩
  rintro hdetaches ⟨d, hd, hmarked⟩
  rw [(detach_eq_some.1 hd).2 hdetaches] at hmarked
  cases hmarked

/-- With the host on and the image marked, the timeout is not looked at until the image is gone. -/
theorem Monitored.times_out_detached (h : Monitored E key host true ici w)
    (himage : ImageMarked host w) (hboot : ici.status.bootTime = some boot)
    (htimeout : installTimeout E ici = .ok timeout) (n : Nat)
    (hn : boot + timeout < w.clock + 60 * n) (hrs : ∀ n, (rs n).Telling false) (k : Nat)
    (hk : (rs k).detaches = true) :
    Settles (monitorTurn E key host) (TimedOut E key host true) asksAgain asksAgain rs
      (max n (k + 1) + 1) w := by
  induction k generalizing ici w rs n with
  | zero =>
    obtain ⟨out, cs, w', heq, hagain, h', hunmarked, hclock⟩ := h.detaching himage (hrs 0)
    refine (Settles.next heq hagain (.inl hagain)
      (h'.times_out (fun _ => hunmarked hk) hboot htimeout (n - 1) (minute_less hn hclock)
        fun n => hrs (n + 1))).mono ?_
    omega
  | succ k ih =>
    obtain ⟨out, cs, w', heq, hagain, h', -, hclock⟩ := h.detaching himage (hrs 0)
    by_cases himage' : ImageMarked host w'
    · refine (Settles.next heq hagain (.inl hagain) (ih h' himage' hboot htimeout (n - 1)
        (minute_less hn hclock) (fun n => hrs (n + 1)) hk)).mono ?_
      omega
    · refine (Settles.next heq hagain (.inl hagain) (h'.times_out (fun _ => himage') hboot htimeout
        (n - 1) (minute_less hn hclock) fun n => hrs (n + 1))).mono ?_
      omega

end Turns

/-- A started installation whose cluster reports itself installed, as long as no call fails and the
baremetal operator finishes the deletion of the marked `DataImage` in the wait of turn `k` at the
latest: the next turn reports it as completed, with its `DataImage` gone, and it stays so. -/
theorem installation_completes (E : Env B) (key host : NamespacedName) (ici : ImageClusterInstall)
    (w : World B) (h : Monitored E key host true ici w) (rs : Nat → Round B)
    (hrs : ∀ n, (rs n).Telling true) (k : Nat) (hk : (rs k).detaches = true) :
    Settles (monitorTurn E key host) (Done key host) asksAgain succeeds rs (k + 2) w := by
  induction k generalizing ici w rs with
  | zero =>
    obtain hsettles | ⟨out, ici', w', heq, hfine, hagain, h', -, hdetached⟩ := h.turn hrs
    · exact hsettles.mono (Nat.le_succ 1)
    obtain hsettles | ⟨out', ici₂, w₂, -, -, -, -, himage, -⟩ := h'.turn fun n => hrs (n + 1)
    · exact .next heq hfine (.inl hagain) hsettles
    · exact absurd (hdetached hk) himage
  | succ k ih =>
    obtain hsettles | ⟨out, ici', w', heq, hfine, hagain, h', -, -⟩ := h.turn hrs
    · exact hsettles.mono (Nat.le_add_left 1 _)
    · exact .next heq hfine (.inl hagain) (ih ici' w' h' _ (fun n => hrs (n + 1)) hk)

/-- The sample installation after the reconciler's passes, its image held back by a finalizer. -/
theorem attachedWorld_monitored :
    ∃ ici, Monitored Env.symbolic sampleKey sampleHost true ici attachedWorld ∧
      ici.status.bootTime = some 7 ∧ installTimeout Env.symbolic ici = .ok 3600 := by
  have hobject : (attachedWorld.icis sampleKey).any fun ici =>
      decide (ici.status.bootTime = some 7) && !installationCompleted ici &&
      decide (ici.status.bareMetalHostRef = some sampleHost) &&
      decide (ici.annotations installTimeoutAnnotation = none) &&
      ici.spec.clusterMetadata.any fun m => decide (m.adminKubeconfigSecretRef ≠ "") &&
        (attachedWorld.secrets ⟨"spokes", m.adminKubeconfigSecretRef⟩).any fun s =>
          s.isCached && (s.get "kubeconfig").any fun b =>
            !Env.symbolic.isEmpty b := by decide +kernel
  have hhost : (attachedWorld.bmhs sampleHost).any (·.poweredOn) := by decide +kernel
  simp only [Option.any_eq_true, Bool.and_eq_true, Bool.not_eq_true',
    decide_eq_true_eq] at hobject hhost
  obtain ⟨ici, hstored, ⟨⟨⟨hboot, hrunning⟩, hhostRef⟩, hdefault⟩, m, hm, hname, s, hs,
    hcached, b, hb, hcontent⟩ := hobject
  refine ⟨ici, ⟨hstored, by simp [hboot], hrunning, hhostRef, hhost, fun _ =>
    ⟨m, s, b, hm, hname, hs, hcached, hb, hcontent⟩⟩, hboot, ?_⟩
  rw [installTimeout, hdefault]
  rfl

theorem installation_completes_sample :
    ∃ ici, Monitored Env.symbolic sampleKey sampleHost true ici attachedWorld ∧
      Settles (monitorTurn Env.symbolic sampleKey sampleHost) (Done sampleKey sampleHost) asksAgain
        succeeds (fun n => ⟨fun _ => { status := ⟨true, ""⟩ }, n == 3⟩) 5 attachedWorld := by
  obtain ⟨ici, h, -⟩ := attachedWorld_monitored
  exact ⟨ici, h, installation_completes Env.symbolic sampleKey sampleHost ici attachedWorld h _
    (fun _ _ => ⟨⟨rfl, rfl⟩, rfl⟩) 3 rfl⟩

/-- A started installation whose cluster never reports itself installed and whose timeout can be
read, as long as no call fails: the first turn after the timeout reports it as timed out, and it
stays so, while every turn asks to be repeated. `n` is the number of minutes that are left. With the
host on and its `DataImage` marked it also takes the baremetal operator, which finishes the deletion
in the wait of turn `k` at the latest. -/
theorem installation_times_out (E : Env B) (key host : NamespacedName) (on : Bool)
    (ici : ImageClusterInstall) (w : World B) (h : Monitored E key host on ici w)
    (boot timeout : Time) (hboot : ici.status.bootTime = some boot)
    (htimeout : installTimeout E ici = .ok timeout) (n : Nat)
    (hn : boot + timeout < w.clock + 60 * n) (rs : Nat → Round B) (hrs : ∀ n, (rs n).Telling false)
    (k : Nat) (hk : on = true → ImageMarked host w → (rs k).detaches = true) :
    Settles (monitorTurn E key host) (TimedOut E key host on) asksAgain asksAgain rs
      (max n (k + 1) + 1) w := by
  by_cases himage : on = true ∧ ImageMarked host w
  · obtain ⟨rfl, himage⟩ := himage
    exact h.times_out_detached himage hboot htimeout n hn hrs k (hk rfl himage)
  · exact (h.times_out (fun hon hmarked => himage ⟨hon, hmarked⟩) hboot htimeout n hn hrs).mono
      (Nat.succ_le_succ (Nat.le_max_left ..))

/-- The same, with the image on its way out. -/
def detachingWorld : World Doc :=
  attachedWorld.setDataImage sampleHost (some
    { url := "", creationTimestamp := 0, finalizers := ["dataimage.metal3.io"],
      deletionTimestamp := some 0 })

theorem installation_times_out_sample :
    ∃ ici, Monitored Env.symbolic sampleKey sampleHost true ici detachingWorld ∧
      ImageMarked sampleHost detachingWorld ∧
      Settles (monitorTurn Env.symbolic sampleKey sampleHost)
        (TimedOut Env.symbolic sampleKey sampleHost true) asksAgain asksAgain
        (fun n => ⟨fun _ => {}, n == 3⟩) 61 detachingWorld := by
  obtain ⟨ici, h, hboot, htimeout⟩ := attachedWorld_monitored
  have h' : Monitored Env.symbolic sampleKey sampleHost true ici detachingWorld :=
    ⟨h.stored, h.bootTime, h.running, h.hostRef, h.hostStored, h.kubeconfig⟩
  exact ⟨ici, h', ⟨_, rfl, rfl⟩, installation_times_out Env.symbolic sampleKey sampleHost true ici
    detachingWorld h' 7 3600 hboot htimeout 60 (by decide +kernel) _
    (fun _ _ => ⟨⟨rfl, rfl⟩, rfl⟩) 3 fun _ _ => rfl⟩

end ImageBasedInstall

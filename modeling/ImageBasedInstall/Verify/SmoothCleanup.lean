import ImageBasedInstall.Verify.Cleanup
import ImageBasedInstall.Verify.Convergence

/-!
# The cleanup converges

An object that is being deleted, and a completed one whose host got its `DataImage` back from a
backup. The reconciler deletes the image and waits, while the baremetal operator detaches it. When
that happens is up to the baremetal operator: a turn says whether it falls into its wait. As long as
no call fails, the turn after it gets a deleted object rid of its finalizer, its directory and its
image, and a completed one has lost its image by then.
-/

namespace ImageBasedInstall

open Interactive

variable {B : Type}

/-! ## Removing the image -/

/-- What a turn meets: how the calls of its pass end, and whether the baremetal operator finishes
the deletion of a marked `DataImage` in the wait after the pass. -/
structure Round (B : Type) where
  calls : Nat → Choice B
  detaches : Bool

/-- No call of the pass fails. -/
def Round.Smooth (r : Round B) : Prop := Smoothly r.calls

/-- Of the baremetal operator only this is modelled: it removes a `DataImage` that is marked for
deletion, if it gets to it. -/
def World.detach (w : World B) (host : NamespacedName) (detaches : Bool) : World B :=
  w.setDataImage host ((w.dataImages host).filter fun d =>
    !(detaches && d.deletionTimestamp.isSome))

/-- The image is gone; where its host is missing it may be marked for deletion only, because its
removal is not waited for. -/
structure ImageLetGo (host : NamespacedName) (w : World B) : Prop where
  gone : ImageGone host w
  waited : (w.bmhs host).isSome → w.dataImages host = none

section Image

variable {host : NamespacedName} {w w' : World B} {detaches : Bool}

theorem detach_eq_some {d : DataImage} : (w.detach host detaches).dataImages host = some d ↔
    w.dataImages host = some d ∧ (detaches = true → d.deletionTimestamp = none) := by
  cases detaches <;> simp [World.detach, World.setDataImage, Option.filter_eq_some_iff]

theorem detach_none (h : w.dataImages host = none) :
    (w.detach host detaches).dataImages host = none := by
  simp [World.detach, World.setDataImage, h]

theorem detach_gone (h : ImageGone host w) (hdetaches : detaches = true) :
    (w.detach host detaches).dataImages host = none := by
  cases hd : (w.detach host detaches).dataImages host with
  | none => rfl
  | some d =>
    obtain ⟨hd, hkept⟩ := detach_eq_some.1 hd
    have hmarked := h d hd
    rw [hkept hdetaches] at hmarked
    cases hmarked

theorem ImageGone.of_none (h : w.dataImages host = none) : ImageGone host w := by
  intro d hd
  rw [h] at hd
  cases hd

theorem ImageLetGo.rest (h : ImageLetGo host w) (t : Time) :
    ImageLetGo host ((w.later t).detach host detaches) :=
  ⟨fun d hd => h.gone d (detach_eq_some.1 hd).1, fun hhost => detach_none (h.waited hhost)⟩

theorem ImageLetGo.of_eq (h : ImageLetGo host w) (himages : w'.dataImages = w.dataImages)
    (hbmhs : w'.bmhs = w.bmhs) : ImageLetGo host w' := by
  refine ⟨fun d hd => h.gone d (himages ▸ hd), fun hhost => ?_⟩
  rw [himages]
  exact h.waited (hbmhs ▸ hhost)

/-- The image is deleted; the host, if it is there, is rebooted on account of it. -/
theorem removeBMHDataImage_smooth (host : NamespacedName) :
    Works (removeBMHDataImage host) (fun o w' => Framed [.dataImage, .bmh] w w' ∧
      w'.dataImages host = (w.dataImages host).bind (·.delete w.clock) ∧
      (ImageLetGo host w → o = none) ∧ (o = none → ImageLetGo host w') ∧
      ∀ bmh, w.bmhs host = some bmh → ∃ bmh', w'.bmhs host = some bmh' ∧
        bmh'.poweredOn = bmh.poweredOn) w := by
  refine Tries.bind (Tries.bind (tries_attempt (smooth_getDataImage.2 ?_)))
  cases hd : w.dataImages host with
  | none =>
    exact tries_pure.2 (tries_pure.2 ⟨.refl .., hd, fun _ => rfl,
      fun _ => ⟨.of_none hd, fun _ => hd⟩, fun bmh hbmh => ⟨bmh, hbmh, rfl⟩⟩)
  | some d =>
    refine Tries.bind ((smooth_deleteDataImage hd).2 (tries_pure.2 ?_))
    have hframed : Framed [.dataImage, .bmh] w (w.setDataImage host (d.delete w.clock)) :=
      (Framed.setDataImage ..).mono (by simp)
    have himage : (w.setDataImage host (d.delete w.clock)).dataImages host = d.delete w.clock :=
      Function.update_self ..
    refine Tries.bind (tries_attempt (smooth_getBMH.2 ?_))
    cases hbmh : w.bmhs host with
    | none =>
      have hbmh₁ : (w.setDataImage host (d.delete w.clock)).bmhs host = none := hbmh
      rw [hbmh₁]
      refine tries_pure.2 ⟨hframed, himage, fun _ => rfl, fun _ => ⟨?_, ?_⟩, by simp⟩
      · exact ImageGone.of_delete (w := w) (t := w.clock) (by rw [himage, hd]; rfl)
      · simp [hbmh₁]
    | some bmh =>
      have hbmh₁ : (w.setDataImage host (d.delete w.clock)).bmhs host = some bmh := hbmh
      have hwaits : ¬ImageLetGo host w := fun h => by simpa [hd] using h.waited (by simp [hbmh])
      rw [hbmh₁]
      refine Tries.bind ?_
      unfold rebootBMH setAnnotationIfNotExists
      cases bmh.annotations rebootAnnotation with
      | some v =>
        refine tries_pure.2 (tries_pure.2 ⟨hframed, himage, fun h => absurd h hwaits, by simp,
          fun bmh' h => ?_⟩)
        cases h
        exact ⟨bmh, hbmh₁, rfl⟩
      | none =>
        refine Tries.bind ((smooth_patchBMH hbmh₁ ?_).2 (tries_pure.2 (tries_pure.2 ⟨?_, himage,
          fun h => absurd h hwaits, by simp, fun bmh' h => ?_⟩)))
        · exact ⟨rfl, rfl, rfl, rfl⟩
        · exact hframed.trans ((Framed.setBMH ..).mono (by simp))
        · cases h
          exact ⟨_, Function.update_self .., rfl⟩

end Image

/-! ## Deletion -/

/-- The object without the operator's finalizer. -/
def ImageClusterInstall.released (ici : ImageClusterInstall) : ImageClusterInstall :=
  { ici with finalizers := ici.finalizers.filter (· ≠ clusterInstallFinalizerName) }

/-- The object is being deleted, and finalizers hold it. -/
structure Leaving (key host : NamespacedName) (ici : ImageClusterInstall) (w : World B) : Prop where
  stored : w.icis key = some ici
  deleted : ici.deletionTimestamp.isSome
  held : ici.finalizers ≠ []
  hostRef : ∀ ref, ici.spec.bareMetalHostRef = some ref → ref = host

/-- The operator has let go of the object: it is gone unless another finalizer holds it, its
directory is gone, and the `DataImage` of its host is let go. -/
structure Released (key host : NamespacedName) (ici : ImageClusterInstall)
    (w : World B) : Prop where
  object : w.icis key = ici.released.remains
  directory : DirGone key.ns ici.uid w
  dataImage : ici.spec.bareMetalHostRef = some host → ImageLetGo host w

/-- What a pass makes of an object that is being deleted. -/
inductive LetsGo (key host : NamespacedName) (ici : ImageClusterInstall) (w : World B)
    (res : Result) (w' : World B) : Prop where
  | waits (hres : res = { requeueAfter := 60 })
      (himage : ¬(ici.spec.bareMetalHostRef = some host → ImageLetGo host w))
      (h : Leaving key host ici w') (hgone : ImageGone host w')
  | ends (hres : res = {}) (hobject : w'.icis key = ici.released.remains)
      (hdir : DirGone key.ns ici.uid w')
      (hgone : ici.spec.bareMetalHostRef = some host → ImageLetGo host w')

section Deletion

variable {E : Env B} {key host : NamespacedName} {ici : ImageClusterInstall} {w : World B}

theorem released_released : ici.released.released = ici.released := by
  simp [ImageClusterInstall.released]

theorem removeConfigDir_works (ns uid : String) :
    Works (removeConfigDir E ns uid) (fun removed w' => removed = true ∧ DirGone ns uid w' ∧
      Framed [.nothing, .file] w w') w := by
  have hremoved : Works (removeConfigDir E ns uid) (fun removed _ => removed = true) w := by
    refine Tries.seq (works_configDirs ns uid) ?_
    rintro _ w₁ ⟨rfl, -⟩
    refine Tries.bind (tries_attempt (smooth_stat.2 ?_))
    cases w₁.fs (lockDirOf ns uid) with
    | none => exact tries_pure.2 rfl
    | some entry =>
      refine Tries.bind (Tries.lift (Meets.bind (Meets.mono (works_lockForDir ns uid) ?_)))
      rintro (e | held) w₂ hlocked
      · exact hlocked.elim
      obtain ⟨rfl, -⟩ := hlocked
      exact Meets.bind (smooth_removeAll.2 (meets_ret.2 (tries_pure.2 rfl)))
  refine Tries.mono ((hremoved.and (removeConfigDir_spec ns uid)).framed
    (removeConfigDir_uses (A := fun op => op.target ∈ [.nothing, .file]) ?_ E ns uid ?_))
    (fun removed w' h => ⟨h.1.1, h.1.2 h.1.1, h.2⟩) fun _ _ h => h
  · intro op hop
    simp [hop]
  · intro op hop
    simp [hop.target]

theorem removeFinalizer_smooth (hstored : w.icis key = some ici) (hheld : ici.finalizers ≠ []) :
    Works (removeFinalizer key ici) (fun _ w' => w'.icis key = ici.released.remains ∧
      w'.fs = w.fs ∧ w'.dataImages = w.dataImages ∧ w'.bmhs = w.bmhs) w := by
  unfold removeFinalizer
  split
  · refine Tries.bind (Tries.lift (Meets.bind ((smooth_patchICI hstored ?_).2
      (meets_ret.2 (tries_liftExcept.2 ?_)))))
    · exact ⟨rfl, rfl, rfl⟩
    · exact ⟨Function.update_self .., rfl, rfl, rfl⟩
  · next hnone =>
    have hsame : ici.released = ici := by
      have hfilter : ici.finalizers.filter (· ≠ clusterInstallFinalizerName) = ici.finalizers :=
        List.filter_eq_self.2 fun f hf => by
          simp only [decide_eq_true_eq]
          rintro rfl
          exact hnone hf
      unfold ImageClusterInstall.released
      rw [hfilter]
    refine tries_pure.2 ⟨?_, rfl, rfl, rfl⟩
    rw [hsame, hstored, ImageClusterInstall.remains, if_neg fun h => hheld h.2]

/-- The `DataImage` of the host, if there is one, is marked at least, and let go where its removal
is not waited for. -/
theorem removeHostDataImage_smooth
    (href : ∀ ref, ici.spec.bareMetalHostRef = some ref → ref = host) :
    Works (removeHostDataImage ici.spec) (fun released w' => Framed [.dataImage, .bmh] w w' ∧
      (ici.spec.bareMetalHostRef = some host → ImageGone host w') ∧
      (released = true → ici.spec.bareMetalHostRef = some host → ImageLetGo host w') ∧
      (released = false → ici.spec.bareMetalHostRef = some host ∧ ¬ImageLetGo host w)) w := by
  unfold removeHostDataImage
  cases hspec : ici.spec.bareMetalHostRef with
  | none => exact tries_pure.2 ⟨.refl .., by simp, by simp, by simp⟩
  | some ref =>
    obtain rfl := href ref hspec
    refine Tries.bind (tries_wrap (Tries.mono (removeBMHDataImage_smooth ref) ?_ fun _ _ h => h))
    rintro o w' ⟨hframed, hdeleted, hnone, hletgo, -⟩
    refine tries_pure.2 ⟨hframed, fun _ => .of_delete hdeleted,
      fun hreleased _ => hletgo (by simpa using hreleased), fun hkept => ⟨rfl, fun himage => ?_⟩⟩
    rw [hnone himage] at hkept
    cases hkept

theorem finalize_smooth (h : Leaving key host ici w) :
    Works (finalize E key ici) (LetsGo key host ici w) w := by
  refine Tries.seq (removeConfigDir_works key.ns ici.uid) ?_
  rintro _ w₁ ⟨rfl, hdir, hframed₁⟩
  refine Tries.seq (removeHostDataImage_smooth h.hostRef) ?_
  rintro released w₂ ⟨hframed₂, hgone, hletgo, hwaits⟩
  have hstored₂ : w₂.icis key = some ici := by
    rw [hframed₂.icis (by decide), hframed₁.icis (by decide)]
    exact h.stored
  cases released with
  | false =>
    obtain ⟨href, himage⟩ := hwaits rfl
    refine tries_pure.2 (.waits rfl (fun hletgo => himage ?_)
      ⟨hstored₂, h.deleted, h.held, h.hostRef⟩ (hgone href))
    exact (hletgo href).of_eq (hframed₁.dataImages (by decide)) (hframed₁.bmhs (by decide))
  | true =>
    refine Tries.seq (removeFinalizer_smooth hstored₂ h.held) ?_
    rintro _ w₃ ⟨hobject, hfs, himages, hbmhs⟩
    refine tries_pure.2 (.ends rfl hobject (fun p hp => ?_) fun href =>
      (hletgo rfl href).of_eq himages hbmhs)
    rw [hfs, congrFun (hframed₂.fs (by decide) (by decide)) p]
    exact hdir p hp

variable [DecidableEq B]

theorem reconcile_leaving (h : Leaving key host ici w) :
    Meets (Alone smooth) (reconcile E key)
      (fun rep w' => rep.err = none ∧ LetsGo key host ici w rep.result w') w := by
  refine Meets.bind (smooth_getICI.2 ?_)
  rw [h.stored]
  refine Meets.seq (Q := fun r w' => ∃ res, r = (ici, some (res, none)) ∧
    LetsGo key host ici w res w') ?_ ?_
  · have hdeleted : ¬ici.deletionTimestamp.isNone = true := by
      simpa [Option.isSome_iff_ne_none] using h.deleted
    unfold handleFinalizer
    rw [if_neg hdeleted]
    refine Meets.bind (Meets.mono (finalize_smooth h) ?_)
    rintro (e | res) w₁ hlets
    · exact hlets.elim
    · exact meets_ret.2 ⟨res, rfl, hlets⟩
  rintro _ w₁ ⟨res, rfl, hlets⟩
  exact meets_ret.2 ⟨rfl, hlets⟩

end Deletion

/-! ## Turns -/

variable [DecidableEq B]

/-- A turn of the reconciler, in whose wait the baremetal operator may detach the image. -/
def cleanupTurn (E : Env B) (key host : NamespacedName) (r : Round B) (w : World B) :
    Report × World B :=
  let (rep, w') := turn E key r.calls w
  (rep, w'.detach host r.detaches)

section Turns

variable {E : Env B} {key host : NamespacedName} {ici : ImageClusterInstall} {w : World B}
  {r : Round B} {rs : Nat → Round B}

theorem cleanupTurn_spec (host : NamespacedName) (hr : r.Smooth)
    {Q : Report → World B → Prop} (h : Meets (Alone smooth) (reconcile E key) Q w) :
    ∃ rep w', Q rep w' ∧ cleanupTurn E key host r w =
      (rep, (w'.later rep.result.requeueAfter).detach host r.detaches) := by
  obtain ⟨rep, w', hQ, heq⟩ := turn_spec hr h
  exact ⟨rep, w', hQ, by rw [cleanupTurn, heq]⟩

omit [DecidableEq B] in
theorem Leaving.rest (h : Leaving key host ici w) (t : Time) (detaches : Bool) :
    Leaving key host ici ((w.later t).detach host detaches) :=
  ⟨h.stored, h.deleted, h.held, h.hostRef⟩

/-- Without an image that is waited for, one turn lets the object go. -/
theorem Leaving.lets_go (h : Leaving key host ici w)
    (hletgo : ici.spec.bareMetalHostRef = some host → ImageLetGo host w) (hr : r.Smooth) :
    (cleanupTurn E key host r w).1.Fine ∧ Released key host ici (cleanupTurn E key host r w).2 := by
  obtain ⟨rep, w', ⟨herr, hlets⟩, heq⟩ := cleanupTurn_spec host hr (reconcile_leaving (E := E) h)
  rw [heq]
  cases hlets with
  | waits hres himage => exact absurd hletgo himage
  | ends hres hobject hdir hgone =>
    exact ⟨herr, hobject, hdir, fun href => (hgone href).rest _⟩

theorem Released.turn (h : Released key host ici w) (hdeleted : ici.deletionTimestamp.isSome)
    (hhost : ∀ ref, ici.spec.bareMetalHostRef = some ref → ref = host) (hr : r.Smooth) :
    (cleanupTurn E key host r w).1.Fine ∧ Released key host ici (cleanupTurn E key host r w).2 := by
  have hobject := h.object
  unfold ImageClusterInstall.remains at hobject
  split at hobject
  · -- nothing is left of the object
    have hpass : Meets (Alone smooth) (reconcile E key) (fun rep w' => rep = {} ∧ w' = w) w := by
      refine Meets.bind (smooth_getICI.2 ?_)
      rw [hobject]
      exact meets_ret.2 ⟨rfl, rfl⟩
    obtain ⟨rep, w', ⟨rfl, rfl⟩, heq⟩ := cleanupTurn_spec host hr hpass
    rw [heq]
    exact ⟨rfl, h.object, h.directory, fun href => (h.dataImage href).rest _⟩
  · -- another finalizer holds it, and the cleanup is repeated
    next hheld =>
    have hleaving : Leaving key host ici.released w :=
      ⟨hobject, hdeleted, fun hnil => hheld ⟨hdeleted, hnil⟩, hhost⟩
    obtain ⟨hfine, hobject', hdir', himage'⟩ := hleaving.lets_go (E := E) h.dataImage hr
    rw [released_released] at hobject'
    exact ⟨hfine, hobject', hdir', himage'⟩

theorem Released.settles (h : Released key host ici w) (hdeleted : ici.deletionTimestamp.isSome)
    (hhost : ∀ ref, ici.spec.bareMetalHostRef = some ref → ref = host)
    (hrs : ∀ n, (rs n).Smooth) :
    Settles (cleanupTurn E key host) (Released key host ici) Report.Again Report.Fine rs 0 w :=
  .now (fun _ _ hr h => h.turn hdeleted hhost hr) hrs h

/-- While the object is being deleted, a turn either lets it go or waits for the image. -/
theorem Leaving.turn (h : Leaving key host ici w) (hrs : ∀ n, (rs n).Smooth) :
    Settles (cleanupTurn E key host) (Released key host ici) Report.Again Report.Fine rs 1 w ∨
      ∃ rep w', cleanupTurn E key host (rs 0) w = (rep, w') ∧ rep.Fine ∧ rep.Again ∧
        Leaving key host ici w' ∧ ((rs 0).detaches = true → w'.dataImages host = none) := by
  obtain ⟨rep, w', ⟨herr, hlets⟩, heq⟩ :=
    cleanupTurn_spec host (hrs 0) (reconcile_leaving (E := E) h)
  cases hlets with
  | ends hres hobject hdir hgone =>
    have hreleased : Released key host ici
        ((w'.later rep.result.requeueAfter).detach host (rs 0).detaches) :=
      ⟨hobject, hdir, fun href => (hgone href).rest _⟩
    exact .inl (.next heq herr (.inr rfl)
      (hreleased.settles h.deleted h.hostRef fun n => hrs (n + 1)))
  | waits hres himage h' hgone =>
    have hagain : rep.Again := by
      rw [Report.Again, hres]
      rfl
    exact .inr ⟨rep, _, heq, herr, hagain, h'.rest _ _, detach_gone hgone⟩

end Turns

/-- An object that is being deleted, as long as no call fails and the baremetal operator finishes
the deletion of a marked `DataImage` in the wait of turn `k` at the latest: the next turn lets go of
the object for good. It is gone unless another finalizer holds it, its directory is gone, and so is
the `DataImage` of its host. -/
theorem deletion_completes (E : Env B) (key host : NamespacedName) (ici : ImageClusterInstall)
    (w : World B) (h : Leaving key host ici w) (rs : Nat → Round B)
    (hrs : ∀ n, (rs n).Smooth) (k : Nat) (hk : (rs k).detaches = true) :
    Settles (cleanupTurn E key host) (Released key host ici) Report.Again Report.Fine rs
      (k + 2) w := by
  induction k generalizing w rs with
  | zero =>
    obtain hsettles | ⟨rep, w', heq, hfine, hagain, h', hdetached⟩ := h.turn (E := E) hrs
    · exact hsettles.mono (Nat.le_succ 1)
    have hletgo : ImageLetGo host w' := ⟨.of_none (hdetached hk), fun _ => hdetached hk⟩
    obtain ⟨hfine', hreleased⟩ := h'.lets_go (E := E) (fun _ => hletgo) (hrs 1)
    exact .next heq hfine (.inl hagain) (.next rfl hfine' (.inr rfl)
      (hreleased.settles h.deleted h.hostRef fun n => hrs (n + 2)))
  | succ k ih =>
    obtain hsettles | ⟨rep, w', heq, hfine, hagain, h', -⟩ := h.turn (E := E) hrs
    · exact hsettles.mono (Nat.le_add_left 1 _)
    · exact .next heq hfine (.inl hagain) (ih w' h' _ (fun n => hrs (n + 1)) hk)

/-- The sample object, being deleted while its host has an image that a finalizer holds back. -/
def leavingWorld : World Doc :=
  (sampleWorld.setICI sampleKey (some { sampleICI with
    finalizers := [clusterInstallFinalizerName]
    deletionTimestamp := some 0 })).setDataImage sampleHost
    (some { url := "", creationTimestamp := 0, finalizers := ["dataimage.metal3.io"] })

theorem deletion_completes_sample :
    ∃ ici, Leaving sampleKey sampleHost ici leavingWorld ∧
      Settles (cleanupTurn Env.symbolic sampleKey sampleHost) (Released sampleKey sampleHost ici)
        Report.Again Report.Fine (fun n => ⟨fun _ => {}, n == 3⟩) 5 leavingWorld := by
  have h : Leaving sampleKey sampleHost { sampleICI with
      finalizers := [clusterInstallFinalizerName], deletionTimestamp := some 0 } leavingWorld :=
    ⟨rfl, rfl, by simp, fun ref href => (Option.some.inj href).symm⟩
  exact ⟨_, h, deletion_completes Env.symbolic sampleKey sampleHost _ leavingWorld h _
    (fun _ _ => ⟨rfl, rfl⟩) 3 rfl⟩

/-! ## Completed objects from a backup -/

/-- The object is completed and asks for its image to be removed. -/
structure Recovered (key host : NamespacedName) (ici : ImageClusterInstall)
    (w : World B) : Prop where
  stored : w.icis key = some ici
  undeleted : ici.deletionTimestamp = none
  completed : installationCompleted ici = true
  asks : annotationExists ici.annotations postCleanupAnnotation = true
  hostRef : ici.spec.bareMetalHostRef = some host

/-- The image of a completed object is gone. -/
def ImageCleared (key host : NamespacedName) (w : World B) : Prop :=
  ∃ ici, Recovered key host ici w ∧ clusterInstallFinalizerName ∈ ici.finalizers ∧
    w.dataImages host = none

section Recovered

variable {E : Env B} {key host : NamespacedName} {ici : ImageClusterInstall} {w w' : World B}
  {rs : Nat → Round B}

/-- What a pass makes of a completed object: the image is marked at least, and waited for. -/
structure ClearsImage (key host : NamespacedName) (ici : ImageClusterInstall) (w : World B)
    (res : Result) (w' : World B) : Prop where
  object : Recovered key host ici w'
  gone : ImageGone host w'
  cleared : w.dataImages host = none → w'.dataImages host = none
  waits : w'.dataImages host ≠ none → res = { requeueAfter := 60 }

omit [DecidableEq B] in
theorem handlePostCleanup_smooth (h : Recovered key host ici w) :
    Works (handlePostCleanup ici) (ClearsImage key host ici w) w := by
  unfold handlePostCleanup
  rw [h.asks, h.hostRef]
  refine Tries.seq (tries_wrap (removeBMHDataImage_smooth host)) ?_
  rintro o w₁ ⟨hframed, hdeleted, -⟩
  have h₁ : Recovered key host ici w₁ := by
    refine ⟨?_, h.undeleted, h.completed, h.asks, h.hostRef⟩
    rw [hframed.icis (by decide)]
    exact h.stored
  have hcleared : w.dataImages host = none → w₁.dataImages host = none := by
    intro hnone
    rw [hdeleted, hnone]
    rfl
  refine Tries.bind (tries_attempt (smooth_getDataImage.2 ?_))
  cases hd : w₁.dataImages host with
  | none => exact tries_pure.2 ⟨h₁, .of_delete hdeleted, hcleared, absurd hd⟩
  | some d => exact tries_pure.2 ⟨h₁, .of_delete hdeleted, hcleared, fun _ => rfl⟩

theorem reconcile_recovered (h : Recovered key host ici w)
    (hfinalizer : clusterInstallFinalizerName ∈ ici.finalizers) :
    Meets (Alone smooth) (reconcile E key)
      (fun rep w' => rep.err = none ∧ ClearsImage key host ici w rep.result w') w := by
  refine Meets.bind (smooth_getICI.2 ?_)
  rw [h.stored]
  dsimp only [orNotFound]
  rw [handleFinalizer_registered h.undeleted hfinalizer]
  refine Meets.bind (meets_ret.2 (Meets.seq (fetchCD_smooth _ _) ?_))
  rintro cd w ⟨-, rfl⟩
  refine Meets.seq (labelReferencedObjectsForBackup_relabels _ _ _) fun _ w₁ hw₁ => ?_
  rw [h.completed]
  have h₁ : Recovered key host ici w₁ := by
    refine ⟨?_, h.undeleted, h.completed, h.asks, h.hostRef⟩
    rw [hw₁.framed.icis (by decide)]
    exact h.stored
  refine Meets.bind (Meets.mono (handlePostCleanup_smooth h₁) ?_)
  rintro (e | res) w₂ hclears
  · exact hclears.elim
  · refine meets_ret.2 ⟨rfl, hclears.object, hclears.gone, fun hnone => hclears.cleared ?_,
      hclears.waits⟩
    rw [hw₁.framed.dataImages (by decide)]
    exact hnone

omit [DecidableEq B] in
theorem Recovered.rest (h : Recovered key host ici w) (t : Time) (detaches : Bool) :
    Recovered key host ici ((w.later t).detach host detaches) :=
  ⟨h.stored, h.undeleted, h.completed, h.asks, h.hostRef⟩

theorem ImageCleared.settles (h : ImageCleared key host w) (hrs : ∀ n, (rs n).Smooth) :
    Settles (cleanupTurn E key host) (ImageCleared key host) Report.Again Report.Fine rs 0 w := by
  refine .now (fun r w hr h => ?_) hrs h
  obtain ⟨ici, h, hfinalizer, hnone⟩ := h
  obtain ⟨rep, w', ⟨herr, hclears⟩, heq⟩ :=
    cleanupTurn_spec host hr (reconcile_recovered (E := E) h hfinalizer)
  rw [heq]
  exact ⟨herr, ici, hclears.object.rest _ _, hfinalizer, detach_none (hclears.cleared hnone)⟩

/-- With the finalizer in place, a turn either finds the image gone or waits for it. -/
theorem Recovered.turn (h : Recovered key host ici w)
    (hfinalizer : clusterInstallFinalizerName ∈ ici.finalizers) (hrs : ∀ n, (rs n).Smooth) :
    Settles (cleanupTurn E key host) (ImageCleared key host) Report.Again Report.Fine rs 1 w ∨
      ∃ rep w', cleanupTurn E key host (rs 0) w = (rep, w') ∧ rep.Fine ∧ rep.Again ∧
        Recovered key host ici w' ∧ (rs 0).detaches = false := by
  obtain ⟨rep, w', ⟨herr, hclears⟩, heq⟩ :=
    cleanupTurn_spec host (hrs 0) (reconcile_recovered (E := E) h hfinalizer)
  have h' := hclears.object.rest rep.result.requeueAfter (rs 0).detaches
  by_cases hnone : ((w'.later rep.result.requeueAfter).detach host (rs 0).detaches).dataImages
    host = none
  · have hcleared : ImageCleared key host _ := ⟨ici, h', hfinalizer, hnone⟩
    exact .inl (.next heq herr (.inr rfl) (hcleared.settles fun n => hrs (n + 1)))
  · have hagain : rep.Again := by
      rw [Report.Again, hclears.waits fun hgone => hnone (detach_none hgone)]
      rfl
    exact .inr ⟨rep, _, heq, herr, hagain, h', Bool.eq_false_iff.2 fun hdetaches =>
      hnone (detach_gone hclears.gone hdetaches)⟩

/-- The image is cleared once the baremetal operator has detached it. -/
theorem Recovered.clears (h : Recovered key host ici w)
    (hfinalizer : clusterInstallFinalizerName ∈ ici.finalizers) (hrs : ∀ n, (rs n).Smooth) (k : Nat)
    (hk : (rs k).detaches = true) :
    Settles (cleanupTurn E key host) (ImageCleared key host) Report.Again Report.Fine rs
      (k + 1) w := by
  induction k generalizing w rs with
  | zero =>
    obtain hsettles | ⟨rep, w', -, -, -, -, hkept⟩ := h.turn (E := E) hfinalizer hrs
    · exact hsettles
    · rw [hk] at hkept
      cases hkept
  | succ k ih =>
    obtain hsettles | ⟨rep, w', heq, hfine, hagain, h', -⟩ := h.turn (E := E) hfinalizer hrs
    · exact hsettles.mono (Nat.le_add_left 1 _)
    · exact .next heq hfine (.inl hagain) (ih h' (fun n => hrs (n + 1)) hk)

/-- An object without the finalizer gets it first. -/
theorem reconcile_registers (hstored : w.icis key = some ici)
    (hundeleted : ici.deletionTimestamp = none)
    (hfinalizer : clusterInstallFinalizerName ∉ ici.finalizers) :
    Meets (Alone smooth) (reconcile E key) (fun rep w' => rep = { result := { requeue := true } } ∧
      w' = w.setICI key (some { ici with
        finalizers := ici.finalizers ++ [clusterInstallFinalizerName] })) w := by
  refine Meets.bind (smooth_getICI.2 ?_)
  rw [hstored]
  refine Meets.seq (Q := fun r w' => ∃ ici', r = (ici', some ({ requeue := true }, none)) ∧
    w' = w.setICI key (some { ici with
      finalizers := ici.finalizers ++ [clusterInstallFinalizerName] })) ?_ ?_
  · unfold handleFinalizer
    simp only [hundeleted, Option.isNone_none, if_true, if_neg hfinalizer]
    refine Meets.bind (meets_smooth_patchICI hstored ⟨rfl, hundeleted.symm, rfl⟩ hundeleted ?_)
    exact meets_ret.2 ⟨_, rfl, rfl⟩
  rintro _ _ ⟨ici', rfl, rfl⟩
  exact meets_ret.2 ⟨rfl, rfl⟩

end Recovered

/-- A completed object that asks for its `DataImage` to be removed, as long as no call fails and the
baremetal operator finishes the deletion of a marked `DataImage` in the wait of turn `k + 1` at the
latest: by then the image is gone, for good. Turn `0` may only add the finalizer. -/
theorem restored_image_removed (E : Env B) (key host : NamespacedName) (ici : ImageClusterInstall)
    (w : World B) (h : Recovered key host ici w) (rs : Nat → Round B) (hrs : ∀ n, (rs n).Smooth)
    (k : Nat) (hk : (rs (k + 1)).detaches = true) :
    Settles (cleanupTurn E key host) (ImageCleared key host) Report.Again Report.Fine rs (k + 2)
      w := by
  by_cases hfinalizer : clusterInstallFinalizerName ∈ ici.finalizers
  · exact h.clears hfinalizer hrs (k + 1) hk
  · obtain ⟨rep, w', ⟨rfl, rfl⟩, heq⟩ := cleanupTurn_spec host (hrs 0)
      (reconcile_registers (E := E) h.stored h.undeleted hfinalizer)
    have h' : Recovered key host { ici with
        finalizers := ici.finalizers ++ [clusterInstallFinalizerName] } (w.setICI key _) :=
      ⟨Function.update_self .., h.undeleted, h.completed, h.asks, h.hostRef⟩
    exact .next heq rfl (.inl rfl) ((h'.rest 0 _).clears (by simp) (fun n => hrs (n + 1)) k hk)

/-- The sample object, completed, with its image back from a backup. -/
def recoveredWorld : World Doc :=
  (sampleWorld.setICI sampleKey (some { sampleICI with
    annotations := fun k =>
      if k = postCleanupAnnotation then some postCleanupAnnotationValue else none
    status := { conditions := installedConditions } })).setDataImage sampleHost
    (some { url := "", creationTimestamp := 0, finalizers := ["dataimage.metal3.io"] })

theorem restored_image_removed_sample :
    ∃ ici, Recovered sampleKey sampleHost ici recoveredWorld ∧
      Settles (cleanupTurn Env.symbolic sampleKey sampleHost) (ImageCleared sampleKey sampleHost)
        Report.Again Report.Fine (fun n => ⟨fun _ => {}, n == 4⟩) 5 recoveredWorld := by
  have h : Recovered sampleKey sampleHost { sampleICI with
      annotations := fun k =>
        if k = postCleanupAnnotation then some postCleanupAnnotationValue else none
      status := { conditions := installedConditions } } recoveredWorld :=
    ⟨rfl, rfl, rfl, rfl, rfl⟩
  exact ⟨_, h, restored_image_removed Env.symbolic sampleKey sampleHost _ recoveredWorld h _
    (fun _ _ => ⟨rfl, rfl⟩) 3 rfl⟩

end ImageBasedInstall

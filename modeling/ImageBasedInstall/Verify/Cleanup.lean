import ImageBasedInstall.Verify.Pass

/-!
# The cleanup, and the whole pass

The finalizer is removed only when the object's directory is gone and the `DataImage` of the host it
names is gone or marked. With the phases of `Pass` this makes every call of `reconcile` one of
`Calls` (`reconcile_guarded`), and puts it in the inventory of `Steps` (`reconcile_pass`).
-/

namespace ImageBasedInstall

open Interactive Patch

variable {B : Type} {ok guar : World B → (op : Op B) → Resp op → World B → Prop}
  {w₀ w w' : World B} {E : Env B} {req : NamespacedName} {ici : ImageClusterInstall}

/-! ## Removing the directory -/

theorem mkdirs_isSome (w : World B) {p q : Path} (h : p.within q = true) :
    ((w.mkdirs p).fs q).isSome = true := by
  simp only [World.mkdirs, h, Bool.true_and]
  split
  · rfl
  · next hn => simpa [Option.isSome_iff_ne_none] using hn

theorem removeConfigDir_spec (ns uid : String) :
    Tries (Alone ok) (removeConfigDir E ns uid)
      (fun removed w' => removed = true → DirGone ns uid w') (fun _ _ => True) w := by
  refine Tries.seq (Q := fun dirs w' => dirs.1 = lockDirOf ns uid ∧
    (w'.fs (lockDirOf ns uid)).isSome = true) ?_ ?_
  · refine Tries.bind (meets_call fun c r w₁ hc _ => ⟨trivial, meets_ret.2 ?_⟩)
    rcases Choice.write_eq hc with ⟨rfl, rfl | ⟨e, rfl⟩⟩ | ⟨rfl, e, rfl⟩
    · refine tries_pure.2 ⟨rfl, mkdirs_isSome w ?_⟩
      simp [Path.within, lockDirOf, Path.join]
    · trivial
    · trivial
  rintro ⟨dir, files⟩ w₁ ⟨hdir, hsome⟩
  dsimp only at hdir
  subst hdir
  refine Tries.bind (tries_attempt (tries_stat .free ?_ ?_ ?_))
  · -- the directory is there: it is removed under its lock
    intro _
    refine Tries.seq (Q := fun r w' => r = .ran (.ok ()) → DirGone ns uid w') (Tries.lift ?_) ?_
    · refine Meets.seq (tries_true _) fun r w₂ _ => ?_
      rcases r with e | (_ | _)
      · exact meets_ret.2 fun h => by cases h
      · exact meets_ret.2 fun h => by cases h
      · refine Meets.bind (meets_call fun c r w₃ hc _ => ⟨trivial, meets_ret.2 (meets_ret.2 ?_)⟩)
        obtain ⟨rfl, rfl⟩ | ⟨e, kept, rfl, rfl⟩ := Choice.removal_eq hc
        · intro _ p hp
          simp [World.prune, hp]
        · exact fun h => by cases h
    · intro r w₂ h₂
      rcases r with e | _ | (e | _)
      · exact tries_throw.2 trivial
      · exact tries_pure.2 fun h => by cases h
      · exact tries_throw.2 trivial
      · exact tries_pure.2 fun _ => h₂ rfl
  · -- it cannot be missing, since it was just created
    intro hnone
    rw [hnone] at hsome
    cases hsome
  · exact fun e => tries_throw.2 trivial

/-! ## Removing the data image -/

section Remove

variable {host : NamespacedName}
  (hr : ∀ {w : World B} {op}, op.target = .nothing → Permits ok guar w op)
  (hd : ∀ d, w.dataImages host = some d → Permits ok guar w (.deleteDataImage host))
include hr hd

theorem deleteDataImage_running :
    Tries (Running ok guar) (deleteDataImage host)
      (fun o w' => Framed [.dataImage] w w' ∧ ImageGone host w' ∧
        ∀ d, o = some d → w.dataImages host = some d)
      (fun e w' => Framed [.dataImage] w w' ∧ e.aborts = false) w := by
  refine Tries.bind (tries_attempt (tries_getDataImage (hr rfl) ?_ ?_ ?_))
  · intro d hsome
    refine Tries.bind (meets_call fun c r w₁ hc ho => ⟨hd d hsome _ _ _ hc ho, meets_ret.2 ?_⟩)
    have hf : Framed [.dataImage] w w₁ := answer_framed hc
    cases r with
    | error e => exact ⟨hf, answer_deleteDataImage_error hc⟩
    | ok _ =>
      refine tries_pure.2 ⟨hf, ?_, fun d' heq => Option.some.inj heq ▸ hsome⟩
      obtain ⟨image, hi, rfl⟩ | ⟨-, e, h⟩ := answer_deleteDataImage hc
      · exact .delete hi
      · cases h
  · intro hnone
    refine tries_pure.2 ⟨.refl .., fun d hd => ?_, fun d h => by cases h⟩
    rw [hnone] at hd
    cases hd
  · exact fun e => tries_throw.2 ⟨.refl .., rfl⟩

/-- The removal of a host's `DataImage`: the host is rebooted only on account of an image that was
there. -/
theorem removeBMHDataImage_running
    (hb : ∀ {w' d bmh}, Framed [.dataImage] w w' → w.dataImages host = some d →
      ImageGone host w' → w'.bmhs host = some bmh → bmh.annotations rebootAnnotation = none →
      Permits ok guar w' (.patchBMH host bmh { bmh with
        annotations := Function.update bmh.annotations rebootAnnotation
          (some rebootAnnotationValue) })) :
    Tries (Running ok guar) (removeBMHDataImage host)
      (fun _ w' => Framed [.dataImage, .bmh] w w' ∧ ImageGone host w')
      (fun e w' => Framed [.dataImage, .bmh] w w' ∧ e.aborts = false) w := by
  have hmono : ∀ {w'}, Framed [.dataImage] w w' → Framed [.dataImage, .bmh] w w' :=
    fun h => h.mono (by simp)
  refine Tries.bind (Tries.mono (deleteDataImage_running hr hd) ?_ fun _ _ h => ⟨hmono h.1, h.2⟩)
  rintro o w₁ ⟨hf, hgone, ho⟩
  match o with
  | none => exact tries_pure.2 ⟨hmono hf, hgone⟩
  | some d =>
    refine Tries.bind (tries_attempt (tries_getBMH (hr rfl) ?_ ?_ ?_))
    · intro bmh hbmh
      refine Tries.bind (Tries.mono (Q := fun _ w' => Framed [.dataImage, .bmh] w w' ∧
        ImageGone host w') (R := fun e w' => Framed [.dataImage, .bmh] w w' ∧ e.aborts = false) ?_
        (fun _ _ h => tries_pure.2 h) fun _ _ h => h)
      unfold rebootBMH setAnnotationIfNotExists
      cases hann : bmh.annotations rebootAnnotation with
      | some v => exact tries_pure.2 ⟨hmono hf, hgone⟩
      | none =>
        refine Tries.bind (meets_call fun c r w₂ hc hok =>
          ⟨hb hf (ho d rfl) hgone hbmh hann _ _ _ hc hok, meets_ret.2 ?_⟩)
        have hf₂ : Framed [.bmh] w₁ w₂ := answer_framed hc
        have hf' : Framed [.dataImage, .bmh] w w₂ := (hmono hf).trans (hf₂.mono (by simp))
        have hgone₂ : ImageGone host w₂ := by
          unfold ImageGone
          rw [hf₂.dataImages (by decide)]
          exact hgone
        cases r with
        | error e => exact ⟨hf', answer_patchBMH_error hc⟩
        | ok _ => exact tries_pure.2 ⟨hf', hgone₂⟩
    · exact fun _ => tries_pure.2 ⟨hmono hf, hgone⟩
    · exact fun e => tries_throw.2 ⟨hmono hf, rfl⟩

end Remove

section Cleanup

variable [DecidableEq B] (rules : Guarded E req w₀ ok guar)
include rules

theorem removeBMHDataImage_pass {host : NamespacedName} (hwhy : Discards req host w₀)
    (hw : w.dataImages = w₀.dataImages) :
    Tries (Running ok guar) (removeBMHDataImage host)
      (fun _ w' => Framed [.dataImage, .bmh] w w' ∧ ImageGone host w')
      (fun _ w' => Framed [.dataImage, .bmh] w w') w := by
  refine Tries.mono (removeBMHDataImage_running (fun h => rules.call (.read h))
    (fun d hd => rules.call (.deleteImage hwhy hw hd)) ?_) (fun _ _ h => h) fun _ _ h => h.1
  intro w' d bmh hf hd hgone hb hno
  exact rules.call (.reboot hwhy (hw ▸ hd) hgone hb hno)

theorem removeHostDataImage_pass {s : Spec}
    (hwhy : ∀ host, s.bareMetalHostRef = some host → Discards req host w₀)
    (hw : w.dataImages = w₀.dataImages) :
    Tries (Running ok guar) (removeHostDataImage s)
      (fun _ w' => Framed [.dataImage, .bmh] w w' ∧
        ∀ host, s.bareMetalHostRef = some host → ImageGone host w') (fun _ _ => True) w := by
  unfold removeHostDataImage
  split
  · next h => exact tries_pure.2 ⟨.refl .., fun host hh => by rw [h] at hh; cases hh⟩
  · next key hkey =>
    refine Tries.bind (Tries.mono (tries_wrap (Tries.mono
      (removeBMHDataImage_pass rules (hwhy key hkey) hw) (fun _ _ h => h) ?_))
      (fun _ w₁ h₁ => ?_) fun _ _ h => h)
    · exact fun _ _ _ => trivial
    · refine tries_pure.2 ⟨h₁.1, fun host hh => ?_⟩
      obtain rfl : key = host := Option.some.inj (hkey.symm.trans hh)
      exact h₁.2

theorem removeConfigDir_pass (hs : w.icis req = some ici)
    (hdel : ici.deletionTimestamp.isSome = true) :
    Meets (Running ok guar) (removeConfigDir E req.ns ici.uid).run
      (fun r w' => Framed [.file] w w' ∧ (r = .ok true → DirGone req.ns ici.uid w')) w := by
  refine meets_alone (meets_calls rules (I := fun w' => Framed [.file] w w')
    (removeConfigDir_uses (A := fun op => op.target = .nothing ∨ Tidies E _ op)
      (fun _ h => .inl h) E _ _ fun _ h => .inr h) ?_ ?_ (.refl ..)) ?_
  · rintro w₁ op hf (h | h)
    · exact .read h
    · exact .tidy (by rw [hf.icis (by decide), hs]) hdel h
  · rintro w₁ op c r w₂ hf h hc
    have hf₂ := answer_framed hc
    rcases h with h | h
    · exact hf.trans ((hf₂.of_nothing h).mono (by simp))
    · exact hf.trans (h.target ▸ hf₂)
  · refine Meets.mono (removeConfigDir_spec req.ns ici.uid) fun r w' h => ?_
    rintro rfl
    exact h rfl

/-! ## Removing the finalizer -/

theorem removeFinalizer_pass (hs : w.icis req = some ici)
    (hdel : ici.deletionTimestamp.isSome = true) (hclean : Cleaned req ici w) :
    Tries (Running ok guar) (removeFinalizer req ici) (fun _ _ => True) (fun _ _ => True) w := by
  unfold removeFinalizer
  split
  · refine Tries.seq (Q := fun _ _ => True) (Tries.lift (meets_patchICI
      (rules.call (.removeFinalizer hs hdel hclean)) (fun _ _ => ⟨trivial, fun _ => trivial⟩)
      fun _ => trivial)) ?_
    rintro ⟨_, err⟩ w₁ _
    rw [tries_liftExcept]
    cases err <;> trivial
  · exact tries_pure.2 trivial

/-- An object that is being deleted loses its finalizer only after the cleanup. -/
theorem finalize_pass (hs : w₀.icis req = some ici) (hdel : ici.deletionTimestamp.isSome = true) :
    Tries (Running ok guar) (finalize E req ici) (fun _ _ => True) (fun _ _ => True) w₀ := by
  refine Tries.bind (Meets.mono (removeConfigDir_pass rules hs hdel) ?_)
  rintro (e | removed) w₁ ⟨hf₁, h₁⟩
  · trivial
  cases removed with
  | false => exact tries_pure.2 trivial
  | true =>
    refine Tries.seq (removeHostDataImage_pass rules
      (fun host hh => ⟨ici, hs, hh, .inl hdel⟩) (hf₁.dataImages (by decide))) ?_
    rintro gone w₂ ⟨hf₂, h₂⟩
    cases gone with
    | false => exact tries_pure.2 trivial
    | true =>
      have hs₂ : w₂.icis req = some ici := by
        rw [hf₂.icis (by decide), hf₁.icis (by decide), hs]
      have hclean : Cleaned req ici w₂ := by
        refine ⟨fun p hp => ?_, h₂⟩
        rw [congrFun (hf₂.fs (by decide) (by decide)) p]
        exact h₁ rfl p hp
      exact Tries.seq (removeFinalizer_pass rules hs₂ hdel hclean) fun _ _ _ => tries_pure.2 trivial

/-- A pass goes on past the finalizer only with an object that has it and is not being deleted. -/
theorem handleFinalizer_pass (hs : w₀.icis req = some ici) :
    Meets (Running ok guar) (handleFinalizer E req ici)
      (fun r w' => r.2 = none → r.1 = ici ∧ w' = w₀ ∧ ici.deletionTimestamp = none ∧
        clusterInstallFinalizerName ∈ ici.finalizers) w₀ := by
  unfold handleFinalizer
  split
  · next hdel =>
    split
    · next hf => exact meets_ret.2 fun _ => ⟨rfl, rfl, by simpa using hdel, hf⟩
    · refine Meets.seq (Q := fun _ _ => True) (meets_patchICI
        (rules.call (.addFinalizer hs (by simpa using hdel)))
        (fun _ _ => ⟨trivial, fun _ => trivial⟩) fun _ => trivial) ?_
      exact fun _ _ _ => meets_ret.2 fun h => nomatch h
  · next hdel =>
    have hdel : ici.deletionTimestamp.isSome = true := by
      rw [Option.isSome_iff_ne_none]
      simpa using hdel
    refine Meets.seq (finalize_pass rules hs hdel) fun r w₁ _ => ?_
    cases r with
    | ok res => exact meets_ret.2 fun h => nomatch h
    | error e => exact meets_ret.2 fun h => nomatch h

/-! ## Labels -/

omit rules [DecidableEq B] in
theorem ShownKept.refl (w : World B) : ShownKept w w := fun _ => rfl

omit rules [DecidableEq B] in
theorem ShownKept.trans (h : ShownKept w₀ w) (h' : ShownKept w w') : ShownKept w₀ w' :=
  fun key => (h' key).trans (h key)

omit rules [DecidableEq B] in
theorem ShownKept.of_eq (h : ShownKept w₀ w) (hw : w'.secrets = w.secrets) :
    ShownKept w₀ w' := by
  unfold ShownKept
  rw [hw]
  exact h

omit rules [DecidableEq B] in
/-- A label patch made from the current version of a secret. -/
theorem shown_of_label {key : NamespacedName} {s : Secret B} {labels : String → Option String}
    {c : Choice B} {r : Except Err (Secret B)} (hs : w.secrets key = some s)
    (hl : setBackupLabel s.labels = some labels)
    (hc : answer (.patchSecret key s { s with labels }) c w = (r, w')) :
    ShownKept w w' := by
  intro k
  have hlabel : labels secretResourceLabel = s.labels secretResourceLabel := by
    have hne : secretResourceLabel ≠ backupLabel := by decide
    unfold setBackupLabel at hl
    split_ifs at hl
    rw [← Option.some.inj hl, Function.update_of_ne hne]
  have hstored : ∀ a, w.secrets key = some a →
      w' = w.setSecret key (.merge s { s with labels } a) →
      (w'.secrets k).map Secret.shown = (w.secrets k).map Secret.shown := by
    rintro a ha rfl
    obtain rfl : s = a := Option.some.inj (hs.symm.trans ha)
    by_cases heq : k = key
    · subst heq
      simp [World.setSecret, hs, Secret.shown, Secret.merge, Secret.isCached, hlabel]
    · simp [World.setSecret, heq]
  cases answer_patchSecret hc with
  | stored a ha => exact hstored a ha rfl
  | lost a ha e => exact hstored a ha rfl
  | failed e => rfl

/-- What the labelling of referenced objects leaves alone. -/
structure Labelled (w₀ w : World B) : Prop where
  framed : Framed [.configMap, .secret, .bmh] w₀ w
  hosts : HostsKept w₀ w
  secrets : ShownKept w₀ w

omit rules [DecidableEq B] in
theorem Labelled.of_reads (hf : Framed [] w₀ w) : Labelled w₀ w :=
  ⟨hf.mono (by simp), (HostsKept.refl w₀).of_eq (hf.bmhs (by decide)),
    (ShownKept.refl w₀).of_eq (hf.secrets (by decide))⟩

theorem labelConfigMapForBackup_pass (h : Labelled w₀ w) (key : NamespacedName) :
    Tries (Running ok guar) (labelConfigMapForBackup key) (fun _ w' => Labelled w₀ w')
      (fun _ w' => Labelled w₀ w') w := by
  refine Tries.bind (tries_getConfigMap (rules.call (.read rfl)) ?_ (fun _ => h) fun _ => h)
  intro cm hcm
  cases hl : setBackupLabel cm.labels with
  | none => exact tries_pure.2 h
  | some labels =>
    refine Tries.bind (meets_call fun c r w' hc ho =>
      ⟨rules.call (.labelConfigMap hcm hl) _ _ _ hc ho, meets_ret.2 ?_⟩)
    have hf : Framed [.configMap] w w' := answer_framed hc
    have h' : Labelled w₀ w' := ⟨h.framed.trans (hf.mono (by simp)),
      h.hosts.of_eq (hf.bmhs (by decide)), h.secrets.of_eq (hf.secrets (by decide))⟩
    cases r with
    | error e => exact h'
    | ok _ => exact tries_pure.2 h'

theorem labelSecretForBackup_pass (h : Labelled w₀ w) (key : NamespacedName) :
    Tries (Running ok guar) (labelSecretForBackup key) (fun _ w' => Labelled w₀ w')
      (fun _ w' => Labelled w₀ w') w := by
  refine Tries.bind (tries_getSecret (rules.call (.read rfl)) ?_ (fun _ => h) fun _ => h)
  intro s hs
  have hs : w.secrets key = some s := Option.eq_some_of_filter_eq_some hs
  cases hl : setBackupLabel s.labels with
  | none => exact tries_pure.2 h
  | some labels =>
    refine Tries.bind (meets_call fun c r w' hc ho =>
      ⟨rules.call (.labelSecret hs hl) _ _ _ hc ho, meets_ret.2 ?_⟩)
    have hf : Framed [.secret] w w' := answer_framed hc
    have h' : Labelled w₀ w' := ⟨h.framed.trans (hf.mono (by simp)),
      h.hosts.of_eq (hf.bmhs (by decide)), h.secrets.trans (shown_of_label hs hl hc)⟩
    cases r with
    | error e => exact h'
    | ok _ => exact tries_pure.2 h'

theorem labelBMHForBackup_pass (h : Labelled w₀ w) (key : NamespacedName) :
    Tries (Running ok guar) (labelBMHForBackup key) (fun _ w' => Labelled w₀ w')
      (fun _ w' => Labelled w₀ w') w := by
  refine Tries.bind (tries_getBMH (rules.call (.read rfl)) ?_ (fun _ => h) fun _ => h)
  intro bmh hb
  cases hl : setBackupLabel bmh.labels with
  | none => exact tries_pure.2 h
  | some labels =>
    refine Tries.bind (meets_call fun c r w' hc ho =>
      ⟨rules.call (.labelHost hb hl) _ _ _ hc ho, meets_ret.2 ?_⟩)
    have hset : ∀ stored, w.bmhs key = some stored →
        HostsKept w₀ (w.setBMH key (.merge bmh { bmh with labels } stored)) := by
      intro stored hs
      obtain rfl : bmh = stored := Option.some.inj (hb.symm.trans hs)
      exact h.hosts.setBMH hb (by simp [BareMetalHost.merge, BareMetalHost.inspected])
    have hkept : HostsKept w₀ w' := by
      cases answer_patchBMH hc with
      | stored a ha => exact hset a ha
      | lost a ha e => exact hset a ha
      | failed e => exact h.hosts
    have hf : Framed [.bmh] w w' := answer_framed hc
    have h' : Labelled w₀ w' := ⟨h.framed.trans (hf.mono (by simp)), hkept,
      h.secrets.of_eq (hf.secrets (by decide))⟩
    cases r with
    | error e => exact h'
    | ok _ => exact tries_pure.2 h'

theorem labelReferencedObjectsForBackup_pass (h : Labelled w₀ w) (ns : String) (s : Spec)
    (cd : Option (NamespacedName × ClusterDeployment)) :
    Meets (Running ok guar) (labelReferencedObjectsForBackup ns s cd)
      (fun _ w' => Labelled w₀ w') w := by
  refine Meets.forM _ (fun _ _ h hr => hr ▸ h) (fun target ht w₁ h₁ => ?_) h
  -- the error of a target is ignored
  suffices hrun : Tries (Running ok guar) target (fun _ w' => Labelled w₀ w')
      (fun _ w' => Labelled w₀ w') w₁ by
    refine Meets.seq hrun fun r w₂ hr => meets_ret.2 ?_
    cases r <;> exact hr
  simp only [backupTargets, List.mem_append, List.mem_map, List.mem_flatMap, List.mem_cons] at ht
  rcases ht with (((⟨_, -, rfl⟩ | ⟨_, -, rfl⟩) | ⟨_, -, rfl | ⟨_, -, rfl⟩⟩) | ⟨_, -, rfl⟩) |
    ⟨_, -, rfl | ⟨_, -, rfl⟩⟩
  · exact labelConfigMapForBackup_pass rules h₁ _
  · exact labelConfigMapForBackup_pass rules h₁ _
  · exact labelSecretForBackup_pass rules h₁ _
  · exact labelSecretForBackup_pass rules h₁ _
  · exact labelBMHForBackup_pass rules h₁ _
  · exact labelSecretForBackup_pass rules h₁ _
  · exact labelSecretForBackup_pass rules h₁ _

/-! ## The pass -/

omit rules [DecidableEq B] in
theorem fetchCD_loaded (s : Spec) :
    Meets (Alone ok) (fetchCD req.ns s) (fun cd _ => CDOf req s cd) w := by
  unfold fetchCD
  split
  · exact meets_ret.2 fun _ _ h => nomatch h
  next name hname =>
  have hname : s.clusterDeploymentRef = some name := Option.eq_some_of_filter_eq_some hname
  refine Meets.seq (tries_true (getCD ⟨req.ns, name⟩)) fun r w₁ _ => ?_
  cases r with
  | error e => exact meets_ret.2 fun _ _ h => nomatch h
  | ok cd =>
    refine meets_ret.2 fun key d h => ?_
    cases h
    exact ⟨rfl, hname⟩

theorem handlePostCleanup_pass (hs : w₀.icis req = some ici)
    (hdone : installationCompleted ici = true) (hw : w.dataImages = w₀.dataImages) :
    Meets (Running ok guar) (handlePostCleanup ici).run (fun _ _ => True) w := by
  have htries : Tries (Running ok guar) (handlePostCleanup ici) (fun _ _ => True)
      (fun _ _ => True) w := by
    unfold handlePostCleanup
    split
    · exact tries_pure.2 trivial
    next hasked =>
    split
    · exact tries_pure.2 trivial
    · next host hh =>
      refine Tries.seq (Q := fun _ _ => True) (tries_wrap (Tries.mono (removeBMHDataImage_pass rules
        ⟨ici, hs, hh, .inr ⟨hdone, by simpa using hasked⟩⟩ hw) (fun _ _ _ => trivial)
          fun _ _ _ => trivial)) fun _ w₁ _ => ?_
      refine Tries.bind (tries_attempt (tries_getDataImage (rules.call (.read rfl)) ?_ ?_ ?_))
      · exact fun _ _ => tries_pure.2 trivial
      · exact fun _ => tries_pure.2 trivial
      · exact fun e => tries_throw.2 trivial
  exact Meets.mono htries fun _ _ _ => trivial

/-- The check of a started installation leaves an object in hand unless it is being restored. -/
theorem checkStarted_pass (hs : w₀.icis req = some ici) (hw : w.icis = w₀.icis)
    (hdel : ici.deletionTimestamp = none) (hfin : clusterInstallFinalizerName ∈ ici.finalizers)
    (hrun : installationCompleted ici = false) :
    Meets (Running ok guar) (checkStarted req ici)
      (fun r w' => Framed [.ici] w w' ∧ r.1.spec = ici.spec ∧
        (iciIsBeingRestored r.1 = false → InHand req w₀ w' r.1)) w := by
  have hhand : iciIsBeingRestored ici = false → InHand req w₀ w ici := fun hr =>
    ⟨⟨ici, hs, ⟨hdel, hfin, hrun, hr⟩, rfl, rfl⟩, ⟨ici, by rw [hw, hs], rfl⟩, hdel, hfin⟩
  unfold checkStarted
  split
  · exact meets_ret.2 ⟨.refl .., rfl, hhand⟩
  next hboot =>
  have hhand := hhand (by simp [iciIsBeingRestored, hboot])
  refine Meets.seq (Q := fun ici' w' => Framed [.ici] w w' ∧ InHand req w₀ w' ici' ∧
    ici'.core = ici.core) ?_ ?_
  · unfold restoreRequirementsMet
    split
    · split
      · exact setRequirementsMetCondition_pass rules hhand _ _ _
      · exact meets_ret.2 ⟨.refl .., hhand, rfl⟩
    · exact meets_ret.2 ⟨.refl .., hhand, rfl⟩
  · rintro ici' w₁ ⟨hf₁, h₁, hcore⟩
    refine Meets.seq (meets_reads rules (verifyIsoAndAuthExists_uses (fun _ h => h) _)
      (meets_true _)) ?_
    rintro b w₂ ⟨hf₂, -⟩
    refine meets_ret.2 ⟨hf₁.trans (hf₂.mono (by simp)), (core_eq_iff.1 hcore).2.2.2.2.2.1,
      fun _ => ?_⟩
    exact h₁.of_eq (hf₂.icis (by decide))

omit rules [DecidableEq B] in
/-- What the report of a pass says about the world it ends in. -/
def ReportTrue (E : Env B) (req : NamespacedName) (rep : Report) (w : World B) : Prop :=
  (∃ c, rep.reported = some c ∧ c.status = .true) → ∃ host, Prepared E req host w

omit rules [DecidableEq B] in
theorem reportTrue_of_none {rep : Report} (h : rep.reported = none) : ReportTrue E req rep w := by
  rintro ⟨c, hc, -⟩
  rw [h] at hc
  cases hc

theorem reconcileInstall_pass {cd : Option (NamespacedName × ClusterDeployment)}
    (hs : w₀.icis req = some ici) (hl : Labelled w₀ w)
    (hdel : ici.deletionTimestamp = none) (hfin : clusterInstallFinalizerName ∈ ici.finalizers)
    (hrun : installationCompleted ici = false) (hcd : CDOf req ici.spec cd) :
    Meets (Running ok guar) (reconcileInstall E req ici cd) (ReportTrue E req) w := by
  refine Meets.seq (checkStarted_pass rules hs (hl.framed.icis (by decide)) hdel hfin hrun) ?_
  rintro ⟨ici₁, b⟩ w₁ ⟨hf₁, hspec₁, h₁⟩
  cases b with
  | true => exact meets_ret.2 (reportTrue_of_none rfl)
  | false =>
    dsimp only
    split
    · exact meets_ret.2 (reportTrue_of_none rfl)
    next hrestored =>
    refine Meets.seq (prepare_pass rules (h₁ (by simpa using hrestored))) ?_
    rintro ⟨ici₂, r⟩ w₂ ⟨hf₂, h₂⟩
    match r with
    | .error e => exact meets_ret.2 (reportTrue_of_none rfl)
    | .ok () =>
      obtain ⟨hin₂, hspec₂, ha⟩ := h₂ rfl
      have hf : Framed [.ici] w w₂ := hf₁.trans hf₂
      have hcd₂ : CDOf req ici₂.spec cd := by
        rw [show ici₂.spec = ici.spec from hspec₂.trans hspec₁]
        exact hcd
      refine reportPhases_pass rules hin₂ hcd₂ ha (hl.hosts.of_eq (hf.bmhs (by decide))) ?_
      rw [hf.fs (by decide) (by decide), hl.framed.fs (by decide) (by decide)]

/-- Every call of a pass meets the guarantee, and a pass that reports its requirements as met ends
with everything in place. -/
theorem reconcile_guarded : Meets (Running ok guar) (reconcile E req) (ReportTrue E req) w₀ := by
  refine Meets.seq (Q := Outcome (fun ici w' => w' = w₀ ∧ w₀.icis req = some ici)
    fun _ _ => True) ?_ ?_
  · exact tries_getICI (rules.call (.read rfl)) (fun _ h => ⟨rfl, h⟩) (fun _ => trivial)
      fun _ => trivial
  rintro (e | ici) w₁ hs
  · exact meets_ret.2 (reportTrue_of_none rfl)
  obtain ⟨rfl, hs⟩ := hs
  refine Meets.seq (handleFinalizer_pass rules hs) ?_
  rintro ⟨ici', r⟩ w₂ h₂
  match r with
  | some (result, err) => exact meets_ret.2 (reportTrue_of_none rfl)
  | none =>
    obtain ⟨rfl, rfl, hdel, hfin⟩ := h₂ rfl
    refine Meets.seq (meets_reads rules (fetchCD_uses (fun _ h => h) _ _) (fetchCD_loaded _)) ?_
    rintro cd w₃ ⟨hf₃, hcd⟩
    refine Meets.seq (labelReferencedObjectsForBackup_pass rules (.of_reads hf₃) _ _ _)
      fun _ w₄ hl₄ => ?_
    split
    · next hdone =>
      refine Meets.seq (handlePostCleanup_pass rules hs hdone (hl₄.framed.dataImages (by decide)))
        fun r w₅ _ => ?_
      cases r <;> exact meets_ret.2 (reportTrue_of_none rfl)
    · next hrun => exact reconcileInstall_pass rules hs hl₄ hdel hfin (by simpa using hrun) hcd

end Cleanup

/-- Every call of a pass is in the inventory, or is one of the build's calls on files and
secrets. -/
theorem reconcile_calls [DecidableEq B] (E : Env B) (req : NamespacedName) (w₀ : World B) :
    Meets (Running ok fun w op _ _ => PassCall E req w₀ w op ∨
      op.target ∈ [.nothing, .file, .secret, .iso]) (reconcile E req) (ReportTrue E req) w₀ :=
  reconcile_guarded (.of_calls (fun hop _ _ _ _ _ => .inl hop) fun ht _ _ _ _ _ => .inr ht)

/-! ## The inventory -/

theorem IciStep.removeFinalizer (hs : w.icis req = some ici) (hclean : Cleaned req ici w) :
    IciStep E req w (w.setICI req (ImageClusterInstall.merge ici { ici with
      finalizers := ici.finalizers.filter (· ≠ clusterInstallFinalizerName) } ici).remains) := by
  constructor
  · intro k ici' hk
    by_cases heq : k = req
    · subst heq
      have hk : (ImageClusterInstall.merge ici { ici with
          finalizers := ici.finalizers.filter (· ≠ clusterInstallFinalizerName) } ici).remains =
          some ici' := by simpa [World.setICI] using hk
      unfold ImageClusterInstall.remains at hk
      split at hk
      · cases hk
      · obtain rfl := Option.some.inj hk
        exact ⟨ici, hs, rfl, Spec.merge_configured rfl _, rfl, .inl rfl⟩
    · exact ⟨ici', by simpa [World.setICI, heq] using hk, rfl, rfl, rfl, .inl rfl⟩
  · intro k ici' hk hf
    by_cases heq : k = req
    · subst heq
      obtain rfl : ici = ici' := Option.some.inj (hs.symm.trans hk)
      exact .inr ⟨rfl, hclean.directory, hclean.dataImage⟩
    · exact .inl ⟨ici', by simpa [World.setICI, heq] using hk, hf⟩

theorem IsoStep.write {stored : ImageClusterInstall} {i : IsoImage B} {s : Spec}
    (hs : w.icis req = some stored) (hspec : s.configured = stored.spec.configured) :
    IsoStep req w (w.setEntry (isoFile req.ns stored.uid) (some (.iso i s))) := by
  intro p i' b hp
  simp only [World.setEntry, Function.update_apply] at hp
  split at hp
  · next heq =>
    cases hp
    exact .inr ⟨stored, hs, heq, hspec⟩
  · exact .inl hp

/-- Every call of a pass is in the inventory. -/
theorem passStep_of_call {op : Op B} {c : Choice B} {r : Resp op} (h : PassCall E req w₀ w op)
    (hc : answer op c w = (r, w')) : PassStep E req w w' := by
  cases h with
  | read ht => exact passStep_of_quiet hc (quiet_of_target (by simp [ht]))
  | tidy hs hdel h => exact passStep_of_quiet hc (quiet_of_target (by simp [h.target]))
  | addFinalizer hs hdel => exact passStep_of_quiet hc ⟨rfl, by simp⟩
  | annotate h => exact passStep_of_quiet hc ⟨rfl, h.finalizer⟩
  | describe h => exact passStep_of_quiet hc ⟨rfl, h.finalizer⟩
  | deleteImage => exact passStep_of_quiet hc trivial
  | labelConfigMap => exact passStep_of_quiet hc trivial
  | labelSecret => exact passStep_of_quiet hc trivial
  | labelHost => exact passStep_of_quiet hc rfl
  | disableCleaning => exact passStep_of_quiet hc rfl
  | provision => exact passStep_of_quiet hc rfl
  | conditions => exact passStep_of_quiet hc rfl
  | reboot hwhy hd hgone hb hno =>
    have hne : ibioManagedBMH ≠ rebootAnnotation := by decide
    refine passStep_of_quiet hc ?_
    simp [Op.Quiet, Function.update_of_ne hne]
  | @removeFinalizer ici hs hdel hclean =>
    refine .of_framed (answer_framed hc) (fun _ => ?_) (by simp [Op.target]) (by simp [Op.target])
      (by simp [Op.target])
    have hstep : ∀ stored, w.icis req = some stored → IciStep E req w
        (w.setICI req (ImageClusterInstall.merge ici { ici with
          finalizers := ici.finalizers.filter (· ≠ clusterInstallFinalizerName) }
            stored).remains) := by
      intro stored hs'
      obtain rfl : ici = stored := Option.some.inj (hs.symm.trans hs')
      exact .removeFinalizer hs hclean
    cases answer_patchICI hc with
    | stored a ha => exact hstep a ha
    | lost a ha e => exact hstep a ha
    | failed e => exact .of_eq rfl
  | @createImage ici host h href =>
    have hframe := answer_framed hc
    obtain ⟨stored, hs, hcore⟩ := h.synced
    obtain ⟨huid, -, -, hfins, -, hspec, -⟩ := core_eq_iff.1 hcore
    refine .of_framed hframe (by simp [Op.target]) (by simp [Op.target]) (fun _ => ?_)
      (by simp [Op.target])
    have hs' : w'.icis req = some stored := by rw [hframe.icis (by simp [Op.target]), hs]
    obtain ⟨t, -, -, rfl⟩ | ⟨e, t, -, -, rfl⟩ := answer_createDataImage hc
    · intro k d' hd'
      by_cases heq : k = host
      · subst heq
        obtain rfl : { url := imageURL E req.ns ici.uid, creationTimestamp := t } = d' := by
          simpa [World.setDataImage] using hd'
        refine .inr (.inr ⟨stored, hs', by rw [huid], by rw [hspec, href], ?_⟩)
        rw [hfins]
        exact h.finalizer
      · exact .inl (by simpa [World.setDataImage, heq] using hd')
    · exact .of_eq rfl
  | @manage ici host bmh d h hprep hb hnew =>
    refine .of_framed (answer_framed hc) (by simp [Op.target]) (fun _ => ?_) (by simp [Op.target])
      (by simp [Op.target])
    have hstep : ∀ stored, w.bmhs host = some stored →
        HostStep E req w (w.setBMH host (.merge bmh (bmh.booted d) stored)) := by
      intro stored hs'
      obtain rfl : bmh = stored := Option.some.inj (hb.symm.trans hs')
      obtain ⟨bmh', hb', hmode, hext⟩ := hprep.hostReady
      obtain rfl : bmh = bmh' := Option.some.inj (hb.symm.trans hb')
      rw [merge_booted]
      rintro k ⟨bmh'', hb'', hm⟩
      by_cases heq : k = host
      · subst heq
        exact .inr (hprep.setBMH hmode hext)
      · exact .inl ⟨bmh'', by simpa [World.setBMH, heq] using hb'', hm⟩
    cases answer_patchBMH hc with
    | stored a ha => exact hstep a ha
    | lost a ha e => exact hstep a ha
    | failed e => exact .of_eq rfl
  | @boot ici host t h href hprep hman hnew ht =>
    refine .of_framed (answer_framed hc) (fun _ => ?_) (by simp [Op.target]) (by simp [Op.target])
      (by simp [Op.target])
    cases answer_patchICIStatus hc with
    | stored a ha => exact .patchStatus ha (.inr ⟨rfl, host, hprep.setStatus ha rfl, hman⟩)
    | lost a ha e => exact .patchStatus ha (.inr ⟨rfl, host, hprep.setStatus ha rfl, hman⟩)
    | failed e => exact .of_eq rfl

variable [DecidableEq B]

/-- A build writes the ISO of the stored object, and is quiet otherwise. -/
theorem meets_build {inp : BuildInput} {uid : String} (h : BuildStart E req w₀ w inp uid) :
    Meets (Pass E req ok) (writeInputData E inp uid).run (fun _ _ => True) w := by
  obtain ⟨ici, hin, hspec, rfl, -⟩ := h.object
  obtain ⟨stored, hs, hcore⟩ := hin.synced
  obtain ⟨huid, -, -, -, -, hstored, -⟩ := core_eq_iff.1 hcore
  have huses := writeInputData_uses
      (A := fun op => op.Quiet ∧ op.target ∈ [.nothing, .file, .secret] ∨
        ∃ i, op = .writeIso (isoFile req.ns ici.uid) i inp.spec)
    (fun op h => .inl (quiet_in (by decide) (by decide) op h))
    (fun op h => .inl (quiet_in (by decide) (by decide) op h))
    (fun op h => .inl (quiet_in (by decide) (by decide) op h)) E inp ici.uid
    fun i => .inr ⟨i, by rw [h.ns]; rfl⟩
  refine meets_beside huses ?_ ?_
  · rintro op (⟨-, ht⟩ | ⟨i, rfl⟩)
    · exact ne_of_mem_of_not_mem ht (by decide)
    · simp [Op.target]
  rintro w₁ op (⟨hq, -⟩ | ⟨i, rfl⟩) hI c r w₂ hc -
  · exact passStep_of_quiet hc hq
  · have hs₁ : w₁.icis req = some stored := by rw [hI, hs]
    refine .of_framed (answer_framed hc) ?_ ?_ ?_ fun _ => ?_
    · simp [Op.target]
    · simp [Op.target]
    · simp [Op.target]
    · rw [← huid, hspec] at hc
      obtain ⟨-, rfl⟩ | ⟨_, -, rfl | ⟨_, rfl⟩⟩ := answer_writeIso hc
      · exact .write hs₁ (by rw [hstored])
      · exact fun _ _ _ h => .inl h
      · exact .write hs₁ (by rw [hstored])

/-- Every call of a pass is in the inventory, and a pass that reports its requirements as met ends
with everything in place. -/
theorem reconcile_pass (E : Env B) (req : NamespacedName) (w : World B) :
    Meets (Pass E req ok) (reconcile E req) (ReportTrue E req) w :=
  reconcile_guarded ⟨fun h _ _ _ hc _ => passStep_of_call h hc, meets_build⟩

end ImageBasedInstall

import ImageBasedInstall.Verify.SmoothSite

/-!
# Labels for backup

Every pass labels the objects that the installation refers to, so that a backup takes them along.
When no call fails, one round labels all of them that exist (`Labelling.round`), and a round over
objects that are labelled already changes nothing.
-/

namespace ImageBasedInstall

open Interactive

variable {B : Type}

/-- The object carries the label for backup, if it is there. -/
def Marked {β : Type} (labels : β → String → Option String) (stored : NamespacedName → Option β)
    (key : NamespacedName) : Prop :=
  ∀ b, stored key = some b → labels b backupLabel = some "true"

/-- An object that a pass labels. -/
inductive Labelling where
  | configMap (key : NamespacedName)
  | secret (key : NamespacedName)
  | host (key : NamespacedName)

namespace Labelling

def act : Labelling → Act B Unit
  | configMap key => labelConfigMapForBackup key
  | secret key => labelSecretForBackup key
  | host key => labelBMHForBackup key

def Done (w : World B) : Labelling → Prop
  | configMap key => Marked ConfigMap.labels w.configMaps key
  | secret key => Marked Secret.labels w.secrets key
  | host key => Marked BareMetalHost.labels w.bmhs key

/-- What one labelling does: nothing but labels changes, the object is labelled, no such label gets
lost, and one that is there is not written again. -/
structure Labels (t : Labelling) (w w' : World B) : Prop where
  relabelled : Relabelled w w'
  done : t.Done w'
  kept : ∀ t' : Labelling, t'.Done w → t'.Done w'
  idle : t.Done w → w' = w

variable {w : World B} {t : Labelling}

theorem Labels.refl (h : t.Done w) : t.Labels w w := ⟨.refl w, h, fun _ h => h, fun _ => rfl⟩

end Labelling

section Stored

variable {β : Type} {labels : β → String → Option String} {stored : NamespacedName → Option β}
  {key : NamespacedName} {old new : β}

theorem marked_of_none (h : stored key = none) : Marked labels stored key := by
  intro b hb
  cases h.symm.trans hb

theorem marked_of_some (h : stored key = some old) (hold : labels old backupLabel = some "true") :
    Marked labels stored key := by
  intro b hb
  obtain rfl := Option.some.inj (h.symm.trans hb)
  exact hold

theorem Marked.update (hnew : labels new backupLabel = some "true") {k : NamespacedName}
    (h : k = key ∨ Marked labels stored k) :
    Marked labels (Function.update stored key (some new)) k := by
  by_cases hk : k = key
  · subst hk
    exact marked_of_some (Function.update_self ..) hnew
  · intro b hb
    rw [Function.update_of_ne hk] at hb
    exact h.resolve_left hk b hb

end Stored

/-! ## One labelling -/

section Acts

variable {w : World B}

theorem setBackupLabel_cases (labels : String → Option String) :
    (labels backupLabel = some "true" ∧ setBackupLabel labels = none) ∨
      ∃ labels', labels backupLabel ≠ some "true" ∧ setBackupLabel labels = some labels' ∧
        labels' backupLabel = some "true" ∧ ∀ k, k ≠ backupLabel → labels' k = labels k := by
  by_cases h : labels backupLabel = some "true"
  · exact .inl ⟨h, if_pos h⟩
  · exact .inr ⟨_, h, if_neg h, Function.update_self .., fun _ hk => Function.update_of_ne hk ..⟩

theorem labelConfigMapForBackup_labels (key : NamespacedName) :
    Tries (Alone smooth) (labelConfigMapForBackup key)
      (fun _ w' => (Labelling.configMap key).Labels w w')
      (fun _ w' => (Labelling.configMap key).Labels w w') w := by
  refine Tries.bind (smooth_getConfigMap.2 ?_)
  cases hcm : w.configMaps key with
  | none => exact .refl (marked_of_none hcm)
  | some cm =>
    dsimp only [orNotFound, Outcome]
    rcases setBackupLabel_cases cm.labels with ⟨hlabel, heq⟩ | ⟨labels, hlabel, heq, hlabels, -⟩
    · rw [heq]
      exact tries_pure.2 (.refl (marked_of_some hcm hlabel))
    · rw [heq]
      have hnew : ConfigMap.labels { cm with labels } backupLabel = some "true" := hlabels
      refine Tries.bind ((smooth_patchConfigMap hcm).2
        (tries_pure.2 ⟨.configMap hcm labels, ?_, fun t' h => ?_, fun h => ?_⟩))
      · exact Marked.update hnew (.inl rfl)
      · cases t' with
        | configMap k => exact Marked.update hnew (.inr h)
        | secret k => exact h
        | host k => exact h
      · exact absurd (h cm hcm) hlabel

theorem labelSecretForBackup_labels (key : NamespacedName) :
    Tries (Alone smooth) (labelSecretForBackup key)
      (fun _ w' => (Labelling.secret key).Labels w w')
      (fun _ w' => (Labelling.secret key).Labels w w') w := by
  refine Tries.bind (smooth_getSecret.2 ?_)
  cases hs : w.secrets key with
  | none => exact .refl (marked_of_none hs)
  | some s =>
    simp only [Option.filter, Bool.not_false, Bool.true_or, if_true, orNotFound, Outcome]
    rcases setBackupLabel_cases s.labels with ⟨hlabel, heq⟩ | ⟨labels, hlabel, heq,
      hlabels, hothers⟩
    · rw [heq]
      exact tries_pure.2 (.refl (marked_of_some hs hlabel))
    · rw [heq]
      have hnew : Secret.labels { s with labels } backupLabel = some "true" := hlabels
      refine Tries.bind ((smooth_patchSecret hs).2
        (tries_pure.2 ⟨.secret hs (hothers _ (by decide)), ?_, fun t' h => ?_, fun h => ?_⟩))
      · exact Marked.update hnew (.inl rfl)
      · cases t' with
        | configMap k => exact h
        | secret k => exact Marked.update hnew (.inr h)
        | host k => exact h
      · exact absurd (h s hs) hlabel

theorem labelBMHForBackup_labels (key : NamespacedName) :
    Tries (Alone smooth) (labelBMHForBackup key)
      (fun _ w' => (Labelling.host key).Labels w w')
      (fun _ w' => (Labelling.host key).Labels w w') w := by
  refine Tries.bind (smooth_getBMH.2 ?_)
  cases hbmh : w.bmhs key with
  | none => exact .refl (marked_of_none hbmh)
  | some bmh =>
    dsimp only [orNotFound, Outcome]
    rcases setBackupLabel_cases bmh.labels with ⟨hlabel, heq⟩ | ⟨labels, hlabel, heq, hlabels, -⟩
    · rw [heq]
      exact tries_pure.2 (.refl (marked_of_some hbmh hlabel))
    · rw [heq]
      have hnew : BareMetalHost.labels { bmh with labels } backupLabel = some "true" := hlabels
      refine Tries.bind ((smooth_patchBMH hbmh ?_).2
        (tries_pure.2 ⟨.host hbmh labels, ?_, fun t' h => ?_, fun h => ?_⟩))
      · exact ⟨rfl, rfl, rfl, rfl⟩
      · exact Marked.update hnew (.inl rfl)
      · cases t' with
        | configMap k => exact h
        | secret k => exact h
        | host k => exact Marked.update hnew (.inr h)
      · exact absurd (h bmh hbmh) hlabel

theorem Labelling.act_labels (t : Labelling) :
    Meets (Alone smooth) t.act.ignore (fun _ w' => t.Labels w w') w := by
  have hact : Tries (Alone smooth) t.act (fun _ w' => t.Labels w w')
      (fun _ w' => t.Labels w w') w := by
    cases t with
    | configMap key => exact labelConfigMapForBackup_labels key
    | secret key => exact labelSecretForBackup_labels key
    | host key => exact labelBMHForBackup_labels key
  refine Meets.bind (Meets.mono hact ?_)
  intro r w' h
  cases r with
  | error e => exact meets_ret.2 h
  | ok _ => exact meets_ret.2 h

end Acts

/-! ## A round -/

/-- The objects that an installation refers to. -/
def labellings (ns : String) (s : Spec) (cd : Option (NamespacedName × ClusterDeployment)) :
    List Labelling :=
  (s.caBundleRef.toList.map fun name => .configMap ⟨ns, name⟩) ++
  (s.extraManifestsRefs.items.map fun name => .configMap ⟨ns, name⟩) ++
  (cd.toList.flatMap fun (key, cd) =>
    .secret (seedReconfigurationSecret.key key) ::
      cd.pullSecretRef.toList.map fun name => .secret ⟨key.ns, name⟩) ++
  (s.bareMetalHostRef.toList.map .host) ++
  (s.clusterMetadata.toList.flatMap fun m =>
    .secret ⟨ns, m.adminKubeconfigSecretRef⟩ ::
      m.adminPasswordSecretRef.toList.map fun name => .secret ⟨ns, name⟩)

section Round

variable {w : World B}

theorem backupTargets_eq (ns : String) (s : Spec)
    (cd : Option (NamespacedName × ClusterDeployment)) :
    (backupTargets ns s cd : List (Act B Unit)) = (labellings ns s cd).map Labelling.act := by
  simp [backupTargets, labellings, List.map_flatMap, Labelling.act, Function.comp_def]

theorem Labelling.round (ts : List Labelling) :
    Meets (Alone smooth) ((ts.map Labelling.act).forM Act.ignore) (fun _ w' =>
      Relabelled w w' ∧ (∀ t ∈ ts, t.Done w') ∧ (∀ t : Labelling, t.Done w → t.Done w') ∧
        ((∀ t ∈ ts, t.Done w) → w' = w)) w := by
  induction ts generalizing w with
  | nil => exact meets_ret.2 ⟨.refl w, by simp, fun _ h => h, fun _ => rfl⟩
  | cons t ts ih =>
    refine Meets.seq (t.act_labels) fun _ w₁ h₁ => (ih (w := w₁)).mono fun _ w₂ h₂ => ?_
    obtain ⟨hrelabelled, hdone, hkept, hidle⟩ := h₂
    refine ⟨h₁.relabelled.trans hrelabelled, fun t' ht' => ?_, fun t' h => hkept t' (h₁.kept t' h),
      fun hall => ?_⟩
    · rcases List.mem_cons.1 ht' with rfl | ht'
      · exact hkept _ h₁.done
      · exact hdone t' ht'
    · obtain rfl := h₁.idle (hall t (List.mem_cons_self ..))
      exact hidle fun t' ht' => hall t' (List.mem_cons_of_mem _ ht')

/-- The cluster deployment of a spec, as a pass finds it. -/
def fetchedCD (ns : String) (s : Spec) (w : World B) :
    Option (NamespacedName × ClusterDeployment) :=
  (s.clusterDeploymentRef.filter (· ≠ "")).bind fun name =>
    (w.cds ⟨ns, name⟩).map fun cd => (⟨ns, name⟩, cd)

theorem fetchCD_smooth (ns : String) (s : Spec) :
    Meets (Alone smooth) (fetchCD ns s) (fun cd w' => cd = fetchedCD ns s w ∧ w' = w) w := by
  unfold fetchCD fetchedCD
  cases s.clusterDeploymentRef.filter (· ≠ "") with
  | none => exact meets_ret.2 ⟨rfl, rfl⟩
  | some name =>
    refine Meets.bind (smooth_getCD.2 ?_)
    rw [Option.bind_some]
    cases w.cds ⟨ns, name⟩ with
    | none => exact meets_ret.2 ⟨rfl, rfl⟩
    | some cd => exact meets_ret.2 ⟨rfl, rfl⟩

/-- All objects that the installation refers to are labelled. -/
def AllLabelled (key : NamespacedName) (w : World B) : Prop :=
  ∀ ici, w.icis key = some ici →
    ∀ t ∈ labellings key.ns ici.spec (fetchedCD key.ns ici.spec w), t.Done w

theorem labelReferencedObjectsForBackup_rounds (ns : String) (s : Spec)
    (cd : Option (NamespacedName × ClusterDeployment)) :
    Meets (Alone smooth) (labelReferencedObjectsForBackup ns s cd) (fun _ w' => Relabelled w w' ∧
      (∀ t ∈ labellings ns s cd, t.Done w') ∧
      ((∀ t ∈ labellings ns s cd, t.Done w) → w' = w)) w := by
  have hround := Labelling.round (w := w) (labellings ns s cd)
  rw [← backupTargets_eq] at hround
  exact hround.mono fun _ _ h => ⟨h.1, h.2.1, h.2.2.2⟩

theorem labelReferencedObjectsForBackup_relabels (ns : String) (s : Spec)
    (cd : Option (NamespacedName × ClusterDeployment)) :
    Meets (Alone smooth) (labelReferencedObjectsForBackup ns s cd)
      (fun _ w' => Relabelled w w') w :=
  (labelReferencedObjectsForBackup_rounds ns s cd).mono fun _ _ h => h.1

/-- The labelling of a pass over a stored object. -/
theorem labelReferencedObjectsForBackup_labels {key : NamespacedName} {ici : ImageClusterInstall}
    (h : w.icis key = some ici) :
    Meets (Alone smooth)
      (labelReferencedObjectsForBackup key.ns ici.spec (fetchedCD key.ns ici.spec w))
      (fun _ w' => Relabelled w w' ∧ AllLabelled key w' ∧ (AllLabelled key w → w' = w)) w := by
  refine (labelReferencedObjectsForBackup_rounds ..).mono ?_
  intro _ w' hround
  obtain ⟨hrelabelled, hdone, hidle⟩ := hround
  refine ⟨hrelabelled, fun ici' h' => ?_, fun hall => hidle (hall ici h)⟩
  -- the object and its cluster deployment are the same as before
  rw [hrelabelled.framed.icis (by decide), h] at h'
  obtain rfl := Option.some.inj h'
  unfold fetchedCD at hdone ⊢
  rw [hrelabelled.framed.cds]
  exact hdone

end Round

end ImageBasedInstall

import ImageBasedInstall.Verify.Boot

/-!
# Who a data image belongs to

A `DataImage` is stored under its host, carries the URL of the object it was made for, and is found
again by whichever object names the host next. As long as no update takes an object away from a host
that still has its `DataImage`, every `DataImage` that stays belongs to the object that names its
host (`Owned`): a host then boots its own configuration only, and the removal of the finalizer
leaves nothing behind.
-/

namespace ImageBasedInstall

open Interactive

variable {B : Type} [DecidableEq B] {E : Env B} {w w' : World B}

/-- Every `DataImage` that is not marked was made for a stored object that names its host and still
has its finalizer. -/
def Owned (E : Env B) (w : World B) : Prop :=
  ∀ host d, w.dataImages host = some d → d.deletionTimestamp = none →
    ∃ k ici, w.icis k = some ici ∧ d.url = imageURL E k.ns ici.uid ∧
      ici.spec.bareMetalHostRef = some host ∧ clusterInstallFinalizerName ∈ ici.finalizers

/-- An update does not take its object away from a host that has the object's `DataImage`. -/
def KeepsImage (E : Env B) (w : World B) : Event B → Prop
  | .update key spec => ∀ ici host d, w.icis key = some ici →
    ici.spec.bareMetalHostRef = some host → w.dataImages host = some d →
    d.deletionTimestamp = none → d.url = imageURL E key.ns ici.uid →
    spec.bareMetalHostRef = some host
  | _ => True

/-! ## The invariant -/

omit [DecidableEq B] in
theorem owned_pass {req : NamespacedName} (hs : PassStep E req w w') (h : Owned E w) :
    Owned E w' := by
  intro host d hd hdel
  rcases hs.dataImages host d hd with hold | ⟨_, -, -, hmark⟩ | ⟨ici, hici, hurl, href, hfin⟩
  · -- the image was there: its owner keeps the finalizer, unless it was cleaned up
    obtain ⟨k, ici, hici, hurl, href, hfin⟩ := h host d hold hdel
    rcases hs.icis.finalizer k ici hici hfin with ⟨ici', hici', hfin'⟩ | ⟨rfl, hclean⟩
    · obtain ⟨ici₀, hici₀, huid, hspec, -⟩ := hs.icis.kept k ici' hici'
      obtain rfl : ici = ici₀ := Option.some.inj (hici.symm.trans hici₀)
      refine ⟨k, ici', hici', by rw [huid, hurl], ?_, hfin'⟩
      rw [Spec.bareMetalHostRef_eq_of_configured hspec, href]
    · have hgone := hclean.dataImage host href d hd
      rw [hdel] at hgone
      cases hgone
  · rw [hdel] at hmark
    cases hmark
  · exact ⟨req, ici, hici, hurl, href, hfin⟩

omit [DecidableEq B] in
/-- The owner of an image is looked up in a world with one object changed. -/
theorem Owned.setICI {key : NamespacedName} {new : Option ImageClusterInstall} (h : Owned E w)
    (hnew : ∀ host d ici, w.dataImages host = some d → d.deletionTimestamp = none →
      w.icis key = some ici → d.url = imageURL E key.ns ici.uid →
      ici.spec.bareMetalHostRef = some host → clusterInstallFinalizerName ∈ ici.finalizers →
      ∃ ici', new = some ici' ∧ ici'.uid = ici.uid ∧ ici'.spec.bareMetalHostRef = some host ∧
        clusterInstallFinalizerName ∈ ici'.finalizers) :
    Owned E (w.setICI key new) := by
  intro host d hd hdel
  obtain ⟨k, ici, hici, hurl, href, hfin⟩ := h host d hd hdel
  by_cases heq : k = key
  · subst heq
    obtain ⟨ici', rfl, huid, href', hfin'⟩ := hnew host d ici hd hdel hici hurl href hfin
    exact ⟨k, ici', by simp [World.setICI], by rw [huid, hurl], href', hfin'⟩
  · exact ⟨k, ici, by simpa [World.setICI, heq] using hici, hurl, href, hfin⟩

theorem reached_owned (h : Reached E (KeepsImage E) w) : Owned E w := by
  refine reached_invariant h ?_ (fun _ _ _ => owned_pass) ?_ ?_ ?_ ?_
  · intro w hw host d hd
    rw [hw.dataImages host] at hd
    cases hd
  · intro w key ici hf hI
    refine hI.setICI fun _ _ _ _ _ hici => ?_
    rw [hf.absent] at hici
    cases hici
  · intro w key ici spec hici _ hC hI
    refine hI.setICI fun host d stored hd hdel hs hurl href hfin => ?_
    obtain rfl : ici = stored := Option.some.inj (hici.symm.trans hs)
    exact ⟨_, rfl, rfl, hC ici host d hici href hd hdel hurl, hfin⟩
  · intro w key ici hici hI
    refine hI.setICI fun host d stored hd hdel hs hurl href hfin => ?_
    obtain rfl : ici = stored := Option.some.inj (hici.symm.trans hs)
    exact ⟨_, deleted_of_finalizers (List.ne_nil_of_mem hfin), rfl, href, hfin⟩
  · intro w w' ho hI host d' hd' hdel'
    obtain ⟨d, hd, hurl, hmark⟩ := ho.dataImages host d' hd'
    have hdel : d.deletionTimestamp = none := by
      by_contra hne
      have := hmark (Option.isSome_iff_ne_none.2 hne)
      rw [hdel'] at this
      cases this
    obtain ⟨k, ici, hici, hurl', href, hfin⟩ := hI host d hd hdel
    exact ⟨k, ici, ho.icis ▸ hici, by rw [hurl, hurl'], href, hfin⟩

/-! ## A host boots its own configuration -/

/-- At most one object names a given host. -/
def OneOwner (w : World B) : Prop :=
  ∀ k k' ici ici' host, w.icis k = some ici → w.icis k' = some ici' →
    ici.spec.bareMetalHostRef = some host → ici'.spec.bareMetalHostRef = some host → k = k'

/-- The object names the host, whose `DataImage` has the object's own image URL. -/
def HasOwnImage (E : Env B) (req host : NamespacedName) (w : World B) : Prop :=
  ∃ ici d, w.icis req = some ici ∧ ici.spec.bareMetalHostRef = some host ∧
    w.dataImages host = some d ∧ d.url = imageURL E req.ns ici.uid

omit [DecidableEq B] in
theorem OneOwner.of_kept (h : OneOwner w)
    (hk : ∀ k ici', w'.icis k = some ici' → ∃ ici, w.icis k = some ici ∧
      ici'.spec.bareMetalHostRef = ici.spec.bareMetalHostRef) : OneOwner w' := by
  intro k k' a b host ha hb href href'
  obtain ⟨a₀, ha₀, hra⟩ := hk k a ha
  obtain ⟨b₀, hb₀, hrb⟩ := hk k' b hb
  exact h k k' a₀ b₀ host ha₀ hb₀ (hra ▸ href) (hrb ▸ href')

omit [DecidableEq B] in
theorem oneOwner_pass {req : NamespacedName} (hs : PassStep E req w w') (h : OneOwner w) :
    OneOwner w' :=
  h.of_kept fun k ici' hk => by
    obtain ⟨ici, hici, -, hspec, -⟩ := hs.icis.kept k ici' hk
    exact ⟨ici, hici, Spec.bareMetalHostRef_eq_of_configured hspec⟩

omit [DecidableEq B] in
/-- With everything in place, the image on the host is the object's own: it stays, so it has an
owner, and the only object that names the host is this one. -/
theorem Prepared.hasOwnImage {req host : NamespacedName} (h : Prepared E req host w)
    (hown : Owned E w) (hone : OneOwner w) : HasOwnImage E req host w := by
  obtain ⟨⟨ici, cdName, hici, hobj, -⟩, -, d, hd, hdel, -⟩ := h
  obtain ⟨k, owner, howner, hurl, href, -⟩ := hown host d hd hdel
  obtain rfl : k = req := hone k req owner ici host howner hici href hobj.hostRef
  obtain rfl : owner = ici := Option.some.inj (howner.symm.trans hici)
  exact ⟨owner, d, hici, href, hd, hurl⟩

/-- The host an object names. -/
def World.hostOf (w : World B) (k : NamespacedName) : Option NamespacedName :=
  (w.icis k).bind (·.spec.bareMetalHostRef)

omit [DecidableEq B] in
/-- With few objects this is a matter of comparing the hosts they name. -/
theorem OneOwner.of_storedIn {ks : List NamespacedName} (h : StoredIn ks w)
    (hks : ∀ k ∈ ks, ∀ k' ∈ ks, k = k' ∨ w.hostOf k = none ∨ w.hostOf k ≠ w.hostOf k') :
    OneOwner w := by
  intro k k' ici ici' host hici hici' href href'
  have hk : w.hostOf k = some host := by simp [World.hostOf, hici, href]
  have hk' : w.hostOf k' = some host := by simp [World.hostOf, hici', href']
  rcases hks k (h k ici hici) k' (h k' ici' hici') with heq | hn | hne
  · exact heq
  · rw [hk] at hn
    cases hn
  · exact absurd (hk.trans hk'.symm) hne

/-- Whenever a pass makes a host managed, sets a boot time, or reports at its end that the
requirements are met, the `DataImage` of the host is the object's own. -/
theorem boots_own_configuration (hreach : Reached E (KeepsImage E) w) (hone : OneOwner w)
    (req : NamespacedName) (cs : List (Choice B)) :
    (∀ t ∈ (reconcile E req).trace answer cs w,
      (∀ host, ¬Managed host t.before → Managed host t.after → HasOwnImage E req host t.after) ∧
      ∀ k ici ici', t.before.icis k = some ici → t.after.icis k = some ici' →
        ici'.status.bootTime ≠ ici.status.bootTime →
        ∃ host, ici'.spec.bareMetalHostRef = some host ∧ HasOwnImage E k host t.after) ∧
    ∀ rep c, ((reconcile E req).exec answer cs w).2 = some rep → rep.reported = some c →
      c.status = .true → ∃ host, HasOwnImage E req host ((reconcile E req).exec answer cs w).1 := by
  have hI : ∀ w w', PassStep E req w w' → Owned E w ∧ OneOwner w → Owned E w' ∧ OneOwner w' :=
    fun w w' hs h => ⟨owned_pass hs h.1, oneOwner_pass hs h.2⟩
  have hw : Owned E w ∧ OneOwner w := ⟨reached_owned hreach, hone⟩
  constructor
  · intro t ht
    have hstep := passStep_of_trace ht
    obtain ⟨hown, hone'⟩ := hI _ _ hstep (pass_before hI hw ht)
    constructor
    · intro host hbefore hafter
      exact ((hstep.hosts host hafter).resolve_left hbefore).hasOwnImage hown hone'
    · intro k ici ici' hici hici' hboot
      obtain ⟨stored, hs, -, -, -, hb⟩ := hstep.icis.kept k ici' hici'
      obtain rfl : ici = stored := Option.some.inj (hici.symm.trans hs)
      obtain ⟨rfl, host, hprep, -⟩ := hb.resolve_left hboot
      obtain ⟨ici₁, d, hici₁, href, hd⟩ := hprep.hasOwnImage hown hone'
      obtain rfl : ici₁ = ici' := Option.some.inj (hici₁.symm.trans hici')
      exact ⟨host, href, ici₁, d, hici₁, href, hd⟩
  · intro rep c hrep hc hstatus
    obtain ⟨host, hprep⟩ := pass_reported hrep hc hstatus
    obtain ⟨hown, hone'⟩ := pass_after hI hw
    exact ⟨host, hprep.hasOwnImage hown hone'⟩

instance (E : Env B) (req host : NamespacedName) (w : World B) :
    Decidable (HasOwnImage E req host w) :=
  decidable_of_iff ((w.icis req).any fun ici => decide (ici.spec.bareMetalHostRef = some host) &&
    (w.dataImages host).any fun d => decide (d.url = imageURL E req.ns ici.uid)) (by
      simp only [HasOwnImage, Option.any_eq_true, Bool.and_eq_true, decide_eq_true_eq]
      constructor
      · rintro ⟨ici, hici, href, d, hd, hurl⟩
        exact ⟨ici, d, hici, href, hd, hurl⟩
      · rintro ⟨ici, d, hici, href, hd, hurl⟩
        exact ⟨ici, hici, href, d, hd, hurl⟩)

theorem boots_own_configuration_sample :
    let w := samplePass sampleKey slowly sampleStart
    ∃ t ∈ (reconcile Env.symbolic sampleKey).trace answer slowly w,
      ¬Managed sampleHost t.before ∧ Managed sampleHost t.after ∧
      HasOwnImage Env.symbolic sampleKey sampleHost t.after := by
  intro w
  have hreach : Reached Env.symbolic (KeepsImage Env.symbolic) w :=
    (sampleStart_reached trivial trivial).pass sampleKey slowly trivial
  have hone : OneOwner w :=
    .of_storedIn (sampleStart_storedIn.pass sampleKey slowly) (by decide +kernel)
  have hboots : ∃ t ∈ (reconcile Env.symbolic sampleKey).trace answer slowly w,
      ¬Managed sampleHost t.before ∧ Managed sampleHost t.after := by decide +kernel
  obtain ⟨t, ht, hbefore, hafter⟩ := hboots
  exact ⟨t, ht, hbefore, hafter,
    ((boots_own_configuration hreach hone sampleKey slowly).1 t ht).1 sampleHost hbefore hafter⟩

/-- The first object after its `DataImage` was made, and then moved to the second host. -/
def imageMade : World Doc :=
  samplePass sampleKey instantly (samplePass sampleKey instantly sampleStart)

def movedAway : World Doc := imageMade.edit sampleKey (.moveTo otherHost)

/-- The other object is given the first host, and boots it with the first object's image, although
no host was ever named by two objects. -/
theorem boots_other_configuration :
    ∃ w, Reached Env.symbolic (fun w _ => OneOwner w) w ∧ OneOwner w ∧
      ∃ t ∈ (reconcile Env.symbolic otherKey).trace answer slowly w,
        ¬Managed sampleHost t.before ∧ Managed sampleHost t.after ∧
        ¬HasOwnImage Env.symbolic otherKey sampleHost t.after := by
  have hs₁ := sampleStart_storedIn.pass (E := Env.symbolic) sampleKey instantly
  have hs₂ : StoredIn [sampleKey, otherKey] imageMade := hs₁.pass sampleKey instantly
  have hs₃ : StoredIn [sampleKey, otherKey] movedAway := hs₂.edit sampleKey _
  have hs₄ := hs₃.edit otherKey (.moveTo sampleHost)
  have hs₅ := hs₄.pass (E := Env.symbolic) otherKey slowly
  refine ⟨_, ?_, .of_storedIn hs₅ (by decide +kernel), by decide +kernel⟩
  refine Reached.pass ?_ otherKey slowly (.of_storedIn hs₄ (by decide +kernel))
  refine Reached.edit ?_ (by decide +kernel) fun _ _ => .of_storedIn hs₃ (by decide +kernel)
  refine Reached.edit ?_ (by decide +kernel) fun _ _ => .of_storedIn hs₂ (by decide +kernel)
  refine Reached.pass ?_ sampleKey instantly (.of_storedIn hs₁ (by decide +kernel))
  refine Reached.pass ?_ sampleKey instantly (.of_storedIn sampleStart_storedIn (by decide +kernel))
  exact sampleStart_reached (fun _ _ _ _ _ h => nomatch h)
    (.of_storedIn sampleFirst_storedIn (by decide +kernel))

/-! ## The finalizer goes last -/

/-- When a pass removes the finalizer of an object, the object's directory is gone, and no host has
a `DataImage` with the object's URL that is not marked for deletion. -/
theorem finalizer_removed_clean (hreach : Reached E (KeepsImage E) w) (req : NamespacedName)
    (cs : List (Choice B)) :
    ∀ t ∈ (reconcile E req).trace answer cs w, ∀ k ici, t.before.icis k = some ici →
      clusterInstallFinalizerName ∈ ici.finalizers →
      (∀ ici', t.after.icis k = some ici' → clusterInstallFinalizerName ∉ ici'.finalizers) →
      DirGone k.ns ici.uid t.after ∧
      ∀ host d, t.after.dataImages host = some d → d.url = imageURL E k.ns ici.uid →
        d.deletionTimestamp.isSome = true := by
  intro t ht k ici hici hfin hremoved
  have hI : ∀ w w', PassStep E req w w' → Owned E w ∧ DistinctUIDs w →
      Owned E w' ∧ DistinctUIDs w' :=
    fun w w' hs h => ⟨owned_pass hs h.1, distinctUIDs_pass hs h.2⟩
  have hstep := passStep_of_trace ht
  obtain ⟨hown, huids⟩ := pass_before hI ⟨reached_owned hreach, reached_distinctUIDs hreach⟩ ht
  rcases hstep.icis.finalizer k ici hici hfin with ⟨ici', hici', hfin'⟩ | ⟨rfl, hclean⟩
  · exact absurd hfin' (hremoved ici' hici')
  refine ⟨hclean.directory, fun host d hd hurl => ?_⟩
  rcases hstep.dataImages host d hd with hold | ⟨_, -, -, hmark⟩ | ⟨ici', hici', -, -, hfin'⟩
  · by_contra hmark
    -- an image that stays has an owner, and the URL says that it is this object
    have hdel : d.deletionTimestamp = none := by simpa using hmark
    obtain ⟨k', owner, howner, hurl', href, -⟩ := hown host d hold hdel
    obtain ⟨hns, huid⟩ := huids.noSlash k ici hici
    obtain ⟨-, heq⟩ := imageURL_inj hns huid (hurl.symm.trans hurl')
    obtain rfl : k = k' := huids.uids k k' ici owner hici howner heq
    obtain rfl : ici = owner := Option.some.inj (hici.symm.trans howner)
    exact hmark (hclean.dataImage host href d hd)
  · exact hmark
  · exact absurd hfin' (hremoved ici' hici')

theorem finalizer_removed_clean_sample :
    let w := samplePass sampleKey instantly (imageMade.deleteICI sampleKey)
    ∃ t ∈ (reconcile Env.symbolic sampleKey).trace answer instantly w, ∃ ici,
      t.before.icis sampleKey = some ici ∧ t.after.icis sampleKey = none ∧
      DirGone sampleKey.ns ici.uid t.after := by
  intro w
  have hreach : Reached Env.symbolic (KeepsImage Env.symbolic) w := by
    refine Reached.pass (Reached.delete ?_ (by decide +kernel) trivial) sampleKey instantly trivial
    exact ((sampleStart_reached trivial trivial).pass sampleKey instantly trivial).pass sampleKey
      instantly trivial
  have hremoves : ∃ t ∈ (reconcile Env.symbolic sampleKey).trace answer instantly w,
      ((t.before.icis sampleKey).any fun ici =>
        decide (clusterInstallFinalizerName ∈ ici.finalizers)) ∧
      (t.after.icis sampleKey).isNone := by decide +kernel
  obtain ⟨t, ht, hbefore, hafter⟩ := hremoves
  obtain ⟨ici, hici, hfin⟩ := (Option.any_eq_true _ _).1 hbefore
  have hnone : t.after.icis sampleKey = none := Option.isNone_iff_eq_none.1 hafter
  refine ⟨t, ht, ici, hici, hnone,
    (finalizer_removed_clean hreach sampleKey instantly t ht sampleKey ici hici
      (by simpa using hfin) fun ici' h => ?_).1⟩
  rw [hnone] at h
  cases h

/-- The object is deleted after it was moved: its finalizer goes while its `DataImage` stays on the
first host. -/
theorem finalizer_removed_image_left :
    ∃ w, Reached Env.symbolic (fun _ _ => True) w ∧
      ∃ t ∈ (reconcile Env.symbolic sampleKey).trace answer instantly w,
        ((t.before.icis sampleKey).any fun ici =>
          decide (clusterInstallFinalizerName ∈ ici.finalizers)) ∧
        (t.after.icis sampleKey).isNone ∧ (t.after.bmhs sampleHost).isSome ∧
        (t.after.dataImages sampleHost).any fun d =>
          decide (d.url = imageURL Env.symbolic sampleKey.ns sampleICI.uid) &&
            d.deletionTimestamp.isNone := by
  refine ⟨movedAway.deleteICI sampleKey, ?_, by decide +kernel⟩
  refine Reached.delete (Reached.edit ?_ (by decide +kernel) fun _ _ => trivial)
    (by decide +kernel) trivial
  exact ((sampleStart_reached trivial trivial).pass sampleKey instantly trivial).pass sampleKey
    instantly trivial

end ImageBasedInstall

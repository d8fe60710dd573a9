import ImageBasedInstall.Verify.Branches
import ImageBasedInstall.Verify.IdentityBuild

/-!
# A cluster keeps its identity

Runs over one cluster deployment: the object is created, reconciled, deleted and created again, work
directories get lost, and nobody else touches the three identity secrets. If the installer draws the
stored password in every reinstall, the identity is kept. It does not: the vendored installer draws
a new password in every run, which then replaces the stored one, and the manifest keeps the hash of
the old one.
-/

namespace ImageBasedInstall

open Interactive

variable {B : Type} [DecidableEq B]

/-! ## Passes -/

section Pass

variable {E : Env B} {cd req : NamespacedName} {w₀ w : World B} {inp : BuildInput} {uid : String}
  {ici : ImageClusterInstall}

omit [DecidableEq B] in
/-- An object has one cluster deployment. -/
theorem Refers.eq {cd' : NamespacedName} (h : Refers cd req ici) (h' : Refers cd' req ici) :
    cd = cd' := by
  have hname : cd.name = cd'.name := Option.some.inj (h.2.symm.trans h'.2)
  have hns : cd.ns = cd'.ns := h.1.symm.trans h'.1
  cases cd
  cases cd'
  simp_all

omit [DecidableEq B] in
/-- A build is for the cluster deployment of the object, which is as it was when the pass read
it. -/
theorem BuildStart.refers (h : BuildStart E req w₀ w inp uid) :
    (∃ ici, w₀.icis req = some ici ∧ ici.uid = uid ∧ Refers inp.cdKey req ici) ∧
    ∃ ici, w.icis req = some ici ∧ ici.uid = uid ∧ Refers inp.cdKey req ici := by
  obtain ⟨ici, hin, -, rfl, hready⟩ := h.object
  obtain ⟨ici₀, hici₀, -, huid₀, hconf⟩ := hin.origin
  obtain ⟨stored, hstored, hcore⟩ := hin.synced
  have hspec : stored.spec = ici.spec := (core_eq_iff.1 hcore).2.2.2.2.2.1
  refine ⟨⟨ici₀, hici₀, huid₀.symm, h.cdNs.symm, ?_⟩,
    ⟨stored, hstored, (core_eq_iff.1 hcore).1, h.cdNs.symm, ?_⟩⟩
  · rw [← clusterDeploymentRef_eq_of_configured hconf]
    exact hready.cdRef
  · rw [hspec]
    exact hready.cdRef

/-- A pass over an object of the cluster deployment. -/
theorem reconcile_keeps (hE : E.Lawful) (hI : IdentityKept E cd w₀) (hici : w₀.icis req = some ici)
    (href : Refers cd req ici) :
    Meets (Running (Steady E cd (getClusterConfigDir req.ns ici.uid))
      fun w _ _ w' => Preserves E cd w w') (reconcile E req) (ReportTrue E req) w₀ := by
  refine Meets.assume (I := IdentityKept E cd) ?_ (fun _ _ _ _ _ hg => hg.kept) hI
  refine reconcile_guarded ⟨fun hop c r w' hc hok =>
    (bystands_of_call hok.1.uids hop hc).preserves hok.1, fun {w inp uid} hstart => ?_⟩
  obtain ⟨⟨ici₀, hici₀, huid₀, href₀⟩, ⟨stored, hstored, huid, hrefs⟩⟩ := hstart.refers
  obtain rfl : ici = ici₀ := Option.some.inj (hici.symm.trans hici₀)
  obtain rfl := href.eq href₀
  rw [huid₀]
  refine Meets.given (I := IdentityKept E inp.cdKey) nofun (fun _ _ _ hok => hok.1) fun hI₁ => ?_
  rw [← hstart.ns]
  refine writeInputData_keeps hE ?_
  have ho := hI₁.ownDir hstored hrefs
  rwa [huid, ← hstart.ns] at ho

/-- A pass over another object. -/
theorem reconcile_elsewhere (hI : IdentityKept E cd w₀)
    (hother : ∀ ici, w₀.icis req = some ici → ¬Refers cd req ici) :
    Meets (Running (fun _ _ _ _ => True) fun w _ _ w' => Preserves E cd w w') (reconcile E req)
      (ReportTrue E req) w₀ := by
  refine Meets.assume (I := IdentityKept E cd) ?_ (fun _ _ _ _ _ hg => hg.kept) hI
  refine reconcile_guarded ⟨fun hop c r w' hc hok =>
    (bystands_of_call hok.1.uids hop hc).preserves hok.1, fun {w inp uid} hstart => ?_⟩
  obtain ⟨⟨ici₀, hici₀, -, href₀⟩, ⟨stored, hstored, huid, hrefs⟩⟩ := hstart.refers
  have hne : inp.cdKey ≠ cd := by
    rintro rfl
    exact hother ici₀ hici₀ href₀
  refine Meets.given (I := IdentityKept E cd) nofun (fun _ _ _ hok => hok.1) fun hI₁ => ?_
  refine writeInputData_elsewhere (fun _ _ _ _ hok => hok.1) hne ?_
  rintro k ici hk href ⟨-, huidk⟩
  obtain rfl := hI₁.uids.uids k req ici stored hk hstored (huidk.trans huid.symm)
  obtain rfl : ici = stored := Option.some.inj (hk.symm.trans hstored)
  exact hne (hrefs.eq href)

end Pass

/-! ## Runs -/

/-- Nobody else changes the identity secrets of the cluster deployment, it has one object at a time,
and no object is moved from or to it. -/
def LeavesIdentity (cd : NamespacedName) (w : World B) : Event B → World B → Prop
  | .create key ici, _ => Refers cd key ici → ∀ k other, w.icis k = some other → ¬Refers cd k other
  | .update key spec, _ => ∀ ici, w.icis key = some ici →
    spec.clusterDeploymentRef = ici.spec.clusterDeploymentRef
  | .others, w' => ∀ kind ∈ identitySecrets, w'.secrets (kind.key cd) = w.secrets (kind.key cd)
  | .pass .., _ => True
  | .delete _, _ => True

/-- Runs over the cluster deployment, from a world without an identity or with a coherent one. -/
abbrev IdentityRun (E : Env B) (cd : NamespacedName) (C : World B → Event B → Prop) :
    World B → Prop :=
  Reaches (fun w ev w' => Event.Fires E w ev w' ∧ LeavesIdentity cd w ev w') C
    fun w => Initial w ∧ SecretsKept E cd w

/-- The installer and the file system are steady in passes over objects of the cluster
deployment. -/
def SteadyPass (E : Env B) (cd : NamespacedName) (w : World B) : Event B → Prop
  | .pass req cs => ∀ ici, w.icis req = some ici → Refers cd req ici →
    TraceOk answer (Steady E cd (getClusterConfigDir req.ns ici.uid)) (reconcile E req) cs w
  | _ => True

section Runs

variable {E : Env B} {cd key : NamespacedName} {ici : ImageClusterInstall} {w w' : World B}

theorem IdentityKept.pass (hE : E.Lawful) (h : IdentityKept E cd w) {req : NamespacedName}
    {cs : List (Choice B)} (hC : SteadyPass E cd w (.pass req cs)) :
    IdentityKept E cd ((reconcile E req).exec answer cs w).1 := by
  by_cases href : ∃ ici, w.icis req = some ici ∧ Refers cd req ici
  · obtain ⟨ici, hici, href⟩ := href
    exact (reconcile_keeps hE h hici href).last cs (hC ici hici href)
      (fun _ _ _ _ _ hg => hg.kept) h
  · have hother : ∀ ici, w.icis req = some ici → ¬Refers cd req ici := fun ici hici hr =>
      href ⟨ici, hici, hr⟩
    exact (reconcile_elsewhere h hother).last cs (traceOk_true cs) (fun _ _ _ _ _ hg => hg.kept) h

omit [DecidableEq B] in
/-- The work directory of a new object is empty. -/
theorem IdentityKept.create (h : IdentityKept E cd w) (hf : Fresh E key ici w)
    (hnew : Refers cd key ici → ∀ k other, w.icis k = some other → ¬Refers cd k other) :
    IdentityKept E cd (w.setICI key (some ici)) := by
  have hold : ∀ k a, k ≠ key → (w.setICI key (some ici)).icis k = some a → w.icis k = some a := by
    intro k a hk ha
    simpa [World.setICI, hk] using ha
  have hself : ∀ a, (w.setICI key (some ici)).icis key = some a → a = ici := by
    intro a ha
    simpa [World.setICI, eq_comm] using ha
  refine ⟨h.uids.create hf, fun k k' a b ha hb hra hrb => ?_, h.secrets, fun k a ha hra => ?_⟩
  · by_cases hk : k = key <;> by_cases hk' : k' = key
    · rw [hk, hk']
    · subst hk
      obtain rfl := hself a ha
      exact absurd hrb (hnew hra k' b (hold k' b hk' hb))
    · subst hk'
      obtain rfl := hself b hb
      exact absurd hra (hnew hrb k a (hold k a hk ha))
    · exact h.single k k' a b (hold k a hk ha) (hold k' b hk' hb) hra hrb
  · by_cases hk : k = key
    · subst hk
      obtain rfl := hself a ha
      exact .inl ⟨isoPath, by decide, hf.files _ rfl⟩
    · exact (h.dirs k a (hold k a hk ha) hra).of_outputs rfl fun _ _ => .inl rfl

omit [DecidableEq B] in
/-- An object may change as long as its UID and its reference stay. -/
theorem bystands_setICI {new : Option ImageClusterInstall} (huids : DistinctUIDs w)
    (hici : w.icis key = some ici)
    (hnew : ∀ ici', new = some ici' → ici'.uid = ici.uid ∧
      ici'.spec.clusterDeploymentRef = ici.spec.clusterDeploymentRef) :
    Bystands E cd w (w.setICI key new) where
  uids := huids.setICI hici fun ici' h => (hnew ici' h).1
  payloads _ _ := rfl
  icis k ici' hk href := by
    by_cases heq : k = key
    · subst heq
      obtain ⟨huid, hcd⟩ := hnew ici' (by simpa [World.setICI] using hk)
      exact ⟨ici, hici, ⟨href.1, hcd ▸ href.2⟩, huid⟩
    · exact ⟨ici', by simpa [World.setICI, heq] using hk, href, rfl⟩
  outputs _ _ _ _ _ _ := .inl rfl

omit [DecidableEq B] in
theorem bystands_others (huids : DistinctUIDs w) (ho : Others w w')
    (hkeeps : ∀ kind ∈ identitySecrets, w'.secrets (kind.key cd) = w.secrets (kind.key cd)) :
    Bystands E cd w w' := by
  refine .of_icis huids ho.icis (fun kind hkind => payload_of_eq (hkeeps kind hkind)) ?_
  intro k ici _ _ file _
  cases hfs : w'.fs ((getClusterConfigDir k.ns ici.uid).join file) with
  | none => exact .inr rfl
  | some e => exact .inl (ho.files _ e hfs).symm

theorem IdentityRun.kept (hE : E.Lawful) (h : IdentityRun E cd (SteadyPass E cd) w) :
    IdentityKept E cd w := by
  refine h.invariant (fun w hw => ?_) fun w ev w' hI hC hs => ?_
  · obtain ⟨hinit, hsecrets⟩ := hw
    have hnone : ∀ k ici, w.icis k ≠ some ici := fun k ici hk => by
      rw [hinit.icis k] at hk
      cases hk
    exact ⟨⟨fun k ici hk => absurd hk (hnone k ici), fun k _ ici _ hk => absurd hk (hnone k ici)⟩,
      fun k _ ici _ hk => absurd hk (hnone k ici), hsecrets,
      fun k ici hk => absurd hk (hnone k ici)⟩
  · obtain ⟨hfires, hkeeps⟩ := hs
    cases ev with
    | pass req cs =>
      cases hfires
      exact hI.pass hE hC
    | create key ici =>
      obtain ⟨hf, -, rfl⟩ := hfires
      exact hI.create hf hkeeps
    | update key spec =>
      obtain ⟨ici, hici, -, rfl⟩ := hfires
      refine ((bystands_setICI hI.uids hici fun ici' h => ?_).preserves hI).kept
      obtain rfl := Option.some.inj h
      exact ⟨rfl, hkeeps ici hici⟩
    | delete key =>
      obtain ⟨ici, hici, rfl⟩ := hfires
      refine ((bystands_setICI hI.uids hici fun ici' h => ?_).preserves hI).kept
      rw [deleted_eq h]
      exact ⟨rfl, rfl⟩
    | others => exact ((bystands_others hI.uids hfires hkeeps).preserves hI).kept

/-- What a successful call leaves of an identity that was stored before it. -/
theorem writeInputData_identity (hE : E.Lawful) (hI : IdentityKept E cd w) {inp : BuildInput}
    {cs : List (Choice B)} {v : World B} {id : IdentityData B} (hici : w.icis key = some ici)
    (href : Refers cd key ici) (hns : inp.ns = key.ns) (hcd : inp.cdKey = cd)
    (hsteady : TraceOk answer (Steady E cd (getClusterConfigDir key.ns ici.uid))
      (writeInputData E inp ici.uid).run cs w)
    (hexec : (writeInputData E inp ici.uid).run.exec answer cs w = (v, some (.ok {})))
    (hid : w.identity E cd = some id) :
    ∃ id', v.identity E cd = some id' ∧ SameIdentity E id id' ∧
      HashOf E id'.kubeadminPassword id'.seedReconfig ∧
      ∃ image s, v.fs (isoFile key.ns ici.uid) = some (.iso image s) ∧
        SameCrypto E id.seedReconfig image.manifest := by
  subst hcd
  rw [← hns] at hsteady ⊢
  have ho := hI.ownDir hici href
  rw [← hns] at ho
  have hkeeps : Meets (Running (Steady E inp.cdKey (getClusterConfigDir inp.ns ici.uid))
      fun w _ _ w' => Preserves E inp.cdKey w w') (writeInputData E inp ici.uid).run
      (fun _ _ => True) w :=
    (writeInputData_keeps hE ho).assume (fun _ _ _ _ _ hg => hg.kept) hI
  have hlast := hkeeps.last cs hsteady (I := fun w' => IdentityKept E inp.cdKey w' ∧
    ∃ id', w'.identity E inp.cdKey = some id' ∧ SameIdentity E id id')
    (fun w₁ op r w₂ h₁ hg => by
      obtain ⟨-, id₁, hid₁, hsame₁⟩ := h₁
      obtain ⟨id₂, hid₂, hsame₂⟩ := hg.identity id₁ hid₁
      exact ⟨hg.kept, id₂, hid₂, hsame₁.trans hsame₂⟩)
    ⟨hI, id, hid, .refl (hI.secrets.hash hid)⟩
  rw [hexec] at hlast
  obtain ⟨hkept, id', hid', hsame⟩ := hlast
  refine ⟨id', hid', hsame, hkept.secrets.hash hid', ?_⟩
  -- the outputs are all there, so they fit the identity
  have hspec : Tries (Alone fun _ _ _ _ => True) (writeInputData E inp ici.uid) _ _ w :=
    writeInputData_spec E inp ici.uid
  have hready := hspec.exec cs (traceOk_true cs) (congrArg Prod.snd hexec)
  rw [hexec] at hready
  have hcomplete := (hready rfl).complete
  have hframed : Meets (Atomic (fun _ _ _ _ => True) (Framed [.nothing, .file, .secret, .iso]))
      (writeInputData E inp ici.uid).run
      (fun _ w' => Framed [.nothing, .file, .secret, .iso] w w') w :=
    meets_framed (writeInputData_targets E inp ici.uid)
  have hframe := hframed.exec cs (traceOk_true cs) (congrArg Prod.snd hexec)
  rw [hexec] at hframe
  rcases hkept.dirKept (ho.of_icis (hframe.icis (by decide))) with hmissing | ⟨t, hfits, htoward⟩
  · exact absurd hmissing hcomplete
  · obtain ⟨e, he⟩ := Option.isSome_iff_exists.1 (hready rfl).iso
    obtain ⟨image, s, rfl, himage⟩ := htoward.image he
    exact ⟨image, s, he, himage ▸ hsame.crypto.trans (hfits.agrees id' hid').crypto⟩

end Runs

/-- In every run whose passes are steady, a stored seed reconfiguration has a hash of the stored
password, and a successful `writeInputData` for the object of the cluster deployment that finds an
identity leaves it: the same kubeconfig and password, and the same password hash and crypto in the
seed reconfiguration and in the manifest of the image. A pass may be cut at any call, so the worlds
in which passes call `writeInputData` are reached. -/
theorem identity_preserved (E : Env B) (hE : E.Lawful) (cd : NamespacedName) (w : World B)
    (h : IdentityRun E cd (SteadyPass E cd) w) :
    (∀ id, w.identity E cd = some id → HashOf E id.kubeadminPassword id.seedReconfig) ∧
    ∀ key ici inp cs v id, w.icis key = some ici → Refers cd key ici → inp.ns = key.ns →
      inp.cdKey = cd →
      TraceOk answer (Steady E cd (getClusterConfigDir key.ns ici.uid))
        (writeInputData E inp ici.uid).run cs w →
      (writeInputData E inp ici.uid).run.exec answer cs w = (v, some (.ok {})) →
      w.identity E cd = some id →
      ∃ id', v.identity E cd = some id' ∧ SameIdentity E id id' ∧
        HashOf E id'.kubeadminPassword id'.seedReconfig ∧
        ∃ image s, v.fs (isoFile key.ns ici.uid) = some (.iso image s) ∧
          SameCrypto E id.seedReconfig image.manifest := by
  have hI := h.kept hE
  refine ⟨fun id hid => hI.secrets.hash hid, ?_⟩
  intro key ici inp cs v id hici href hns hcd hsteady hexec hid
  exact writeInputData_identity hE hI hici href hns hcd hsteady hexec hid

/-! ## A reinstall after the loss of the work directory -/

section Scenario

omit [DecidableEq B]

/-- The first object, before its first pass and after it. -/
def createdWorld : World Doc := sampleWorld.setICI sampleKey (some sampleICI)
def preparedWorld : World Doc := samplePass sampleKey slowly createdWorld

/-- Two passes have built the image, and the work directory is lost. -/
def lostWorld : World Doc := { samplePass sampleKey slowly preparedWorld with fs := fun _ => none }

/-- The build of the stored object. -/
def storedInput (w : World Doc) : BuildInput :=
  { sampleInput none with
    spec := ((w.icis sampleKey).map ImageClusterInstall.spec).getD sampleICI.spec }

def rewrite (cs : List (Choice Doc)) : World Doc × Option (Except Err Result) :=
  (writeInputData Env.symbolic (storedInput lostWorld) "8f2c").run.exec answer cs lostWorld

/-- The installer draws another password. -/
def redrawn : List (Choice Doc) :=
  List.replicate 200 { draw := ⟨"new", "salt", ⟨"", "", "", "", "", ""⟩, "", "", ""⟩ }

theorem lostWorld_reached {C : World Doc → Event Doc → Prop}
    (hcreate : C sampleWorld (.create sampleKey sampleICI))
    (hfirst : C createdWorld (.pass sampleKey slowly))
    (hsecond : C preparedWorld (.pass sampleKey slowly))
    (hothers : C (samplePass sampleKey slowly preparedWorld) .others) :
    IdentityRun Env.symbolic sampleKey C lostWorld := by
  have hstart : IdentityRun Env.symbolic sampleKey C sampleWorld :=
    .start ⟨sampleWorld_initial, .inl (by decide +kernel)⟩
  have hfresh : Fresh Env.symbolic sampleKey sampleICI sampleWorld :=
    sampleWorld_initial.fresh (by decide) rfl rfl
  have hcreated : IdentityRun Env.symbolic sampleKey C createdWorld :=
    .next hstart hcreate ⟨⟨hfresh, rfl, rfl⟩, fun _ _ _ h => nomatch h⟩
  have hprepared : IdentityRun Env.symbolic sampleKey C preparedWorld :=
    .next hcreated hfirst ⟨rfl, trivial⟩
  have hbuilt : IdentityRun Env.symbolic sampleKey C (samplePass sampleKey slowly preparedWorld) :=
    .next hprepared hsecond ⟨rfl, trivial⟩
  have hlost : Others (samplePass sampleKey slowly preparedWorld) lostWorld :=
    ⟨rfl, fun _ d hd => ⟨d, hd, rfl, id⟩, fun _ _ h => (nomatch h), Int.le_refl _⟩
  exact .next hbuilt hothers ⟨hlost, fun _ _ => rfl⟩

theorem lostWorld_stored : ∃ ici, lostWorld.icis sampleKey = some ici ∧ ici.uid = "8f2c" ∧
    ici.spec.clusterDeploymentRef = some sampleKey.name := by
  have hstored : (lostWorld.icis sampleKey).any fun ici => decide (ici.uid = "8f2c" ∧
      ici.spec.clusterDeploymentRef = some sampleKey.name) := by decide +kernel
  obtain ⟨ici, hici, hstored⟩ := (Option.any_eq_true _ _).1 hstored
  exact ⟨ici, hici, of_decide_eq_true hstored⟩

/-- A call that succeeds while the stored password is the one that is drawn. -/
theorem steady_of_ok {op : Op Doc} {c : Choice Doc} {w : World Doc}
    {cd : NamespacedName} (dir : Path) (hc : c.ending = .ok ∧ c.draw.password = "pw")
    (hid : (w.identity Env.symbolic cd).all (fun id => id.kubeadminPassword == .text "pw") = true) :
    Steady Env.symbolic cd dir w op (answer op c w).1 (answer op c w).2 := by
  refine ⟨?_, clears_of_ok dir hc.1, fun file hfile e he => .inr (.inl ?_)⟩
  · cases op with
    | drawAssets =>
      refine ⟨by simp [answer, hc.2], fun _ id hsome => ?_⟩
      rw [hsome] at hid
      have hpw : id.kubeadminPassword = .text "pw" := by simpa using hid
      simp [answer, hc.2, hpw, Env.symbolic]
    | _ => trivial
  · cases op with
    | writeFile path content | writeIso path image builtFrom =>
      obtain ⟨rfl, rfl⟩ := Prod.mk.inj (Option.some.inj he)
      simp [answer, Choice.write, hc.1, World.setEntry]
    | _ => cases he

theorem steady_trace {α : Type} {p : Program Doc α} {cs : List (Choice Doc)} {w : World Doc}
    {cd : NamespacedName} (dir : Path) (hcs : ∀ c ∈ cs, c.ending = .ok ∧ c.draw.password = "pw")
    (hids : ∀ t ∈ p.trace answer cs w,
      (t.before.identity Env.symbolic cd).all
      (fun id => id.kubeadminPassword == .text "pw") = true) :
    TraceOk answer (Steady Env.symbolic cd dir) p cs w := by
  intro t ht
  have hsteady : Steady Env.symbolic cd dir t.before t.op (answer t.op t.choice t.before).1 _ :=
    steady_of_ok dir (hcs _ (trace_choice answer ht)) (hids t ht)
  rwa [trace_answer answer ht] at hsteady

theorem identity_preserved_sample :
    ∃ id id', lostWorld.identity Env.symbolic sampleKey = some id ∧
      (rewrite slowly).1.identity Env.symbolic sampleKey = some id' ∧
      SameIdentity Env.symbolic id id' ∧
      HashOf Env.symbolic id'.kubeadminPassword id'.seedReconfig := by
  have hcs : ∀ c ∈ slowly, c.ending = .ok ∧ c.draw.password = "pw" := by
    intro c hc
    rw [List.eq_of_mem_replicate hc]
    exact ⟨rfl, rfl⟩
  have hreach : IdentityRun Env.symbolic sampleKey (SteadyPass Env.symbolic sampleKey)
      lostWorld := by
    refine lostWorld_reached trivial (fun _ _ _ => steady_trace _ hcs ?_)
      (fun _ _ _ => steady_trace _ hcs ?_) trivial
    · decide +kernel
    · decide +kernel
  obtain ⟨ici, hici, huid, href⟩ := lostWorld_stored
  have hsome : (lostWorld.identity Env.symbolic sampleKey).isSome = true := by decide +kernel
  obtain ⟨id, hid⟩ := Option.isSome_iff_exists.1 hsome
  have hdone : (rewrite slowly).2 = some (.ok {}) := by decide +kernel
  have hsteady : TraceOk answer
      (Steady Env.symbolic sampleKey (getClusterConfigDir "spokes" ici.uid))
      (writeInputData Env.symbolic (storedInput lostWorld) ici.uid).run slowly lostWorld := by
    rw [huid]
    refine steady_trace _ hcs ?_
    decide +kernel
  have hexec : (writeInputData Env.symbolic (storedInput lostWorld) ici.uid).run.exec answer slowly
      lostWorld = ((rewrite slowly).1, some (.ok {})) := by
    rw [huid]
    exact Prod.ext rfl hdone
  obtain ⟨id', hid', hsame, hhash, -⟩ :=
    (identity_preserved Env.symbolic Env.symbolic_lawful sampleKey lostWorld hreach).2 sampleKey ici
    (storedInput lostWorld) slowly _ id hici ⟨rfl, href⟩ rfl rfl hsteady hexec hid
  exact ⟨id, id', hid, hid', hsame, hhash⟩

/-- The hash of one password is not one of the other. -/
theorem not_hashOf_new {seed : Doc}
    (hseed : (Env.symbolic.unmarshalSeed seed).map SeedReconfiguration.kubeadminPasswordHash =
      some "hash of pw with salt") : ¬HashOf Env.symbolic (.text "new") seed := by
  rintro ⟨pw, salt, s, hpw, hs, hhash⟩
  obtain rfl : "new" = pw := Doc.text.inj hpw
  rw [hs, Option.map_some, hhash] at hseed
  have hlist := congrArg String.toList (Option.some.inj hseed)
  simp [Env.symbolic, String.toList_append] at hlist

/-- The work directory is lost and the installer draws another password. The call succeeds, stores
that password, and leaves the hash of the old one in the seed reconfiguration. -/
theorem reinstall_replaces_password :
    IdentityRun Env.symbolic sampleKey (fun _ _ => True) lostWorld ∧
    (∃ ici, lostWorld.icis sampleKey = some ici ∧ Refers sampleKey sampleKey ici ∧
      ici.uid = "8f2c") ∧
    (rewrite redrawn).2 = some (.ok {}) ∧
    ∃ id id', lostWorld.identity Env.symbolic sampleKey = some id ∧
      (rewrite redrawn).1.identity Env.symbolic sampleKey = some id' ∧
      id'.kubeadminPassword ≠ id.kubeadminPassword ∧
      ¬HashOf Env.symbolic id'.kubeadminPassword id'.seedReconfig := by
  obtain ⟨ici, hici, huid, href⟩ := lostWorld_stored
  have hbefore : (lostWorld.identity Env.symbolic sampleKey).map IdentityData.kubeadminPassword =
      some (.text "pw") := by decide +kernel
  have hafter : ((rewrite redrawn).1.identity Env.symbolic sampleKey).map (fun id =>
      (id.kubeadminPassword, (Env.symbolic.unmarshalSeed id.seedReconfig).map
        SeedReconfiguration.kubeadminPasswordHash)) =
      some (.text "new", some "hash of pw with salt") := by decide +kernel
  obtain ⟨id, hid, hpw⟩ := Option.map_eq_some_iff.1 hbefore
  obtain ⟨id', hid', hparts⟩ := Option.map_eq_some_iff.1 hafter
  obtain ⟨hpw', hhash⟩ := Prod.mk.inj hparts
  refine ⟨lostWorld_reached trivial trivial trivial trivial, ⟨ici, hici, ⟨rfl, href⟩, huid⟩,
    by decide +kernel, id, id', hid, hid', ?_, ?_⟩
  · rw [hpw, hpw']
    decide
  · rw [hpw']
    exact not_hashOf_new hhash

end Scenario

end ImageBasedInstall

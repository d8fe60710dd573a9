import ImageBasedInstall.Interactive.Threads
import ImageBasedInstall.Verify.Conditions
import ImageBasedInstall.Verify.PassFootprints

/-!
# The copies a pass works on

A pass patches the object from copies: the one it read, the replies of its patches, or what it made
of them. `CopyPred` is an assertion about copies that only looks at the host reference of the spec
and at the conditions. If every reply about the object satisfies it then so does every copy, and
every patch of the two controllers has one of the shapes listed in `PassRules` and `MonitorRules`,
whatever happens between two calls of the pass.
-/

namespace ImageBasedInstall

open Interactive

variable {B : Type}

/-- The calls of a pass, the latest first. -/
abbrev Calls (B : Type) := Log (Op B) Resp

/-- An assertion about the host reference of the spec and the conditions of a copy. -/
abbrev CopyPred := Option NamespacedName → List Condition → Prop

def CopyPred.of (J : CopyPred) (ici : ImageClusterInstall) : Prop :=
  J ici.spec.bareMetalHostRef ici.status.conditions

/-- The replies about the object satisfy `J`. -/
def CopyReplies (req : NamespacedName) (J : CopyPred) : (op : Op B) → Resp op → Prop
  | .getICI key, .ok ici => key = req → J.of ici
  | .patchICI key _ _, .ok ici => key = req → J.of ici
  | .patchICIStatus key _ _, .ok ici => key = req → J.of ici
  | _, _ => True

/-- The pass has got this host from the server. -/
def HostSeen (host : NamespacedName) (bmh : BareMetalHost) (l : Calls B) : Prop :=
  ⟨.getBMH host, .ok bmh⟩ ∈ l ∨ ∃ base new, ⟨.patchBMH host base new, .ok bmh⟩ ∈ l

/-- The pass has got the host from the server, and it was managed. -/
def ManagedSeen (host : NamespacedName) (l : Calls B) : Prop :=
  ∃ bmh, HostSeen host bmh l ∧ annotationExists bmh.annotations ibioManagedBMH = true

/-- The pass has got the `DataImage` of the host from the server. -/
def ImageSeen (host : NamespacedName) (l : Calls B) : Prop :=
  ∃ image, ⟨.getDataImage host, .ok image⟩ ∈ l

/-- What the calls of the reconciler look like, and that its edits keep the assertion on copies. -/
structure PassRules (req : NamespacedName) (J : CopyPred) (A : Calls B → Op B → Prop) : Prop where
  other : ∀ l op, op.target ≠ .ici → A l op
  object : ∀ l ici new, J.of ici → new.spec.bareMetalHostRef = ici.spec.bareMetalHostRef →
    A l (.patchICI req ici new)
  conditions : ∀ l ici conds, J.of ici → ReconcilerEdit ici.status.conditions conds →
    A l (.patchICIStatus req ici (ici.withConditions conds))
  boot : ∀ l ici host t, J.of ici → ici.status.bareMetalHostRef = none →
    (∃ conds, J (some host) conds) → ImageSeen host l → ManagedSeen host l →
    A l (.patchICIStatus req ici (ici.bootedAt t))
  edited : ∀ ref conds conds', J ref conds → ReconcilerEdit conds conds' → J ref conds'

/-- What the calls of the monitor look like: it reports on an installation that its copy does not
show as completed. -/
structure MonitorRules (req : NamespacedName) (J : CopyPred)
    (A : Calls B → Op B → Prop) : Prop where
  other : ∀ l op, op.target ≠ .ici → A l op
  report : ∀ l ici conds conds', J.of ici → installationCompleted ici = false →
    MonitorReport conds → Sets conds ici.status.conditions conds' →
    A l (.patchICIStatus req ici (ici.withConditions conds'))

theorem HostSeen.cons {host : NamespacedName} {bmh : BareMetalHost} {l : Calls B}
    (h : HostSeen host bmh l) (e : (op : Op B) × Resp op) : HostSeen host bmh (e :: l) :=
  h.imp (List.mem_cons_of_mem _) fun ⟨base, new, h⟩ => ⟨base, new, List.mem_cons_of_mem _ h⟩

theorem ImageSeen.cons {host : NamespacedName} {l : Calls B} (h : ImageSeen host l)
    (e : (op : Op B) × Resp op) : ImageSeen host (e :: l) :=
  h.imp fun _ h => List.mem_cons_of_mem _ h

theorem ManagedSeen.cons {host : NamespacedName} {l : Calls B} (h : ManagedSeen host l)
    (e : (op : Op B) × Resp op) : ManagedSeen host (e :: l) :=
  h.imp fun _ h => ⟨h.1.cons e, h.2⟩

/-- The monitor's updates, under any contract that allows looking at the clock. -/
theorem meets_sets {W : Type} {K : Contract (Op B) Resp W} {P : W → Prop}
    (hrely : ∀ w w', P w → K.rely w w' → P w') (hnow : ∀ w, P w → Meets K now (fun _ => P) w)
    (todo : List Condition) (acc : List Condition × Bool) {w : W} (hw : P w) :
    Meets K (todo.foldlM updateCondition acc) (fun acc' w => Sets todo acc.1 acc'.1 ∧ P w) w := by
  induction todo generalizing acc w with
  | nil => exact fun w' hr => ⟨.nil _, hrely w w' hw hr⟩
  | cons c todo ih =>
    rw [List.foldlM_cons]
    have hstep : Meets K (updateCondition acc c)
        (fun acc' w => (∃ t, acc'.1 = (setClusterInstallCondition t acc.1 c).1) ∧ P w) w :=
      Meets.seq (hnow w hw) fun t w₁ h₁ => fun w' hr => ⟨⟨t, rfl⟩, hrely w₁ w' h₁ hr⟩
    refine Meets.seq hstep ?_
    rintro acc₁ w₁ ⟨⟨t, ht⟩, h₁⟩
    refine Meets.mono (ih acc₁ h₁) fun acc' w' h => ⟨.cons t ?_, h.2⟩
    rw [← ht]
    exact h.1

/-! ## Programs that leave the object alone -/

section Other

variable {α : Type} {R : (op : Op B) → Resp op → Prop} {A : Calls B → Op B → Prop}
  (hA : ∀ l op, op.target ≠ .ici → A l op) {l : Calls B}
include hA

theorem meets_other {p : Program B α} {P : Calls B → Prop}
    (hp : p.Uses fun op => op.target ≠ .ici) (hP : ∀ l e, P l → P (e :: l)) (hl : P l) :
    Meets (.logged R A) p (fun _ l => P l) l :=
  logged_of_uses (hp.mono fun op h l => hA l op h) hP hl

/-- A call that leaves the object alone. -/
theorem meets_otherCall {op : Op B} {Q : Resp op → Calls B → Prop} (hop : op.target ≠ .ici)
    (h : ∀ r, Q r (⟨op, r⟩ :: l)) : Meets (.logged R A) (Prog.perform op) Q l :=
  logged_perform fun r _ => ⟨hA l op hop, h r⟩

theorem meets_adds (todo : List Condition) (acc : List Condition × Bool) :
    Meets (.logged R A) (todo.foldlM initializeCondition acc)
      (fun acc' _ => Adds todo acc.1 acc'.1) l := by
  induction todo generalizing acc l with
  | nil => exact logged_ret.2 (.nil _)
  | cons c todo ih =>
    rw [List.foldlM_cons]
    cases hc : findCondition acc.1 c.type with
    | some c' =>
      have heq : (initializeCondition acc c : Program B _) = .ret acc := by
        simp [initializeCondition, hc]
      rw [heq]
      refine Meets.mono (ih acc) fun acc' _ h => .skip ?_ h
      rw [hc]
      rfl
    | none =>
      have heq : (initializeCondition acc c : Program B _) = (now >>= fun t =>
          .ret ((setClusterInstallCondition t acc.1 c).1,
            acc.2 || (setClusterInstallCondition t acc.1 c).2)) := by
        simp [initializeCondition, hc]
      rw [heq]
      refine Meets.bind (Meets.bind (meets_otherCall hA nofun fun t => ?_))
      exact logged_ret.2 (Meets.mono (ih _) fun acc' _ h => .cons t hc h)

end Other

/-! ## The reconciler's patches -/

section Reconciler

variable {req : NamespacedName} {J : CopyPred} {A : Calls B → Op B → Prop}
  {ici : ImageClusterInstall} {l : Calls B} (rules : PassRules req J A)
include rules

theorem patchICI_copy {new : ImageClusterInstall} {P : Calls B → Prop}
    (hP : ∀ l e, P l → P (e :: l)) (hl : P l) (hJ : J.of ici) (hnew : J.of new)
    (href : new.spec.bareMetalHostRef = ici.spec.bareMetalHostRef) :
    Meets (.logged (CopyReplies req J) A) (patchICI req ici new)
      (fun r l => J.of r.1 ∧ P l) l := by
  refine Meets.bind (logged_perform fun r hr => ⟨rules.object l ici new hJ href, ?_⟩)
  refine logged_ret.2 ⟨?_, hP _ _ hl⟩
  cases r with
  | error e => exact hnew
  | ok stored => exact hr rfl

theorem patchConditions_copy {conds : List Condition} (hJ : J.of ici)
    (he : ReconcilerEdit ici.status.conditions conds) :
    Meets (.logged (CopyReplies req J) A) (patchICIStatus req ici (ici.withConditions conds))
      (fun r _ => J.of r.1) l := by
  refine Meets.bind (logged_perform fun r hr => ⟨rules.conditions l ici conds hJ he, ?_⟩)
  refine logged_ret.2 ?_
  cases r with
  | error e => exact rules.edited _ _ _ hJ he
  | ok stored => exact hr rfl

theorem initializeConditions_copy (hJ : J.of ici) :
    Meets (.logged (CopyReplies req J) A) (initializeConditions req ici)
      (fun r _ => J.of r.1) l := by
  refine Meets.seq (meets_adds rules.other initialConditions _) ?_
  rintro ⟨conditions, needToPatch⟩ l₁ hadds
  cases needToPatch with
  | false => exact logged_ret.2 hJ
  | true => exact patchConditions_copy rules hJ (.init hadds)

theorem setRequirementsMetCondition_copy (hJ : J.of ici) (status : ConditionStatus)
    (reason msg : String) :
    Meets (.logged (CopyReplies req J) A) (setRequirementsMetCondition req ici status reason msg)
      (fun r _ => J.of r) l := by
  refine Meets.bind (meets_otherCall rules.other nofun fun t => ?_)
  dsimp only
  split
  · exact logged_ret.2 hJ
  · refine Meets.seq (patchConditions_copy rules hJ (.requirements t status reason msg)) ?_
    rintro ⟨ici', r⟩ l₁ h₁
    exact logged_ret.2 h₁

theorem ensureAnnotated_copy (hJ : J.of ici) (key value : String) :
    Meets (.logged (CopyReplies req J) A) (ensureAnnotated req ici key value)
      (fun r _ => J.of r.1) l := by
  unfold ensureAnnotated
  dsimp only
  split
  · exact logged_ret.2 hJ
  · exact Meets.mono (patchICI_copy rules (P := fun _ => True) (fun _ _ _ => trivial)
      trivial hJ hJ rfl) fun _ _ h => h.1

theorem prepare_copy (hJ : J.of ici) :
    Meets (.logged (CopyReplies req J) A) (prepare req ici) (fun r _ => J.of r.1) l := by
  refine Meets.seq (ensureAnnotated_copy rules hJ _ _) ?_
  rintro ⟨ici₁, r₁⟩ l₁ h₁
  match r₁ with
  | .error e => exact logged_ret.2 h₁
  | .ok () =>
    refine Meets.seq (ensureAnnotated_copy rules h₁ _ _) ?_
    rintro ⟨ici₂, r₂⟩ l₂ h₂
    match r₂ with
    | .error e => exact logged_ret.2 h₂
    | .ok () => exact initializeConditions_copy rules h₂

theorem checkStarted_copy (hJ : J.of ici) :
    Meets (.logged (CopyReplies req J) A) (checkStarted req ici) (fun r _ => J.of r.1) l := by
  unfold checkStarted
  split
  · exact logged_ret.2 hJ
  have hrestore : Meets (.logged (CopyReplies req J) A) (restoreRequirementsMet req ici)
      (fun r _ => J.of r) l := by
    unfold restoreRequirementsMet
    split
    · split
      · exact setRequirementsMetCondition_copy rules hJ _ _ _
      · exact logged_ret.2 hJ
    · exact logged_ret.2 hJ
  refine Meets.seq hrestore fun ici₁ l₁ h₁ => ?_
  refine Meets.seq (meets_other rules.other (P := fun _ => True)
    (verifyIsoAndAuthExists_uses (fun op h => by rw [h]; decide) _) (fun _ _ _ => trivial) trivial)
    fun r l₂ _ => ?_
  exact logged_ret.2 h₁

theorem setClusterInstallMetadata_copy {P : Calls B → Prop} (hP : ∀ l e, P l → P (e :: l))
    (hl : P l) (hJ : J.of ici) (E : Env B) (cdKey : NamespacedName) (cd : ClusterDeployment) :
    Meets (.logged (CopyReplies req J) A) (setClusterInstallMetadata E req ici cdKey cd)
      (fun r l => J.of r.1 ∧ P l) l := by
  unfold setClusterInstallMetadata
  split
  · exact logged_ret.2 ⟨hJ, hl⟩
  · exact logged_ret.2 ⟨hJ, hl⟩
  refine Meets.seq (meets_other rules.other
    (seedReconfigSecretClusterIDs_uses (fun op h => by rw [h]; decide) E cdKey) hP hl)
    fun ids l₁ h₁ => ?_
  split
  · exact logged_ret.2 ⟨hJ, h₁⟩
  refine Meets.seq (meets_other rules.other (chooseID_uses _ _ ?_) hP h₁) fun clusterID l₂ h₂ => ?_
  · exact Prog.Uses.bind (Prog.uses_perform nofun) fun _ => trivial
  refine Meets.seq (meets_other rules.other (chooseID_uses _ _ ?_) hP h₂) fun infraID l₃ h₃ => ?_
  · exact Prog.Uses.bind (Prog.uses_perform nofun) fun _ => trivial
  exact patchICI_copy rules hP h₃ hJ hJ rfl

/-! ## The phases -/

theorem validateConfiguration_copy (s : Spec) (cd : Option (NamespacedName × ClusterDeployment))
    (cond : Condition) :
    Meets (.logged (CopyReplies req J) A) (validateConfiguration req s cd cond)
      (fun r l => ∀ host bmh, r.2 = .ok (some (host, bmh)) →
        s.bareMetalHostRef = some host ∧ HostSeen host bmh l) l := by
  unfold validateConfiguration
  split
  · split <;> exact logged_ret.2 (by simp)
  · exact logged_ret.2 (by simp)
  · next key hkey =>
    have hkey : s.bareMetalHostRef = some key := (Option.filter_eq_some_iff.1 hkey).1
    refine Meets.bind (meets_otherCall rules.other nofun fun r => ?_)
    cases r with
    | error e => exact logged_ret.2 (by simp)
    | ok bmh =>
      dsimp only
      split
      · refine logged_ret.2 fun host bmh' heq => ?_
        cases heq
        exact ⟨hkey, .inl (List.mem_cons_self ..)⟩
      · refine Meets.bind (Meets.bind (meets_otherCall rules.other nofun fun r => logged_ret.2 ?_))
        cases r with
        | error e => exact logged_ret.2 (by simp)
        | ok bmh' =>
          refine logged_ret.2 fun host bmh'' heq => ?_
          cases heq
          exact ⟨hkey, .inr ⟨_, _, List.mem_cons_self ..⟩⟩

theorem validateHost_copy (E : Env B) (s : Spec) {host : NamespacedName} {bmh : BareMetalHost}
    (hseen : HostSeen host bmh l) (cond : Condition) :
    Meets (.logged (CopyReplies req J) A) (validateHost E s host bmh cond)
      (fun r l => ∀ res, r.2.2 = .ok res → HostSeen host r.1 l) l := by
  unfold validateHost
  split
  · exact logged_ret.2 nofun
  split
  · exact logged_ret.2 fun _ _ => hseen
  split
  · exact logged_ret.2 fun _ _ => hseen
  refine Meets.bind (Meets.bind (meets_otherCall rules.other nofun fun r => logged_ret.2 ?_))
  cases r with
  | error e => exact logged_ret.2 nofun
  | ok bmh' => exact logged_ret.2 fun _ _ => .inr ⟨_, _, List.mem_cons_self ..⟩

theorem ensureBMHDataImage_copy {host : NamespacedName} {bmh : BareMetalHost}
    (hseen : HostSeen host bmh l) (url : String) :
    Meets (.logged (CopyReplies req J) A) (ensureBMHDataImage host url).run
      (fun r l => ∀ a, r = .ok a → HostSeen host bmh l ∧ ImageSeen host l) l := by
  refine Meets.bind (Meets.bind (meets_otherCall rules.other nofun fun r => logged_ret.2 ?_))
  cases r with
  | ok image =>
    have himage : ImageSeen host (⟨.getDataImage host, .ok image⟩ :: l) :=
      ⟨image, List.mem_cons_self ..⟩
    dsimp only [ExceptT.bindCont]
    split
    · exact logged_ret.2 fun _ _ => ⟨hseen.cons _, himage⟩
    · exact logged_ret.2 fun _ _ => ⟨hseen.cons _, himage⟩
  | error e =>
    dsimp only [ExceptT.bindCont]
    split
    · exact logged_ret.2 nofun
    refine Meets.bind (Meets.bind (meets_otherCall rules.other nofun fun r => logged_ret.2 ?_))
    cases r with
    | error e => exact logged_ret.2 nofun
    | ok _ =>
      refine Meets.bind (meets_otherCall rules.other nofun fun r => ?_)
      cases r with
      | error e => exact logged_ret.2 nofun
      | ok image =>
        exact logged_ret.2 fun _ _ =>
          ⟨((hseen.cons _).cons _).cons _, image, List.mem_cons_self ..⟩

theorem updateBMHProvisioningState_copy {host : NamespacedName} {bmh : BareMetalHost}
    (hseen : HostSeen host bmh l) (himage : ImageSeen host l) (image : DataImage) :
    Meets (.logged (CopyReplies req J) A) (updateBMHProvisioningState host bmh image)
      (fun r l => r.2 = .ok () → HostSeen host r.1 l ∧ ImageSeen host l) l := by
  unfold updateBMHProvisioningState
  split
  · exact logged_ret.2 fun _ => ⟨hseen, himage⟩
  split
  · exact logged_ret.2 fun _ => ⟨hseen, himage⟩
  refine Meets.bind (meets_otherCall rules.other nofun fun r => logged_ret.2 ?_)
  cases r with
  | error e => exact nofun
  | ok bmh' => exact fun _ => ⟨.inr ⟨_, _, List.mem_cons_self ..⟩, himage.cons _⟩

section Boot

variable {host : NamespacedName} (hJ : J.of ici) (hhost : ∃ conds, J (some host) conds)
include hJ hhost

theorem recordBoot_copy (himage : ImageSeen host l) (hmanaged : ManagedSeen host l)
    (cond : Condition) :
    Meets (.logged (CopyReplies req J) A) (recordBoot req ici cond)
      (fun out _ => J.of out.ici) l := by
  unfold recordBoot
  split
  · exact logged_ret.2 hJ
  · next hnone =>
    have htime : Meets (.logged (CopyReplies req J) A) (bootTimeOf ici.status)
        (fun _ l => ImageSeen host l ∧ ManagedSeen host l) l := by
      unfold bootTimeOf
      split
      · exact logged_ret.2 ⟨himage, hmanaged⟩
      · exact meets_otherCall rules.other nofun fun t => ⟨himage.cons _, hmanaged.cons _⟩
    refine Meets.seq htime fun t l₁ h₁ => ?_
    refine Meets.bind (Meets.bind (logged_perform fun r hr => ⟨?_, logged_ret.2 ?_⟩))
    · exact rules.boot l₁ ici host t hJ hnone hhost h₁.1 h₁.2
    · cases r with
      | error e => exact logged_ret.2 hJ
      | ok stored => exact logged_ret.2 (hr rfl)

theorem bootHost_copy (E : Env B) {bmh : BareMetalHost} (hseen : HostSeen host bmh l)
    (himage : ImageSeen host l) (image : DataImage) (cond : Condition) :
    Meets (.logged (CopyReplies req J) A) (bootHost E req ici host bmh image cond)
      (fun out _ => J.of out.ici) l := by
  refine Meets.bind (meets_otherCall rules.other nofun fun t => ?_)
  split
  · exact logged_ret.2 hJ
  refine Meets.seq
    (updateBMHProvisioningState_copy rules (hseen.cons _) (himage.cons _) image) ?_
  rintro ⟨bmh', r⟩ l₁ h₁
  match r with
  | .error e => exact logged_ret.2 hJ
  | .ok () =>
    obtain ⟨hseen', himage'⟩ := h₁ rfl
    dsimp only
    split
    · exact logged_ret.2 hJ
    · next hmanaged =>
      refine recordBoot_copy rules hJ hhost himage' ⟨bmh', hseen', ?_⟩ cond
      simpa using hmanaged

theorem configureHost_copy (E : Env B) {bmh : BareMetalHost} (hseen : HostSeen host bmh l)
    (imageUrl : String) (cond : Condition) :
    Meets (.logged (CopyReplies req J) A) (configureHost E req ici imageUrl host bmh cond)
      (fun out _ => J.of out.ici) l := by
  refine Meets.seq (ensureBMHDataImage_copy rules hseen imageUrl) fun r l₁ h₁ => ?_
  match r with
  | .error e => exact logged_ret.2 hJ
  | .ok (image, res) =>
    obtain ⟨hseen', himage⟩ := h₁ _ rfl
    dsimp only
    split
    · exact logged_ret.2 hJ
    · exact bootHost_copy rules hJ hhost E hseen' himage image cond

variable [DecidableEq B]

theorem imagePhases_copy (E : Env B) (cd : NamespacedName × ClusterDeployment)
    {bmh : BareMetalHost} (hseen : HostSeen host bmh l) (cond : Condition) :
    Meets (.logged (CopyReplies req J) A) (imagePhases E req ici cd host bmh cond)
      (fun out _ => J.of out.ici) l := by
  have hbuild : ∀ inp : BuildInput, Meets (.logged (CopyReplies req J) A)
      (createImage E req ici.uid inp { cond with reason := imageCreationFailedReason })
      (fun _ l => HostSeen host bmh l) l := by
    intro inp
    refine meets_other rules.other ?_ (fun _ e h => h.cons e) hseen
    exact createImage_uses req E (writeInputData_uses (fun op h => by rw [h]; decide)
      (fun op h => by rw [h]; decide) (fun op h => by rw [h]; decide) E inp ici.uid
      (fun _ => nofun)) _
  refine Meets.seq (hbuild _) ?_
  rintro ⟨cond₁, r⟩ l₁ h₁
  match r with
  | .error e => exact logged_ret.2 hJ
  | .ok (imageUrl, res) =>
    dsimp only
    split
    · exact logged_ret.2 hJ
    refine Meets.seq (configureHost_copy rules hJ hhost E h₁ imageUrl _) fun out l₂ h₂ => ?_
    split
    · exact logged_ret.2 h₂
    · exact logged_ret.2 h₂

theorem hostPhases_copy (E : Env B) (cd : NamespacedName × ClusterDeployment)
    {bmh : BareMetalHost} (hseen : HostSeen host bmh l) (cond : Condition) :
    Meets (.logged (CopyReplies req J) A) (hostPhases E req ici cd host bmh cond)
      (fun out _ => J.of out.ici) l := by
  refine Meets.seq (validateHost_copy rules E ici.spec hseen _) ?_
  rintro ⟨bmh₁, cond₁, r⟩ l₁ h₁
  match r with
  | .error e => exact logged_ret.2 hJ
  | .ok res =>
    dsimp only
    split
    · exact logged_ret.2 hJ
    refine Meets.seq (setClusterInstallMetadata_copy rules (P := HostSeen host bmh₁)
      (fun _ e h => h.cons e) (h₁ _ rfl) hJ E cd.1 cd.2) ?_
    rintro ⟨ici₂, r₂⟩ l₂ ⟨hJ₂, hseen₂⟩
    match r₂ with
    | .error e => cases e <;> exact logged_ret.2 hJ₂
    | .ok () => exact imagePhases_copy rules hJ₂ hhost E cd hseen₂ cond₁

end Boot

variable [DecidableEq B]

theorem reportPhases_copy (E : Env B) (hJ : J.of ici)
    (cd : Option (NamespacedName × ClusterDeployment)) :
    Meets (.logged (CopyReplies req J) A) (reportPhases E req ici cd) (fun _ _ => True) l := by
  have hphases : Meets (.logged (CopyReplies req J) A) (runPhases E req ici cd)
      (fun out _ => J.of out.ici) l := by
    refine Meets.seq (validateConfiguration_copy rules ici.spec cd unknownCondition) ?_
    rintro ⟨cond, r⟩ l₁ h₁
    match cd, r with
    | some cd, .ok (some (host, bmh)) =>
      obtain ⟨hhost, hseen⟩ := h₁ host bmh rfl
      exact hostPhases_copy rules hJ ⟨ici.status.conditions, hhost ▸ hJ⟩ E cd hseen cond
    | none, _ => exact logged_ret.2 hJ
    | some _, .ok none => exact logged_ret.2 hJ
    | some _, .error _ => exact logged_ret.2 hJ
  refine Meets.seq hphases fun out l₁ h₁ => ?_
  refine Meets.seq (setRequirementsMetCondition_copy rules h₁ _ _ _) fun _ l₂ _ => ?_
  exact logged_ret.2 trivial

theorem reconcileInstall_copy (E : Env B) (hJ : J.of ici)
    (cd : Option (NamespacedName × ClusterDeployment)) :
    Meets (.logged (CopyReplies req J) A) (reconcileInstall E req ici cd) (fun _ _ => True) l := by
  refine Meets.seq (checkStarted_copy rules hJ) ?_
  rintro ⟨ici₁, started⟩ l₁ h₁
  cases started with
  | true => exact logged_ret.2 trivial
  | false =>
    dsimp only
    split
    · exact logged_ret.2 trivial
    refine Meets.seq (prepare_copy rules h₁) ?_
    rintro ⟨ici₂, r₂⟩ l₂ h₂
    match r₂ with
    | .error e => exact logged_ret.2 trivial
    | .ok () => exact reportPhases_copy rules E h₂ cd

omit [DecidableEq B] in
theorem handleFinalizer_copy (E : Env B) (hJ : J.of ici) :
    Meets (.logged (CopyReplies req J) A) (handleFinalizer E req ici)
      (fun r _ => r.2 = none → J.of r.1) l := by
  unfold handleFinalizer
  split
  · split
    · exact logged_ret.2 fun _ => hJ
    refine Meets.seq (patchICI_copy rules (P := fun _ => True) (fun _ _ _ => trivial)
      trivial hJ hJ rfl) ?_
    rintro ⟨ici₁, r₁⟩ l₁ -
    exact logged_ret.2 nofun
  · have hfinalize : (finalize E req ici).run.Uses fun op => ∀ l, A l op := by
      have hother : ∀ op : Op B, op.target ≠ .ici → ∀ l, A l op := fun op h l => rules.other l op h
      refine uses_bind (removeConfigDir_uses (fun op h => hother op (by rw [h]; decide)) E _ _
        fun op h => hother op (by rw [h.target]; decide)) fun removed => ?_
      split
      · trivial
      refine uses_bind (removeHostDataImage_uses (fun op h => hother op (by rw [h]; decide))
        (fun _ => hother _ nofun) (fun _ _ => hother _ nofun) _) fun removed => ?_
      split
      · trivial
      refine uses_bind ?_ fun _ => trivial
      unfold removeFinalizer
      split
      · refine uses_bind (uses_lift ?_) fun r => uses_liftExcept _
        refine Prog.Uses.bind (Prog.uses_perform ?_) fun _ => trivial
        exact fun l => rules.object l ici _ hJ rfl
      · trivial
    refine Meets.seq (logged_of_uses (P := fun _ => True) hfinalize (fun _ _ _ => trivial) trivial)
      fun r l₁ _ => ?_
    cases r <;> exact logged_ret.2 nofun

/-- A pass of the reconciler. -/
theorem reconcile_copy (E : Env B) :
    Meets (.logged (CopyReplies req J) A) (reconcile E req) (fun _ _ => True) l := by
  have hother : ∀ {T : Target}, T ≠ .ici → ∀ op : Op B, op.target = T → op.target ≠ .ici :=
    fun hT _ h => h ▸ hT
  refine Meets.bind (logged_perform fun r hr => ⟨rules.other l _ nofun, ?_⟩)
  match r, hr with
  | .error e, _ => exact logged_ret.2 trivial
  | .ok ici, hr =>
    refine Meets.seq (handleFinalizer_copy rules E (hr rfl)) ?_
    rintro ⟨ici₁, r₁⟩ l₁ h₁
    match r₁ with
    | some (result, err) => exact logged_ret.2 trivial
    | none =>
      refine Meets.seq (meets_other rules.other (P := fun _ => True)
        (fetchCD_uses (hother (by decide)) _ _) (fun _ _ _ => trivial) trivial) fun cd l₂ _ => ?_
      refine Meets.seq (meets_other rules.other (P := fun _ => True)
        (labelReferencedObjectsForBackup_uses (hother (by decide)) (fun _ _ _ => nofun)
          (hother (by decide)) (fun _ _ _ => nofun) _ _ _) (fun _ _ _ => trivial) trivial)
        fun _ l₃ _ => ?_
      split
      · refine Meets.seq (meets_other rules.other (P := fun _ => True)
          (handlePostCleanup_uses (hother (by decide)) (fun _ => nofun) (fun _ _ => nofun) ici₁)
          (fun _ _ _ => trivial) trivial) fun r l₄ _ => ?_
        cases r <;> exact logged_ret.2 trivial
      · exact reconcileInstall_copy rules E (h₁ rfl) cd

end Reconciler

/-! ## The monitor -/

section Monitor

variable {req : NamespacedName} {J : CopyPred} {A : Calls B → Op B → Prop}
  {ici : ImageClusterInstall} {l : Calls B} (rules : MonitorRules req J A)
include rules

section Report

variable (hJ : J.of ici) (hrun : installationCompleted ici = false)
include hJ hrun

theorem setInstallConditions_copy {conds : List Condition} (hconds : MonitorReport conds) :
    Meets (.logged (CopyReplies req J) A) (setInstallConditions req ici conds)
      (fun _ _ => True) l := by
  refine Meets.seq (meets_sets (P := fun _ => True) (fun _ _ _ _ => trivial)
    (fun _ _ => meets_otherCall rules.other nofun fun _ => trivial) conds _ trivial) ?_
  rintro ⟨conditions, updated⟩ l₁ ⟨hsets, -⟩
  cases updated with
  | false => exact logged_ret.2 trivial
  | true =>
    refine Meets.bind (logged_perform fun r _ => ⟨?_, logged_ret.2 trivial⟩)
    exact rules.report l₁ ici conds conditions hJ hrun hconds hsets

theorem handleClusterTimeout_copy (E : Env B) :
    Tries (.logged (CopyReplies req J) A) (handleClusterTimeout E req ici) (fun _ _ => True)
      (fun _ _ => True) l := by
  unfold handleClusterTimeout
  split
  · exact logged_ret.2 trivial
  refine Tries.bind ?_
  cases installTimeout E ici with
  | error e => exact logged_ret.2 trivial
  | ok timeout =>
    refine logged_ret.2 (Tries.bind (Tries.lift (meets_otherCall rules.other nofun fun t => ?_)))
    split
    · refine Tries.bind (Tries.lift (Meets.mono
        (setInstallConditions_copy rules hJ hrun (.timeout _)) fun _ _ _ => logged_ret.2 trivial))
    · exact logged_ret.2 trivial

theorem reportProgress_copy (E : Env B) (message : String) :
    Tries (.logged (CopyReplies req J) A) (reportProgress E req ici message) (fun _ _ => True)
      (fun _ _ => True) l := by
  refine Tries.seq (handleClusterTimeout_copy rules hJ hrun E) fun expired l₁ _ => ?_
  split
  · exact logged_ret.2 trivial
  · exact Tries.bind (Tries.lift (Meets.mono
      (setInstallConditions_copy rules hJ hrun (.installing _)) fun _ _ _ => logged_ret.2 trivial))

theorem handleDataImageDeletion_copy (host : NamespacedName) :
    Tries (.logged (CopyReplies req J) A) (handleDataImageDeletion req ici host) (fun _ _ => True)
      (fun _ _ => True) l := by
  refine Tries.bind (Tries.lift (meets_otherCall rules.other nofun fun r => ?_))
  cases r with
  | error e =>
    dsimp only
    split
    · exact logged_ret.2 trivial
    · exact logged_ret.2 trivial
  | ok image =>
    dsimp only
    split
    · exact logged_ret.2 trivial
    · exact Tries.bind (Tries.lift (Meets.mono
        (setInstallConditions_copy rules hJ hrun (.installing _))
          fun _ _ _ => logged_ret.2 trivial))

theorem reportInstalled_copy (host : NamespacedName) :
    Tries (.logged (CopyReplies req J) A) (reportInstalled req ici host) (fun _ _ => True)
      (fun _ _ => True) l := by
  have hremove : Meets (.logged (CopyReplies req J) A) (removeBMHDataImage host).run
      (fun _ _ => True) l :=
    meets_other rules.other (P := fun _ => True) (removeBMHDataImage_uses
      (fun op h => by rw [h]; decide) (fun _ => nofun) (fun _ _ => nofun) host)
      (fun _ _ _ => trivial) trivial
  refine Tries.seq (Q := fun _ _ => True) (hremove.mono fun r _ _ => ?_) fun _ l₁ _ => ?_
  · cases r <;> trivial
  refine Tries.seq (handleDataImageDeletion_copy rules hJ hrun host) fun r l₂ _ => ?_
  cases r with
  | some res => exact logged_ret.2 trivial
  | none =>
    refine Tries.bind (Tries.lift (Meets.mono
      (setInstallConditions_copy rules hJ hrun .installed) ?_))
    rintro ⟨_, err⟩ l₃ -
    cases err <;> exact logged_ret.2 trivial

theorem monitorInstallationProgress_copy (E : Env B) :
    Tries (.logged (CopyReplies req J) A) (monitorInstallationProgress E req ici)
      (fun _ _ => True) (fun _ _ => True) l := by
  unfold monitorInstallationProgress
  split
  · exact logged_ret.2 trivial
  · next host _ =>
    refine Tries.bind (meets_otherCall rules.other nofun fun r => ?_)
    cases r with
    | error e => trivial
    | ok bmh =>
      dsimp only [Outcome]
      split
      · refine Tries.seq (handleDataImageDeletion_copy rules hJ hrun host) fun r l₁ _ => ?_
        cases r with
        | some res => exact logged_ret.2 trivial
        | none =>
          have hkubeconfig : Meets (.logged (CopyReplies req J) A) (spokeKubeconfig E req ici).run
              (fun _ _ => True) l₁ :=
            meets_other rules.other (P := fun _ => True)
              (spokeKubeconfig_uses (fun op h => by rw [h]; decide) E req ici)
              (fun _ _ _ => trivial) trivial
          refine Tries.seq (Q := fun _ _ => True) (hkubeconfig.mono fun r _ _ => ?_)
            fun kubeconfig l₂ _ => ?_
          · cases r <;> trivial
          refine Tries.bind (Tries.adapt (meets_otherCall rules.other nofun fun r => ?_))
          cases r with
          | error e => trivial
          | ok status =>
            dsimp only [Outcome]
            split
            · exact reportInstalled_copy rules hJ hrun host
            · exact reportProgress_copy rules hJ hrun E _
      · exact reportProgress_copy rules hJ hrun E _

end Report

/-- A pass of the monitor. -/
theorem monitor_copy (E : Env B) :
    Meets (.logged (CopyReplies req J) A) (monitor E req).run (fun _ _ => True) l := by
  have hpass : Tries (.logged (CopyReplies req J) A) (monitor E req) (fun _ _ => True)
      (fun _ _ => True) l := by
    refine Tries.bind (Tries.lift (logged_perform fun r hr => ⟨rules.other l _ nofun, ?_⟩))
    match r, hr with
    | .error e, _ =>
      dsimp only
      split
      · exact logged_ret.2 trivial
      · exact logged_ret.2 trivial
    | .ok ici, hr =>
      dsimp only
      split
      · exact logged_ret.2 trivial
      split
      · exact logged_ret.2 trivial
      · next hrun =>
        refine monitorInstallationProgress_copy rules (hr rfl) ?_ E
        simpa using hrun
  exact Meets.mono hpass fun _ _ _ => trivial

end Monitor

end ImageBasedInstall

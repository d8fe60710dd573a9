import ImageBasedInstall.Verify.Boot
import ImageBasedInstall.Verify.MonitorCalls

/-!
# Reboots on account of a removed image

The removal of a host's `DataImage` ends with a reboot of the host. Runs of both controllers count,
for each host, the reboot annotations added for the present or last image. A pass that finds the
image marked by an earlier one asks for the reboot again once the first request has been served;
passes that start before the mark, or while the request is pending, ask at most once.
-/

namespace ImageBasedInstall

open Interactive Patch

variable {B : Type}

/-! ## Counting -/

def rebootPending (host : NamespacedName) (w : World B) : Bool :=
  (w.bmhs host).any fun bmh => annotationExists bmh.annotations rebootAnnotation

/-- The operator adds the annotation, and not with the patch that makes a host managed and boots
it. -/
def addsReboot (host : NamespacedName) (t : Transition (Op B) Resp (World B) (Choice B)) : Bool :=
  match t.op with
  | .patchBMH key base new =>
    decide (key = host ∧ new.annotations ibioManagedBMH = base.annotations ibioManagedBMH) &&
      !rebootPending host t.before && rebootPending host t.after
  | _ => false

/-- The reboots for the present or last image of the host, after one more call. A new image starts
from zero. -/
def countReboot (host : NamespacedName) (n : Nat)
    (t : Transition (Op B) Resp (World B) (Choice B)) : Nat :=
  if (t.before.dataImages host).isNone && (t.after.dataImages host).isSome then 0
  else if addsReboot host t then n + 1 else n

/-! ## Calls on hosts -/

/-- What the passes that started in `w₀` do to a host with a patch made in `w`. -/
inductive HostPatch (w₀ w : World B) (key : NamespacedName) (base new : BareMetalHost) : Prop where
  /-- The annotation stays, and comes at most with the managed annotation. -/
  | quiet (hkept : annotationExists base.annotations rebootAnnotation = true →
      annotationExists new.annotations rebootAnnotation = true)
    (hnew : new.annotations ibioManagedBMH = base.annotations ibioManagedBMH →
      new.annotations rebootAnnotation = base.annotations rebootAnnotation)
  /-- The reboot after a removal. -/
  | reboot {d : DataImage} (hd : w₀.dataImages key = some d)
    (hsettled : ImageMarked key w₀ → rebootPending key w₀ = true) (hgone : ImageGone key w)
    (hnone : base.annotations rebootAnnotation = none)
    (hnew : annotationExists new.annotations rebootAnnotation = true)

section Calls

variable {E : Env B} {req key : NamespacedName} {w₀ w : World B} {base new : BareMetalHost}

theorem annotationExists_set (annotations : String → Option String) (name key value : String)
    (h : annotationExists annotations name = true) :
    annotationExists (setAnnotationIfNotExists annotations key value).1 name = true := by
  unfold setAnnotationIfNotExists
  split
  · exact h
  · by_cases hname : name = key
    · simp [annotationExists, hname]
    · simpa [annotationExists, hname] using h

theorem booted_managed (bmh : BareMetalHost) (d : DataImage) :
    annotationExists (bmh.booted d).annotations ibioManagedBMH = true := by
  unfold BareMetalHost.booted setAnnotationIfNotExists
  dsimp only
  split
  · next h => simp [annotationExists, h]
  · simp [annotationExists]

theorem booted_pending (bmh : BareMetalHost) (d : DataImage)
    (h : annotationExists bmh.annotations rebootAnnotation = true) :
    annotationExists (bmh.booted d).annotations rebootAnnotation = true := by
  unfold BareMetalHost.booted
  refine annotationExists_set _ _ _ _ ?_
  split
  · exact annotationExists_set _ _ _ _ h
  · exact h

theorem hostPatch_of_call (hop : PassCall E req w₀ w (.patchBMH key base new))
    (hC : ∀ host, Discards req host w₀ → ImageMarked host w₀ → rebootPending host w₀ = true) :
    w.bmhs key = some base ∧ HostPatch w₀ w key base new := by
  cases hop with
  | read ht => cases ht
  | tidy _ _ ht => cases ht.target
  | labelHost hs => exact ⟨hs, .quiet id fun _ => rfl⟩
  | disableCleaning _ _ hb => exact ⟨hb, .quiet id fun _ => rfl⟩
  | provision _ _ hb => exact ⟨hb, .quiet id fun _ => rfl⟩
  | reboot hwhy hd hgone hb hno =>
    exact ⟨hb, .reboot hd (hC key hwhy) hgone hno (by simp [annotationExists])⟩
  | @manage _ _ _ d _ _ hb hunmanaged =>
    refine ⟨hb, .quiet (booted_pending base d) fun hsame => ?_⟩
    have hman := booted_managed base d
    rw [annotationExists, hsame] at hman
    rw [annotationExists, hman] at hunmanaged
    cases hunmanaged

theorem hostPatch_of_monitorCall {saw : (op : Op B) → Resp op → Prop}
    (hop : MonitorCall E req saw w₀ w (.patchBMH key base new)) :
    w.bmhs key = some base ∧ HostPatch w₀ w key base new := by
  cases hop with
  | read ht => cases ht
  | reboot _ _ hd hkept hgone hb hno =>
    exact ⟨hb, .reboot hd (fun h => absurd h hkept) hgone hno (by simp [annotationExists])⟩

end Calls

/-! ## Calls and the count -/

/-- The account of a pass that started in `w₀` with the count `n₀`. -/
structure Accounted (host : NamespacedName) (n₀ : Nat) (w₀ : World B) (n : Nat) (w : World B) :
    Prop where
  once : n ≤ 1
  gone : n = 1 → ImageGone host w
  kept : rebootPending host w₀ = true → rebootPending host w = true
  /-- The reboot was counted before the pass, or its annotation is still there. -/
  pending : n = 1 → n₀ = 1 ∨ rebootPending host w = true

section Account

variable {host : NamespacedName} {n₀ n : Nat} {w₀ : World B}
  {t : Transition (Op B) Resp (World B) (Choice B)}

theorem countReboot_same (hd : t.after.dataImages host = t.before.dataImages host)
    (hno : addsReboot host t = false) : countReboot host n t = n := by
  unfold countReboot
  rw [hd, hno]
  cases t.before.dataImages host <;> rfl

/-- One call adds at most one request. -/
theorem countReboot_le : countReboot host n t ≤ n + 1 := by
  unfold countReboot
  split
  · exact Nat.zero_le _
  · split
    · exact Nat.le_refl _
    · exact Nat.le_succ _

theorem countReboot_new (hb : t.before.dataImages host = none)
    (ha : (t.after.dataImages host).isSome = true) : countReboot host n t = 0 :=
  if_pos (by simp [hb, ha])

theorem countReboot_present {d : DataImage} (hb : t.before.dataImages host = some d)
    (hno : addsReboot host t = false) : countReboot host n t = n := by
  simp [countReboot, hb, hno]

theorem addsReboot_of_pending (h : rebootPending host t.after = rebootPending host t.before) :
    addsReboot host t = false := by
  unfold addsReboot
  split
  · rw [h]
    cases rebootPending host t.before <;> simp
  · rfl

/-- A call that leaves the host and its image alone. -/
theorem Accounted.same (h : Accounted host n₀ w₀ n t.before)
    (hd : t.after.dataImages host = t.before.dataImages host)
    (hp : rebootPending host t.after = rebootPending host t.before) :
    Accounted host n₀ w₀ (countReboot host n t) t.after := by
  rw [countReboot_same hd (addsReboot_of_pending hp)]
  refine ⟨h.once, fun hn => ?_, fun hw => hp.trans (h.kept hw), fun hn => ?_⟩
  · unfold ImageGone
    rw [hd]
    exact h.gone hn
  · rw [hp]
    exact h.pending hn

/-- A new image starts from zero, and a deletion leaves nothing behind but a marked image. -/
theorem Accounted.image (h : Accounted host n₀ w₀ n t.before)
    (hc : answer t.op t.choice t.before = (t.resp, t.after)) (ht : t.op.target = .dataImage) :
    Accounted host n₀ w₀ (countReboot host n t) t.after := by
  have hp : rebootPending host t.after = rebootPending host t.before := by
    unfold rebootPending
    rw [(answer_framed hc).bmhs (by simp [ht])]
  obtain ⟨w, op, c, r, w'⟩ := t
  dsimp only at h hc ht hp ⊢
  cases op with
  | createDataImage key url =>
    obtain ⟨s, hnone, -, rfl⟩ | ⟨e, s, -, -, rfl⟩ := answer_createDataImage hc
    · by_cases heq : host = key
      · subst heq
        rw [countReboot_new hnone (by simp [World.setDataImage])]
        refine ⟨Nat.zero_le _, fun h1 => ?_, fun hw => hp.trans (h.kept hw), fun h0 => ?_⟩
        · cases h1
        · cases h0
      · exact h.same (by simp [World.setDataImage, heq]) hp
    · exact h.same rfl hp
  | deleteDataImage key =>
    obtain ⟨image, hi, rfl⟩ | ⟨rfl, -⟩ := answer_deleteDataImage hc
    · by_cases heq : host = key
      · subst heq
        rw [countReboot_present hi rfl]
        refine ⟨h.once, fun _ => .delete hi, fun hw => hp.trans (h.kept hw), fun hn => ?_⟩
        rw [hp]
        exact h.pending hn
      · exact h.same (by simp [World.setDataImage, heq]) hp
    · exact h.same rfl hp
  | _ => cases ht

/-- The host's annotation after a patch made from the stored host. -/
theorem rebootPending_of_patch {key : NamespacedName} {base new : BareMetalHost} {c : Choice B}
    {r : Except Err BareMetalHost} {w w' : World B} (hb : w.bmhs key = some base)
    (hc : answer (.patchBMH key base new) c w = (r, w')) :
    w' = w ∨ ∀ host, rebootPending host w' =
      if host = key then annotationExists new.annotations rebootAnnotation
      else rebootPending host w := by
  cases answer_patchBMH hc with
  | failed e => exact .inl rfl
  | stored a ha | lost a ha =>
    obtain rfl : base = a := Option.some.inj (hb.symm.trans ha)
    right
    intro host
    by_cases heq : host = key
    · simp [rebootPending, World.setBMH, BareMetalHost.merge, heq]
    · simp [rebootPending, World.setBMH, heq]

/-- A reboot is counted only for an image for which none was. -/
theorem Accounted.patch (h : Accounted host n₀ w₀ n t.before) {key : NamespacedName}
    {base new : BareMetalHost} (hop : t.op = .patchBMH key base new)
    (hc : answer t.op t.choice t.before = (t.resp, t.after))
    (hb : t.before.bmhs key = some base) (hrule : HostPatch w₀ t.before key base new)
    (h₀ : n₀ = 1 → ImageGone host w₀) :
    Accounted host n₀ w₀ (countReboot host n t) t.after := by
  have hd : t.after.dataImages = t.before.dataImages :=
    (answer_framed hc).dataImages (by simp [hop, Op.target])
  obtain ⟨w, op, c, r, w'⟩ := t
  dsimp only at hop hc hb hrule h hd
  subst hop
  rcases rebootPending_of_patch hb hc with rfl | hpending
  · exact h.same rfl rfl
  by_cases heq : host = key
  case neg => exact h.same (congrFun hd host) (by simpa [heq] using hpending host)
  subst heq
  have hafter : rebootPending host w' = annotationExists new.annotations rebootAnnotation := by
    simpa using hpending host
  have hbefore : rebootPending host w = annotationExists base.annotations rebootAnnotation := by
    simp [rebootPending, hb]
  have hgone : ImageGone host w → ImageGone host w' := by
    unfold ImageGone
    rw [hd]
    exact id
  cases hrule with
  | quiet hkept hnew =>
    have hmono : rebootPending host w = true → rebootPending host w' = true := by
      rw [hafter, hbefore]
      exact hkept
    have hno : addsReboot host ⟨w, .patchBMH host base new, c, r, w'⟩ = false := by
      by_cases hman : new.annotations ibioManagedBMH = base.annotations ibioManagedBMH
      · refine addsReboot_of_pending ?_
        rw [hafter, hbefore, annotationExists, annotationExists, hnew hman]
      · simp [addsReboot, hman]
    rw [countReboot_same (congrFun hd host) hno]
    exact ⟨h.once, fun hn => hgone (h.gone hn), fun hw => hmono (h.kept hw),
      fun hn => (h.pending hn).imp id hmono⟩
  | reboot himage hsettled hgone' hnone hset =>
    have hidle : rebootPending host w = false := by simp [hbefore, annotationExists, hnone]
    have hidle₀ : rebootPending host w₀ = false := by
      rw [← Bool.not_eq_true]
      intro hp
      rw [h.kept hp] at hidle
      cases hidle
    have hn₀ : n₀ ≠ 1 := by
      intro hn
      -- the image was marked when the pass started, and no reboot was pending
      rw [hsettled ⟨_, himage, h₀ hn _ himage⟩] at hidle₀
      cases hidle₀
    have hn : n = 0 := by
      have hne : n ≠ 1 := by
        intro hn
        rcases h.pending hn with h' | h'
        · exact hn₀ h'
        · rw [hidle] at h'
          cases h'
      have hle := h.once
      omega
    subst hn
    exact ⟨countReboot_le, fun _ => hgone hgone', fun _ => hafter.trans hset,
      fun _ => .inr (hafter.trans hset)⟩

/-- One call of a pass whose patches of hosts follow the rule. -/
theorem Accounted.step (h : Accounted host n₀ w₀ n t.before)
    (hc : answer t.op t.choice t.before = (t.resp, t.after))
    (hrule : ∀ key base new, t.op = .patchBMH key base new →
      t.before.bmhs key = some base ∧ HostPatch w₀ t.before key base new)
    (h₀ : n₀ = 1 → ImageGone host w₀) :
    Accounted host n₀ w₀ (countReboot host n t) t.after := by
  by_cases hb : t.op.target = .bmh
  · cases hop : t.op with
    | patchBMH key base new =>
      obtain ⟨hstored, hpatch⟩ := hrule key base new hop
      exact h.patch hop hc hstored hpatch h₀
    | _ =>
      rw [hop] at hb
      cases hb
  by_cases hd : t.op.target = .dataImage
  · exact h.image hc hd
  · have hf := answer_framed hc
    refine h.same ?_ ?_
    · rw [hf.dataImages (by simpa using fun he => hd he.symm)]
    · unfold rebootPending
      rw [hf.bmhs (by simpa using fun he => hb he.symm)]

end Account

/-! ## Runs -/

/-- The cluster, and for each host the reboots counted for its present or last image. -/
structure Rebooting (B : Type) where
  world : World B
  reboots : NamespacedName → Nat := fun _ => 0

inductive RebootEvent (B : Type) where
  | reconcilerPass (req : NamespacedName) (choices : List (Choice B))
  | monitorPass (req : NamespacedName) (choices : List (Choice B))
  | others

/-- The counts after the calls of a pass. -/
def countReboots (counts : NamespacedName → Nat)
    (trace : List (Transition (Op B) Resp (World B) (Choice B))) : NamespacedName → Nat :=
  trace.foldl (fun counts t host => countReboot host (counts host) t) counts

/-- Others, the baremetal operator among them, finish deletions in their own time, change hosts at
will and take annotations off; they make no image and take off no mark. -/
def RemovalKept (w w' : World B) : Prop :=
  ∀ host d', w'.dataImages host = some d' → ∃ d, w.dataImages host = some d ∧
    (d.deletionTimestamp.isSome = true → d'.deletionTimestamp.isSome = true)

section Runs

variable [DecidableEq B]

def RebootEvent.Fires (E : Env B) (σ : Rebooting B) : RebootEvent B → Rebooting B → Prop
  | .reconcilerPass req cs, σ' =>
    σ' = ⟨((reconcile E req).exec answer cs σ.world).1,
      countReboots σ.reboots ((reconcile E req).trace answer cs σ.world)⟩
  | .monitorPass req cs, σ' =>
    σ' = ⟨((monitor E req).run.exec answer cs σ.world).1,
      countReboots σ.reboots ((monitor E req).run.trace answer cs σ.world)⟩
  | .others, σ' => RemovalKept σ.world σ'.world ∧ σ'.reboots = σ.reboots

/-- The states reached by runs whose steps all meet `C`, from any world. -/
abbrev RebootRun (E : Env B) (C : Rebooting B → RebootEvent B → Prop) : Rebooting B → Prop :=
  Reaches (RebootEvent.Fires E) C fun σ => ∀ host, σ.reboots host = 0

/-- A reconciler pass that removes a host's image does not start while the image is being deleted,
unless a reboot of the host is pending. -/
def SettledRemoval (σ : Rebooting B) : RebootEvent B → Prop
  | .reconcilerPass req _ => ∀ host, Discards req host σ.world → ImageMarked host σ.world →
    rebootPending host σ.world = true
  | _ => True

/-- At most one reboot, and none before the image is marked or gone. -/
def RebootedOnce (σ : Rebooting B) : Prop :=
  ∀ host, σ.reboots host ≤ 1 ∧ (σ.reboots host = 1 → ImageGone host σ.world)

variable {E : Env B} {σ σ' : Rebooting B}

omit [DecidableEq B] in
/-- A pass whose patches of hosts follow the rule keeps the invariant. -/
theorem RebootedOnce.pass {α : Type} {p : Program B α} {Q : α → World B → Prop}
    {guar : World B → (op : Op B) → Resp op → World B → Prop} (h : RebootedOnce σ)
    (hp : Meets (Running (fun _ _ _ _ => True) guar) p Q σ.world)
    (hrule : ∀ {w key base new r w'}, guar w (.patchBMH key base new) r w' →
      w.bmhs key = some base ∧ HostPatch σ.world w key base new) (cs : List (Choice B)) :
    RebootedOnce ⟨(p.exec answer cs σ.world).1,
      countReboots σ.reboots (p.trace answer cs σ.world)⟩ := by
  have hfold := hp.fold (I := fun counts w => ∀ host,
      Accounted host (σ.reboots host) σ.world (counts host) w)
    (fun counts t host => countReboot host (counts host) t) (g := σ.reboots) cs (traceOk_true cs)
    ?_ ?_
  · exact fun host => ⟨(hfold host).once, (hfold host).gone⟩
  · intro counts t hI hc hg host
    refine (hI host).step hc (fun key base new hop => ?_) (h host).2
    obtain ⟨w, op, c, r, w'⟩ := t
    dsimp only at hop
    subst hop
    exact hrule hg
  · exact fun host => ⟨(h host).1, (h host).2, id, fun hn => .inl hn⟩

theorem RebootedOnce.step {ev : RebootEvent B} (h : RebootedOnce σ) (hC : SettledRemoval σ ev)
    (hs : ev.Fires E σ σ') : RebootedOnce σ' := by
  cases ev with
  | reconcilerPass req cs =>
    cases hs
    refine h.pass (reconcile_calls E req σ.world) (fun hop => ?_) cs
    rcases hop with hop | ht
    · exact hostPatch_of_call hop hC
    · simp [Op.target] at ht
  | monitorPass req cs =>
    cases hs
    exact h.pass (monitor_calls E req σ.world) hostPatch_of_monitorCall cs
  | others =>
    obtain ⟨hkept, hcounts⟩ := hs
    intro host
    rw [hcounts]
    refine ⟨(h host).1, fun hn d' hd' => ?_⟩
    obtain ⟨d, hd, hmark⟩ := hkept host d' hd'
    exact hmark ((h host).2 hn d hd)

end Runs

theorem host_rebooted_once [DecidableEq B] (E : Env B) (σ : Rebooting B)
    (h : RebootRun E SettledRemoval σ) (host : NamespacedName) : σ.reboots host ≤ 1 := by
  have hinv : RebootedOnce σ := by
    refine h.invariant (fun σ hσ host => ?_) fun _ _ _ hI hC hs => hI.step hC hs
    simp [hσ host]
  exact (hinv host).1

/-! ## The removal of a deleted object's image -/

/-- An object that is being deleted, and the image of its host, which the baremetal operator
holds. -/
def removalWorld : World Doc :=
  let ici := { sampleICI with
    finalizers := [clusterInstallFinalizerName], deletionTimestamp := some 0 }
  { sampleWorld.setICI sampleKey (some ici) with
    dataImages := fun k =>
      if k = sampleHost then
        some { url := "https://images", creationTimestamp := 0, finalizers := ["baremetal"] }
      else none }

def removalPass (σ : Rebooting Doc) : Rebooting Doc :=
  ⟨((reconcile Env.symbolic sampleKey).exec answer instantly σ.world).1,
    countReboots σ.reboots ((reconcile Env.symbolic sampleKey).trace answer instantly σ.world)⟩

/-- The baremetal operator has rebooted the hosts; the deletion is still under way. -/
def served (σ : Rebooting Doc) : Rebooting Doc :=
  { σ with world := { σ.world with
      bmhs := fun k => (σ.world.bmhs k).map fun bmh => { bmh with annotations := fun _ => none } } }

section Removal

variable {C : Rebooting Doc → RebootEvent Doc → Prop} {σ : Rebooting Doc}

theorem RebootRun.removalPass (h : RebootRun Env.symbolic C σ)
    (hC : C σ (.reconcilerPass sampleKey instantly)) :
    RebootRun Env.symbolic C (removalPass σ) := by
  have hfires : RebootEvent.Fires Env.symbolic σ (.reconcilerPass sampleKey instantly)
    (ImageBasedInstall.removalPass σ) := rfl
  exact .next h hC hfires

theorem RebootRun.served (h : RebootRun Env.symbolic C σ) (hC : C σ .others) :
    RebootRun Env.symbolic C (served σ) := by
  have hfires : RebootEvent.Fires Env.symbolic σ .others (ImageBasedInstall.served σ) :=
    ⟨fun _ d hd => ⟨d, hd, id⟩, rfl⟩
  exact .next h hC hfires

end Removal

/-- Two passes, the second one while the reboot is pending. -/
theorem host_rebooted_once_pending :
    (removalPass (removalPass { world := removalWorld })).reboots sampleHost = 1 ∧
      (removalPass (removalPass { world := removalWorld })).reboots sampleHost ≤ 1 := by
  have h₀ : RebootRun Env.symbolic SettledRemoval { world := removalWorld } := .start fun _ => rfl
  have hfirst : SettledRemoval { world := removalWorld } (.reconcilerPass sampleKey instantly) := by
    rintro host - ⟨d, hd, hmark⟩
    simp only [removalWorld] at hd
    split at hd
    · cases hd
      cases hmark
    · cases hd
  have hsecond : SettledRemoval (removalPass { world := removalWorld })
      (.reconcilerPass sampleKey instantly) := by
    rintro host ⟨ici, hici, href, -⟩ -
    have hnames : ((removalPass { world := removalWorld }).world.icis sampleKey).all fun ici =>
        ici.spec.bareMetalHostRef = some sampleHost := by decide +kernel
    have href' : ici.spec.bareMetalHostRef = some sampleHost := by simpa [hici] using hnames
    obtain rfl : host = sampleHost := Option.some.inj (href.symm.trans href')
    decide +kernel
  have h₂ := (h₀.removalPass hfirst).removalPass hsecond
  exact ⟨by decide +kernel, host_rebooted_once Env.symbolic _ h₂ sampleHost⟩

/-- The second pass finds the image marked and the first reboot done, and asks for another. -/
theorem host_rebooted_twice :
    ∃ σ, RebootRun Env.symbolic (fun _ _ => True) σ ∧ σ.reboots sampleHost = 2 := by
  have h₀ : RebootRun Env.symbolic (fun _ _ => True) { world := removalWorld } :=
    .start fun _ => rfl
  exact ⟨_, ((h₀.removalPass trivial).served trivial).removalPass trivial, by decide +kernel⟩

end ImageBasedInstall

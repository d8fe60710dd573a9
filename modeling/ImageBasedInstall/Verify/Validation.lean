import ImageBasedInstall.Verify.Boot
import ImageBasedInstall.Verify.Networks

/-!
# What the host check says about an install config

A pass writes the install config of the spec it read, for a host that it has checked at its start or
that was exempt from the check. The exemption is where the readings of the machine networks come
apart, and where an edit of the spec is never checked.
-/

namespace ImageBasedInstall

open Interactive

variable {B : Type} {E : Env B} {req : NamespacedName} {w₀ w w' : World B}

/-! ## Install configs -/

/-- The call writes the install config of the object stored in `w₀`, whose host was checked
there. -/
def ConfigFrom (E : Env B) (req : NamespacedName) (w₀ : World B) (op : Op B) : Prop :=
  ∃ ici host bmh, w₀.icis req = some ici ∧ ici.spec.bareMetalHostRef = some host ∧
    w₀.bmhs host = some bmh ∧ HostChecked E ici.spec bmh ∧
    ∃ path ic, op = .writeFile path (E.marshalInstallConfig ic) ∧
      Installer.parseNetworks E (Installer.getEffectiveMachineNetworks ici.spec) =
        .ok ic.machineNetwork

theorem machineNetworks_eq_of_configured {s t : Spec} (h : s.configured = t.configured) :
    s.machineNetwork = t.machineNetwork ∧ s.machineNetworks = t.machineNetworks :=
  ⟨show s.configured.machineNetwork = t.configured.machineNetwork from by rw [h],
    show s.configured.machineNetworks = t.configured.machineNetworks from by rw [h]⟩

theorem HostChecked.of_configured {s t : Spec} {bmh : BareMetalHost} (h : HostChecked E s bmh)
    (hst : s.configured = t.configured) : HostChecked E t bmh := by
  obtain ⟨hlegacy, hnetworks⟩ := machineNetworks_eq_of_configured hst
  unfold HostChecked at h ⊢
  rwa [hlegacy, hnetworks] at h

theorem configFrom_of_build {inp : BuildInput} {uid : String} {dir : Path} {op : Op B}
    (h : BuildStart E req w₀ w inp uid) (hop : WritesNetworks E inp dir op) :
    ConfigFrom E req w₀ op := by
  obtain ⟨ici, hin, hspec, -, hready⟩ := h.object
  obtain ⟨ici₀, hs, -, -, hconf⟩ := hin.origin
  obtain ⟨bmh, hb, hcheck, -⟩ := h.checked
  have hconf₀ : inp.spec.configured = ici₀.spec.configured := by rw [hspec, hconf]
  have hhost : ici₀.spec.bareMetalHostRef = some inp.bmhKey := by
    rw [← Spec.bareMetalHostRef_eq_of_configured hconf, hready.hostRef]
  obtain ⟨hlegacy, hnetworks⟩ := machineNetworks_eq_of_configured hconf₀
  obtain ⟨hnets⟩ := hop
  refine ⟨ici₀, inp.bmhKey, bmh, hs, hhost, hb, hcheck.of_configured hconf₀, _, _, rfl, ?_⟩
  unfold Installer.getEffectiveMachineNetworks at hnets ⊢
  rw [← hlegacy, ← hnetworks]
  exact hnets

/-- No call outside the build writes an install config. -/
theorem writesInstallConfig_of_call {op : Op B} (h : PassCall E req w₀ w op) :
    op.writesInstallConfig = false := by
  cases h with
  | read ht => cases op <;> first | rfl | cases ht
  | tidy hs hdel h =>
    cases h with
    | lock => exact writesInstallConfig_join
    | _ => rfl
  | _ => rfl

variable [DecidableEq B]

/-- Every install config that a pass writes is that of the object it read. -/
theorem reconcile_configs (E : Env B) (req : NamespacedName) (w₀ : World B) :
    Meets (Running (fun _ _ _ _ => True)
        fun _ op _ _ => op.writesInstallConfig = true → ConfigFrom E req w₀ op)
      (reconcile E req) (ReportTrue E req) w₀ := by
  refine reconcile_guarded ⟨fun h _ _ _ _ _ hw => ?_, fun {w inp uid} h => ?_⟩
  · rw [writesInstallConfig_of_call h] at hw
    cases hw
  · have huses := writeInputData_uses_config
      (A := fun op => op.writesInstallConfig = true → ConfigFrom E req w₀ op)
      (fun op ht hw => by cases op <;> first | cases hw | cases ht)
      (fun op _ hf hw => by rw [hf] at hw; cases hw) E inp uid
      (fun op hs hw => by cases hs <;> cases hw) (fun _ hw => nomatch hw)
      fun dir op hop _ => configFrom_of_build h hop
    exact meets_permits huses fun _ _ hop _ _ _ _ _ => hop

theorem configFrom_of_trace {cs : List (Choice B)} {t : Transition (Op B) Resp (World B) (Choice B)}
    (ht : t ∈ (reconcile E req).trace answer cs w₀) (hw : t.op.writesInstallConfig = true) :
    ConfigFrom E req w₀ t.op :=
  (reconcile_configs E req w₀).trace cs (traceOk_true cs) t ht hw

/-! ## The readings of the machine networks -/

/-- The legacy field and the list say the same, as the API documents. -/
def Spec.networksMatch (s : Spec) : Prop :=
  s.machineNetwork = "" ∨ s.machineNetworks.items = [] ∨
    s.machineNetworks.items.head? = some s.machineNetwork

instance (s : Spec) : Decidable s.networksMatch := by
  unfold Spec.networksMatch
  infer_instance

/-- Webhook, installer and host check read the same list. -/
structure NetworksAgree (s : Spec) : Prop where
  webhook : getEffectiveMachineNetworks s.machineNetwork s.machineNetworks =
    Installer.getEffectiveMachineNetworks s
  host : getEffectiveMachineNetworksCIDRs s.machineNetwork s.machineNetworks =
    .ok (Installer.getEffectiveMachineNetworks s)
  documented : s.networksMatch

omit [DecidableEq B] in
theorem getEffectiveMachineNetworksCIDRs_of_match {s : Spec} (h : s.networksMatch) :
    getEffectiveMachineNetworksCIDRs s.machineNetwork s.machineNetworks =
      .ok (Installer.getEffectiveMachineNetworks s) := by
  unfold Spec.networksMatch at h
  unfold getEffectiveMachineNetworksCIDRs Installer.getEffectiveMachineNetworks
    getEffectiveMachineNetworks
  cases hitems : s.machineNetworks.items with
  | nil => by_cases hlegacy : s.machineNetwork = "" <;> simp [hlegacy]
  | cons first rest =>
    have hok : ¬(s.machineNetwork ≠ "" ∧ s.machineNetwork ≠ first) := by
      rintro ⟨hne, hdiff⟩
      rw [hitems] at h
      rcases h with h | h | h
      · exact hne h
      · cases h
      · exact hdiff (Option.some.inj h).symm
    simp [hok]

omit [DecidableEq B] in
theorem networksMatch_of_ok {s : Spec} {l : List String}
    (h : getEffectiveMachineNetworksCIDRs s.machineNetwork s.machineNetworks = .ok l) :
    s.networksMatch := by
  unfold getEffectiveMachineNetworksCIDRs at h
  split at h
  · next first rest hitems =>
    split_ifs at h with hdiff
    simp only [not_and, not_not] at hdiff
    by_cases hlegacy : s.machineNetwork = ""
    · exact .inl hlegacy
    · exact .inr (.inr (by rw [hitems, hdiff hlegacy]; rfl))
  · next hitems => exact .inr (.inl hitems)

omit [DecidableEq B] in
theorem networksAgree_iff {s : Spec} : NetworksAgree s ↔ s.networksMatch :=
  ⟨fun h => h.documented, fun h => ⟨rfl, getEffectiveMachineNetworksCIDRs_of_match h, h⟩⟩

/-- The host is subject to the check. -/
def Examined (bmh : BareMetalHost) : Prop :=
  bmh.externallyProvisioned = false ∧ isInspectionEnabled bmh = true

instance (bmh : BareMetalHost) : Decidable (Examined bmh) := by
  unfold Examined
  infer_instance

omit [DecidableEq B] in
theorem HostChecked.examined {s : Spec} {bmh : BareMetalHost} (h : HostChecked E s bmh)
    (hex : Examined bmh) : ∃ nics, bmh.hardwareDetails = some nics ∧
      validateBMHMachineNetworks E s.machineNetwork s.machineNetworks nics = .ok () := by
  rcases h with h | h | h
  · rw [hex.1] at h
    cases h
  · rw [hex.2] at h
    cases h
  · exact h

/-- A pass that writes an install config writes the networks the installer reads from the spec. The
three readings agree exactly if the host was examined or the two fields match anyway. -/
theorem install_config_networks_agree_iff (E : Env B) (req : NamespacedName) (w₀ : World B)
    (cs : List (Choice B)) (t : Transition (Op B) Resp (World B) (Choice B))
    (ht : t ∈ (reconcile E req).trace answer cs w₀) (hw : t.op.writesInstallConfig = true) :
    ∃ ici host bmh, w₀.icis req = some ici ∧ ici.spec.bareMetalHostRef = some host ∧
      w₀.bmhs host = some bmh ∧
      (∃ path ic, t.op = .writeFile path (E.marshalInstallConfig ic) ∧
        Installer.parseNetworks E (Installer.getEffectiveMachineNetworks ici.spec) =
          .ok ic.machineNetwork) ∧
      (NetworksAgree ici.spec ↔ Examined bmh ∨ ici.spec.networksMatch) := by
  obtain ⟨ici, host, bmh, hs, href, hb, hcheck, hwritten⟩ := configFrom_of_trace ht hw
  refine ⟨ici, host, bmh, hs, href, hb, hwritten, ?_⟩
  rw [networksAgree_iff]
  constructor
  · exact .inr
  · rintro (hex | hmatch)
    · obtain ⟨nics, -, hok⟩ := hcheck.examined hex
      obtain ⟨l, hl, -⟩ := (validateBMHMachineNetworks_ok_iff E _ _ nics).1 hok
      exact networksMatch_of_ok hl
    · exact hmatch

/-- The sample run up to the pass that builds the image, the spec edited before. -/
def editedStart (f : Spec → Spec) : World Doc :=
  samplePass sampleKey instantly (sampleStart.edit sampleKey f)

theorem install_config_networks_agree_sample :
    let w := editedStart fun s => { s with machineNetwork := "10.0.0.0/8" }
    ∃ t ∈ (reconcile Env.symbolic sampleKey).trace answer instantly w,
      t.op.writesInstallConfig = true ∧
      ∃ ici, w.icis sampleKey = some ici ∧ NetworksAgree ici.spec := by
  intro w
  have hwrites : ∃ t ∈ (reconcile Env.symbolic sampleKey).trace answer instantly w,
      t.op.writesInstallConfig = true := by decide +kernel
  have hmatch : (w.icis sampleKey).all fun ici => decide ici.spec.networksMatch := by
    decide +kernel
  obtain ⟨t, ht, hw⟩ := hwrites
  obtain ⟨ici, host, bmh, hs, -, -, -, hiff⟩ :=
    install_config_networks_agree_iff Env.symbolic sampleKey w instantly t ht hw
  rw [hs] at hmatch
  exact ⟨t, ht, hw, ici, hs, hiff.2 (.inr (by simpa using hmatch))⟩

/-- The host is exempt: a pass writes the install config of a spec that the webhook accepts although
its legacy network is not the first of the list. -/
theorem install_config_networks_differ :
    let w := editedStart fun s => { s with
      machineNetwork := "10.0.0.0/8", machineNetworks := some ["192.168.0.0/16"] }
    (∃ t ∈ (reconcile Env.symbolic sampleKey).trace answer instantly w,
      t.op.writesInstallConfig = true) ∧
    ∃ ici, w.icis sampleKey = some ici ∧ validate Env.symbolic.parsers ici.spec = .ok () ∧
      ¬NetworksAgree ici.spec := by
  intro w
  refine ⟨by decide +kernel, ?_⟩
  have hspec : (w.icis sampleKey).any fun ici =>
      (validate Env.symbolic.parsers ici.spec).toBool && decide (¬ici.spec.networksMatch) := by
    decide +kernel
  obtain ⟨ici, hs, h⟩ := (Option.any_eq_true _ _).1 hspec
  obtain ⟨hvalid, hdiffer⟩ := Bool.and_eq_true_iff.1 h
  exact ⟨ici, hs, toBool_iff.1 hvalid, fun hagree => of_decide_eq_true hdiffer hagree.documented⟩

/-! ## The check across passes

A host that passed its check is marked as externally provisioned, and the mark exempts it from then
on. The runs are those of passes over one object, of admitted updates of it, and of what others do
who neither mark a host nor switch its inspection off. -/

/-- The check of the host's hardware details succeeds for the spec. -/
def Fits (E : Env B) (s : Spec) (bmh : BareMetalHost) : Prop :=
  ∃ nics, bmh.hardwareDetails = some nics ∧
    validateBMHMachineNetworks E s.machineNetwork s.machineNetworks nics = .ok ()

instance (E : Env B) (s : Spec) (bmh : BareMetalHost) : Decidable (Fits E s bmh) :=
  decidable_of_iff (bmh.hardwareDetails.any fun nics =>
      (validateBMHMachineNetworks E s.machineNetwork s.machineNetworks nics).toBool) (by
    simp [Fits, Option.any_eq_true, toBool_iff])

inductive CheckEvent (B : Type) where
  | pass (choices : List (Choice B))
  | update (new : ImageClusterInstall)
  | others (after : World B)

/-- What others may do to the object and to the hosts it ever names. -/
structure LeavesMarks (req : NamespacedName) (named : NamespacedName → Prop) (w w' : World B) :
    Prop where
  object : ∀ ici', w'.icis req = some ici' →
    ∃ ici, w.icis req = some ici ∧ ici'.spec.configured = ici.spec.configured
  inspected : ∀ host bmh', named host → w'.bmhs host = some bmh' → isInspectionEnabled bmh' = true
  marked : ∀ host bmh', named host → w'.bmhs host = some bmh' →
    bmh'.externallyProvisioned = true →
      ∃ bmh, w.bmhs host = some bmh ∧ bmh.externallyProvisioned = true

def CheckEvent.Fires (E : Env B) (req : NamespacedName) (named : NamespacedName → Prop)
    (w : World B) : CheckEvent B → World B → Prop
  | .pass cs, w' => w' = ((reconcile E req).exec answer cs w).1
  | .update new, w' => ∃ ici, w.icis req = some ici ∧ validateUpdate E.parsers ici new = .ok () ∧
    new.status = ici.status ∧ (∀ host, new.spec.bareMetalHostRef = some host → named host) ∧
    w' = w.setICI req (some new)
  | .others after, w' => LeavesMarks req named w after ∧ w' = after

/-- No host is marked yet. -/
structure Unmarked (req : NamespacedName) (named : NamespacedName → Prop) (w : World B) : Prop where
  refs : ∀ ici host, w.icis req = some ici → ici.spec.bareMetalHostRef = some host → named host
  inspected : ∀ host bmh, named host → w.bmhs host = some bmh → isInspectionEnabled bmh = true
  unmarked : ∀ host bmh, named host → w.bmhs host = some bmh → bmh.externallyProvisioned = false

/-- While the host is marked, no update changes the networks or turns to the host, and its hardware
stays. -/
def KeepsChecked (req : NamespacedName) (named : NamespacedName → Prop) (w : World B) :
    CheckEvent B → Prop
  | .pass _ => True
  | .update new => ∀ ici host bmh, w.icis req = some ici →
    new.spec.bareMetalHostRef = some host → w.bmhs host = some bmh →
    bmh.externallyProvisioned = true → ici.spec.bareMetalHostRef = some host ∧
      new.spec.machineNetwork = ici.spec.machineNetwork ∧
      new.spec.machineNetworks = ici.spec.machineNetworks
  | .others w' => ∀ host bmh bmh', named host → w.bmhs host = some bmh → w'.bmhs host = some bmh' →
    bmh.externallyProvisioned = true → bmh'.externallyProvisioned = true →
      bmh'.hardwareDetails = bmh.hardwareDetails

/-- `w` is reached by a run whose steps all meet `C`. -/
abbrev CheckRun (E : Env B) (req : NamespacedName) (named : NamespacedName → Prop)
    (C : World B → CheckEvent B → Prop) : World B → Prop :=
  Reaches (CheckEvent.Fires E req named) C (Unmarked req named)

/-- A marked host fits the spec of the object. -/
structure MarksEarned (E : Env B) (req : NamespacedName) (named : NamespacedName → Prop)
    (w : World B) : Prop where
  refs : ∀ ici host, w.icis req = some ici → ici.spec.bareMetalHostRef = some host → named host
  inspected : ∀ host bmh, named host → w.bmhs host = some bmh → isInspectionEnabled bmh = true
  fits : ∀ ici host bmh, w.icis req = some ici → ici.spec.bareMetalHostRef = some host →
    w.bmhs host = some bmh → bmh.externallyProvisioned = true → Fits E ici.spec bmh

section Marks

variable {named : NamespacedName → Prop} {s t : Spec} {bmh bmh' : BareMetalHost}

omit [DecidableEq B] in
theorem Fits.of_eq (h : Fits E s bmh) (hlegacy : t.machineNetwork = s.machineNetwork)
    (hnetworks : t.machineNetworks = s.machineNetworks)
    (hdetails : bmh'.hardwareDetails = bmh.hardwareDetails) : Fits E t bmh' := by
  unfold Fits
  rw [hlegacy, hnetworks, hdetails]
  exact h

omit [DecidableEq B] in
theorem setAnnotationIfNotExists_of_ne {annotations : String → Option String} {k key value : String}
    (h : k ≠ key) : (setAnnotationIfNotExists annotations key value).1 k = annotations k := by
  unfold setAnnotationIfNotExists
  split
  · rfl
  · exact Function.update_of_ne h ..

omit [DecidableEq B] in
theorem booted_inspect (bmh : BareMetalHost) (d : DataImage) :
    (bmh.booted d).annotations inspectAnnotation = bmh.annotations inspectAnnotation := by
  have hreboot : inspectAnnotation ≠ rebootAnnotation := by decide
  have hmanaged : inspectAnnotation ≠ ibioManagedBMH := by decide
  simp only [BareMetalHost.booted, setAnnotationIfNotExists_of_ne hmanaged]
  split
  · exact setAnnotationIfNotExists_of_ne hreboot
  · rfl

/-- The object names the host, which has no mark yet and passed the check, or was exempt. -/
def Vouched (E : Env B) (req : NamespacedName) (w₀ w : World B) (host : NamespacedName)
    (bmh : BareMetalHost) : Prop :=
  bmh.externallyProvisioned = false ∧ ∃ ici, InHand req w₀ w ici ∧
    ici.spec.bareMetalHostRef = some host ∧ HostChecked E ici.spec bmh

omit [DecidableEq B] in
/-- A patch of a host leaves its hardware details, and its mark unless the host was vouched for. -/
theorem host_of_patch {key host : NamespacedName} {base new : BareMetalHost} {c : Choice B}
    {r : Except Err BareMetalHost}
    (hc : answer (.patchBMH key base new) c w = (r, w')) (hb : w.bmhs key = some base)
    (hann : new.annotations inspectAnnotation = base.annotations inspectAnnotation)
    (hmark : new.externallyProvisioned = base.externallyProvisioned ∨ Vouched E req w₀ w key base)
    (hb' : w'.bmhs host = some bmh') :
    ∃ bmh, w.bmhs host = some bmh ∧ bmh'.hardwareDetails = bmh.hardwareDetails ∧
      isInspectionEnabled bmh' = isInspectionEnabled bmh ∧
      (bmh'.externallyProvisioned = bmh.externallyProvisioned ∨ Vouched E req w₀ w host bmh) := by
  have hstored : ∀ a, w.bmhs key = some a → w' = w.setBMH key (.merge base new a) →
      ∃ bmh, w.bmhs host = some bmh ∧ bmh'.hardwareDetails = bmh.hardwareDetails ∧
        isInspectionEnabled bmh' = isInspectionEnabled bmh ∧
        (bmh'.externallyProvisioned = bmh.externallyProvisioned ∨ Vouched E req w₀ w host bmh) := by
    rintro a ha rfl
    obtain rfl : base = a := Option.some.inj (hb.symm.trans ha)
    by_cases heq : host = key
    · subst heq
      obtain rfl : BareMetalHost.merge base new base = bmh' := by simpa [World.setBMH] using hb'
      refine ⟨base, hb, rfl, ?_, ?_⟩
      · simp [isInspectionEnabled, BareMetalHost.merge, hann]
      · simpa [BareMetalHost.merge] using hmark
    · exact ⟨bmh', by simpa [World.setBMH, heq] using hb', rfl, rfl, .inl rfl⟩
  cases answer_patchBMH hc with
  | stored a ha => exact hstored a ha rfl
  | lost a ha e => exact hstored a ha rfl
  | failed e => exact ⟨bmh', hb', rfl, rfl, .inl rfl⟩

omit [DecidableEq B] in
/-- A call of a pass sets the mark only on a host that was vouched for. -/
theorem host_of_call {op : Op B} {c : Choice B} {r : Resp op} {host : NamespacedName}
    (h : PassCall E req w₀ w op) (hc : answer op c w = (r, w')) (hb' : w'.bmhs host = some bmh') :
    ∃ bmh, w.bmhs host = some bmh ∧ bmh'.hardwareDetails = bmh.hardwareDetails ∧
      isInspectionEnabled bmh' = isInspectionEnabled bmh ∧
      (bmh'.externallyProvisioned = bmh.externallyProvisioned ∨ Vouched E req w₀ w host bmh) := by
  by_cases ht : op.target = .bmh
  · have hreboot : inspectAnnotation ≠ rebootAnnotation := by decide
    cases h with
    | read hn => rw [hn] at ht; cases ht
    | tidy _ _ htidy => rw [htidy.target] at ht; cases ht
    | labelHost hs hl => exact host_of_patch hc hs rfl (.inl rfl) hb'
    | disableCleaning _ _ hs => exact host_of_patch hc hs rfl (.inl rfl) hb'
    | reboot _ _ _ hs hno =>
      exact host_of_patch hc hs (by simp [Function.update_of_ne hreboot]) (.inl rfl) hb'
    | manage _ _ hs => exact host_of_patch hc hs (booted_inspect _ _) (.inl rfl) hb'
    | @provision ici _ _ hin href hs hnew hcheck =>
      exact host_of_patch hc hs rfl (.inr ⟨hnew, ici, hin, href, hcheck⟩) hb'
    | _ => cases ht
  · refine ⟨bmh', ?_, rfl, rfl, .inl rfl⟩
    rw [← (answer_framed hc).bmhs (by simpa using fun h => ht h.symm)]
    exact hb'

omit [DecidableEq B] in
theorem HostChecked.fits (h : HostChecked E s bmh) (hmark : bmh.externallyProvisioned = false)
    (hi : isInspectionEnabled bmh = true) : Fits E s bmh :=
  h.examined ⟨hmark, hi⟩

omit [DecidableEq B] in
theorem MarksEarned.of_eq (h : MarksEarned E req named w) (hicis : w'.icis = w.icis)
    (hbmhs : w'.bmhs = w.bmhs) : MarksEarned E req named w' := by
  constructor
  · rw [hicis]
    exact h.refs
  · rw [hbmhs]
    exact h.inspected
  · rw [hicis, hbmhs]
    exact h.fits

omit [DecidableEq B] in
/-- One call: a new mark follows a check of the stored spec. -/
theorem marksEarned_of_call {op : Op B} {c : Choice B} {r : Resp op} (hop : PassCall E req w₀ w op)
    (hc : answer op c w = (r, w')) (h : MarksEarned E req named w) :
    MarksEarned E req named w' := by
  have hkept := (passStep_of_call hop hc).icis.kept
  constructor
  · intro ici' host hs' href
    obtain ⟨ici, hs, -, hconf, -⟩ := hkept req ici' hs'
    exact h.refs ici host hs (Spec.bareMetalHostRef_eq_of_configured hconf ▸ href)
  · intro host bmh' hn hb'
    obtain ⟨bmh, hb, -, hi, -⟩ := host_of_call hop hc hb'
    rw [hi]
    exact h.inspected host bmh hn hb
  · intro ici' host bmh' hs' href' hb' hmark'
    obtain ⟨ici, hs, -, hconf, -⟩ := hkept req ici' hs'
    have href : ici.spec.bareMetalHostRef = some host :=
      Spec.bareMetalHostRef_eq_of_configured hconf ▸ href'
    obtain ⟨hlegacy, hnetworks⟩ := machineNetworks_eq_of_configured hconf
    obtain ⟨bmh, hb, hdetails, -, hm | ⟨hnew, copy, hin, -, hcheck⟩⟩ := host_of_call hop hc hb'
    · exact (h.fits ici host bmh hs href hb (hm ▸ hmark')).of_eq hlegacy hnetworks hdetails
    · obtain ⟨stored, hstored, hcore⟩ := hin.synced
      obtain rfl : ici = stored := Option.some.inj (hs.symm.trans hstored)
      obtain ⟨-, -, -, -, -, hspec, -⟩ := core_eq_iff.1 hcore
      have hi := h.inspected host bmh (h.refs ici host hs href) hb
      exact ((hspec ▸ hcheck).fits hnew hi).of_eq hlegacy hnetworks hdetails

/-- A whole pass, also one that is cut short. -/
theorem marksEarned_pass {cs : List (Choice B)} (h : MarksEarned E req named w) :
    MarksEarned E req named ((reconcile E req).exec answer cs w).1 := by
  have hpass : Meets (Running (fun _ _ _ _ => True)
      fun w _ _ w' => MarksEarned E req named w → MarksEarned E req named w')
      (reconcile E req) (ReportTrue E req) w := by
    refine reconcile_guarded (.of_calls (fun hop c r w' hc _ => marksEarned_of_call hop hc) ?_)
    intro w op ht c r w' hc _ h
    have hframe : Framed [.nothing, .file, .secret, .iso] w w' :=
      (answer_framed hc).mono (by simpa using ht)
    exact h.of_eq (hframe.icis (by decide)) (hframe.bmhs (by decide))
  exact hpass.last cs (traceOk_true cs) (fun _ _ _ _ h hg => hg h) h

theorem reached_marksEarned (h : CheckRun E req named (KeepsChecked req named) w) :
    MarksEarned E req named w := by
  refine h.invariant (fun w hw => ⟨hw.refs, hw.inspected, ?_⟩) fun w ev w' hI hC hs => ?_
  · intro ici host bmh hici href hb hmark
    rw [hw.unmarked host bmh (hw.refs ici host hici href) hb] at hmark
    cases hmark
  cases ev with
  | pass cs =>
    cases hs
    exact marksEarned_pass hI
  | update new =>
    obtain ⟨ici, hici, -, -, hnamed, rfl⟩ := hs
    have hstored : ∀ ici', (w.setICI req (some new)).icis req = some ici' → ici' = new := by
      intro ici' h'
      simpa [World.setICI, eq_comm] using h'
    constructor
    · intro ici' host hs' href
      exact hnamed host (hstored ici' hs' ▸ href)
    · exact hI.inspected
    · intro ici' host bmh hs' href hb hmark
      obtain rfl := hstored ici' hs'
      obtain ⟨href₀, hlegacy, hnetworks⟩ := hC ici host bmh hici href hb hmark
      exact (hI.fits ici host bmh hici href₀ hb hmark).of_eq hlegacy hnetworks rfl
  | others after =>
    obtain ⟨ho, rfl⟩ := hs
    constructor
    · intro ici' host hs' href
      obtain ⟨ici, hici, hconf⟩ := ho.object ici' hs'
      exact hI.refs ici host hici (Spec.bareMetalHostRef_eq_of_configured hconf ▸ href)
    · exact ho.inspected
    · intro ici' host bmh' hs' href' hb' hmark'
      obtain ⟨ici, hici, hconf⟩ := ho.object ici' hs'
      have href : ici.spec.bareMetalHostRef = some host :=
        Spec.bareMetalHostRef_eq_of_configured hconf ▸ href'
      have hn := hI.refs ici host hici href
      obtain ⟨bmh, hb, hmark⟩ := ho.marked host bmh' hn hb' hmark'
      obtain ⟨hlegacy, hnetworks⟩ := machineNetworks_eq_of_configured hconf
      exact (hI.fits ici host bmh hici href hb hmark).of_eq hlegacy hnetworks
        (hC host bmh bmh' hn hb hb' hmark hmark')

/-- In a run that keeps the spec and the hardware of a marked host, every install config is written
for a host that fits it. -/
theorem install_configs_checked (E : Env B) (req : NamespacedName) (named : NamespacedName → Prop)
    (w : World B) (h : CheckRun E req named (KeepsChecked req named) w) (cs : List (Choice B))
    (t : Transition (Op B) Resp (World B) (Choice B)) (ht : t ∈ (reconcile E req).trace answer cs w)
    (hw : t.op.writesInstallConfig = true) :
    ∃ ici host bmh, w.icis req = some ici ∧ ici.spec.bareMetalHostRef = some host ∧
      w.bmhs host = some bmh ∧ Fits E ici.spec bmh := by
  obtain ⟨ici, host, bmh, hici, href, hb, hcheck, -⟩ := configFrom_of_trace ht hw
  have hI := reached_marksEarned h
  refine ⟨ici, host, bmh, hici, href, hb, ?_⟩
  cases hmark : bmh.externallyProvisioned with
  | true => exact hI.fits ici host bmh hici href hb hmark
  | false => exact hcheck.fits hmark (hI.inspected host bmh (hI.refs ici host hici href) hb)

end Marks

/-! ### An edit that is not checked -/

/-- The sample objects; the host is available and has no NIC. -/
def availableStart : World Doc :=
  { sampleStart with
    bmhs := fun k => if k = sampleHost then some { hardwareDetails := some [] } else none }

/-- A pass that stops after `n` calls. -/
def samplePrefix (n : Nat) (w : World Doc) : World Doc :=
  samplePass sampleKey (List.replicate n {}) w

theorem availableStart_unmarked : Unmarked sampleKey (· = sampleHost) availableStart := by
  have hhost : availableStart.bmhs sampleHost = some { hardwareDetails := some [] } := by
    simp [availableStart]
  refine ⟨fun ici host hs href => ?_, ?_, ?_⟩
  · obtain rfl : sampleICI = ici := by
      simpa [availableStart, sampleStart, World.setICI, sampleKey, otherKey] using hs
    exact (Option.some.inj href).symm
  · rintro _ bmh rfl hb
    rw [hhost] at hb
    cases hb
    decide
  · rintro _ bmh rfl hb
    rw [hhost] at hb
    cases hb
    rfl

theorem CheckRun.pass {named : NamespacedName → Prop} {C : World B → CheckEvent B → Prop}
    (h : CheckRun E req named C w) (cs : List (Choice B)) (hC : C w (.pass cs)) :
    CheckRun E req named C ((reconcile E req).exec answer cs w).1 :=
  .next h hC rfl

theorem CheckRun.edit {named : NamespacedName → Prop} {C : World B → CheckEvent B → Prop}
    {f : Spec → Spec} (h : CheckRun E req named C w) (hadm : w.admits E req f = true)
    (hC : ∀ new, C w (.update new))
    (hnamed : ∀ ici host, w.icis req = some ici → (f ici.spec).bareMetalHostRef = some host →
      named host) : CheckRun E req named C (w.edit req f) := by
  obtain ⟨ici, hici, hv, hedit⟩ := admits_edit hadm
  exact .next h (hC _) ⟨ici, hici, hv, rfl, fun host href => hnamed ici host hici href, hedit⟩

theorem install_configs_checked_sample :
    let w := samplePrefix 17 (samplePrefix 17 availableStart)
    ∃ t ∈ (reconcile Env.symbolic sampleKey).trace answer instantly w,
      t.op.writesInstallConfig = true ∧
      ∃ ici host bmh, w.icis sampleKey = some ici ∧ ici.spec.bareMetalHostRef = some host ∧
        w.bmhs host = some bmh ∧ Fits Env.symbolic ici.spec bmh := by
  intro w
  have hreach : CheckRun Env.symbolic sampleKey (· = sampleHost)
      (KeepsChecked sampleKey (· = sampleHost)) w :=
    (CheckRun.pass (.start availableStart_unmarked) _ trivial).pass _ trivial
  have hwrites : ∃ t ∈ (reconcile Env.symbolic sampleKey).trace answer instantly w,
      t.op.writesInstallConfig = true := by decide +kernel
  obtain ⟨t, ht, hw⟩ := hwrites
  exact ⟨t, ht, hw, install_configs_checked Env.symbolic sampleKey _ w hreach instantly t ht hw⟩

/-- The operator stops right after it has marked the host; the networks are edited; the next pass
skips the check and writes networks in which the host has no address. -/
theorem install_config_unchecked :
    ∃ w, CheckRun Env.symbolic sampleKey (· = sampleHost) (fun _ _ => True) w ∧
      (∃ t ∈ (reconcile Env.symbolic sampleKey).trace answer instantly w,
        t.op.writesInstallConfig = true) ∧
      ∃ ici bmh, w.icis sampleKey = some ici ∧ ici.spec.bareMetalHostRef = some sampleHost ∧
        w.bmhs sampleHost = some bmh ∧ ¬Fits Env.symbolic ici.spec bmh := by
  let marked := samplePrefix 17 (samplePrefix 17 availableStart)
  let edited := marked.edit sampleKey fun s => { s with machineNetwork := "10.0.0.0/8" }
  have hrefs : (marked.icis sampleKey).all fun ici =>
      decide (ici.spec.bareMetalHostRef = some sampleHost) := by decide +kernel
  have hunfit : (edited.icis sampleKey).any fun ici => (edited.bmhs sampleHost).any fun bmh =>
      decide (ici.spec.bareMetalHostRef = some sampleHost ∧ ¬Fits Env.symbolic ici.spec bmh) := by
    decide +kernel
  obtain ⟨ici, hici, h⟩ := (Option.any_eq_true _ _).1 hunfit
  obtain ⟨bmh, hb, h⟩ := (Option.any_eq_true _ _).1 h
  obtain ⟨href, hnot⟩ := of_decide_eq_true h
  refine ⟨edited, ?_, by decide +kernel, ici, bmh, hici, href, hb, hnot⟩
  have hmarked : CheckRun Env.symbolic sampleKey (· = sampleHost) (fun _ _ => True) marked :=
    (CheckRun.pass (.start availableStart_unmarked) _ trivial).pass _ trivial
  refine hmarked.edit (by decide +kernel) (fun _ => trivial) fun ici host hici href => ?_
  rw [hici] at hrefs
  have hsample : ici.spec.bareMetalHostRef = some sampleHost := by simpa using hrefs
  exact Option.some.inj (href.symm.trans hsample)

end ImageBasedInstall

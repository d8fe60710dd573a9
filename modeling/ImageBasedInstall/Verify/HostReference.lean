import ImageBasedInstall.Verify.Boot
import ImageBasedInstall.Verify.Interleaving

/-!
# The host reference of the status

Passes of both controllers interleave with edits of the spec that the webhook admits. A pass reads
the host once and records, at its end, the reference that its copy of the spec has by then. As long
as no edit changes the reference of an object while a pass of the reconciler over it is under way,
the status names the host of that pass, and goes on to agree with the spec, which is frozen from
then on.
-/

namespace ImageBasedInstall

open Interactive Patch

variable {B : Type}

/-- What happens between the calls: an admitted edit, or changes that leave the objects alone. -/
inductive UserStep where
  | update (key : NamespacedName) (spec : Spec)
  | others

def UserStep.Fires (E : Env B) (w : World B) : UserStep → World B → Prop
  | .update key spec, w' => ∃ ici, w.icis key = some ici ∧
    validateUpdate E.parsers ici { ici with spec } = .ok () ∧
    w' = w.setICI key (some { ici with spec })
  | .others, w' => w'.icis = w.icis

/-- An edit does not change the host reference of an object while a pass of the reconciler over it
is under way. -/
def RefSettled (cfg : Passes B) : Label (Choice B) Request UserStep → Prop
  | .env (.update key spec) => ∀ i t, cfg.threads i = some t → t.live = true →
    t.tag = ⟨.reconciler, key⟩ → ∀ ici, cfg.world.icis key = some ici →
    spec.bareMetalHostRef = ici.spec.bareMetalHostRef
  | _ => True

/-- A host reference in the status is that of the spec. -/
def RefsAgree (w : World B) : Prop :=
  ∀ key ici host, w.icis key = some ici → ici.status.bareMetalHostRef = some host →
    ici.spec.bareMetalHostRef = some host

/-! ## The patches -/

/-- What a pass does to the two references, when its copies have the reference `ref` in their spec:
it leaves them, or it records a host whose `DataImage` it has got and that it has got managed. -/
def RefShape (req : Request) (ref : Option NamespacedName) (l : Calls B) : Op B → Prop
  | .patchICI key base new =>
    key = req.key ∧ new.spec.bareMetalHostRef = base.spec.bareMetalHostRef
  | .patchICIStatus key base new =>
    key = req.key ∧ (new.status.bareMetalHostRef = base.status.bareMetalHostRef ∨
      req.controller = .reconciler ∧ ∃ host, new.status.bareMetalHostRef = some host ∧
        ref = some host ∧ ImageSeen host l ∧ ManagedSeen host l)
  | _ => True

theorem refShape_other (req : Request) (ref : Option NamespacedName) (l : Calls B) (op : Op B)
    (h : op.target ≠ .ici) : RefShape req ref l op := by
  cases op with
  | patchICI key base new => exact absurd rfl h
  | patchICIStatus key base new => exact absurd rfl h
  | _ => trivial

/-- The copies of a pass of the reconciler have the reference `ref`. -/
def RefCopies (req : Request) (ref : Option NamespacedName) : CopyPred :=
  fun ref' _ => req.controller = .reconciler → ref' = ref

theorem refShape_passRules {req : Request} (hreq : req.controller = .reconciler)
    (ref : Option NamespacedName) :
    PassRules (B := B) req.key (RefCopies req ref) (RefShape req ref) where
  other := refShape_other _ _
  object _ _ _ _ href := ⟨rfl, href⟩
  conditions _ _ _ _ _ := ⟨rfl, .inl rfl⟩
  boot l ici host t hJ _ hhost himage hmanaged := by
    obtain ⟨_, hhost⟩ := hhost
    exact ⟨rfl, .inr ⟨hreq, host, (hJ hreq).trans (hhost hreq).symm, (hhost hreq).symm, himage,
      hmanaged⟩⟩
  edited _ _ _ hJ _ := hJ

theorem refShape_monitorRules (req : Request) (ref : Option NamespacedName) :
    MonitorRules (B := B) req.key (RefCopies req ref) (RefShape req ref) where
  other := refShape_other _ _
  report _ _ _ _ _ _ _ _ := ⟨rfl, .inl rfl⟩

section Calls

variable {w : World B} {op : Op B} {key : NamespacedName} {ici : ImageClusterInstall}
  {req : Request} {ref : Option NamespacedName} {l : Calls B}

/-- A call leaves the references of the specs alone. -/
theorem specRef_after (hop : RefShape req ref l op) (h : IciAfter w key op ici) :
    ∃ stored, w.icis key = some stored ∧
      ici.spec.bareMetalHostRef = stored.spec.bareMetalHostRef := by
  cases h with
  | kept h => exact ⟨ici, h, rfl⟩
  | @patched base new stored h =>
    refine ⟨stored, h, ?_⟩
    change mergeField base.spec.bareMetalHostRef new.spec.bareMetalHostRef _ = _
    rw [hop.2, mergeField_unchanged]
  | @statusPatched base new stored h => exact ⟨stored, h, rfl⟩

/-- A call leaves the reference of a status alone, or a pass over the object records a host. -/
theorem statusRef_after (hop : RefShape req ref l op) (h : IciAfter w key op ici) :
    (∃ stored, w.icis key = some stored ∧
      ici.status.bareMetalHostRef = stored.status.bareMetalHostRef) ∨
    (req = ⟨.reconciler, key⟩ ∧ ∃ host, ici.status.bareMetalHostRef = some host ∧
      ref = some host ∧ ImageSeen host l ∧ ManagedSeen host l) := by
  cases h with
  | kept h => exact .inl ⟨ici, h, rfl⟩
  | @patched base new stored h => exact .inl ⟨stored, h, rfl⟩
  | @statusPatched base new stored h =>
    obtain ⟨hkey, hsame | ⟨hwho, host, hnew, href, hseen⟩⟩ := hop
    · refine .inl ⟨stored, h, ?_⟩
      change mergeField base.status.bareMetalHostRef new.status.bareMetalHostRef _ = _
      rw [hsame, mergeField_unchanged]
    · obtain ⟨hsame, heq⟩ | ⟨-, heq⟩ := mergeField_cases base.status.bareMetalHostRef
        new.status.bareMetalHostRef stored.status.bareMetalHostRef
      · exact .inl ⟨stored, h, heq⟩
      · refine .inr ⟨?_, host, heq.trans hnew, href, hseen⟩
        obtain ⟨controller, key'⟩ := req
        obtain rfl : controller = .reconciler := hwho
        rw [hkey]

end Calls

/-! ## Runs -/

/-- The reference that the copies of a pass of the reconciler have is also the stored one. -/
def RefThread (w : World B) (t : Thread (Op B) Resp Request) : Prop :=
  t.live = true → ∃ ref,
    (t.tag.controller = .reconciler → ∀ ici, w.icis t.tag.key = some ici →
      ici.spec.bareMetalHostRef = ref) ∧
    Meets (.logged (CopyReplies t.tag.key (RefCopies t.tag ref)) (RefShape t.tag ref)) t.prog
      (fun _ _ => True) t.log

section Steps

variable {w w' : World B} {t : Thread (Op B) Resp Request}

/-- Whatever leaves the references of the specs alone. -/
theorem RefThread.of_specRef (h : RefThread w t)
    (hw : ∀ key ici', w'.icis key = some ici' → ∃ ici, w.icis key = some ici ∧
      ici'.spec.bareMetalHostRef = ici.spec.bareMetalHostRef) : RefThread w' t := by
  intro hlive
  obtain ⟨ref, hstored, hmeets⟩ := h hlive
  refine ⟨ref, fun hc ici' hici' => ?_, hmeets⟩
  obtain ⟨ici, hici, heq⟩ := hw _ ici' hici'
  exact heq.trans (hstored hc ici hici)

theorem RefsAgree.update {E : Env B} {key : NamespacedName} {spec : Spec} (hw : RefsAgree w)
    (h : (UserStep.update key spec).Fires E w w') : RefsAgree w' := by
  obtain ⟨ici, hici, hv, rfl⟩ := h
  intro k ici' host hk hhost
  rcases setICI_some hk with ⟨rfl, heq⟩ | hk
  · cases heq
    have hhost : ici.status.bareMetalHostRef = some host := hhost
    -- a reference in the status freezes the spec
    have hfrozen := validateUpdate_frozen E.parsers hv (by simp [installationStarted, hhost])
    rw [← Spec.bareMetalHostRef_eq_of_configured hfrozen]
    exact hw k ici host hici hhost
  · exact hw k ici' host hk hhost

theorem RefThread.update {E : Env B} {key : NamespacedName} {spec : Spec} (ht : RefThread w t)
    (hsettled : t.live = true → t.tag = ⟨.reconciler, key⟩ → ∀ ici, w.icis key = some ici →
      spec.bareMetalHostRef = ici.spec.bareMetalHostRef)
    (h : (UserStep.update key spec).Fires E w w') : RefThread w' t := by
  obtain ⟨ici, hici, -, rfl⟩ := h
  intro hlive
  obtain ⟨ref, hstored, hmeets⟩ := ht hlive
  refine ⟨ref, fun hc ici' hici' => ?_, hmeets⟩
  rcases setICI_some hici' with ⟨hkey, heq⟩ | hk
  · cases heq
    have htag : t.tag = ⟨.reconciler, key⟩ := by rw [← hc, ← hkey]
    rw [hsettled hlive htag ici hici]
    exact hstored hc ici (hkey ▸ hici)
  · exact hstored hc ici' hk

end Steps

variable [DecidableEq B]

/-- Interleaved passes and admitted edits. -/
abbrev EditedRun (E : Env B) (cond : Passes B → Label (Choice B) Request UserStep → Prop)
    (w₀ : World B) :=
  Reaches (Sched answer (controllerPass E) (UserStep.Fires E)) cond
    (fun cfg => cfg = { world := w₀ })

theorem EditedRun.invariant {E : Env B} {w₀ : World B} {cfg : Passes B} (h₀ : RefsAgree w₀)
    (h : EditedRun E RefSettled w₀ cfg) :
    RefsAgree cfg.world ∧ ∀ i t, cfg.threads i = some t → RefThread cfg.world t := by
  refine Sched.invariant h ?_ ?_ ?_ ?_ ?_
  · rintro cfg rfl
    exact ⟨h₀, fun _ => rfl⟩
  · intro w req _ _
    refine ⟨(w.icis req.key).bind fun ici => ici.spec.bareMetalHostRef, fun _ ici hici => ?_, ?_⟩
    · rw [show w.icis req.key = some ici from hici]
      rfl
    · exact controllerPass_copy E (fun hc => refShape_passRules hc _) fun _ =>
        refShape_monitorRules req _
  · exact fun _ _ _ hlive => nomatch hlive
  · intro cfg i req log op k c _ _ hI hT
    obtain ⟨ref, hstored, hmeets⟩ := hT rfl
    have hop := call_allowed hmeets
    have hspec : ∀ key ici', (answer op c cfg.world).2.icis key = some ici' →
        ∃ ici, cfg.world.icis key = some ici ∧
          ici'.spec.bareMetalHostRef = ici.spec.bareMetalHostRef :=
      fun key ici' hici' => specRef_after hop (iciAfter_stored rfl hici')
    refine ⟨fun key ici' host hici' hhost => ?_, fun hlive => ⟨ref, fun hc ici' hici' => ?_, ?_⟩,
      fun t ht => ht.of_specRef hspec⟩
    · obtain ⟨ici, hici, href⟩ := hspec key ici' hici'
      rw [href]
      rcases statusRef_after hop (iciAfter_stored rfl hici') with
        ⟨stored, hs, hsame⟩ | ⟨rfl, host', hnew, hrec, -⟩
      · obtain rfl : ici = stored := Option.some.inj (hici.symm.trans hs)
        exact hI key ici host hici (hsame ▸ hhost)
      · obtain rfl : host' = host := Option.some.inj (hnew.symm.trans hhost)
        exact (hstored rfl ici hici).trans hrec
    · obtain ⟨ici, hici, heq⟩ := hspec _ ici' hici'
      exact heq.trans (hstored hc ici hici)
    · refine call_next hmeets (copyReplies_of_after rfl fun ici hafter hc => ?_)
      obtain ⟨stored, hs, heq⟩ := specRef_after hop hafter
      exact heq.trans (hstored hc stored hs)
  · rintro cfg (⟨key, spec⟩ | _) w' hI hcond henv
    · exact ⟨hI.update henv, fun i t ht hT => hT.update (hcond i t ht) henv⟩
    · have heq : w'.icis = cfg.world.icis := henv
      refine ⟨fun key ici host hici => hI key ici host (heq ▸ hici), fun i t _ hT => ?_⟩
      exact hT.of_specRef fun key ici' hici' => ⟨ici', heq ▸ hici', rfl⟩

theorem status_names_booted_host (E : Env B) (w₀ : World B) (h₀ : RefsAgree w₀) (cfg : Passes B)
    (h : EditedRun E RefSettled w₀ cfg) :
    RefsAgree cfg.world ∧
    ∀ lab cfg', Sched answer (controllerPass E) (UserStep.Fires E) cfg lab cfg' →
      ∀ key ici ici' host, cfg.world.icis key = some ici →
        ici.status.bareMetalHostRef ≠ some host → cfg'.world.icis key = some ici' →
        ici'.status.bareMetalHostRef = some host →
        ∃ i c log op k, lab = .call i c ∧
          cfg.threads i = some ⟨⟨.reconciler, key⟩, log, .call op k⟩ ∧
          ImageSeen host log ∧ ManagedSeen host log := by
  obtain ⟨hagree, hthreads⟩ := EditedRun.invariant h₀ h
  refine ⟨hagree, fun lab cfg' hs key ici ici' host hici hne hici' hhost => ?_⟩
  have hsame : cfg'.world.icis = cfg.world.icis → False := by
    intro heq
    rw [heq, hici] at hici'
    exact hne (Option.some.inj hici' ▸ hhost)
  cases hs with
  | spawn tag hnone => exact (hsame rfl).elim
  | stop hi => exact (hsame rfl).elim
  | @env ev w' henv =>
    cases ev with
    | others => exact (hsame henv).elim
    | update key' spec =>
      obtain ⟨old, hold, -, rfl⟩ := henv
      rcases setICI_some hici' with ⟨rfl, heq⟩ | hk
      · cases heq
        obtain rfl : ici = old := Option.some.inj (hici.symm.trans hold)
        exact (hne hhost).elim
      · obtain rfl : ici = ici' := Option.some.inj (hici.symm.trans hk)
        exact (hne hhost).elim
  | @call i req log op k c hi =>
    obtain ⟨ref, -, hmeets⟩ := hthreads i _ hi rfl
    rcases statusRef_after (call_allowed hmeets) (iciAfter_stored rfl hici') with
      ⟨stored, hstored, heq⟩ | ⟨rfl, host', hnew, -, himage, hmanaged⟩
    · obtain rfl : ici = stored := Option.some.inj (hici.symm.trans hstored)
      exact (hne (heq ▸ hhost)).elim
    · obtain rfl : host' = host := Option.some.inj (hnew.symm.trans hhost)
      exact ⟨i, c, log, op, k, rfl, hi, himage, hmanaged⟩

/-! ## An edit before a pass and one during it -/

theorem EditedRun.edit {E : Env B} {cond : Passes B → Label (Choice B) Request UserStep → Prop}
    {w₀ : World B} {cfg : Passes B} (h : EditedRun E cond w₀ cfg) {key : NamespacedName}
    {f : Spec → Spec} (hadm : cfg.world.admits E key f = true)
    (hcond : ∀ spec, cond cfg (.env (.update key spec))) :
    EditedRun E cond w₀ { cfg with world := cfg.world.edit key f } := by
  obtain ⟨ici, hici, hv, heq⟩ := admits_edit hadm
  exact h.next (hcond (f ici.spec)) (.env ⟨ici, hici, hv, heq⟩)

/-- The steps of threads, in which users do nothing. -/
def ownSteps (_ : Passes Doc) : Label (Choice Doc) Request UserStep → Bool
  | .env _ => false
  | _ => true

def sampleMoves (labs : List (Label (Choice Doc) Request UserStep)) (cfg : Passes Doc) :
    Passes Doc :=
  Config.moves answer (controllerPass Env.symbolic) ownSteps labs cfg

theorem EditedRun.sampleMoves {cond : Passes Doc → Label (Choice Doc) Request UserStep → Prop}
    (hcond : ∀ cfg lab, ownSteps cfg lab = true → cond cfg lab) {w₀ : World Doc} {cfg : Passes Doc}
    (h : EditedRun Env.symbolic cond w₀ cfg)
    (labs : List (Label (Choice Doc) Request UserStep)) :
    EditedRun Env.symbolic cond w₀ (sampleMoves labs cfg) :=
  Reaches.moves hcond labs h

def editHost (cfg : Passes Doc) : Passes Doc :=
  { cfg with world := cfg.world.edit sampleKey (.moveTo otherHost) }

/-- A pass that adds the finalizer, and the first `n` calls of the one that boots the host. -/
def firstCalls (n : Nat) : Passes Doc :=
  sampleMoves (passSteps 0 100 ⟨.reconciler, sampleKey⟩ { elapsed := 1 } ++
    passSteps 1 n ⟨.reconciler, sampleKey⟩ { elapsed := 1 }) { world := sampleStart }

/-- The rest of that pass, with an edit before it. -/
def editedAfter (n : Nat) : Passes Doc :=
  sampleMoves (List.replicate 100 (.call 1 { elapsed := 1 })) (editHost (firstCalls n))

/-- The edit comes before both passes. -/
def editedFirst : Passes Doc :=
  sampleMoves (passSteps 0 100 ⟨.reconciler, sampleKey⟩ { elapsed := 1 } ++
    passSteps 1 100 ⟨.reconciler, sampleKey⟩ { elapsed := 1 }) (editHost { world := sampleStart })

theorem sampleStart_refsAgree : RefsAgree sampleStart := by
  intro key ici host hici hhost
  rcases setICI_some hici with ⟨-, h⟩ | h
  · cases h
    cases hhost
  · rcases setICI_some h with ⟨-, h⟩ | h
    · cases h
      cases hhost
    · cases h

theorem status_names_booted_host_sample :
    (editedFirst.world.icis sampleKey).any (fun ici =>
      ici.status.bareMetalHostRef = some otherHost) ∧ RefsAgree editedFirst.world := by
  have hrun : EditedRun Env.symbolic RefSettled sampleStart editedFirst := by
    refine EditedRun.sampleMoves (fun cfg lab h => ?_) (EditedRun.edit (.start rfl) ?_ ?_) _
    · cases lab with
      | env ev => cases h
      | _ => trivial
    · decide +kernel
    · exact fun spec i t ht => nomatch ht
  exact ⟨by decide +kernel,
    (status_names_booted_host Env.symbolic sampleStart sampleStart_refsAgree _ hrun).1⟩

theorem editedAfter_run {n : Nat}
    (hadm : (firstCalls n).world.admits Env.symbolic sampleKey (.moveTo otherHost) = true) :
    EditedRun Env.symbolic (fun _ _ => True) sampleStart (editedAfter n) :=
  .sampleMoves (fun _ _ _ => trivial)
    (.edit (.sampleMoves (fun _ _ _ => trivial) (.start rfl) _) hadm fun _ => trivial) _

/-- Edits during a pass. After sixteen calls the pass has read the first host and not yet refreshed
its copy: it boots the first host and records the other. After twenty-five calls its copy is not
refreshed again: it records the first host while the spec names the other. -/
theorem status_names_other_host :
    (EditedRun Env.symbolic (fun _ _ => True) sampleStart (editedAfter 16) ∧
      (editedAfter 16).world.icis sampleKey ≠ none ∧
      (∀ ici, (editedAfter 16).world.icis sampleKey = some ici →
        ici.status.bareMetalHostRef = some otherHost) ∧
      Managed sampleHost (editedAfter 16).world ∧ ¬Managed otherHost (editedAfter 16).world ∧
      (editedAfter 16).world.dataImages otherHost = none) ∧
    (EditedRun Env.symbolic (fun _ _ => True) sampleStart (editedAfter 25) ∧
      ¬RefsAgree (editedAfter 25).world) := by
  constructor
  · have hstored : ((editedAfter 16).world.icis sampleKey).any fun ici =>
        ici.status.bareMetalHostRef = some otherHost := by decide +kernel
    obtain ⟨ici, hici, href⟩ := (Option.any_eq_true _ _).1 hstored
    refine ⟨editedAfter_run (by decide +kernel), by simp [hici], fun ici' hici' => ?_,
      by decide +kernel, by decide +kernel, ?_⟩
    · obtain rfl : ici = ici' := Option.some.inj (hici.symm.trans hici')
      exact of_decide_eq_true href
    · exact Option.isNone_iff_eq_none.1 (by decide +kernel)
  · have hstored : ((editedAfter 25).world.icis sampleKey).any fun ici =>
        ici.status.bareMetalHostRef = some sampleHost ∧
          ici.spec.bareMetalHostRef = some otherHost := by decide +kernel
    obtain ⟨ici, hici, href⟩ := (Option.any_eq_true _ _).1 hstored
    obtain ⟨hstatus, hspec⟩ := of_decide_eq_true href
    refine ⟨editedAfter_run (by decide +kernel), fun hagree => ?_⟩
    have heq := hagree sampleKey ici sampleHost hici hstatus
    rw [hspec] at heq
    revert heq
    decide

end ImageBasedInstall

import ImageBasedInstall.Verify.Boot
import ImageBasedInstall.Verify.Interleaving

/-!
# The install conditions are coherent

Passes of both controllers interleave in any way, read through the cache any version of the objects,
and lose any of their patches; others create, change and delete objects but write no conditions.
Every stored condition list is coherent: a pass only stores what it made of a list that was stored.
-/

namespace ImageBasedInstall

open Interactive Patch

variable {B : Type}

/-- The conditions of every stored object are coherent. -/
def CoherentWorld (w : World B) : Prop :=
  ∀ key ici, w.icis key = some ici → Coherent ici.status.conditions

/-- Others write no conditions: an object they create has none. -/
def WritesNoConditions (w w' : World B) : Prop :=
  ∀ key ici', w'.icis key = some ici' → ici'.status.conditions = [] ∨
    ∃ ici, w.icis key = some ici ∧ ici'.status.conditions = ici.status.conditions

/-- A status patch stores coherent conditions. -/
def StoresCoherent (_ : Calls B) : Op B → Prop
  | .patchICIStatus _ _ new => Coherent new.status.conditions
  | _ => True

theorem storesCoherent_other (l : Calls B) (op : Op B) (h : op.target ≠ .ici) :
    StoresCoherent l op := by
  cases op with
  | patchICIStatus key base new => exact absurd rfl h
  | _ => trivial

theorem coherent_passRules (req : NamespacedName) :
    PassRules (B := B) req (fun _ conds => Coherent conds) StoresCoherent where
  other := storesCoherent_other
  object _ _ _ _ _ := trivial
  conditions _ _ _ hJ he := Coherent.reconcilerEdit hJ he
  boot _ _ _ _ hJ _ _ _ _ := hJ
  edited _ _ _ hJ he := hJ.reconcilerEdit he

theorem coherent_monitorRules (req : NamespacedName) :
    MonitorRules (B := B) req (fun _ conds => Coherent conds) StoresCoherent where
  other := storesCoherent_other
  report _ _ _ _ hJ _ hr hs := Coherent.monitorReport hJ hr hs

theorem CoherentWorld.after {w : World B} (hw : CoherentWorld w) {l : Calls B} {op : Op B}
    (hop : StoresCoherent l op) {key : NamespacedName} {ici : ImageClusterInstall}
    (h : IciAfter w key op ici) : Coherent ici.status.conditions := by
  cases h with
  | kept h => exact hw _ _ h
  | @patched base new stored h => exact hw _ stored h
  | @statusPatched base new stored h =>
    -- the patch replaces the stored list as a whole or leaves it
    change Coherent (mergeField base.status.conditions new.status.conditions
      stored.status.conditions)
    obtain ⟨-, heq⟩ | ⟨-, heq⟩ := mergeField_cases base.status.conditions new.status.conditions
      stored.status.conditions
    · rw [heq]
      exact hw _ _ h
    · rw [heq]
      exact hop

theorem CoherentWorld.answer {w : World B} (hw : CoherentWorld w) {l : Calls B} {op : Op B}
    (hop : StoresCoherent l op) (c : Choice B) : CoherentWorld (answer op c w).2 :=
  fun _ _ h => hw.after hop (iciAfter_stored rfl h)

theorem CoherentWorld.others {w w' : World B} (hw : CoherentWorld w)
    (h : WritesNoConditions w w') : CoherentWorld w' := by
  intro key ici' hici'
  rcases h key ici' hici' with hnil | ⟨ici, hici, heq⟩
  · rw [hnil]
    exact coherent_nil
  · rw [heq]
    exact hw key ici hici

variable [DecidableEq B]

/-- Interleaved passes over cached reads, with others acting in between. -/
abbrev CachedRun (E : Env B) :=
  Reaches (Sched (aged answer Op.cached) (controllerPass E)
    (fun s (_ : Unit) s' => ∃ w', WritesNoConditions s.now w' ∧ s' = s.update w'))

/-- No pass has started and no object has conditions. -/
structure Unconditioned
    (cfg : Config (Op B) Resp (Aged (World B)) (Choice B × Nat) Request) : Prop where
  idle : ∀ i, cfg.threads i = none
  past : cfg.world.past = []
  empty : ∀ key ici, cfg.world.now.icis key = some ici → ici.status.conditions = []

theorem conditions_coherent (E : Env B)
    (cfg : Config (Op B) Resp (Aged (World B)) (Choice B × Nat) Request)
    (h : CachedRun E (fun _ _ => True) Unconditioned cfg) (key : NamespacedName)
    (ici : ImageClusterInstall) (hici : cfg.world.now.icis key = some ici) :
    Coherent ici.status.conditions ∧
      ¬∃ completed failed, findCondition ici.status.conditions .completed = some completed ∧
        findCondition ici.status.conditions .failed = some failed ∧
        completed.status = .true ∧ failed.status = .true := by
  have hinv := Sched.invariant (I := fun s => ∀ v ∈ s.versions, CoherentWorld v)
    (T := fun _ t => Meets (.logged (CopyReplies t.tag.key fun _ conds => Coherent conds)
      StoresCoherent) t.prog (fun _ _ => True) t.log) h ?_ ?_ ?_ ?_ ?_
  · have hcoh := hinv.1 _ cfg.world.now_mem key ici hici
    exact ⟨hcoh, hcoh.not_both⟩
  · rintro cfg ⟨hidle, hpast, hempty⟩
    refine ⟨fun v hv => ?_, hidle⟩
    simp only [Aged.versions, hpast, List.mem_singleton] at hv
    subst hv
    intro key ici hici
    rw [hempty key ici hici]
    exact coherent_nil
  · intro s tag _
    exact controllerPass_copy E (fun _ => coherent_passRules _) fun _ => coherent_monitorRules _
  · exact fun _ _ _ => logged_ret.2 trivial
  · intro cfg i tag log op k c _ _ hI hT
    have hop := call_allowed hT
    unfold aged
    split
    · -- a cached read: the reply comes from some version
      have hv := hI _ (cfg.world.version_mem c.2)
      exact ⟨hI, call_next hT (copyReplies_of_after rfl fun _ => hv.after hop), fun _ => id⟩
    · have hv := hI _ cfg.world.now_mem
      exact ⟨Aged.forall_update hI (hv.answer hop c.1),
        call_next hT (copyReplies_of_after rfl fun _ => hv.after hop), fun _ => id⟩
  · rintro cfg - _ hI - ⟨w', hw', rfl⟩
    exact ⟨Aged.forall_update hI ((hI _ cfg.world.now_mem).others hw'), fun _ _ _ => id⟩

/-- Two passes of the reconciler boot the host; a monitor pass then reads a stale copy of the object
and another one reports on the current one. -/
def sampleReportSteps : List (Label (Choice Doc × Nat) Request Unit) :=
  passSteps 0 100 ⟨.reconciler, sampleKey⟩ ({ elapsed := 1 }, 0) ++
    passSteps 1 100 ⟨.reconciler, sampleKey⟩ ({ elapsed := 1 }, 0) ++
    passSteps 2 1 ⟨.monitor, sampleKey⟩ ({ elapsed := 1 }, 5) ++
    passSteps 3 100 ⟨.monitor, sampleKey⟩ ({ elapsed := 1 }, 0)

def sampleReports : Config (Op Doc) Resp (Aged (World Doc)) (Choice Doc × Nat) Request :=
  Config.moves (aged answer Op.cached) (controllerPass Env.symbolic) (fun _ _ => true)
    sampleReportSteps { world := { now := sampleStart } }

theorem conditions_coherent_sample :
    ∃ ici, sampleReports.world.now.icis sampleKey = some ici ∧
      installTypes.all (fun T => (findCondition ici.status.conditions T).isSome) ∧
      Coherent ici.status.conditions := by
  have hrun : CachedRun Env.symbolic (fun _ _ => True) Unconditioned sampleReports := by
    refine Reaches.moves (fun _ _ _ => trivial) _ (.start ?_)
    refine ⟨fun _ => rfl, rfl, fun key ici h => ?_⟩
    rcases setICI_some h with ⟨-, h⟩ | h
    · cases h
      rfl
    · rcases setICI_some h with ⟨-, h⟩ | h
      · cases h
        rfl
      · cases h
  have hici : (sampleReports.world.now.icis sampleKey).any fun ici =>
      installTypes.all fun T => (findCondition ici.status.conditions T).isSome := by
    decide +kernel
  obtain ⟨ici, hici, hall⟩ := (Option.any_eq_true _ _).1 hici
  exact ⟨ici, hici, hall, (conditions_coherent Env.symbolic _ hrun sampleKey ici hici).1⟩

end ImageBasedInstall

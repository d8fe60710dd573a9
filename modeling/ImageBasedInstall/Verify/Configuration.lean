import ImageBasedInstall.Verify.Boot

/-!
# The installed configuration is the stored one

An ISO that exists is reused, whatever the spec has become since; the webhook freezes the spec only
when `Status.BareMetalHostRef` is set, after the ISO was built. If no update changes the
configuration while the work directory holds an ISO, the ISO of an object always comes from the
stored spec, up to `ClusterMetadata`.
-/

namespace ImageBasedInstall

open Interactive

variable {B : Type} [DecidableEq B] {E : Env B} {w w' : World B}

/-- The ISO of every stored object was built from the stored spec, up to `ClusterMetadata`. -/
def IsoCurrent (w : World B) : Prop :=
  ∀ k ici i b, w.icis k = some ici → w.fs (isoFile k.ns ici.uid) = some (.iso i b) →
    b.configured = ici.spec.configured

/-- An update that changes the configuration comes before the ISO is built. -/
def KeepsIsoSpec (w : World B) : Event B → Prop
  | .update key spec => ∀ ici i b, w.icis key = some ici →
    w.fs (isoFile key.ns ici.uid) = some (.iso i b) → spec.configured = ici.spec.configured
  | _ => True

omit [DecidableEq B] in
theorem isoFile_inj {ns ns' uid uid' : String} (h : isoFile ns uid = isoFile ns' uid') :
    ns = ns' ∧ uid = uid' := by
  have hroot : (isoFile ns uid).root = (isoFile ns' uid').root := congrArg Path.root h
  exact Root.data.inj hroot

omit [DecidableEq B] in
theorem isoCurrent_pass {req : NamespacedName} (hs : PassStep E req w w') (huids : DistinctUIDs w')
    (h : IsoCurrent w) : IsoCurrent w' := by
  intro k ici' i b hk hiso
  rcases hs.isos _ i b hiso with hold | ⟨builder, hb, hfile, hspec⟩
  · obtain ⟨ici, hici, huid, hconf, -⟩ := hs.icis.kept k ici' hk
    rw [huid] at hold
    rw [h k ici i b hici hold, hconf]
  · -- a new ISO: its path tells which object was built
    obtain ⟨-, huid⟩ := isoFile_inj hfile
    obtain rfl : k = req := huids.uids k req ici' builder hk hb huid
    obtain rfl : ici' = builder := Option.some.inj (hk.symm.trans hb)
    exact hspec

omit [DecidableEq B] in
/-- One object changed, and no ISO with it. -/
theorem IsoCurrent.setICI {key : NamespacedName} {new : Option ImageClusterInstall}
    (h : IsoCurrent w)
    (hnew : ∀ ici' i b, new = some ici' → w.fs (isoFile key.ns ici'.uid) = some (.iso i b) →
      b.configured = ici'.spec.configured) : IsoCurrent (w.setICI key new) := by
  intro k ici' i b hk hiso
  by_cases heq : k = key
  · subst heq
    exact hnew ici' i b (by simpa [World.setICI] using hk) hiso
  · exact h k ici' i b (by simpa [World.setICI, heq] using hk) hiso

theorem reached_isoCurrent (h : Reached E KeepsIsoSpec w) : IsoCurrent w := by
  refine (reached_invariant_uids h ?_ (fun _ _ _ => isoCurrent_pass) ?_ ?_ ?_ ?_).1
  · intro w hw k ici i b hk
    rw [hw.icis k] at hk
    cases hk
  · intro w key ici hf hI
    refine hI.setICI fun ici' i b hnew hiso => ?_
    obtain rfl := Option.some.inj hnew
    rw [hf.files _ rfl] at hiso
    cases hiso
  · intro w key ici spec hici _ hC hI
    refine hI.setICI fun ici' i b hnew hiso => ?_
    obtain rfl := Option.some.inj hnew
    exact (hI key ici i b hici hiso).trans (hC ici i b hici hiso).symm
  · intro w key ici hici hI
    refine hI.setICI fun ici' i b hnew hiso => ?_
    obtain rfl := deleted_eq hnew
    exact hI key ici i b hici hiso
  · intro w w' ho hI k ici i b hk hiso
    exact hI k ici i b (ho.icis ▸ hk) (ho.files _ _ hiso)

/-- Once the installation has started, the ISO of an object was generated from the stored spec, up
to `ClusterMetadata`. -/
theorem started_iso_current (hreach : Reached E KeepsIsoSpec w) :
    ∀ key ici, w.icis key = some ici → installationStarted ici = true →
      ∀ image builtFrom, w.fs (isoFile key.ns ici.uid) = some (.iso image builtFrom) →
        builtFrom.configured = ici.spec.configured :=
  fun key ici hici _ image builtFrom hiso =>
    reached_isoCurrent hreach key ici image builtFrom hici hiso

/-- The spec an ISO in the file system was built from. -/
def World.builtFrom (w : World B) (p : Path) : Option Spec :=
  match w.fs p with
  | some (.iso _ b) => some b
  | _ => none

omit [DecidableEq B] in
theorem World.builtFrom_eq {p : Path} {b : Spec} (h : w.builtFrom p = some b) :
    ∃ i, w.fs p = some (.iso i b) := by
  unfold World.builtFrom at h
  split at h
  · next i b' hp =>
    cases h
    exact ⟨i, hp⟩
  · cases h

theorem started_iso_current_sample :
    let w := samplePass sampleKey slowly (samplePass sampleKey slowly sampleStart)
    ∃ ici b, w.icis sampleKey = some ici ∧ installationStarted ici = true ∧
      w.builtFrom (isoFile sampleKey.ns ici.uid) = some b ∧
      b.configured = ici.spec.configured := by
  intro w
  have hreach : Reached Env.symbolic KeepsIsoSpec w :=
    ((sampleStart_reached trivial trivial).pass sampleKey slowly trivial).pass sampleKey
      slowly trivial
  have hbuilt : (w.icis sampleKey).any fun ici =>
      installationStarted ici && (w.builtFrom (isoFile sampleKey.ns ici.uid)).isSome := by
    decide +kernel
  obtain ⟨ici, hici, h⟩ := (Option.any_eq_true _ _).1 hbuilt
  obtain ⟨hstarted, hsome⟩ := Bool.and_eq_true_iff.1 h
  obtain ⟨b, hb⟩ := Option.isSome_iff_exists.1 hsome
  obtain ⟨i, hi⟩ := World.builtFrom_eq hb
  exact ⟨ici, b, hici, hstarted, hb, started_iso_current hreach sampleKey ici hici hstarted i b hi⟩

/-- The host name is edited while the `DataImage` cools down; the installation then starts with the
ISO built before. -/
theorem started_iso_outdated :
    ∃ w, Reached Env.symbolic (fun _ _ => True) w ∧
      (w.icis sampleKey).any fun ici => installationStarted ici &&
        (w.builtFrom (isoFile sampleKey.ns ici.uid)).any fun b =>
          decide (b.configured ≠ ici.spec.configured) := by
  let cooling := samplePass sampleKey instantly (samplePass sampleKey instantly sampleStart)
  refine ⟨samplePass sampleKey slowly
    (cooling.edit sampleKey fun s => { s with hostname := "renamed" }), ?_, by decide +kernel⟩
  refine Reached.pass (Reached.edit ?_ (by decide +kernel) fun _ _ => trivial) sampleKey
    slowly trivial
  exact ((sampleStart_reached trivial trivial).pass sampleKey instantly trivial).pass sampleKey
    instantly trivial

end ImageBasedInstall

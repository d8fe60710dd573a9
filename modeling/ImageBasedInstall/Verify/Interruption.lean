import ImageBasedInstall.Interactive.Reach
import ImageBasedInstall.Interactive.Recorded
import ImageBasedInstall.Verify.Boot
import ImageBasedInstall.Verify.Build
import ImageBasedInstall.Verify.PassFootprints
import ImageBasedInstall.Verify.WorkDir

/-!
# Interrupted builds

A build that fails or is cut short leaves some of its files behind, and a later pass takes a work
directory with all four outputs for a finished one. The order of the writes protects a first
install, whose manifest is the last file to appear, as long as that write is all or nothing. A
reinstall writes the manifest before the image, and nothing protects it between the two.

Passes run on the recording machine, so that "a successful build" is a run of the installer that is
on record.
-/

namespace ImageBasedInstall

open Interactive

variable {B : Type}

/-- What the passes did so far. -/
abbrev Log (B : Type) := List (Transition (Op B) Resp (World B) (Choice B))

/-! ## Finished builds -/

/-- The outputs in the work directory are those of a run of the installer that is on record and
returned without an error. -/
def Built (E : Env B) (dir : Path) (w : World B) (log : Log B) : Prop :=
  ∃ (spec : Spec) (cs : List (Choice B)) (w₁ w₂ : World B),
    (Installer.createInstallationIso E spec dir).run.exec answer cs w₁ = (w₂, some (.ok ())) ∧
    (Installer.createInstallationIso E spec dir).run.trace answer cs w₁ <:+: log ∧
    ∀ file ∈ buildOutputs, w.fs (dir.join file) = w₂.fs (dir.join file)

theorem Built.more {E : Env B} {dir : Path} {w w' : World B} {log : Log B} (h : Built E dir w log)
    (hfs : ∀ file ∈ buildOutputs, w'.fs (dir.join file) = w.fs (dir.join file)) (new : Log B) :
    Built E dir w' (log ++ new) := by
  obtain ⟨spec, cs, w₁, w₂, hexec, htrace, hfiles⟩ := h
  refine ⟨spec, cs, w₁, w₂, hexec, htrace.trans (List.prefix_append ..).isInfix, ?_⟩
  exact fun file hfile => (hfs file hfile).trans (hfiles file hfile)

/-- An output is missing. -/
def Missing (dir : Path) (w : World B) : Prop :=
  ∃ file ∈ buildOutputs, w.fs (dir.join file) = none

theorem Missing.of_outputs {dir : Path} {w w' : World B} (h : Missing dir w)
    (hfs : ∀ file ∈ buildOutputs, w'.fs (dir.join file) = w.fs (dir.join file) ∨
      w'.fs (dir.join file) = none) : Missing dir w' := by
  obtain ⟨file, hfile, hnone⟩ := h
  refine ⟨file, hfile, ?_⟩
  rcases hfs file hfile with hk | hk
  · exact hk.trans hnone
  · exact hk

theorem ImageReady.complete {cd : NamespacedName} {dir : Path} {w : World B}
    (h : ImageReady cd dir w) : ¬Missing dir w := by
  rintro ⟨file, hfile, hnone⟩
  have hfiles : ∀ {kind : IdentitySecret} {p : Path}, HoldsFile kind cd p w → w.fs p ≠ none := by
    rintro kind p ⟨b, s, hb, -⟩ hp
    rw [hp] at hb
    cases hb
  simp only [buildOutputs, List.mem_cons, List.not_mem_nil, or_false] at hfile
  rcases hfile with rfl | rfl | rfl | rfl
  · have hiso := h.iso
    rw [hnone] at hiso
    cases hiso
  · exact hfiles h.creds.password hnone
  · exact hfiles h.creds.kubeconfig hnone
  · exact hfiles h.creds.manifest hnone

/-- The image lies beside a manifest that the installer has still to write: from the write of the
image to that of the manifest. -/
def rewriting (dir : Path) (before : Bool) (t : Transition (Op B) Resp (World B) (Choice B)) :
    Bool :=
  match t.op, t.resp with
  | .writeIso path _ _, _ =>
    if path = dir.join isoPath then
      (t.after.fs path).isSome && (t.after.fs (dir.join manifestPath)).isSome
    else before
  | .writeFile path _, .ok _ => if path = dir.join manifestPath then false else before
  | _, _ => before

/-- The log ends between the two. -/
def Rewriting (dir : Path) (log : Log B) : Bool := log.foldl (rewriting dir) false

/-- What holds before every call. -/
def Safe (E : Env B) (dir : Path) (s : World B × Log B) : Prop :=
  Rewriting dir s.2 = true ∨ Missing dir s.1 ∨ Built E dir s.1 s.2

/-- What holds between builds. -/
def Idle (E : Env B) (dir : Path) (s : World B × Log B) : Prop :=
  Rewriting dir s.2 = false ∧ (Missing dir s.1 ∨ Built E dir s.1 s.2)

section Kept

variable {E : Env B} {dir : Path} {s s' : World B × Log B} {op : Op B} {c : Choice B} {r : Resp op}

theorem Idle.safe (h : Idle E dir s) : Safe E dir s := .inr h.2

theorem rewriting_append (log : Log B) (t : Transition (Op B) Resp (World B) (Choice B)) :
    Rewriting dir (log ++ [t]) = rewriting dir (Rewriting dir log) t := by
  simp [Rewriting]

/-- What the recording machine does. -/
theorem recording_eq (hc : recording answer op c s = (r, s')) :
    answer op c s.1 = (r, s'.1) ∧ s'.2 = s.2 ++ [⟨s.1, op, c, r, s'.1⟩] := by
  obtain ⟨rfl, rfl⟩ := Prod.mk.inj hc
  exact ⟨rfl, rfl⟩

/-- Only writes of the image and of the manifest matter. -/
theorem rewriting_kept (hc : recording answer op c s = (r, s'))
    (hiso : ¬op.writes (dir.join isoPath)) (hmanifest : ¬op.writes (dir.join manifestPath)) :
    Rewriting dir s'.2 = Rewriting dir s.2 := by
  obtain ⟨-, hlog⟩ := recording_eq hc
  rw [hlog, rewriting_append]
  cases op with
  | writeIso path image spec =>
    have hne : path ≠ dir.join isoPath := fun h => hiso h.symm
    simp [rewriting, hne]
  | writeFile path content =>
    have hne : path ≠ dir.join manifestPath := fun h => hmanifest h.symm
    cases r <;> simp [rewriting, hne]
  | _ => rfl

/-- Calls that write no output leave all of them as they are, or remove some. -/
theorem missing_or_built_kept (hc : recording answer op c s = (r, s'))
    (hop : ∀ file ∈ buildOutputs, ¬op.writes (dir.join file))
    (h : Missing dir s.1 ∨ Built E dir s.1 s.2) : Missing dir s'.1 ∨ Built E dir s'.1 s'.2 := by
  obtain ⟨hanswer, hlog⟩ := recording_eq hc
  have hkept : ∀ file ∈ buildOutputs, s'.1.fs (dir.join file) = s.1.fs (dir.join file) ∨
      s'.1.fs (dir.join file) = none := fun file hfile => kept_or_gone hanswer (hop file hfile)
  rcases h with hmissing | hbuilt
  · exact .inl (hmissing.of_outputs hkept)
  by_cases hmissing : Missing dir s'.1
  · exact .inl hmissing
  rw [hlog]
  refine .inr (hbuilt.more (fun file hfile => ?_) _)
  exact (hkept file hfile).resolve_right fun hnone => hmissing ⟨file, hfile, hnone⟩

theorem Safe.kept (h : Safe E dir s) (hc : recording answer op c s = (r, s'))
    (hop : ∀ file ∈ buildOutputs, ¬op.writes (dir.join file)) : Safe E dir s' := by
  rcases h with h | h
  · refine .inl ?_
    rwa [rewriting_kept hc (hop _ (by decide)) (hop _ (by decide))]
  · exact .inr (missing_or_built_kept hc hop h)

theorem Idle.kept (h : Idle E dir s) (hc : recording answer op c s = (r, s'))
    (hop : ∀ file ∈ buildOutputs, ¬op.writes (dir.join file)) : Idle E dir s' := by
  refine ⟨?_, missing_or_built_kept hc hop h.2⟩
  rw [rewriting_kept hc (hop _ (by decide)) (hop _ (by decide))]
  exact h.1

end Kept

/-! ## What is copied into the secrets -/

/-- The identity secrets with the files they are copied from. -/
def credentialFiles : List (IdentitySecret × List String) :=
  [(adminPasswordSecret, kubeadminPasswordPath), (kubeconfigSecret, kubeconfigPath),
    (seedReconfigurationSecret, manifestPath)]

/-- The call stores a whole secret. -/
def Op.storesSecret : Op B → Bool
  | .createSecret .. => true
  | .updateSecret .. => true
  | _ => false

/-- The call stores the content of a file of the work directory in its identity secret. -/
def CopiesFile (dir : Path) (w : World B) : Op B → Prop
  | .createSecret key secret => ∃ kind file cd content, (kind, file) ∈ credentialFiles ∧
    key = kind.key cd ∧ secret.get kind.dataKey = some content ∧
    w.fs (dir.join file) = some (.file content)
  | .updateSecret key secret => ∃ kind file cd content, (kind, file) ∈ credentialFiles ∧
    key = kind.key cd ∧ secret.get kind.dataKey = some content ∧
    w.fs (dir.join file) = some (.file content)
  | _ => False

theorem storesSecret_of_plain {op : Op B} (h : op.plain = true) : op.storesSecret = false := by
  cases op with
  | createSecret key secret => cases h
  | updateSecret key secret => cases h
  | _ => rfl

theorem storesSecret_of_file {op : Op B} (h : op.target = .file) : op.storesSecret = false := by
  cases op <;> first | rfl | cases h

section Copies

variable [DecidableEq B] {ok : World B → (op : Op B) → Resp op → World B → Prop} {w : World B}

theorem ensureSecret_copies (E : Env B) {kind : IdentitySecret} {file : List String}
    (hkind : (kind, file) ∈ credentialFiles) (cd : NamespacedName) (uid : String) (dir : Path) :
    Meets (Running ok fun w op _ _ => op.storesSecret = true → CopiesFile dir w op)
      (ensureSecret E kind cd uid (dir.join file)).run (fun _ _ => True) w := by
  have hread : ∀ {w : World B} {op : Op B}, op.storesSecret = false →
      Permits ok (fun w op _ _ => op.storesSecret = true → CopiesFile dir w op) w op := by
    intro w op hop c r w' hc ho hs
    rw [hop] at hs
    cases hs
  refine Meets.mono (ensureSecret_runs E kind cd uid (dir.join file) ?_ ?_) fun _ _ _ => trivial
  · exact fun op hop => hread (storesSecret_of_plain (plain_of_read hop))
  · intro content s hfile hs
    have hcopies : ∃ kind' file' cd' content', (kind', file') ∈ credentialFiles ∧
        kind.key cd = kind'.key cd' ∧ s.get kind'.dataKey = some content' ∧
        w.fs (dir.join file') = some (.file content') :=
      ⟨kind, file, cd, content, hkind, rfl, hs.payload, hfile⟩
    exact ⟨fun _ _ _ _ _ _ => hcopies, fun _ _ _ _ _ _ => hcopies⟩

theorem ensureCreds_copies (E : Env B) (cd : NamespacedName) (uid : String) (dir : Path) :
    Meets (Running ok fun w op _ _ => op.storesSecret = true → CopiesFile dir w op)
      (ensureCreds E cd uid dir).run (fun _ _ => True) w := by
  have hcopy : ∀ {kind : IdentitySecret} {file : List String} {w : World B} {text : String},
      (kind, file) ∈ credentialFiles →
      Tries (Running ok fun w op _ _ => op.storesSecret = true → CopiesFile dir w op)
        ((ensureSecret E kind cd uid (dir.join file)).wrap text) (fun _ _ => True)
        (fun _ _ => True) w := fun hkind =>
    tries_wrap ((ensureSecret_copies E hkind cd uid dir).mono fun r _ _ => by cases r <;> trivial)
  have htries : Tries (Running ok fun w op _ _ => op.storesSecret = true → CopiesFile dir w op)
      (ensureCreds E cd uid dir) (fun _ _ => True) (fun _ _ => True) w := by
    refine Tries.seq (hcopy (by simp [credentialFiles])) fun _ _ _ => ?_
    refine Tries.seq (hcopy (by simp [credentialFiles])) fun _ _ _ => ?_
    exact hcopy (by simp [credentialFiles])
  exact Meets.mono htries fun _ _ _ => trivial

end Copies

/-! ## A build in its own directory -/

/-- The write failed. -/
def Op.failed : (op : Op B) → Resp op → Bool
  | .writeFile .., .error _ => true
  | _, _ => false

/-- What the environment grants: a failed write of a manifest leaves it as it was, the installer can
write its state file, and the removal of a work directory removes the image and the manifest. -/
structure Sound (w : World B) (op : Op B) (r : Resp op) (w' : World B) : Prop where
  manifest : ∀ ns uid content,
    op = .writeFile ((getClusterConfigDir ns uid).join manifestPath) content → op.failed r = true →
    w'.fs ((getClusterConfigDir ns uid).join manifestPath) =
      w.fs ((getClusterConfigDir ns uid).join manifestPath)
  state : ∀ ns uid content,
    op = .writeFile ((getClusterConfigDir ns uid).join [stateFileName]) content →
    op.failed r = false
  removal : ∀ ns uid, op = .removeAll (getClusterConfigDir ns uid) →
    w'.fs ((getClusterConfigDir ns uid).join isoPath) = none ∧
    w'.fs ((getClusterConfigDir ns uid).join manifestPath) = none

/-- What a build guarantees: the directory is safe before every call, and what it stores in a secret
comes from a finished build. -/
def BuildGuards (E : Env B) (dir : Path) (s : World B × Log B) (op : Op B) : Prop :=
  Safe E dir s ∧ (op.storesSecret = true → CopiesFile dir s.1 op ∧ Built E dir s.1 s.2)

abbrev Guarding (E : Env B) (dir : Path) :
    Contract (Op B) Resp (Recorded (Op B) Resp (World B) (Choice B)) :=
  Recording answer Sound fun s op _ _ => BuildGuards E dir s op

section Own

variable {E : Env B} {ns uid : String} {s : World B × Log B} {α : Type} {p : Program B α}

/-- A call that stores no secret, in a safe state. -/
theorem BuildGuards.of_safe {dir : Path} {op : Op B} (h : Safe E dir s)
    (hop : op.storesSecret = false) : BuildGuards E dir s op := by
  refine ⟨h, fun hs => ?_⟩
  rw [hop] at hs
  cases hs

/-- An assertion that makes the state safe, kept by calls that store no secret. -/
theorem guarding_of_uses {dir : Path} {A : Op B → Prop} {I : World B × Log B → Prop}
    (hp : p.Uses A) (hsafe : ∀ s, I s → Safe E dir s)
    (hstores : ∀ op, A op → op.storesSecret = false)
    (hstep : ∀ op c s r s', A op → I s → recording answer op c s = (r, s') → I s') (hs : I s) :
    Meets (Guarding E dir) p (fun _ s' => I s') s := by
  refine Meets.of_uses hp (fun _ _ hI hr => hr ▸ hI) ?_ hs
  rintro op s₁ r s₂ hop hI ⟨⟨c, hc⟩, -⟩
  exact ⟨.of_safe (hsafe _ hI) (hstores op hop), hstep op c s₁ r s₂ hop hI hc⟩

/-- Without an image the directory is safe. -/
def NoImage (dir : Path) (s : World B × Log B) : Prop := s.1.fs (dir.join isoPath) = none

theorem NoImage.safe {dir : Path} (h : NoImage dir s) : Safe E dir s :=
  .inr (.inl ⟨isoPath, by decide, h⟩)

/-- Calls that do not write the image. -/
def SparesImage (dir : Path) (op : Op B) : Prop :=
  ¬op.writes (dir.join isoPath) ∧ op.storesSecret = false

theorem meets_noImage {dir : Path} (hp : p.Uses (SparesImage dir)) (h : NoImage dir s) :
    Meets (Guarding E dir) p (fun _ s' => NoImage dir s') s := by
  refine guarding_of_uses hp (fun _ hI => hI.safe) (fun _ hop => hop.2) ?_ h
  intro op c s r s' hop hI hc
  rcases kept_or_gone (recording_eq hc).1 hop.1 with hk | hk
  · exact hk.trans hI
  · exact hk

/-- A step that does not write the image, before it is there. -/
theorem tries_noImage {dir : Path} {x : Act B α} (hx : x.run.Uses (SparesImage dir))
    (h : NoImage dir s) :
    Tries (Guarding E dir) x (fun _ s' => NoImage dir s') (fun _ s' => Safe E dir s') s := by
  refine Meets.mono (meets_noImage hx h) fun r s' h' => ?_
  cases r with
  | ok a => exact h'
  | error e => exact h'.safe

theorem sparesImage_of_read {dir : Path} {op : Op B} (h : op.target = .nothing) :
    SparesImage dir op := by
  refine ⟨?_, storesSecret_of_plain (plain_of_read h)⟩
  cases op <;> first | exact id | cases h

theorem sparesImage_of_file {op : Op B} (h : BuildFile (getClusterConfigDir ns uid) op) :
    SparesImage (getClusterConfigDir ns uid) op := by
  refine ⟨fun hw => ?_, storesSecret_of_file h.target⟩
  obtain ⟨-, -, hne, -⟩ := h.writes_output (by decide) hw
  exact hne rfl

/-- Once the image is written, the manifest is missing or has still to be rewritten. -/
def ImageFirst (dir : Path) (s : World B × Log B) : Prop :=
  Rewriting dir s.2 = true ∨ s.1.fs (dir.join manifestPath) = none

theorem ImageFirst.safe {dir : Path} (h : ImageFirst dir s) : Safe E dir s := by
  rcases h with h | h
  · exact .inl h
  · exact .inr (.inl ⟨manifestPath, by decide, h⟩)

theorem ImageFirst.kept {dir : Path} {op : Op B} {c : Choice B} {r : Resp op}
    {s' : World B × Log B} (h : ImageFirst dir s) (hc : recording answer op c s = (r, s'))
    (hiso : ¬op.writes (dir.join isoPath)) (hmanifest : ¬op.writes (dir.join manifestPath)) :
    ImageFirst dir s' := by
  rcases h with h | h
  · refine .inl ?_
    rwa [rewriting_kept hc hiso hmanifest]
  · rcases kept_or_gone (recording_eq hc).1 hmanifest with hk | hk
    · exact .inr (hk.trans h)
    · exact .inr hk

/-- Writing the image. -/
theorem tries_writeIso {dir : Path} {image : IsoImage B} {spec : Spec} (h : NoImage dir s) :
    Tries (Guarding E dir) (writeIso (dir.join isoPath) image spec)
      (fun _ s' => ImageFirst dir s') (fun _ s' => Safe E dir s') s := by
  rintro _ rfl r s' ⟨⟨c, hc⟩, -⟩
  refine ⟨.of_safe h.safe rfl, fun s'' hs => ?_⟩
  subst hs
  obtain ⟨hanswer, hlog⟩ := recording_eq hc
  have hafter : ImageFirst dir s' ∨ NoImage dir s' := by
    cases hiso : s'.1.fs (dir.join isoPath) with
    | none => exact .inr hiso
    | some e =>
      refine .inl ?_
      cases hmanifest : s'.1.fs (dir.join manifestPath) with
      | none => exact .inr hmanifest
      | some e' =>
        refine .inl ?_
        rw [hlog, rewriting_append]
        simp [rewriting, hiso, hmanifest]
  obtain ⟨rfl, hw⟩ | ⟨e, rfl, -⟩ := answer_writeIso hanswer
  · rcases hafter with h' | h'
    · exact h'
    · rw [NoImage, hw] at h'
      simp [World.setEntry] at h'
  · rcases hafter with h' | h'
    · exact h'.safe
    · exact h'.safe

/-- Calls that write neither the image nor the manifest. -/
def SparesBoth (dir : Path) (op : Op B) : Prop :=
  ¬op.writes (dir.join isoPath) ∧ ¬op.writes (dir.join manifestPath) ∧ op.storesSecret = false

/-- A step that writes neither, once the image is there. -/
theorem tries_imageFirst {dir : Path} {x : Act B α} (hx : x.run.Uses (SparesBoth dir))
    (h : ImageFirst dir s) :
    Tries (Guarding E dir) x (fun _ s' => ImageFirst dir s') (fun _ s' => Safe E dir s') s := by
  refine Meets.mono (guarding_of_uses hx (fun _ hI => hI.safe) (fun _ hop => hop.2.2)
    (fun op c s r s' hop hI hc => hI.kept hc hop.1 hop.2.1) h) fun r s' h' => ?_
  cases r with
  | ok a => exact h'
  | error e => exact h'.safe

theorem saveStateFile_sparesBoth (E : Env B) (draw : Draw) :
    (Installer.saveStateFile E (getClusterConfigDir ns uid) draw).run.Uses
      (SparesBoth (getClusterConfigDir ns uid)) :=
  Prog.uses_perform ⟨output_ne_scratch (by decide) (by decide),
    output_ne_scratch (by decide) (by decide), rfl⟩

theorem mkdirAll_sparesBoth {elems : List String}
    (helems : elems ∈ [[], [extraManifestsDir], [authDir], [clusterConfigDir]]) :
    SparesBoth (B := B) (getClusterConfigDir ns uid)
      (.mkdirAll ((getClusterConfigDir ns uid).join elems)) := by
  refine ⟨?_, ?_, rfl⟩
  · rw [Op.writes, not_within_output (by decide) helems]
    exact Bool.false_ne_true
  · rw [Op.writes, not_within_output (by decide) helems]
    exact Bool.false_ne_true

/-- The installer's second and third asset. -/
theorem persist_sparesBoth (E : Env B) (draw : Draw) {elems : List String}
    (helems : elems ∈ [kubeconfigPath, kubeadminPasswordPath]) (content : B) :
    (Installer.fetchAndPersist (Installer.saveStateFile E (getClusterConfigDir ns uid) draw)
      (Installer.persistToFile ((getClusterConfigDir ns uid).join elems) content)).run.Uses
      (SparesBoth (getClusterConfigDir ns uid)) := by
  have hne : ∀ elems ∈ [kubeconfigPath, kubeadminPasswordPath],
      isoPath ≠ elems ∧ manifestPath ≠ elems := by decide
  have houtput : ∀ elems ∈ [kubeconfigPath, kubeadminPasswordPath],
      elems ∈ [kubeconfigPath, kubeadminPasswordPath, manifestPath] := by decide
  obtain ⟨sub, hsub, heq⟩ :=
    outputDir_eq (getClusterConfigDir ns uid) elems (houtput elems helems)
  refine fetchAndPersist_uses (saveStateFile_sparesBoth E draw) ?_
  unfold Installer.persistToFile
  rw [heq]
  refine uses_bind (Prog.uses_perform (mkdirAll_sparesBoth hsub)) fun _ =>
    Prog.uses_perform ⟨fun h => ?_, fun h => ?_, rfl⟩
  · exact (hne elems helems).1 (workDir_join_inj h).2.2
  · exact (hne elems helems).2 (workDir_join_inj h).2.2

/-- The state file is written. -/
theorem tries_saveStateFile {draw : Draw} (h : ImageFirst (getClusterConfigDir ns uid) s) :
    Tries (Guarding E (getClusterConfigDir ns uid))
      (Installer.saveStateFile E (getClusterConfigDir ns uid) draw)
      (fun _ s' => ImageFirst (getClusterConfigDir ns uid) s') (fun _ _ => False) s := by
  rintro _ rfl r s' ⟨⟨c, hc⟩, hsound⟩
  refine ⟨.of_safe h.safe rfl, fun s'' hs => ?_⟩
  subst hs
  cases r with
  | error e => exact absurd (hsound.state ns uid _ rfl) (by simp [Op.failed])
  | ok u =>
    exact h.kept hc (output_ne_scratch (by decide) (by decide))
      (output_ne_scratch (by decide) (by decide))

/-- The manifest is written, or left as it was. -/
theorem tries_writeManifest {content : B} (h : ImageFirst (getClusterConfigDir ns uid) s) :
    Tries (Guarding E (getClusterConfigDir ns uid))
      (writeFile ((getClusterConfigDir ns uid).join manifestPath) content) (fun _ _ => True)
      (fun _ s' => Safe E (getClusterConfigDir ns uid) s') s := by
  rintro _ rfl r s' ⟨⟨c, hc⟩, hsound⟩
  refine ⟨.of_safe h.safe rfl, fun s'' hs => ?_⟩
  subst hs
  obtain ⟨hanswer, hlog⟩ := recording_eq hc
  cases r with
  | ok u => trivial
  | error e =>
    refine ImageFirst.safe ?_
    rcases h with h | h
    · refine .inl ?_
      rw [hlog, rewriting_append]
      exact h
    · exact .inr ((hsound.manifest ns uid content rfl rfl).trans h)

/-- The installer, before its success is known to be on record. -/
theorem createInstallationIso_safe (spec : Spec) (h : NoImage (getClusterConfigDir ns uid) s) :
    Tries (Guarding E (getClusterConfigDir ns uid))
      (Installer.createInstallationIso E spec (getClusterConfigDir ns uid)) (fun _ _ => True)
      (fun _ s' => Safe E (getClusterConfigDir ns uid) s') s := by
  have hfile : ∀ op : Op B, BuildFile (getClusterConfigDir ns uid) op → SparesImage _ op :=
    fun _ => sparesImage_of_file
  refine Tries.seq (tries_noImage (Prog.uses_perform (sparesImage_of_read rfl)) h)
    fun snap s₁ h₁ => ?_
  refine Tries.seq (tries_noImage (uses_lift (Prog.uses_perform (sparesImage_of_read rfl))) h₁)
    fun draw s₂ h₂ => ?_
  refine Tries.seq (tries_noImage (uses_liftExcept _) h₂) fun fetched s₃ h₃ => ?_
  -- the first asset
  refine Tries.seq (Q := fun _ s' => ImageFirst (getClusterConfigDir ns uid) s') ?_
    fun _ s₄ h₄ => ?_
  · refine Tries.seq (tries_noImage (uses_attempt ?_) h₃) fun err s₄ h₄ => ?_
    · exact uses_bind (saveStateFile_uses hfile ..) fun _ => Prog.uses_perform (hfile _ .purge)
    refine Tries.seq (tries_writeIso h₄) fun _ s₅ h₅ => ?_
    exact tries_imageFirst (uses_liftExcept _) h₅
  refine Tries.seq (tries_imageFirst (uses_liftExcept _) h₄) fun kubeconfig s₅ h₅ => ?_
  refine Tries.seq (tries_imageFirst (persist_sparesBoth E draw (by simp) _) h₅) fun _ s₆ h₆ => ?_
  refine Tries.seq (tries_imageFirst (persist_sparesBoth E draw (by simp) _) h₆) fun _ s₇ h₇ => ?_
  -- the last one
  obtain ⟨sub, hsub, heq⟩ := outputDir_eq (getClusterConfigDir ns uid) manifestPath (by simp)
  unfold Installer.fetchAndPersist Installer.persistToFile
  rw [heq]
  refine Tries.seq (Q := fun err s' => err = .ok () ∧
    ImageFirst (getClusterConfigDir ns uid) s') ?_ ?_
  · exact Tries.lift (Meets.mono (tries_saveStateFile h₇) fun r s' h' => by
      cases r with
      | ok u => exact ⟨rfl, h'⟩
      | error e => exact h'.elim)
  rintro err s₈ ⟨rfl, h₈⟩
  refine Tries.seq (Q := fun _ _ => True) ?_ fun _ s₉ _ => fun _ _ => trivial
  refine Tries.seq (tries_imageFirst (Prog.uses_perform (mkdirAll_sparesBoth hsub)) h₈) ?_
  exact fun _ s₉ h₉ => tries_writeManifest h₉

/-- The installer leaves the directory safe; if it returns without an error, with a finished
build. -/
theorem createInstallationIso_built (spec : Spec) (h : NoImage (getClusterConfigDir ns uid) s) :
    Tries (Guarding E (getClusterConfigDir ns uid))
      (Installer.createInstallationIso E spec (getClusterConfigDir ns uid))
      (fun _ s' => Built E (getClusterConfigDir ns uid) s'.1 s'.2)
      (fun _ s' => Safe E (getClusterConfigDir ns uid) s') s := by
  have hboth := Meets.both (createInstallationIso_safe (E := E) spec h)
    (meets_ran (Installer.createInstallationIso E spec (getClusterConfigDir ns uid)).run s.1 s.2)
  refine Meets.mono (hboth.guar_mono fun _ _ _ _ hg => hg.1) ?_
  rintro (e | u) s' ⟨hsafe, cs, hexec, hlog⟩
  · exact hsafe
  · exact ⟨spec, cs, s.1, s'.1, hexec, hlog ▸ (List.suffix_append ..).isInfix, fun _ _ => rfl⟩

/-- Calls that write no output. -/
def SparesOutputs (dir : Path) (op : Op B) : Prop :=
  (∀ file ∈ buildOutputs, ¬op.writes (dir.join file)) ∧ op.storesSecret = false

theorem meets_safe {dir : Path} (hp : p.Uses (SparesOutputs dir)) (h : Safe E dir s) :
    Meets (Guarding E dir) p (fun _ s' => Safe E dir s') s :=
  guarding_of_uses hp (fun _ hI => hI) (fun _ hop => hop.2)
    (fun _ _ _ _ _ hop hI hc => hI.kept hc hop.1) h

theorem meets_idle {dir : Path} (hp : p.Uses (SparesOutputs dir)) (h : Idle E dir s) :
    Meets (Guarding E dir) p (fun _ s' => Idle E dir s') s :=
  guarding_of_uses hp (fun _ hI => hI.safe) (fun _ hop => hop.2)
    (fun _ _ _ _ _ hop hI hc => hI.kept hc hop.1) h

theorem sparesOutputs_of_plain {dir : Path} {op : Op B} (h : op.plain = true) :
    SparesOutputs dir op := by
  refine ⟨fun file _ => ?_, storesSecret_of_plain h⟩
  cases op <;> first | exact id | cases h

/-! ## The parts of a build -/

variable [DecidableEq B]

theorem ensureCreds_guards {dir : Path} (cd : NamespacedName) (cdUID : String)
    (h : Built E dir s.1 s.2) :
    Meets (Guarding E dir) (ensureCreds E cd cdUID dir).run (fun _ s' => Safe E dir s') s := by
  have hbuilt : Meets (Recording answer Sound fun s _ _ _ => Built E dir s.1 s.2)
      (ensureCreds E cd cdUID dir).run (fun _ s' => Built E dir s'.1 s'.2) s := by
    refine Meets.of_uses (A := fun op => op.target = .nothing ∨ op.target = .secret)
      (ensureCreds_uses (fun _ => .inl) E cd cdUID dir fun _ h => .inr h.target)
      (fun _ _ hI hr => hr ▸ hI) ?_ h
    rintro op s₁ r s₂ hop hI ⟨⟨c, hc⟩, -⟩
    obtain ⟨hanswer, hlog⟩ := recording_eq hc
    have hfs : s₂.1.fs = s₁.1.fs := by
      rcases hop with hop | hop
      · exact (answer_framed hanswer).fs (by simp [hop]) (by simp [hop])
      · exact (answer_framed hanswer).fs (by simp [hop]) (by simp [hop])
    refine ⟨hI, ?_⟩
    rw [hlog]
    exact hI.more (fun _ _ => by rw [hfs]) _
  have hboth := Meets.both (ensureCreds_copies E cd cdUID dir).recorded hbuilt
  refine Meets.mono (hboth.guar_mono fun s₁ op _ _ hg => ?_) fun _ _ h => .inr (.inr h.2)
  exact ⟨.inr (.inr hg.2), fun hs => ⟨hg.1 hs, hg.2⟩⟩

omit [DecidableEq B] in
/-- The error of a program that leaves the directory safe either way. -/
theorem tries_of_safe {dir : Path} {x : Act B α}
    (h : Meets (Guarding E dir) x.run (fun _ s' => Safe E dir s') s) :
    Tries (Guarding E dir) x (fun _ s' => Safe E dir s') (fun _ s' => Safe E dir s') s :=
  Meets.mono h fun r s' h' => by cases r <;> exact h'

variable (inp : BuildInput)

theorem finishBuild_guards (h : NoImage (getClusterConfigDir ns uid) s) :
    Tries (Guarding E (getClusterConfigDir ns uid)) (finishBuild E inp (getClusterConfigDir ns uid))
      (fun _ s' => Safe E (getClusterConfigDir ns uid) s')
      (fun _ s' => Safe E (getClusterConfigDir ns uid) s') s :=
  Tries.seq (Tries.adapt (createInstallationIso_built inp.spec h)) fun _ _ h' =>
    tries_of_safe (ensureCreds_guards _ _ h')

omit [DecidableEq B] in
/-- The deferred removal of a directory. -/
theorem deferRemoveAll_guards {dir tmp : Path} {body : Act B Unit}
    (h : Tries (Guarding E dir) body (fun _ s' => Safe E dir s') (fun _ s' => Safe E dir s') s) :
    Tries (Guarding E dir) (deferRemoveAll tmp body) (fun _ s' => Safe E dir s')
      (fun _ s' => Safe E dir s') s := by
  refine Tries.seq (Q := fun _ s' => Safe E dir s') (Tries.lift ?_) fun r s₁ h₁ => ?_
  · exact Meets.mono h fun r s' h' => by cases r <;> exact h'
  refine Tries.seq (Q := fun _ s' => Safe E dir s') (Tries.lift (meets_safe ?_ h₁))
    fun _ s₂ h₂ => ?_
  · exact Prog.uses_perform ⟨fun _ _ => id, rfl⟩
  · exact tries_of_safe (meets_safe (uses_liftExcept _) h₂)

theorem rebuild_guards (h : Idle E (getClusterConfigDir ns uid) s) :
    Tries (Guarding E (getClusterConfigDir ns uid)) (rebuild E inp (getClusterConfigDir ns uid))
      (fun _ s' => Safe E (getClusterConfigDir ns uid) s')
      (fun _ s' => Safe E (getClusterConfigDir ns uid) s') s := by
  have hread : ∀ op : Op B, op.target = .nothing → SparesImage (getClusterConfigDir ns uid) op :=
    fun _ => sparesImage_of_read
  have hfile : ∀ op : Op B, BuildFile (getClusterConfigDir ns uid) op →
      SparesImage (getClusterConfigDir ns uid) op := fun _ => sparesImage_of_file
  have hconfig : ∀ tmp (op : Op B), WritesNetworks E inp tmp op →
      SparesImage (getClusterConfigDir ns uid) op := fun _ _ hop =>
    ⟨hop.not_writes_output (by decide), storesSecret_of_file hop.target⟩
  have hdir : (getClusterConfigDir ns uid).join [] = getClusterConfigDir ns uid := by
    simp [Path.join]
  refine Tries.seq (Q := fun _ s' => NoImage (getClusterConfigDir ns uid) s') (Tries.lift ?_)
    fun _ s₁ h₁ => ?_
  · rintro _ rfl r s' ⟨⟨c, hc⟩, hsound⟩
    exact ⟨.of_safe h.safe rfl, fun _ hs => hs ▸ (hsound.removal ns uid rfl).1⟩
  refine Tries.seq (tries_noImage (Prog.uses_perform (hdir ▸ hfile _ (.subdir (by simp)))) h₁)
    fun _ s₂ h₂ => ?_
  refine Tries.seq (tries_noImage (uses_wrap (getValidPullSecret_uses hread ..)) h₂)
    fun psData s₃ h₃ => ?_
  refine Tries.seq (tries_noImage (uses_wrap (getCABundle_uses hread ..)) h₃)
    fun caBundle s₄ h₄ => ?_
  refine Tries.seq (tries_noImage (uses_wrap (generateExtraManifests_uses hread hfile ..)) h₄)
    fun _ s₅ h₅ => ?_
  refine Tries.seq (tries_noImage (uses_wrap (clusterIdentitySecrets_uses hread ..)) h₅)
    fun idData s₆ h₆ => ?_
  cases idData with
  | none =>
    refine Tries.seq (tries_noImage
      (writeConfigFiles_uses hread hfile E inp psData caBundle _ (hconfig _)) h₆) ?_
    exact fun _ s₇ h₇ => finishBuild_guards inp h₇
  | some idData =>
    refine Tries.seq (tries_noImage (uses_wrap (Prog.uses_perform (hfile _ .temp))) h₆)
      fun tmp s₇ h₇ => deferRemoveAll_guards ?_
    refine Tries.seq (tries_noImage
      (writeConfigFiles_uses hread hfile E inp psData caBundle _ (hconfig _)) h₇) ?_
    intro _ s₈ h₈
    refine Tries.seq (tries_noImage
      (uses_wrap (writeReinstallData_uses hread hfile E tmp idData)) h₈) ?_
    exact fun _ s₉ h₉ => finishBuild_guards inp h₉

omit [DecidableEq B] in
/-- If the four outputs are there, they are those of a finished build. -/
theorem verifyIsoAndAuthExists_built {dir : Path} (h : Idle E dir s) :
    Meets (Guarding E dir) (verifyIsoAndAuthExists dir)
      (fun b s' => Idle E dir s' ∧ (b = true → Built E dir s'.1 s'.2)) s := by
  have hidle : Meets (Guarding E dir) (verifyIsoAndAuthExists dir) (fun _ s' => Idle E dir s') s :=
    meets_idle (verifyIsoAndAuthExists_uses
      (fun op h => sparesOutputs_of_plain (plain_of_read h)) dir) h
  have hspec : Meets (Recording answer Sound fun _ _ _ _ => True) (verifyIsoAndAuthExists dir)
      _ (s.1, s.2) :=
    (verifyIsoAndAuthExists_spec dir).recorded
  refine Meets.mono ((hidle.both hspec).guar_mono fun _ _ _ _ hg => hg.1) ?_
  rintro b s' ⟨hidle', hworld, hexists⟩
  refine ⟨hidle', fun hb => ?_⟩
  rcases hidle'.2 with ⟨file, hfile, hnone⟩ | hbuilt
  · have hsome := hexists hb file hfile
    rw [← hworld, hnone] at hsome
    cases hsome
  · exact hbuilt

theorem buildImage_guards (h : Idle E (getClusterConfigDir ns uid) s) :
    Meets (Guarding E (getClusterConfigDir ns uid))
      (buildImage E inp (getClusterConfigDir ns uid)).run
      (fun _ s' => Safe E (getClusterConfigDir ns uid) s') s := by
  have htries : Tries (Guarding E (getClusterConfigDir ns uid))
      (buildImage E inp (getClusterConfigDir ns uid))
      (fun _ s' => Safe E (getClusterConfigDir ns uid) s')
      (fun _ s' => Safe E (getClusterConfigDir ns uid) s') s := by
    refine Tries.seq (Tries.lift (verifyIsoAndAuthExists_built h)) ?_
    rintro (_ | _) s₁ ⟨h₁, hb⟩
    · exact rebuild_guards inp h₁
    · exact tries_of_safe (ensureCreds_guards _ _ (hb rfl))
  exact Meets.mono htries fun r s' h' => by cases r <;> exact h'

/-- `writeInputData`, for its own work directory. -/
theorem writeInputData_guards (h : Idle E (getClusterConfigDir inp.ns uid) s) :
    Meets (Guarding E (getClusterConfigDir inp.ns uid)) (writeInputData E inp uid).run
      (fun _ s' => Safe E (getClusterConfigDir inp.ns uid) s') s := by
  have hread : ∀ op : Op B, op.target = .nothing →
      SparesOutputs (getClusterConfigDir inp.ns uid) op := fun op h =>
    sparesOutputs_of_plain (plain_of_read h)
  have hlockDir : ∀ op : Op B, Tidies E (lockDirOf inp.ns uid) op →
      SparesOutputs (getClusterConfigDir inp.ns uid) op := fun op h =>
    ⟨fun _ _ => h.not_writes_output, storesSecret_of_file h.target⟩
  have hbuild : ∀ s₁, Idle E (getClusterConfigDir inp.ns uid) s₁ →
      Tries (Guarding E (getClusterConfigDir inp.ns uid))
        (buildImage E inp (getClusterConfigDir inp.ns uid))
        (fun _ s' => Safe E (getClusterConfigDir inp.ns uid) s')
        (fun _ s' => Safe E (getClusterConfigDir inp.ns uid) s') s₁ := fun s₁ h₁ =>
    Meets.mono (buildImage_guards inp h₁) fun r s' h' => by cases r <;> exact h'
  refine Meets.mono (writeInputData_steps E inp hread hlockDir meets_idle hbuild
    (fun _ h₁ => h₁.safe) h) fun r s' h' => ?_
  cases r with
  | error e => exact h'
  | ok res => exact h'.elim And.right And.right

end Own

/-! ## Passes -/

/-- What a pass guarantees before every call. -/
def PassGuards (E : Env B) (s : World B × Log B) (op : Op B) : Prop :=
  (∀ ns uid, Safe E (getClusterConfigDir ns uid) s) ∧
  (op.storesSecret = true → ∃ ns uid, CopiesFile (getClusterConfigDir ns uid) s.1 op ∧
    Built E (getClusterConfigDir ns uid) s.1 s.2)

abbrev PassGuarding (E : Env B) :
    Contract (Op B) Resp (Recorded (Op B) Resp (World B) (Choice B)) :=
  Recording answer Sound fun s op _ _ => PassGuards E s op

def AllSafe (E : Env B) (s : World B × Log B) : Prop :=
  ∀ ns uid, Safe E (getClusterConfigDir ns uid) s

def AllIdle (E : Env B) (s : World B × Log B) : Prop :=
  ∀ ns uid, Idle E (getClusterConfigDir ns uid) s

/-- Calls that write no output of any build. -/
def SparesBuilds (op : Op B) : Prop :=
  (∀ ns uid, ∀ file ∈ buildOutputs, ¬op.writes ((getClusterConfigDir ns uid).join file)) ∧
    op.storesSecret = false

section Passes

variable {E : Env B} {s : World B × Log B} {α : Type} {p : Program B α}

theorem AllIdle.safe (h : AllIdle E s) : AllSafe E s := fun ns uid => (h ns uid).safe

theorem PassGuards.of_safe {op : Op B} (h : AllSafe E s) (hop : op.storesSecret = false) :
    PassGuards E s op := by
  refine ⟨h, fun hs => ?_⟩
  rw [hop] at hs
  cases hs

theorem meets_allIdle (hp : p.Uses SparesBuilds) (h : AllIdle E s) :
    Meets (PassGuarding E) p (fun _ s' => AllIdle E s') s := by
  refine Meets.of_uses hp (fun _ _ hI hr => hr ▸ hI) ?_ h
  rintro op s₁ r s₂ hop hI ⟨⟨c, hc⟩, -⟩
  exact ⟨.of_safe hI.safe hop.2, fun ns uid => (hI ns uid).kept hc (hop.1 ns uid)⟩

theorem meets_allSafe (hp : p.Uses SparesBuilds) (h : AllSafe E s) :
    Meets (PassGuarding E) p (fun _ s' => AllSafe E s') s := by
  refine Meets.of_uses hp (fun _ _ hI hr => hr ▸ hI) ?_ h
  rintro op s₁ r s₂ hop hI ⟨⟨c, hc⟩, -⟩
  exact ⟨.of_safe hI hop.2, fun ns uid => (hI ns uid).kept hc (hop.1 ns uid)⟩

theorem sparesBuilds_of_plain {op : Op B} (h : op.plain = true) : SparesBuilds op :=
  ⟨fun _ _ => (sparesOutputs_of_plain h).1, storesSecret_of_plain h⟩

variable [DecidableEq B] (inp : BuildInput) (uid : String)

/-- A build writes no output of another build. -/
theorem writeInputData_outputs : (writeInputData E inp uid).run.Uses fun op => ∀ ns' uid',
    ∀ file ∈ buildOutputs, op.writes ((getClusterConfigDir ns' uid').join file) →
      ns' = inp.ns ∧ uid' = uid := by
  refine writeInputData_uses_files ?_ E inp uid ?_ ?_ ?_ ?_
  · intro op hop ns' uid' file hfile hw
    exact absurd hw ((sparesOutputs_of_plain (plain_of_read hop)).1 file hfile)
  · intro op hop ns' uid' file hfile hw
    obtain ⟨hns, huid, -⟩ := hop.writes_output hfile hw
    exact ⟨hns, huid⟩
  · intro op hop ns' uid' file hfile hw
    cases hop <;> exact hw.elim
  · intro image ns' uid' file hfile hw
    obtain ⟨hns, huid, -⟩ := workDir_join_inj hw
    exact ⟨hns, huid⟩
  · exact fun tmp op hop ns' uid' file hfile hw => absurd hw (hop.not_writes_output hfile)

theorem writeInputData_passGuards (h : AllIdle E s) :
    Meets (PassGuarding E) (writeInputData E inp uid).run (fun _ s' => AllSafe E s') s := by
  have hown := writeInputData_guards inp (h inp.ns uid)
  have hall : Meets (Recording answer Sound fun s _ _ _ =>
      ∀ i : String × String, Safe E (getClusterConfigDir i.1 i.2) s) (writeInputData E inp uid).run
      (fun _ s' => ∀ i : String × String, Safe E (getClusterConfigDir i.1 i.2) s') s := by
    refine Meets.all fun i => ?_
    by_cases heq : i.1 = inp.ns ∧ i.2 = uid
    · rw [heq.1, heq.2]
      exact hown.guar_mono fun _ _ _ _ hg => hg.1
    · refine Meets.of_uses (writeInputData_outputs inp uid) (fun _ _ hI hr => hr ▸ hI) ?_
        (h i.1 i.2).safe
      rintro op s₁ r s₂ hop hI ⟨⟨c, hc⟩, -⟩
      exact ⟨hI, hI.kept hc fun file hfile hw => heq (hop _ _ file hfile hw)⟩
  refine Meets.mono ((hall.both hown).guar_mono fun s₁ op _ _ hg => ?_)
    fun _ _ h' ns' uid' => h'.1 (ns', uid')
  exact ⟨fun ns' uid' => hg.1 (ns', uid'), fun hs => ⟨inp.ns, uid, hg.2.2 hs⟩⟩

variable {req : NamespacedName}

omit inp uid

theorem imagePhases_passGuards (h : AllIdle E s) (ici : ImageClusterInstall)
    (cd : NamespacedName × ClusterDeployment) (key : NamespacedName) (bmh : BareMetalHost)
    (cond : Condition) :
    Meets (PassGuarding E) (imagePhases E req ici cd key bmh cond)
      (fun _ s' => AllSafe E s') s := by
  have hplain : ∀ op : Op B, op.plain = true → SparesBuilds op := fun _ => sparesBuilds_of_plain
  have hstatus : ∀ base new, SparesBuilds (B := B) (.patchICIStatus req base new) :=
    fun _ _ => ⟨fun _ _ _ _ => id, rfl⟩
  have himage : Meets (PassGuarding E) (createImage E req ici.uid
      ⟨req.ns, ici.spec, cd.1, cd.2, key, bmh⟩ { cond with reason := imageCreationFailedReason })
      (fun _ s' => AllSafe E s') s := by
    refine Meets.seq (writeInputData_passGuards _ _ h) fun r s₁ h₁ => ?_
    refine meets_allSafe ?_ h₁
    split
    · trivial
    · trivial
    · trivial
    split
    · trivial
    split <;> trivial
  refine Meets.seq himage fun r s₁ h₁ => ?_
  refine meets_allSafe ?_ h₁
  split
  · trivial
  split
  · trivial
  refine (configureHost_uses req hplain hstatus E _ _ _ _ _).bind fun out => ?_
  split <;> trivial

/-- A pass that starts between builds keeps every work directory safe. -/
theorem reconcile_passGuards (h : AllIdle E s) :
    Meets (PassGuarding E) (reconcile E req) (fun _ s' => AllSafe E s') s := by
  have hplain : ∀ op : Op B, op.plain = true → SparesBuilds op := fun _ => sparesBuilds_of_plain
  have hread : ∀ op : Op B, op.target = .nothing → SparesBuilds op := fun _ h =>
    hplain _ (plain_of_read h)
  have hstatus : ∀ base new, SparesBuilds (B := B) (.patchICIStatus req base new) :=
    fun _ _ => ⟨fun _ _ _ _ => id, rfl⟩
  have hpatch : ∀ base new, new.spec.configured = base.spec.configured →
      SparesBuilds (B := B) (.patchICI req base new) := fun _ _ _ => ⟨fun _ _ _ _ => id, rfl⟩
  have htidy : ∀ uid op, Tidies E (lockDirOf req.ns uid) op → SparesBuilds op := fun _ _ hop =>
    ⟨fun _ _ _ _ => hop.not_writes_output, storesSecret_of_file hop.target⟩
  have hdone : ∀ {α : Type} {a : α} {s : World B × Log B}, AllIdle E s →
      Meets (PassGuarding E) (.ret a : Program B α) (fun _ s' => AllSafe E s') s :=
    fun h _ hs => hs ▸ h.safe
  refine Meets.seq (meets_allIdle (Prog.uses_perform (hread _ rfl)) h) fun r s₁ h₁ => ?_
  cases r with
  | error e => exact hdone h₁
  | ok ici =>
  refine Meets.seq (meets_allIdle (handleFinalizer_uses req hplain hpatch E _ (htidy _)) h₁) ?_
  rintro ⟨ici, _ | stop⟩ s₂ h₂
  on_goal 2 => exact hdone h₂
  refine Meets.seq (meets_allIdle (fetchCD_uses hread _ _) h₂) fun cd s₃ h₃ => ?_
  refine Meets.seq (meets_allIdle (labelReferencedObjectsForBackup_uses hread
    (fun _ _ _ => hplain _ rfl) (fun op h => hplain _ (plain_of_target (by simp [h])))
    (fun _ _ _ => hplain _ rfl) _ _ _) h₃) fun _ s₄ h₄ => ?_
  split
  · refine Meets.seq (meets_allIdle (handlePostCleanup_uses hread (fun _ => hplain _ rfl)
      (fun _ _ => hplain _ rfl) _) h₄) fun r s₅ h₅ => ?_
    cases r <;> exact hdone h₅
  refine Meets.seq (meets_allIdle (checkStarted_uses req hplain (fun _ _ _ => hstatus _ _) _) h₄) ?_
  rintro ⟨ici, _ | _⟩ s₅ h₅
  on_goal 2 => exact hdone h₅
  dsimp only
  split
  · exact hdone h₅
  refine Meets.seq (meets_allIdle
    (prepare_uses req hplain (fun _ _ _ => hstatus _ _) hpatch _) h₅) ?_
  rintro ⟨ici, e | u⟩ s₆ h₆
  · exact hdone h₆
  -- the phases
  refine Meets.seq (Q := fun _ s' => AllSafe E s') ?_ fun out s₇ h₇ => ?_
  · refine Meets.seq (meets_allIdle (validateConfiguration_uses req hplain _ _ _) h₆)
      fun r s₇ h₇ => ?_
    split
    · refine Meets.seq (meets_allIdle (validateHost_uses hplain E _ _ _ _) h₇) fun r s₈ h₈ => ?_
      split
      · exact hdone h₈
      split
      · exact hdone h₈
      refine Meets.seq (meets_allIdle (setClusterInstallMetadata_uses hread E _ _ _ _
        fun m => hpatch _ _ rfl) h₈) fun r s₉ h₉ => ?_
      split
      · exact hdone h₉
      · exact hdone h₉
      · exact imagePhases_passGuards h₉ _ _ _ _ _
    · exact hdone h₇
  · refine Meets.seq (meets_allSafe (setRequirementsMetCondition_uses hread _ _
      (fun _ => hstatus _ _) _ _ _) h₇) fun _ s₈ h₈ => ?_
    exact fun _ hs => hs ▸ h₈

end Passes

/-! ## Runs -/

/-- Passes, and what others do. -/
inductive BuildEvent (B : Type) where
  | pass (req : NamespacedName) (choices : List (Choice B))
  | others

/-- The steps of a run. A pass may fail anywhere or be cut short; others lose files but write
none. -/
def BuildEvent.Fires [DecidableEq B] (E : Env B) (s : World B × Log B) :
    BuildEvent B → World B × Log B → Prop
  | .pass req cs, s' => s' = (((reconcile E req).exec answer cs s.1).1,
      s.2 ++ (reconcile E req).trace answer cs s.1)
  | .others, s' => (∀ p, s'.1.fs p = s.1.fs p ∨ s'.1.fs p = none) ∧ s'.2 = s.2

/-- The pass finds a sound environment, and does not end between the write of an image beside a
manifest and the write of that manifest. -/
def Undisturbed [DecidableEq B] (E : Env B) (s : World B × Log B) : BuildEvent B → Prop
  | .pass req cs => TraceOk answer Sound (reconcile E req) cs s.1 ∧
      ∀ ns uid, Rewriting (getClusterConfigDir ns uid)
        (s.2 ++ (reconcile E req).trace answer cs s.1) = false
  | .others => True

/-- The runs whose steps meet `C`, from an empty disk. -/
abbrev BuildRun [DecidableEq B] (E : Env B) (C : World B × Log B → BuildEvent B → Prop) :
    World B × Log B → Prop :=
  Reaches (BuildEvent.Fires E) C fun s => (∀ p, s.1.fs p = none) ∧ s.2 = []

section BuildRuns

variable {E : Env B} {s s' : World B × Log B}

/-- A call that ends well is sound. -/
theorem sound_of_ok {op : Op B} {c : Choice B} {w : World B} (hc : c.ending = .ok) :
    Sound w op (answer op c w).1 (answer op c w).2 := by
  have hwrite : ∀ path content, (answer (.writeFile path content) c w).1 = .ok () := by
    intro path content
    simp [answer, Choice.write, hc]
  refine ⟨?_, ?_, ?_⟩
  · rintro ns uid content rfl hfailed
    rw [hwrite] at hfailed
    cases hfailed
  · rintro ns uid content rfl
    rw [hwrite]
    rfl
  · rintro ns uid rfl
    simp [answer, Choice.removal, hc, World.prune, Path.within, Path.join]

/-- A guarantee about the world before each call can always be used. -/
theorem sound_goes (op : Op B) (s : World B × Log B) :
    ∃ c, Sound s.1 op (recording answer op c s).1 (recording answer op c s).2.1 :=
  ⟨{}, sound_of_ok rfl⟩

theorem AllSafe.idle (h : AllSafe E s)
    (hdone : ∀ ns uid, Rewriting (getClusterConfigDir ns uid) s.2 = false) : AllIdle E s := by
  intro ns uid
  refine ⟨hdone ns uid, (h ns uid).resolve_left ?_⟩
  rw [hdone ns uid]
  exact nofun

/-- Lost files do no harm. -/
theorem AllIdle.lost (h : AllIdle E s) (hfs : ∀ p, s'.1.fs p = s.1.fs p ∨ s'.1.fs p = none)
    (hlog : s'.2 = s.2) : AllIdle E s' := by
  intro ns uid
  obtain ⟨hdone, hbuilt⟩ := h ns uid
  refine ⟨hlog ▸ hdone, ?_⟩
  by_cases hmissing : Missing (getClusterConfigDir ns uid) s'.1
  · exact .inl hmissing
  have hkept : ∀ file ∈ buildOutputs, s'.1.fs ((getClusterConfigDir ns uid).join file) =
      s.1.fs ((getClusterConfigDir ns uid).join file) := fun file hfile =>
    (hfs _).resolve_right fun hnone => hmissing ⟨file, hfile, hnone⟩
  rcases hbuilt with ⟨file, hfile, hnone⟩ | hbuilt
  · exact absurd ⟨file, hfile, (hkept file hfile).trans hnone⟩ hmissing
  · have hmore := hbuilt.more hkept []
    rw [List.append_nil, ← hlog] at hmore
    exact .inr hmore

variable [DecidableEq B] {req : NamespacedName} {cs : List (Choice B)}

/-- Whether it returns or is cut short, a pass leaves every work directory safe. -/
theorem pass_safe (h : AllIdle E s) (hsound : TraceOk answer Sound (reconcile E req) cs s.1) :
    AllSafe E (((reconcile E req).exec answer cs s.1).1,
      s.2 ++ (reconcile E req).trace answer cs s.1) := by
  have hok := traceOk_recording (l := s.2) hsound
  have hexec : (reconcile E req).exec (recording answer) cs s = _ :=
    exec_recording (reconcile E req) cs s.1 s.2
  cases hstop : ((reconcile E req).exec answer cs s.1).2 with
  | some rep =>
    have hpost := (reconcile_passGuards h).exec cs hok (by rw [hexec]; exact hstop)
    rwa [hexec] at hpost
  | none =>
    have hpending := (reconcile_passGuards h).pending (S := AllSafe E) cs hok
      (fun _ _ _ _ hg => hg.1) sound_goes (by rw [hexec]; exact hstop)
    rwa [hexec] at hpending

theorem AllIdle.step {ev : BuildEvent B} (h : AllIdle E s) (hC : Undisturbed E s ev)
    (hs : ev.Fires E s s') : AllIdle E s' := by
  cases ev with
  | pass req cs =>
    cases hs
    exact (pass_safe h hC.1).idle hC.2
  | others => exact h.lost hs.1 hs.2

theorem buildRun_idle (h : BuildRun E (Undisturbed E) s) : AllIdle E s := by
  refine h.invariant ?_ fun _ _ _ => AllIdle.step
  rintro s ⟨hempty, hlog⟩ ns uid
  refine ⟨?_, .inl ⟨isoPath, by decide, hempty _⟩⟩
  rw [hlog]
  rfl

/-- In every run whose passes are undisturbed: if the four outputs exist, they are those of one
successful build, and what a further pass stores in the identity secrets comes from such files. -/
theorem existing_image_is_finished (E : Env B) (s : World B × Log B)
    (h : BuildRun E (Undisturbed E) s) :
    (∀ ns uid cs, ((verifyIsoAndAuthExists (getClusterConfigDir ns uid)).exec answer cs s.1).2 =
      some true → Built E (getClusterConfigDir ns uid) s.1 s.2) ∧
    ∀ req cs, TraceOk answer Sound (reconcile E req) cs s.1 →
      ∀ pre t post, (reconcile E req).trace answer cs s.1 = pre ++ t :: post →
        t.op.storesSecret = true → ∃ ns uid, CopiesFile (getClusterConfigDir ns uid) t.before t.op ∧
          Built E (getClusterConfigDir ns uid) t.before (s.2 ++ pre) := by
  have hidle := buildRun_idle h
  refine ⟨fun ns uid cs hb => ?_, fun req cs hsound pre t post htrace hstores => ?_⟩
  · have hspec : Meets (Alone fun _ _ _ _ => True)
        (verifyIsoAndAuthExists (getClusterConfigDir ns uid)) _ s.1 :=
      verifyIsoAndAuthExists_spec _
    have hexists := hspec.exec cs (traceOk_true cs) hb
    rcases (hidle ns uid).2 with ⟨file, hfile, hnone⟩ | hbuilt
    · have hsome := hexists.2 rfl file hfile
      rw [hnone] at hsome
      cases hsome
    · exact hbuilt
  · have hguards := (reconcile_passGuards hidle).trace cs (traceOk_recording (l := s.2) hsound)
    exact (hguards _ (mem_trace_recording htrace)).2 hstores

end BuildRuns

/-! ## A manifest cut short -/

/-- The call wrote the manifest of a work directory. -/
def wroteManifest (dir : Path) : (op : Op B) → Resp op → Bool
  | .writeFile path _, .ok _ => path == dir.join manifestPath
  | _, _ => false

/-- The installer does not succeed without writing the manifest. -/
theorem createInstallationIso_wrote {saw : (op : Op B) → Resp op → Prop} (E : Env B) (spec : Spec)
    (dir : Path) (w : World B) :
    Tries (Alone fun _ op r _ => saw op r) (Installer.createInstallationIso E spec dir)
      (fun _ _ => ∃ op r, saw op r ∧ wroteManifest dir op r = true) (fun _ _ => True) w := by
  refine Tries.seq (tries_true _) fun snap _ _ => ?_
  refine Tries.seq (tries_true _) fun draw _ _ => ?_
  refine Tries.seq (tries_true _) fun fetched _ _ => ?_
  refine Tries.seq (tries_true _) fun _ _ _ => ?_
  refine Tries.seq (tries_true _) fun kubeconfig _ _ => ?_
  refine Tries.seq (tries_true _) fun _ _ _ => ?_
  refine Tries.seq (tries_true _) fun _ _ _ => ?_
  -- the last asset
  refine Tries.seq (tries_true _) fun err _ _ => ?_
  refine Tries.seq (Q := fun _ _ => ∃ op r, saw op r ∧ wroteManifest dir op r = true) ?_ ?_
  · refine Tries.seq (tries_true _) fun _ w₁ _ => ?_
    refine meets_call fun c r w₂ hc hsaw => ⟨trivial, meets_ret.2 ?_⟩
    cases r with
    | error e => trivial
    | ok u => exact ⟨_, _, hsaw, by simp [wroteManifest]⟩
  · intro _ w₁ h
    rw [tries_liftExcept]
    cases err with
    | error e => trivial
    | ok _ => exact h

/-- The write of its manifest is on record for every finished build. -/
theorem Built.wrote {E : Env B} {dir : Path} {w : World B} {log : Log B} (h : Built E dir w log) :
    ∃ t ∈ log, wroteManifest dir t.op t.resp = true := by
  obtain ⟨spec, cs, w₁, w₂, hexec, htrace, -⟩ := h
  have hmeets : Tries (Alone fun _ op r _ =>
      (Installer.createInstallationIso E spec dir).run.Saw answer cs w₁ op r) _ _ _ w₁ :=
    createInstallationIso_wrote E spec dir w₁
  obtain ⟨op, r, ⟨t, ht, heq⟩, hwrote⟩ := hmeets.exec cs (traceOk_saw cs) (congrArg Prod.snd hexec)
  refine ⟨t, htrace.subset ht, ?_⟩
  have hsame := congrArg (fun call : (op : Op B) × Resp op => wroteManifest dir call.1 call.2) heq
  exact hsame.trans hwrote

/-- The state after a pass on the sample object. -/
def sampleBuild (cs : List (Choice Doc)) (s : World Doc × Log Doc) : World Doc × Log Doc :=
  (((reconcile Env.symbolic sampleKey).exec answer cs s.1).1,
    s.2 ++ (reconcile Env.symbolic sampleKey).trace answer cs s.1)

theorem sampleBuild_run {C : World Doc × Log Doc → BuildEvent Doc → Prop} {s : World Doc × Log Doc}
    (h : BuildRun Env.symbolic C s) (cs : List (Choice Doc)) (hC : C s (.pass sampleKey cs)) :
    BuildRun Env.symbolic C (sampleBuild cs s) :=
  .next h hC rfl

theorem sampleBuild_start {C : World Doc × Log Doc → BuildEvent Doc → Prop} :
    BuildRun Env.symbolic C (sampleWorld.setICI sampleKey (some sampleICI), []) :=
  .start ⟨fun _ => rfl, rfl⟩

/-- The first pass only adds the finalizer. -/
def withFinalizer : World Doc × Log Doc :=
  sampleBuild instantly (sampleWorld.setICI sampleKey (some sampleICI), [])

/-- The disk is full when the manifest is written: its file is left with its first byte. -/
def fullDisk : List (Choice Doc) :=
  instantly.set 48 { ending := .fail "no space left on device", leftover := some (.text "x") }

/-- The first install writes the manifest last, but its file exists before it is complete. -/
theorem torn_manifest_is_reused :
    ∃ s, BuildRun Env.symbolic (fun _ _ => True) s ∧
      ((verifyIsoAndAuthExists (getClusterConfigDir "spokes" "8f2c")).exec answer instantly s.1).2 =
        some true ∧
      ¬Built Env.symbolic (getClusterConfigDir "spokes" "8f2c") s.1 s.2 := by
  refine ⟨sampleBuild fullDisk withFinalizer, ?_, by decide +kernel, fun hbuilt => ?_⟩
  · exact sampleBuild_run (sampleBuild_run sampleBuild_start instantly trivial) fullDisk trivial
  · have hnone : ∀ t ∈ (sampleBuild fullDisk withFinalizer).2,
        wroteManifest (getClusterConfigDir "spokes" "8f2c") t.op t.resp = false := by
      decide +kernel
    obtain ⟨t, ht, hwrote⟩ := hbuilt.wrote
    rw [hnone t ht] at hwrote
    cases hwrote

/-! ## Builds without a disturbance -/

/-- The call wrote an image beside a manifest. -/
def besideManifest (t : Transition (Op B) Resp (World B) (Choice B)) : Bool :=
  match t.op with
  | .writeIso path .. => (t.after.fs ⟨path.root, path.rel.dropLast ++ manifestPath⟩).isSome
  | _ => false

theorem rewriting_of_not_beside {dir : Path} {t : Transition (Op B) Resp (World B) (Choice B)}
    (h : besideManifest t = false) : rewriting dir false t = false := by
  obtain ⟨w, op, c, r, w'⟩ := t
  cases op with
  | writeIso path image spec =>
    simp only [rewriting]
    split
    · next hpath =>
      subst hpath
      simp only [besideManifest, Path.join, isoPath, List.dropLast_append_cons,
        List.dropLast_singleton, List.append_nil] at h
      simp only [Path.join, h, Bool.and_false]
    · rfl
  | writeFile path content =>
    cases r with
    | error e => rfl
    | ok u =>
      simp only [rewriting]
      split <;> rfl
  | _ => rfl

theorem rewriting_of_none_beside {log : Log B} (h : ∀ t ∈ log, besideManifest t = false)
    (dir : Path) : Rewriting dir log = false := by
  unfold Rewriting
  induction log with
  | nil => rfl
  | cons t log ih =>
    rw [List.foldl_cons, rewriting_of_not_beside (h t (List.mem_cons_self ..))]
    exact ih fun t' ht' => h t' (List.mem_cons_of_mem _ ht')

theorem instantly_sound {α : Type} (p : Program Doc α) (w : World Doc) :
    TraceOk answer Sound p instantly w := by
  intro t ht
  have hending : t.choice.ending = .ok := by
    rw [List.eq_of_mem_replicate (trace_choice answer ht)]
  have hsound : Sound t.before t.op (answer t.op t.choice t.before).1 _ := sound_of_ok hending
  rwa [trace_answer answer ht] at hsound

theorem existing_image_is_finished_sample :
    BuildRun Env.symbolic (Undisturbed Env.symbolic) (sampleBuild instantly withFinalizer) ∧
      Built Env.symbolic (getClusterConfigDir "spokes" "8f2c")
        (sampleBuild instantly withFinalizer).1 (sampleBuild instantly withFinalizer).2 := by
  have hfirst : ∀ t ∈ withFinalizer.2, besideManifest t = false := by decide +kernel
  have hsecond : ∀ t ∈ (sampleBuild instantly withFinalizer).2, besideManifest t = false := by
    decide +kernel
  have hone : BuildRun Env.symbolic (Undisturbed Env.symbolic) withFinalizer :=
    sampleBuild_run sampleBuild_start instantly ⟨instantly_sound _ _, fun ns uid =>
      rewriting_of_none_beside hfirst _⟩
  have hrun : BuildRun Env.symbolic (Undisturbed Env.symbolic)
      (sampleBuild instantly withFinalizer) :=
    sampleBuild_run hone instantly ⟨instantly_sound _ _, fun ns uid =>
      rewriting_of_none_beside hsecond _⟩
  exact ⟨hrun, (existing_image_is_finished Env.symbolic _ hrun).1 "spokes" "8f2c" instantly
    (by decide +kernel)⟩

end ImageBasedInstall

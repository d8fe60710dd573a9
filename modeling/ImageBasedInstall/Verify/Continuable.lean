import ImageBasedInstall.Verify.Branches
import ImageBasedInstall.Verify.IdentityBuild
import ImageBasedInstall.Verify.SmoothBuild

/-!
# Builds that fail can be tried again

A build that is interrupted leaves files and secrets behind, and the next one goes on from them: it
takes over a complete work directory as it is, and it reinstalls the identity it finds in the
secrets. `Continuable` says that neither gets it stuck: what is stored can be installed again, and
so can what is copied from a work directory without a missing output. Every call of a build keeps
it, however the build ends, if the removal of a work directory leaves nothing and no output is left
half written beside the others (`Intact`).
-/

namespace ImageBasedInstall

open Interactive Installer

variable {B : Type}

/-! ## Usable credentials -/

/-- The base domain and the name the installer gives to the cluster. -/
def ClusterDeployment.names (cd : ClusterDeployment) : String × String :=
  (cd.baseDomain, if cd.clusterName ≠ "" then cd.clusterName else "imagebased-sno-cluster")

/-- A reinstall accepts the content of a credential file: the kubeconfig can be loaded, and the
manifest is one of the same cluster. -/
structure Usable (E : Env B) (cd : ClusterDeployment) (file : List String) (b : B) : Prop where
  kubeconfig : file = kubeconfigPath → E.validKubeconfig b = true
  manifest : file = manifestPath → ∃ seed, E.unmarshalSeed b = some seed ∧
    (seed.baseDomain, seed.clusterName) = cd.names

/-- The cache shows the identity secrets that exist, and their payloads are usable. -/
structure UsableSecrets (E : Env B) (cd : ClusterDeployment) (cdKey : NamespacedName)
    (w : World B) :
    Prop where
  shown : Shown cdKey w
  payloads : ∀ kind file, (kind, file) ∈ credentialFiles → ∀ b, w.payload E kind cdKey = some b →
    Usable E cd file b

/-- The credential files of a directory are usable, as far as they are there. -/
def UsableFiles (E : Env B) (cd : ClusterDeployment) (dir : Path) (w : World B) : Prop :=
  ∀ kind file, (kind, file) ∈ credentialFiles → ∀ b, w.content (dir.join file) = some b →
    Usable E cd file b

/-- Nothing but files stands in the place of the credential files. -/
def PlainFiles (dir : Path) (w : World B) : Prop :=
  ∀ kind file, (kind, file) ∈ credentialFiles → ∀ e, w.fs (dir.join file) = some e →
    ∃ b, e = .file b

/-- A build in the directory can go on from what is there. -/
structure Continuable (E : Env B) (cd : ClusterDeployment) (cdKey : NamespacedName) (dir : Path)
    (w : World B) : Prop where
  secrets : UsableSecrets E cd cdKey w
  plain : PlainFiles dir w
  directory : Missing dir w ∨ UsableFiles E cd dir w

/-- Nothing but usable credentials: what holds from the start of the installer. -/
structure Supplied (E : Env B) (cd : ClusterDeployment) (cdKey : NamespacedName) (dir : Path)
    (w : World B) : Prop where
  secrets : UsableSecrets E cd cdKey w
  plain : PlainFiles dir w
  files : UsableFiles E cd dir w

/-- What the file system grants to builds in the work directory: a removal leaves nothing, and an
output is written as a whole or not at all, unless another one is missing. -/
structure Intact (dir : Path) (w : World B) (op : Op B) (r : Resp op) (w' : World B) : Prop where
  removal : Clears dir w op r w'
  writes : ∀ file ∈ buildOutputs, ∀ e, op.entry = some (dir.join file, e) →
    w'.fs (dir.join file) = w.fs (dir.join file) ∨ w'.fs (dir.join file) = some e ∨ Missing dir w'

section Usable

variable {E : Env B} {cd : ClusterDeployment} {cdKey : NamespacedName} {dir : Path} {w w' : World B}
  {file : List String} {b : B}

/-- A password is always usable. -/
theorem Usable.password : Usable E cd kubeadminPasswordPath b :=
  ⟨fun h => absurd h (by decide), fun h => absurd h (by decide)⟩

theorem Usable.of_kubeconfig (h : E.validKubeconfig b = true) : Usable E cd kubeconfigPath b :=
  ⟨fun _ => h, fun h => absurd h (by decide)⟩

theorem Usable.of_manifest {seed : SeedReconfiguration} (h : E.unmarshalSeed b = some seed)
    (hnames : (seed.baseDomain, seed.clusterName) = cd.names) : Usable E cd manifestPath b :=
  ⟨fun h => absurd h (by decide), fun _ => ⟨seed, h, hnames⟩⟩

theorem mem_credentialFiles {kind : IdentitySecret} (h : (kind, file) ∈ credentialFiles) :
    kind ∈ identitySecrets ∧ file ∈ buildOutputs ∧ file ≠ isoPath := by
  simp only [credentialFiles, List.mem_cons, Prod.mk.injEq, List.not_mem_nil, or_false] at h
  rcases h with ⟨rfl, rfl⟩ | ⟨rfl, rfl⟩ | ⟨rfl, rfl⟩
  · exact ⟨by simp [identitySecrets], by decide, by decide⟩
  · exact ⟨by simp [identitySecrets], by decide, by decide⟩
  · exact ⟨by simp [identitySecrets], by decide, by decide⟩

theorem UsableSecrets.of_payloads (h : UsableSecrets E cd cdKey w) (hshown : Shown cdKey w')
    (hpayloads : ∀ kind ∈ identitySecrets, w'.payload E kind cdKey = w.payload E kind cdKey) :
    UsableSecrets E cd cdKey w' := by
  refine ⟨hshown, fun kind file hkf b hb => ?_⟩
  rw [hpayloads kind (mem_credentialFiles hkf).1] at hb
  exact h.payloads kind file hkf b hb

theorem UsableSecrets.of_eq (h : UsableSecrets E cd cdKey w) (hs : w'.secrets = w.secrets) :
    UsableSecrets E cd cdKey w' := by
  refine h.of_payloads (fun kind hkind s hw => ?_) fun _ _ => payload_of_eq (by rw [hs])
  rw [hs] at hw
  exact h.shown kind hkind s hw

section Outputs

variable (hfs : ∀ file ∈ buildOutputs, w'.fs (dir.join file) = w.fs (dir.join file) ∨
  w'.fs (dir.join file) = none)
include hfs

/-- Outputs stay or get lost. -/
theorem UsableFiles.of_outputs (h : UsableFiles E cd dir w) : UsableFiles E cd dir w' := by
  intro kind file hkf b hb
  rcases hfs file (mem_credentialFiles hkf).2.1 with hk | hk
  · exact h kind file hkf b (by rw [← hb, World.content, World.content, hk])
  · simp [World.content, hk] at hb

theorem PlainFiles.of_outputs (h : PlainFiles dir w) : PlainFiles dir w' := by
  intro kind file hkf e he
  rcases hfs file (mem_credentialFiles hkf).2.1 with hk | hk
  · exact h kind file hkf e (hk ▸ he)
  · rw [hk] at he
    cases he

theorem Continuable.of_outputs (h : Continuable E cd cdKey dir w) (hs : w'.secrets = w.secrets) :
    Continuable E cd cdKey dir w' where
  secrets := h.secrets.of_eq hs
  plain := h.plain.of_outputs hfs
  directory := h.directory.imp (·.of_outputs hfs) (·.of_outputs hfs)

theorem Supplied.of_outputs (h : Supplied E cd cdKey dir w) (hs : w'.secrets = w.secrets) :
    Supplied E cd cdKey dir w' where
  secrets := h.secrets.of_eq hs
  plain := h.plain.of_outputs hfs
  files := h.files.of_outputs hfs

end Outputs

theorem Supplied.continuable (h : Supplied E cd cdKey dir w) : Continuable E cd cdKey dir w :=
  ⟨h.secrets, h.plain, .inr h.files⟩

/-- A work directory without a missing output is finished. -/
theorem PlainFiles.finished (h : PlainFiles dir w) (hall : ¬Missing dir w) : Finished dir w := by
  have hsome : ∀ file ∈ buildOutputs, ∃ e, w.fs (dir.join file) = some e := by
    intro file hfile
    exact Option.ne_none_iff_exists'.1 fun hnone => hall ⟨file, hfile, hnone⟩
  have hcontent : ∀ kind file, (kind, file) ∈ credentialFiles →
      (w.content (dir.join file)).isSome := by
    intro kind file hkf
    obtain ⟨e, he⟩ := hsome file (mem_credentialFiles hkf).2.1
    obtain ⟨b, rfl⟩ := h kind file hkf e he
    simp [World.content, he, Entry.content]
  refine ⟨Option.isSome_iff_exists.2 (hsome isoPath (by decide)), fun file hfile => ?_⟩
  simp only [List.mem_cons, List.not_mem_nil, or_false] at hfile
  rcases hfile with rfl | rfl | rfl
  · exact hcontent adminPasswordSecret _ (by simp [credentialFiles])
  · exact hcontent kubeconfigSecret _ (by simp [credentialFiles])
  · exact hcontent seedReconfigurationSecret _ (by simp [credentialFiles])

end Usable

/-! ## Calls of a build -/

/-- Steps between worlds from which a build can go on. -/
abbrev Continuing (E : Env B) (cd : ClusterDeployment) (cdKey : NamespacedName) (dir : Path) :
    Contract (Op B) Resp (World B) :=
  Running (fun w op r w' => Continuable E cd cdKey dir w ∧ Intact dir w op r w')
    fun _ _ _ w' => Continuable E cd cdKey dir w'

/-- A build can go on after the call. -/
abbrev Continues (E : Env B) (cd : ClusterDeployment) (cdKey : NamespacedName) (dir : Path)
    (w : World B) (op : Op B) : Prop :=
  Permits (fun w op r w' => Continuable E cd cdKey dir w ∧ Intact dir w op r w')
    (fun _ _ _ w' => Continuable E cd cdKey dir w') w op

section Calls

variable {E : Env B} {cd : ClusterDeployment} {cdKey : NamespacedName} {dir : Path} {w w' : World B}
  {op : Op B} {c : Choice B} {r : Resp op} {α : Type}

theorem continues_quiet (hop : Quiet dir op) : Continues E cd cdKey dir w op := by
  rintro c r w' hc ⟨h, -⟩
  exact h.of_outputs (fun file hfile => kept_or_gone hc (hop.2 file hfile))
    ((hop.framed hc).secrets (by decide))

theorem quiet_of_read (hop : op.target = .nothing) : Quiet dir op :=
  ⟨by simp [hop], (sparesOutputs_of_plain (plain_of_read hop)).1⟩

theorem Supplied.quiet (h : Supplied E cd cdKey dir w) (hop : Quiet dir op)
    (hc : answer op c w = (r, w')) : Supplied E cd cdKey dir w' :=
  h.of_outputs (fun file hfile => kept_or_gone hc (hop.2 file hfile))
    ((hop.framed hc).secrets (by decide))

theorem tries_supplied {x : Act B α} (hx : x.run.Uses (Quiet dir)) (h : Supplied E cd cdKey dir w) :
    Tries (Continuing E cd cdKey dir) x (fun _ w' => Supplied E cd cdKey dir w')
      (fun _ _ => True) w := by
  have hkept : Meets (Continuing E cd cdKey dir) x.run (fun _ w' => Supplied E cd cdKey dir w') w :=
    meets_permitted hx (fun _ _ _ hop => continues_quiet hop) (fun h hop hc => h.quiet hop hc) h
  refine hkept.mono fun r w' h' => ?_
  cases r with
  | ok a => exact h'
  | error e => trivial

section Output

variable {file : List String} {e : Entry B}

/-- The entry may stand in the place of an output. -/
def UsableEntry (E : Env B) (cd : ClusterDeployment) (file : List String) (e : Entry B) : Prop :=
  ∀ kind, (kind, file) ∈ credentialFiles → ∃ b, e = .file b ∧ Usable E cd file b

theorem UsableFiles.written (h : UsableFiles E cd dir w) (he : UsableEntry E cd file e)
    (hself : w'.fs (dir.join file) = w.fs (dir.join file) ∨ w'.fs (dir.join file) = some e)
    (hother : ∀ q, q ≠ dir.join file → w'.fs q = w.fs q) : UsableFiles E cd dir w' := by
  intro kind file' hkf b hb
  unfold World.content at hb
  by_cases heq : file' = file
  · subst heq
    rcases hself with hk | hk
    · rw [hk] at hb
      exact h kind file' hkf b hb
    · obtain ⟨b', rfl, husable⟩ := he kind hkf
      rw [hk] at hb
      obtain rfl : b' = b := Option.some.inj hb
      exact husable
  · rw [hother _ (by simpa using heq)] at hb
    exact h kind file' hkf b hb

/-- A write of a file leaves a file, if only half of it. -/
theorem PlainFiles.step (h : PlainFiles dir w) (hc : answer op c w = (r, w'))
    (hop : ∀ kind file, (kind, file) ∈ credentialFiles → op.writes (dir.join file) →
      ∃ content, op = .writeFile (dir.join file) content) : PlainFiles dir w' := by
  intro kind file hkf e he
  by_cases hw : op.writes (dir.join file)
  · obtain ⟨content, rfl⟩ := hop kind file hkf hw
    obtain ⟨-, rfl⟩ | ⟨-, -, rfl | ⟨b, rfl⟩⟩ := answer_writeFile hc
    · exact ⟨content, Option.some.inj (he.symm.trans (Function.update_self ..))⟩
    · exact h kind file hkf e he
    · exact ⟨b, Option.some.inj (he.symm.trans (Function.update_self ..))⟩
  · rcases kept_or_gone hc hw with hk | hk
    · exact h kind file hkf e (hk ▸ he)
    · rw [hk] at he
      cases he

theorem PlainFiles.written (h : PlainFiles dir w) (he : UsableEntry E cd file e)
    (hop : op.entry = some (dir.join file, e)) (hc : answer op c w = (r, w')) :
    PlainFiles dir w' := by
  refine h.step hc fun kind file' hkf hw => ?_
  cases op with
  | writeFile path content =>
    obtain rfl : dir.join file' = path := hw
    exact ⟨content, rfl⟩
  | writeIso path image builtFrom =>
    obtain ⟨rfl, rfl⟩ := Prod.mk.inj (Option.some.inj hop)
    obtain rfl : file' = file := by simpa [Op.writes] using hw
    obtain ⟨b, hb, -⟩ := he kind hkf
    cases hb
  | _ => cases hop

variable (h : Supplied E cd cdKey dir w) (he : UsableEntry E cd file e)
include h he

/-- The write of an output with usable content. -/
theorem Supplied.continues_write (hfile : file ∈ buildOutputs)
    (hop : op.entry = some (dir.join file, e)) : Continues E cd cdKey dir w op := by
  rintro c r w' hc ⟨hI, hintact⟩
  have hs := (entry_framed hop hc).secrets (by decide)
  have hfiles := fun hself => h.files.written he hself fun q hq => entry_elsewhere hop hc hq
  refine ⟨hI.secrets.of_eq hs, h.plain.written he hop hc, ?_⟩
  rcases hintact.writes file hfile e hop with hk | hk | hmissing
  · exact .inr (hfiles (.inl hk))
  · exact .inr (hfiles (.inr hk))
  · exact .inl hmissing

/-- A write that went through. -/
theorem Supplied.written (hop : op.entry = some (dir.join file, e)) (hc : answer op c w = (r, w'))
    (hself : w'.fs (dir.join file) = some e) : Supplied E cd cdKey dir w' := by
  exact ⟨h.secrets.of_eq ((entry_framed hop hc).secrets (by decide)), h.plain.written he hop hc,
    h.files.written he (.inr hself) fun q hq => entry_elsewhere hop hc hq⟩

end Output

theorem tries_continues_writeFile {file : List String} {b : B} (h : Supplied E cd cdKey dir w)
    (hfile : file ∈ buildOutputs) (hb : Usable E cd file b) :
    Tries (Continuing E cd cdKey dir) (writeFile (dir.join file) b)
      (fun _ w' => Supplied E cd cdKey dir w') (fun _ _ => True) w := by
  have he : UsableEntry E cd file (.file b) := fun _ _ => ⟨b, rfl, hb⟩
  refine meets_call fun c r w' hc ho =>
    ⟨h.continues_write he hfile rfl c r w' hc ho, meets_ret.2 ?_⟩
  obtain ⟨rfl, rfl⟩ | ⟨_, rfl, -⟩ := answer_writeFile hc
  · exact h.written he rfl hc (Function.update_self ..)
  · trivial

theorem tries_continues_writeIso {image : IsoImage B} {s : Spec} (h : Supplied E cd cdKey dir w) :
    Tries (Continuing E cd cdKey dir) (writeIso (dir.join isoPath) image s)
      (fun _ w' => Supplied E cd cdKey dir w') (fun _ _ => True) w := by
  have he : UsableEntry E cd isoPath (.iso image s) :=
    fun kind hkf => absurd rfl (mem_credentialFiles hkf).2.2
  refine meets_call fun c r w' hc ho =>
    ⟨h.continues_write he (by decide) rfl c r w' hc ho, meets_ret.2 ?_⟩
  obtain ⟨rfl, rfl⟩ | ⟨_, rfl, -⟩ := answer_writeIso hc
  · exact h.written he rfl hc (Function.update_self ..)
  · trivial

end Calls

/-! ## The installer -/

/-- What the installer fetched is usable. -/
structure Fetched.Usable (E : Env B) (cd : ClusterDeployment) (fetched : Fetched B) : Prop where
  manifest : ImageBasedInstall.Usable E cd manifestPath fetched.image.manifest
  kubeconfig : ∀ b, fetched.kubeconfig = .ok b → ImageBasedInstall.Usable E cd kubeconfigPath b

section Install

variable {E : Env B} {cd : ClusterDeployment} {cdKey : NamespacedName}
  {ns uid : String} {w : World B}

theorem fetchAndPersist_continues {dir : Path} {saved persist : Act B Unit}
    (hsaved : saved.run.Uses (Quiet dir))
    (hpersist : ∀ w, Supplied E cd cdKey dir w → Tries (Continuing E cd cdKey dir) persist
      (fun _ w' => Supplied E cd cdKey dir w') (fun _ _ => True) w)
    (h : Supplied E cd cdKey dir w) :
    Tries (Continuing E cd cdKey dir) (fetchAndPersist saved persist)
      (fun _ w' => Supplied E cd cdKey dir w') (fun _ _ => True) w := by
  refine Tries.seq (tries_supplied (uses_attempt hsaved) h) fun err w₁ h₁ => ?_
  refine Tries.seq (hpersist w₁ h₁) fun _ w₂ h₂ => ?_
  exact tries_supplied (uses_liftExcept _) h₂

theorem persistToFile_continues {file : List String} {b : B}
    (hfile : file ∈ [kubeconfigPath, kubeadminPasswordPath, manifestPath]) (hb : Usable E cd file b)
    (h : Supplied E cd cdKey (getClusterConfigDir ns uid) w) :
    Tries (Continuing E cd cdKey (getClusterConfigDir ns uid))
      (persistToFile ((getClusterConfigDir ns uid).join file) b)
      (fun _ w' => Supplied E cd cdKey (getClusterConfigDir ns uid) w') (fun _ _ => True) w := by
  have houtputs : ∀ file ∈ [kubeconfigPath, kubeadminPasswordPath, manifestPath],
      file ∈ buildOutputs := by decide
  obtain ⟨sub, hsub, heq⟩ := outputDir_eq (getClusterConfigDir ns uid) file hfile
  unfold persistToFile
  rw [heq]
  refine Tries.seq (tries_supplied
    (Prog.uses_perform ⟨by simp [Op.target], fun file' hfile' hw => ?_⟩) h) fun _ w₁ h₁ =>
      tries_continues_writeFile h₁ (houtputs file hfile) hb
  rw [Op.writes, not_within_output hfile' hsub] at hw
  cases hw

/-- The installer, if all it fetches is usable. -/
theorem createInstallationIso_continues (s : Spec)
    (h : Supplied E cd cdKey (getClusterConfigDir ns uid) w)
    (hfetched : ∀ draw fetched, resolve E (w.files (getClusterConfigDir ns uid)) draw =
      .ok fetched → fetched.Usable E cd) :
    Tries (Continuing E cd cdKey (getClusterConfigDir ns uid))
      (createInstallationIso E s (getClusterConfigDir ns uid))
      (fun _ w' => Supplied E cd cdKey (getClusterConfigDir ns uid) w') (fun _ _ => True) w := by
  have hread : ∀ {w : World B} {op : Op B}, op.target = .nothing →
      Continues E cd cdKey (getClusterConfigDir ns uid) w op :=
    fun hop => continues_quiet (quiet_of_read hop)
  refine Tries.seq ((meets_reading hread (Prog.uses_perform rfl) tries_loadDir).mono
    fun _ _ h => h.2) ?_
  rintro _ w ⟨rfl, rfl⟩
  refine Tries.seq (Q := fun _ w' => w' = w) (Tries.lift ?_) ?_
  · refine meets_call fun c r w' hc hok => ⟨hread rfl c r w' hc hok, meets_ret.2 ?_⟩
    cases hc
    rfl
  rintro draw w rfl
  refine Tries.seq (Q := fun fetched w' => Supplied E cd cdKey (getClusterConfigDir ns uid) w' ∧
    fetched.Usable E cd) (tries_liftExcept.2 ?_) ?_
  · cases hresolve : resolve E (w.files (getClusterConfigDir ns uid)) draw with
    | error e => trivial
    | ok fetched => exact ⟨h, hfetched draw fetched hresolve⟩
  rintro fetched w₁ ⟨h₁, husable⟩
  refine Tries.seq (fetchAndPersist_continues ?_ (fun _ h => tries_continues_writeIso h) h₁)
    fun _ w₂ h₂ => ?_
  · exact uses_bind (saveStateFile_quiet E draw) fun _ =>
      Prog.uses_perform ⟨by simp [Op.target], fun _ _ => id⟩
  refine Tries.seq (Q := fun kubeconfig w' => Supplied E cd cdKey (getClusterConfigDir ns uid) w' ∧
    Usable E cd kubeconfigPath kubeconfig) (tries_liftExcept.2 ?_) ?_
  · cases hkubeconfig : fetched.kubeconfig with
    | error e => trivial
    | ok b => exact ⟨h₂, husable.kubeconfig b hkubeconfig⟩
  rintro kubeconfig w₃ ⟨h₃, hkubeconfig⟩
  -- the three credential files
  have hpersist : ∀ {file : List String} {b : B} {w : World B},
      file ∈ [kubeconfigPath, kubeadminPasswordPath, manifestPath] → Usable E cd file b →
      Supplied E cd cdKey (getClusterConfigDir ns uid) w →
      Tries (Continuing E cd cdKey (getClusterConfigDir ns uid))
        (fetchAndPersist (saveStateFile E (getClusterConfigDir ns uid) draw)
          (persistToFile ((getClusterConfigDir ns uid).join file) b))
        (fun _ w' => Supplied E cd cdKey (getClusterConfigDir ns uid) w') (fun _ _ => True) w :=
    fun hfile hb h => fetchAndPersist_continues (saveStateFile_quiet E draw)
      (fun _ => persistToFile_continues hfile hb) h
  refine Tries.seq (hpersist (by simp) hkubeconfig h₃) fun _ w₄ h₄ => ?_
  refine Tries.seq (hpersist (by simp) .password h₄) fun _ w₅ h₅ => ?_
  exact hpersist (by simp) husable.manifest h₅

end Install

/-! ## What the installer finds -/

section Targets

variable {E : Env B} {inp : BuildInput} {ic : InstallConfig} {ibc : ImageBasedConfig} {dir : Path}
  {w₀ w : World B} {draw : Draw} {fetched : Fetched B}

/-- The manifest of a build is one of the cluster. -/
theorem Configs.names (h : Configs E inp (inp.sources E w₀) ic ibc) (draw : Draw) :
    ((generateClusterConfiguration E ic ibc draw).baseDomain,
      (generateClusterConfiguration E ic ibc draw).clusterName) = inp.cd.names := by
  have hic := h.installConfig
  simp only [Sources.installConfig, Option.bind_eq_bind, Option.bind_eq_some_iff] at hic
  obtain ⟨psData, -, caBundle, -, nets, -, hic⟩ := hic
  obtain rfl := Option.some.inj hic
  rfl

theorem FirstReady.usable (hE : E.Lawful)
    (haccepts : ∀ ic draw, E.validKubeconfig (E.generateKubeconfig ic draw) = true)
    (h : FirstReady E inp dir w₀ w) (hok : resolve E (w.files dir) draw = .ok fetched) :
    fetched.Usable E inp.cd := by
  obtain ⟨ic, ibc, manifests, hconfigs, -, hsnap⟩ := h.found
  obtain rfl := resolve_first hsnap hok
  refine ⟨.of_manifest (hE.unmarshalSeed_marshalSeed _) (hconfigs.names draw), fun b hb => ?_⟩
  obtain ⟨onDisk, -, hb⟩ := exists_of_bind_eq_ok hb
  obtain rfl := Except.ok.inj hb
  exact .of_kubeconfig (haccepts ic draw)

theorem ReinstallReady.usable (hE : E.Lawful) (h : ReinstallReady E inp dir w₀ w)
    (hsecrets : UsableSecrets E inp.cd inp.cdKey w₀)
    (hok : resolve E (w.files dir) draw = .ok fetched) : fetched.Usable E inp.cd := by
  obtain ⟨id, ic, ibc, manifests, draw', secret, hid, hconfigs, -, -, hsnap⟩ := h.found
  obtain rfl := resolve_reinstall hE hsnap hok
  refine ⟨.of_manifest (hE.unmarshalSeed_marshalSeed _) (hconfigs.names draw'), fun b hb => ?_⟩
  obtain rfl := fetchKubeconfig_kept hsnap hb
  exact hsecrets.payloads _ _ (by simp [credentialFiles]) _ (identity_eq_some.1 hid).1

theorem FirstReady.usableFiles {cd : ClusterDeployment} (h : FirstReady E inp dir w₀ w) :
    UsableFiles E cd dir w := by
  obtain ⟨ic, ibc, manifests, -, -, hsnap⟩ := h.found
  -- none of the files is there yet
  have hnone : ∀ kind file, (kind, file) ∈ credentialFiles → w.files dir file = none := by
    intro kind file hkf
    simp only [credentialFiles, List.mem_cons, Prod.mk.injEq, List.not_mem_nil, or_false] at hkf
    rcases hkf with ⟨-, rfl⟩ | ⟨-, rfl⟩ | ⟨-, rfl⟩
    · exact hsnap.password
    · exact hsnap.kubeconfig
    · exact hsnap.manifest
  intro kind file hkf b hb
  cases (hnone kind file hkf).symm.trans hb

theorem ReinstallReady.usableFiles (hE : E.Lawful) (h : ReinstallReady E inp dir w₀ w)
    (hsecrets : UsableSecrets E inp.cd inp.cdKey w₀) : UsableFiles E inp.cd dir w := by
  obtain ⟨id, ic, ibc, manifests, draw, secret, hid, hconfigs, -, -, hsnap⟩ := h.found
  intro kind file hkf b hb
  rw [← World.files_eq] at hb
  simp only [credentialFiles, List.mem_cons, Prod.mk.injEq, List.not_mem_nil, or_false] at hkf
  rcases hkf with ⟨-, rfl⟩ | ⟨-, rfl⟩ | ⟨-, rfl⟩
  · exact .password
  · obtain rfl := Option.some.inj (hsnap.kubeconfig.symm.trans hb)
    exact hsecrets.payloads _ _ (by simp [credentialFiles]) _ (identity_eq_some.1 hid).1
  · obtain rfl := Option.some.inj (hsnap.manifest.symm.trans hb)
    exact .of_manifest (hE.unmarshalSeed_marshalSeed _) (hconfigs.names draw)

end Targets

/-! ## The secrets -/

section Secrets

variable {E : Env B} {cd : ClusterDeployment} {cdKey : NamespacedName} {kind : IdentitySecret}
  {file : List String} {uid : String} {b : B} {s : Secret B} {dir : Path} {w w' : World B}

theorem credentialFile_eq {file' : List String} (h : (kind, file) ∈ credentialFiles)
    (h' : (kind, file') ∈ credentialFiles) : file' = file := by
  have hpassword : adminPasswordSecret ≠ seedReconfigurationSecret := fun heq =>
    adminPassword_ne_seed ⟨"", ""⟩ ⟨"", ""⟩ (by rw [heq])
  have hkubeconfig : kubeconfigSecret ≠ seedReconfigurationSecret := fun heq =>
    kubeconfig_ne_seed ⟨"", ""⟩ ⟨"", ""⟩ (by rw [heq])
  have hne : adminPasswordSecret ≠ kubeconfigSecret := fun heq =>
    adminPassword_ne_kubeconfig ⟨"", ""⟩ ⟨"", ""⟩ (by rw [heq])
  simp only [credentialFiles, List.mem_cons, Prod.mk.injEq, List.not_mem_nil, or_false] at h h'
  rcases h with ⟨rfl, rfl⟩ | ⟨rfl, rfl⟩ | ⟨rfl, rfl⟩
  · simpa [hne, hpassword] using h'
  · simpa [hne.symm, hkubeconfig] using h'
  · simpa [hpassword.symm, hkubeconfig.symm] using h'

/-- A credential file is copied into its secret. -/
theorem Supplied.stored (h : Supplied E cd cdKey dir w) (hkf : (kind, file) ∈ credentialFiles)
    (hb : w.content (dir.join file) = some b) (hfs : w'.fs = w.fs)
    (hothers : ∀ k, k ≠ kind.key cdKey → w'.secrets k = w.secrets k)
    (hs : w'.secrets (kind.key cdKey) = some s) (hmanaged : FullyManaged kind cdKey uid b s) :
    Supplied E cd cdKey dir w' where
  secrets := by
    constructor
    · intro kind' hkind' s' hs'
      by_cases hkey : kind'.key cdKey = kind.key cdKey
      · rw [hkey] at hs'
        obtain rfl : s = s' := Option.some.inj (hs.symm.trans hs')
        exact hmanaged.isCached
      · exact h.secrets.shown kind' hkind' s' (hothers _ hkey ▸ hs')
    · intro kind' file' hkf' b' hb'
      by_cases hkind : kind' = kind
      · subst hkind
        obtain rfl := credentialFile_eq hkf hkf'
        obtain ⟨s', hs', hb'⟩ := Option.bind_eq_some_iff.1 hb'
        obtain rfl : s = s' := Option.some.inj (hs.symm.trans (Option.filter_eq_some_iff.1 hs').1)
        obtain rfl : b = b' :=
          Option.some.inj (hmanaged.payload.symm.trans (Option.filter_eq_some_iff.1 hb').1)
        exact h.files kind' file' hkf b hb
      · refine h.secrets.payloads kind' file' hkf' b' ?_
        rw [← hb', payload_of_eq (hothers _ fun hkey => hkind ?_)]
        exact (IdentitySecret.key_inj (mem_credentialFiles hkf').1
          (mem_credentialFiles hkf).1 hkey).1
  plain := by
    unfold PlainFiles
    rw [hfs]
    exact h.plain
  files kind' file' hkf' b' hb' := h.files kind' file' hkf' b' (by rwa [World.content, hfs] at hb')

variable [DecidableEq B]

theorem ensureSecret_continues (hkf : (kind, file) ∈ credentialFiles)
    (h : Supplied E cd cdKey dir w) :
    Tries (Continuing E cd cdKey dir) (ensureSecret E kind cdKey uid (dir.join file))
      (fun _ w' => Supplied E cd cdKey dir w') (fun _ _ => True) w := by
  have hcontent : ∀ {b}, w.fs (dir.join file) = some (.file b) →
      w.content (dir.join file) = some b :=
    fun hb => by simp [World.content, hb, Entry.content]
  refine Tries.mono (ensureSecret_runs E kind cdKey uid (dir.join file)
    (fun _ hop => continues_quiet (quiet_of_read hop)) ?_) ?_ fun _ _ h => h
  · intro b s hb hs
    have hset : Supplied E cd cdKey dir (w.setSecret (kind.key cdKey) s) :=
      h.stored hkf (hcontent hb) rfl (fun _ hk => Function.update_of_ne hk ..)
        (Function.update_self ..) hs
    constructor
    · rintro c r w' hc ⟨hI, -⟩
      obtain rfl | ⟨rfl, -⟩ := answer_createSecret hc
      · exact hset.continuable
      · exact hI
    · rintro c r w' hc ⟨hI, -⟩
      obtain rfl | ⟨rfl, -⟩ := answer_updateSecret hc
      · exact hset.continuable
      · exact hI
  · rintro _ w' ⟨b, hb, hensures⟩
    cases hensures with
    | kept _ heq => exact heq ▸ h
    | written _ hfs hothers s hs hmanaged =>
      exact h.stored hkf (hcontent hb) hfs hothers hs hmanaged

theorem ensureCreds_continues (h : Supplied E cd cdKey dir w) :
    Tries (Continuing E cd cdKey dir) (ensureCreds E cdKey uid dir) (fun _ _ => True)
      (fun _ _ => True) w := by
  have hpassword : (adminPasswordSecret, kubeadminPasswordPath) ∈ credentialFiles := by
    simp [credentialFiles]
  have hkubeconfig : (kubeconfigSecret, kubeconfigPath) ∈ credentialFiles := by
    simp [credentialFiles]
  have hseed : (seedReconfigurationSecret, manifestPath) ∈ credentialFiles := by
    simp [credentialFiles]
  refine Tries.seq (tries_wrap (ensureSecret_continues hpassword h)) fun _ w₁ h₁ => ?_
  refine Tries.seq (tries_wrap (ensureSecret_continues hkubeconfig h₁)) fun _ w₂ h₂ => ?_
  exact tries_wrap (Tries.mono (ensureSecret_continues hseed h₂) (fun _ _ _ => trivial)
    fun _ _ h => h)

end Secrets

/-! ## The build -/

section Build

variable [DecidableEq B] {E : Env B} {inp : BuildInput} {ns uid : String} {w : World B}
  (hE : E.Lawful) (haccepts : ∀ ic draw, E.validKubeconfig (E.generateKubeconfig ic draw) = true)

/-- The part of a build after its config files are in place. -/
theorem finishBuild_continues (hfiles : UsableFiles E inp.cd (getClusterConfigDir ns uid) w)
    (hfetched : ∀ draw fetched, resolve E (w.files (getClusterConfigDir ns uid)) draw =
      .ok fetched → fetched.Usable E inp.cd) :
    Tries (Continuing E inp.cd inp.cdKey (getClusterConfigDir ns uid))
      (finishBuild E inp (getClusterConfigDir ns uid)) (fun _ _ => True) (fun _ _ => True) w :=
  Meets.given (I := Continuable E inp.cd inp.cdKey (getClusterConfigDir ns uid)) nofun
    (fun _ _ _ hok => hok.1) fun hI =>
      Tries.seq (tries_wrap (createInstallationIso_continues inp.spec ⟨hI.secrets, hI.plain, hfiles⟩
        hfetched)) fun _ _ h₁ => ensureCreds_continues h₁

include hE haccepts

theorem rebuild_continues (hsecrets : UsableSecrets E inp.cd inp.cdKey w) :
    Tries (Continuing E inp.cd inp.cdKey (getClusterConfigDir ns uid))
      (rebuild E inp (getClusterConfigDir ns uid)) (fun _ _ => True) (fun _ _ => True) w := by
  have hremoves : ∀ (p : Path) (w : World B),
      Continues E inp.cd inp.cdKey (getClusterConfigDir ns uid) w (.removeAll p) :=
    fun p w => continues_quiet ⟨by simp [Op.target], fun _ _ => id⟩
  refine rebuild_runs (Q := fun _ => True) ?_ hE (fun _ _ _ hok => hok.2.removal rfl)
    (hremoves _ w) (fun _ => hremoves _) (fun _ _ _ h => h) ?_ ?_
  · -- until the installer runs there is no image
    rintro w₁ op h₁ hop c r w₂ hc ⟨hI, -⟩
    have hframe : Framed [.nothing, .file] w₁ w₂ :=
      (answer_framed hc).mono (by simpa using hop.target)
    refine ⟨hI.secrets.of_eq (hframe.secrets (by decide)), hI.plain.step hc
      fun kind file hkf hw => ?_, .inl ⟨isoPath, by decide, (h₁.step hop hc).noImage⟩⟩
    have houtput := (mem_credentialFiles hkf).2.1
    cases hop with
    | read hread => exact absurd hw ((sparesOutputs_of_plain (plain_of_read hread)).1 file houtput)
    | file hbuild => exact (hbuild.writes_output houtput hw).2.2.2
    | config hconfig => exact absurd hw (hconfig.not_writes_output houtput)
  · intro w₁ h₁
    exact finishBuild_continues h₁.usableFiles fun draw fetched hok => h₁.usable hE haccepts hok
  · intro w₁ h₁
    exact finishBuild_continues (h₁.usableFiles hE hsecrets) fun draw fetched hok =>
      h₁.usable hE hsecrets hok

theorem buildImage_continues :
    Tries (Continuing E inp.cd inp.cdKey (getClusterConfigDir ns uid))
      (buildImage E inp (getClusterConfigDir ns uid)) (fun _ _ => True) (fun _ _ => True) w := by
  refine Tries.seq (Tries.lift ((meets_reading (fun hop => continues_quiet (quiet_of_read hop))
    (verifyIsoAndAuthExists_uses (fun _ h => h) _) (verifyIsoAndAuthExists_spec _)).mono
    fun _ _ h => h.2)) ?_
  rintro b _ ⟨rfl, hexists⟩
  refine Meets.given (I := Continuable E inp.cd inp.cdKey (getClusterConfigDir ns uid)) ?_
    (fun _ _ _ hok => hok.1) fun hI => ?_
  · cases b <;> nofun
  cases b with
  | false => exact rebuild_continues hE haccepts hI.secrets
  | true =>
    -- all outputs are there, so their credentials are usable
    rcases hI.directory with ⟨file, hfile, hnone⟩ | hfiles
    · have hsome := hexists rfl file hfile
      rw [hnone] at hsome
      cases hsome
    · exact ensureCreds_continues ⟨hI.secrets, hI.plain, hfiles⟩

/-- However a build ends, the next one can go on. -/
theorem writeInputData_continues :
    Meets (Continuing E inp.cd inp.cdKey (getClusterConfigDir inp.ns uid))
      (writeInputData E inp uid).run (fun _ _ => True) w := by
  refine Meets.mono (writeInputData_runs (Q := fun _ => True) ?_ fun w₁ _ =>
    buildImage_continues hE haccepts) fun _ _ _ => trivial
  exact fun w₁ op h₁ hop => continues_quiet
    ⟨by simpa using List.mem_append_left [.iso] hop.target, fun _ => hop.not_writes_output⟩

end Build

end ImageBasedInstall

import ImageBasedInstall.Verify.Inputs
import ImageBasedInstall.Verify.MonitorCalls
import ImageBasedInstall.Verify.Reinstall

/-!
# Where a pass cannot abort

No reply is an abort, and no function of a pass makes one of its own, except the comparison of the
cluster metadata, which dereferences a pointer, and the check of the pull secret, which asserts a
type. The kubeconfig of the vendored installer dereferences a nil config if neither an install
config nor a kubeconfig lies in the work directory, and one of them always does by then.
-/

namespace ImageBasedInstall

open Interactive

variable {B : Type} {α β : Type}

/-! ## Replies -/

def NoAbort : (op : Op B) → Resp op → Prop
  | .now, _ | .newUUID, _ | .randString, _ | .drawAssets, _ => True
  | .getICI _, r | .patchICI .., r | .patchICIStatus .., r | .getBMH _, r | .patchBMH .., r
  | .getDataImage _, r | .createDataImage .., r | .deleteDataImage _, r | .getCD _, r
  | .getImageSet _, r | .getConfigMap _, r | .patchConfigMap .., r | .getSecret .., r
  | .createSecret .., r | .updateSecret .., r | .patchSecret .., r | .spokeStatus _, r
  | .mkdirAll _, r | .mkdirTemp, r | .stat _, r | .readFile _, r | .writeFile .., r
  | .writeIso .., r | .purge _, r | .removeAll _, r | .loadDir _, r | .tryLock _, r =>
    aborted r = false

theorem orNotFound_error {o : Option α} {e : Err} (h : orNotFound o = .error e) :
    e.aborts = false := by
  cases o with
  | none =>
    cases h
    rfl
  | some a => cases h

theorem aborted_eq_false {r : Except Err α} (h : ∀ e, r = .error e → e.aborts = false) :
    aborted r = false := by
  cases r with
  | ok a => rfl
  | error e => exact h e rfl

section Replies

variable {c : Choice B} {w w' : World B} {r : Except Err α}

theorem Choice.read_noAbort {x : Except Err α} (h : c.read w x = (r, w'))
    (hx : ∀ e, x = .error e → e.aborts = false) : aborted r = false := by
  refine aborted_eq_false fun e he => ?_
  subst he
  exact Choice.read_error h hx

theorem Choice.refused_noAbort {e : Err} (h : c.read w (.error e) = (r, w'))
    (he : e.aborts = false) : aborted r = false :=
  Choice.read_noAbort h fun _ heq => Except.error.inj heq ▸ he

theorem Choice.write_noAbort {w₁ : World B} {a : α} (h : c.write w w₁ a = (r, w')) :
    aborted r = false := by
  refine aborted_eq_false fun e he => ?_
  subst he
  exact Choice.write_error h

theorem Choice.patch_noAbort {o : Option α} {merge : α → α} {store : α → World B}
    (h : c.patch w o merge store = (r, w')) : aborted r = false := by
  refine aborted_eq_false fun e he => ?_
  subst he
  exact Choice.patch_error h

theorem Choice.removal_noAbort {which : Path → Bool} {r : Except Err Unit}
    (h : c.removal w which = (r, w')) : aborted r = false := by
  obtain ⟨rfl, -⟩ | ⟨e, kept, rfl, -⟩ := Choice.removal_eq h
  · rfl
  · rfl

end Replies

theorem answer_noAbort {op : Op B} {c : Choice B} {w w' : World B} {r : Resp op}
    (h : answer op c w = (r, w')) : NoAbort op r := by
  cases op with
  | now | newUUID | randString | drawAssets => trivial
  | getICI | getBMH | getDataImage | getCD | getImageSet | getConfigMap | getSecret | readFile =>
    exact Choice.read_noAbort h fun e => orNotFound_error
  | patchICI | patchICIStatus | patchBMH | patchConfigMap | patchSecret =>
    simp only [answer] at h
    exact Choice.patch_noAbort h
  | spokeStatus | loadDir | tryLock => exact Choice.read_noAbort h fun _ h => by cases h
  | mkdirAll | mkdirTemp => exact Choice.write_noAbort h
  | purge | removeAll => exact Choice.removal_noAbort h
  | createDataImage | deleteDataImage | createSecret | updateSecret =>
    simp only [answer] at h
    split at h
    · exact Choice.refused_noAbort h rfl
    · exact Choice.write_noAbort h
  | stat path =>
    refine Choice.read_noAbort h fun e he => ?_
    cases hp : w.fs path with
    | none =>
      rw [hp] at he
      cases he
      rfl
    | some entry =>
      rw [hp] at he
      cases he
  | writeFile path content =>
    obtain ⟨rfl, -⟩ | ⟨e, rfl, -⟩ := answer_writeFile h
    · rfl
    · rfl
  | writeIso path image builtFrom =>
    obtain ⟨rfl, -⟩ | ⟨e, rfl, -⟩ := answer_writeIso h
    · rfl
    · rfl

/-! ## Rules -/

/-- The code does not abort. -/
abbrev Calm (x : Act B α) (w : World B) : Prop :=
  Tries (Alone fun _ _ _ _ => True) x (fun _ _ => True) Fails w

section Rules

variable {w : World B} {x : Act B α}

theorem calm_pure (a : α) : Calm (pure a : Act B α) w := tries_pure.2 trivial

theorem calm_throw {e : Err} (h : e.aborts = false) : Calm (throw e : Act B α) w := tries_throw.2 h

theorem calm_liftExcept {r : Except Err α} (h : aborted r = false) :
    Calm (liftExcept r : Act B α) w := by
  rw [Calm, tries_liftExcept]
  cases r with
  | ok a => trivial
  | error e => exact h

/-- A request, and what is made of its reply. -/
theorem calm_call {op : Op B} {k : Resp op → Program B (Except Err α)}
    (h : ∀ r w', NoAbort op r → Calm (.mk (k r)) w') : Calm (.mk (.call op k)) w :=
  meets_call fun _ r w' hc _ => ⟨trivial, h r w' (answer_noAbort hc)⟩

theorem calm_bind {f : α → Act B β} (hx : Calm x w) (hf : ∀ a w', Calm (f a) w') :
    Calm (x >>= f) w :=
  Tries.seq hx fun a w' _ => hf a w'

theorem calm_wrap {text : String} (hx : Calm x w) : Calm (x.wrap text) w :=
  tries_wrap (hx.mono (fun _ _ h => h) fun _ _ h => (Err.aborts_within ..).trans h)

theorem calm_attempt : Calm x.attempt w := Tries.lift (meets_true _)

/-- Code that looks at the error of a call. -/
theorem calm_attempt_bind {f : Except Err α → Act B β} (hx : Calm x w)
    (hok : ∀ a w', Calm (f (.ok a)) w') (herr : ∀ e w', e.aborts = false → Calm (f (.error e)) w') :
    Calm (x.attempt >>= f) w :=
  Tries.bind (tries_attempt (hx.mono (fun a w' _ => hok a w') fun e w' he => herr e w' he))

theorem calm_lift_bind {p : Program B α} {f : α → Act B β} (hf : ∀ a w', Calm (f a) w') :
    Calm (ExceptT.lift p >>= f) w :=
  calm_bind (Tries.lift (meets_true p)) hf

theorem calm_forM {f : β → Act B PUnit} (l : List β) (hf : ∀ b ∈ l, ∀ w', Calm (f b) w') :
    Calm (l.forM f) w := by
  refine Tries.forM (I := fun _ _ => True) l (fun _ _ _ _ _ => trivial) ?_ trivial
  rintro done b rest rfl w' -
  exact hf b (by simp) w'

/-- Sequencing with what the first program is known to establish. -/
theorem calm_seq {Q : α → World B → Prop} {f : α → Act B β} (hx : Calm x w)
    (hQ : Tries (Alone fun _ _ _ _ => True) x Q (fun _ _ => True) w)
    (hf : ∀ a w', Q a w' → Calm (f a) w') : Calm (x >>= f) w := by
  refine Tries.bind (Meets.mono (Meets.and hx hQ) fun r w' hr => ?_)
  cases r with
  | ok a => exact hf a w' hr.2
  | error e => exact hr.1

end Rules

/-! ## The pull secret -/

/-- The code aborts only if `P` holds. -/
abbrev AbortsOnly (P : Prop) (x : Act B α) (w : World B) : Prop :=
  Tries (Alone fun _ _ _ _ => True) x (fun _ _ => True) (fun e _ => e.aborts = true → P) w

theorem elim_of_calm {P : Prop} {b : Bool} (h : b = false) (h' : b = true) : P := by
  rw [h] at h'
  cases h'

/-- The `auth` fields of the pull secret, if there is one to read, are strings. -/
def PullSecretTyped (E : Env B) (psRef : Option String) (ns : String) (w : World B) : Prop :=
  ∀ name s psData, psRef = some name → name ≠ "" → ns ≠ "" → w.secrets ⟨ns, name⟩ = some s →
    s.get dockerConfigJsonKey = some psData → AuthsAreStrings E (E.toString psData)

section PullSecret

variable {P : Prop} {w w' : World B} {x : Act B α} {E : Env B} {psRef : Option String} {ns : String}

theorem Calm.only (h : Calm x w) : AbortsOnly P x w :=
  Tries.mono h (fun _ _ h => h) fun _ _ he => elim_of_calm he

theorem meets_secrets {p : Program B α} (hp : p.Uses fun op => op.target ≠ .secret) :
    Meets (Alone fun _ _ _ _ => True) p (fun _ w' => w'.secrets = w.secrets) w := by
  refine Meets.of_uses (I := fun w' : World B => w'.secrets = w.secrets) hp
    (fun _ _ h hr => hr ▸ h) ?_ rfl
  rintro op w₁ r w₂ ht h ⟨⟨c, hc⟩, -⟩
  exact ⟨trivial, ((answer_framed hc).secrets (by simpa using Ne.symm ht)).trans h⟩

/-- Code that changes no secret comes first. -/
theorem abortsOnly_after {f : α → Act B β} (hx : Calm x w)
    (hu : x.run.Uses fun op => op.target ≠ .secret)
    (hf : ∀ a w', w'.secrets = w.secrets → AbortsOnly P (f a) w') : AbortsOnly P (x >>= f) w := by
  have hboth := Meets.and (hx.only (P := P)) (meets_secrets hu)
  refine Tries.bind (Meets.mono hboth fun r w' hr => ?_)
  cases r with
  | ok a => exact hf a w' hr.2
  | error e => exact hr.1

theorem PullSecretTyped.of_kept (h : PullSecretTyped E psRef ns w) (hkept : ShownKept w w') :
    PullSecretTyped E psRef ns w' := by
  intro name s' psData href hname hns hs' hdata
  have hshown := hkept ⟨ns, name⟩
  rw [hs', Option.map_some, eq_comm, Option.map_eq_some_iff] at hshown
  obtain ⟨s, hs, hshown⟩ := hshown
  have hsame : s.data = s'.data := congrArg Prod.fst hshown
  refine h name s psData href hname hns hs ?_
  rw [← hdata, Secret.get, Secret.get, hsame]

theorem getValidPullSecret_aborts :
    AbortsOnly (¬PullSecretTyped E psRef ns w) (getValidPullSecret E psRef ns) w := by
  unfold getValidPullSecret
  split
  · exact (calm_throw rfl).only
  next name =>
  split
  · exact (calm_throw rfl).only
  next hnamed =>
  obtain ⟨hname, hns⟩ := not_or.1 hnamed
  refine Tries.bind (tries_wrap (tries_getSecret .free ?_ (fun _ h => by cases h)
    fun _ h => by cases h))
  intro s hs
  have hs : w.secrets ⟨ns, name⟩ = some s := Option.eq_some_of_filter_eq_some hs
  split
  · exact (calm_throw rfl).only
  next psData hdata =>
  refine Tries.bind (tries_wrap (tries_liftExcept.2 ?_))
  rcases validatePullSecret_cases E (E.toString psData) with
    ⟨hbad, hv⟩ | ⟨-, -, hv⟩ | ⟨-, -, text, hv⟩
  · rw [hv]
    exact fun _ h => hbad (h name s psData rfl hname hns hs hdata)
  · rw [hv]
    exact tries_pure.2 trivial
  · rw [hv]
    exact fun h => by cases h

end PullSecret

/-! ## Credentials and inputs -/

section Inputs

variable {w : World B} (E : Env B)

theorem getSecretContent_calm (ref : NamespacedName) (key : String) :
    Calm (getSecretContent E ref key) w := by
  refine calm_attempt_bind (calm_call fun _ _ h => calm_liftExcept h) (fun _ _ => calm_pure _) ?_
  intro e w' he
  dsimp only
  split
  · exact calm_pure _
  · exact calm_throw rfl

theorem seedReconfigSecretClusterIDs_calm (cd : NamespacedName) :
    Calm (seedReconfigSecretClusterIDs E cd) w := by
  refine calm_bind (getSecretContent_calm E _ _) fun data w' => ?_
  split
  · exact calm_pure _
  · split
    · exact calm_throw rfl
    · exact calm_pure _

theorem clusterIdentitySecrets_calm (cd : NamespacedName) :
    Calm (clusterIdentitySecrets E cd) w := by
  refine calm_bind (getSecretContent_calm E _ _) fun data w' => ?_
  split
  · exact calm_pure _
  refine calm_bind (getSecretContent_calm E _ _) fun data w' => ?_
  split
  · exact calm_pure _
  refine calm_bind (getSecretContent_calm E _ _) fun data w' => ?_
  split
  · exact calm_pure _
  · exact calm_pure _

theorem getCABundle_calm (ref : Option String) (ns : String) :
    Calm (getCABundle ref ns : Act B _) w := by
  unfold getCABundle
  split
  · exact calm_pure _
  refine calm_bind (calm_wrap (calm_call fun _ _ h => calm_liftExcept h)) fun cm w' => ?_
  split
  · exact calm_throw rfl
  · exact calm_pure _

theorem generateExtraManifests_calm (dir : Path) (ns : String) (s : Spec) :
    Calm (generateExtraManifests E dir ns s) w := by
  refine calm_bind (calm_call fun _ _ h => calm_liftExcept h) fun _ _ => ?_
  refine calm_bind (calm_wrap (calm_call fun _ _ h => calm_liftExcept h)) fun _ _ => ?_
  refine calm_bind (calm_wrap (calm_call fun _ _ h => calm_liftExcept h)) fun _ _ => ?_
  refine calm_forM _ fun name _ _ => ?_
  refine calm_bind (calm_wrap (calm_call fun _ _ h => calm_liftExcept h)) fun cm _ => ?_
  refine calm_forM _ fun entry _ _ => ?_
  unfold writeManifest
  split
  · exact calm_throw rfl
  · exact calm_wrap (calm_call fun _ _ h => calm_liftExcept h)

theorem ensureSecret_calm [DecidableEq B] (kind : IdentitySecret) (cd : NamespacedName)
    (cdUID : String) (file : Path) : Calm (ensureSecret E kind cd cdUID file) w := by
  refine calm_bind (calm_wrap (calm_call fun _ _ h => calm_liftExcept h)) fun content _ => ?_
  refine calm_bind ?_ fun valid _ => ?_
  · refine calm_attempt_bind (calm_call fun _ _ h => calm_liftExcept h) (fun _ _ => calm_pure _) ?_
    intro e w' he
    dsimp only
    split
    · exact calm_pure _
    · exact calm_throw rfl
  split
  · exact calm_pure _
  refine calm_wrap (calm_attempt_bind (calm_call fun _ _ h => calm_liftExcept h) ?_ ?_)
  · intro secret w'
    dsimp only
    split
    · exact calm_pure _
    · exact calm_wrap (calm_call fun _ _ h => calm_liftExcept h)
  · intro e w' he
    dsimp only
    split
    · exact calm_throw rfl
    · exact calm_wrap (calm_call fun _ _ h => calm_liftExcept h)

theorem ensureCreds_calm [DecidableEq B] (cd : NamespacedName) (cdUID : String) (workDir : Path) :
    Calm (ensureCreds E cd cdUID workDir) w :=
  calm_bind (calm_wrap (ensureSecret_calm E _ _ _ _)) fun _ _ =>
    calm_bind (calm_wrap (ensureSecret_calm E _ _ _ _)) fun _ _ =>
      calm_wrap (ensureSecret_calm E _ _ _ _)

end Inputs

/-! ## The installer -/

/-- The libraries do not abort. -/
structure Env.NeverAborts (E : Env B) : Prop where
  imageRegistry : ∀ image, aborted (E.imageRegistry image) = false
  resolveWithState : ∀ state snap draw, aborted (E.resolveWithState state snap draw) = false
  kubeconfig : ∀ state snap draw fetched, E.resolveWithState state snap draw = .ok fetched →
    aborted fetched.kubeconfig = false

/-- An install config or a kubeconfig lies in the directory. -/
def Fetchable (dir : Path) (w : World B) : Prop :=
  (w.content (dir.join [installConfigFilename])).isSome = true ∨
    (w.content (dir.join kubeconfigPath)).isSome = true

namespace Installer

variable {E : Env B}

theorem loadFile_error {α : Type} {decode : B → Option α} {valid : α → Bool} {name : String}
    {file : Option B} : aborted (loadFile decode valid name file) = false := by
  unfold loadFile
  split
  · rfl
  split
  · rfl
  split
  · rfl
  · rfl

/-- A file that lies there is loaded, or the loading fails. -/
theorem loadFile_ok_none {α : Type} {decode : B → Option α} {valid : α → Bool} {name : String}
    {file : Option B} (h : loadFile decode valid name file = .ok none) : file = none := by
  unfold loadFile at h
  split at h
  · rfl
  split at h
  · cases h
  split at h
  · cases h
  · cases h

theorem fetchClusterConfiguration_error {ic : Option InstallConfig} {ibc : Option ImageBasedConfig}
    {onDisk : Option (B × SeedReconfiguration)} {draw : Draw} :
    aborted (fetchClusterConfiguration E ic ibc onDisk draw) = false := by
  unfold fetchClusterConfiguration
  split
  · rfl
  · rfl
  · rfl
  · rfl

theorem aborted_bind {α β : Type} {x : Except Err α} {f : α → Except Err β}
    (hx : aborted x = false) (hf : ∀ a, x = .ok a → aborted (f a) = false) :
    aborted (x >>= f) = false := by
  cases x with
  | error e => exact hx
  | ok a => exact hf a rfl

theorem resolve_error (hE : E.NeverAborts) (snap : Snapshot B) (draw : Draw) :
    aborted (resolve E snap draw) = false := by
  unfold resolve
  split
  · exact hE.resolveWithState _ _ _
  refine aborted_bind loadFile_error fun ic _ => ?_
  refine aborted_bind loadFile_error fun ibc _ => ?_
  refine aborted_bind loadFile_error fun onDisk _ => ?_
  refine aborted_bind loadFile_error fun mirrors _ => ?_
  exact aborted_bind fetchClusterConfiguration_error fun _ _ => rfl

/-- The kubeconfig is generated from the install config or read from its file. -/
theorem fetchKubeconfig_error {snap : Snapshot B} {draw : Draw} {ic : Option InstallConfig}
    (hic : loadInstallConfig E snap = .ok ic)
    (h : (snap [installConfigFilename]).isSome = true ∨ (snap kubeconfigPath).isSome = true) :
    aborted (fetchKubeconfig E ic (loadKubeconfig E snap) draw) = false := by
  refine aborted_bind loadFile_error fun onDisk hdisk => ?_
  cases ic with
  | some ic => rfl
  | none =>
    cases onDisk with
    | some b => rfl
    | none =>
      rw [loadFile_ok_none hic, loadFile_ok_none hdisk] at h
      simp at h

theorem resolve_kubeconfig (hE : E.NeverAborts) {snap : Snapshot B} {draw : Draw}
    {fetched : Fetched B} (hresolve : resolve E snap draw = .ok fetched)
    (h : (snap [installConfigFilename]).isSome = true ∨ (snap kubeconfigPath).isSome = true) :
    aborted fetched.kubeconfig = false := by
  unfold resolve at hresolve
  split at hresolve
  · exact hE.kubeconfig _ _ _ _ hresolve
  obtain ⟨ic, hic, hresolve⟩ := exists_of_bind_eq_ok hresolve
  obtain ⟨ibc, -, hresolve⟩ := exists_of_bind_eq_ok hresolve
  obtain ⟨onDisk, -, hresolve⟩ := exists_of_bind_eq_ok hresolve
  obtain ⟨mirrors, -, hresolve⟩ := exists_of_bind_eq_ok hresolve
  obtain ⟨⟨manifest, config⟩, -, hresolve⟩ := exists_of_bind_eq_ok hresolve
  cases hresolve
  exact fetchKubeconfig_error hic h

variable {w : World B}

theorem fetchAndPersist_calm {saved persist : Act B Unit} (hs : ∀ w, Calm saved w)
    (hp : ∀ w, Calm persist w) : Calm (fetchAndPersist saved persist) w := by
  refine calm_attempt_bind (hs w) (fun _ _ => ?_) fun e _ he => ?_
  · exact calm_bind (hp _) fun _ _ => calm_liftExcept rfl
  · exact calm_bind (hp _) fun _ _ => calm_liftExcept he

theorem saveStateFile_calm (dir : Path) (draw : Draw) : Calm (saveStateFile E dir draw) w :=
  calm_call fun _ _ h => calm_liftExcept h

theorem persistToFile_calm (path : Path) (content : B) : Calm (persistToFile path content) w :=
  calm_bind (calm_call fun _ _ h => calm_liftExcept h) fun _ _ =>
    calm_call fun _ _ h => calm_liftExcept h

theorem loadDir_calm (dir : Path) : Calm (loadDir dir) w :=
  calm_call fun _ _ h => calm_liftExcept h

/-- What the installer makes of a directory does not abort, nor does its kubeconfig. -/
theorem tries_resolve (hE : E.NeverAborts) {dir : Path} (h : Fetchable dir w) (draw : Draw)
    {w₁ : World B} : Tries (Alone fun _ _ _ _ => True) (liftExcept (resolve E (w.files dir) draw))
      (fun fetched _ => aborted fetched.kubeconfig = false) (fun _ _ => True) w₁ := by
  rw [tries_liftExcept]
  cases hresolve : resolve E (w.files dir) draw with
  | error e => trivial
  | ok fetched => exact resolve_kubeconfig hE hresolve h

theorem createInstallationIso_calm (hE : E.NeverAborts) (s : Spec) {dir : Path}
    (h : Fetchable dir w) : Calm (createInstallationIso E s dir) w := by
  refine calm_seq (loadDir_calm dir) tries_loadDir ?_
  rintro snap w₁ ⟨rfl, -⟩
  refine calm_lift_bind fun draw w₂ => ?_
  refine calm_seq (calm_liftExcept (resolve_error hE _ draw)) (tries_resolve hE h draw) ?_
  intro fetched w₃ hkubeconfig
  refine calm_bind (fetchAndPersist_calm (fun _ => ?_) fun _ => ?_) fun _ _ => ?_
  · exact calm_bind (saveStateFile_calm dir draw) fun _ _ =>
      calm_call fun _ _ h => calm_liftExcept h
  · exact calm_call fun _ _ h => calm_liftExcept h
  have hpersist : ∀ path content w, Calm (fetchAndPersist (saveStateFile E dir draw)
      (persistToFile path content)) w := fun path content w =>
    fetchAndPersist_calm (fun _ => saveStateFile_calm dir draw) fun _ =>
      persistToFile_calm path content
  refine calm_bind (calm_liftExcept hkubeconfig) fun kubeconfig _ => ?_
  exact calm_bind (hpersist _ _ _) fun _ _ => calm_bind (hpersist _ _ _) fun _ _ => hpersist _ _ _

theorem getBaseAssets_calm (hE : E.NeverAborts) {dir : Path} (h : Fetchable dir w) :
    Calm (getBaseAssets E dir) w := by
  refine calm_seq (calm_wrap (loadDir_calm dir)) (tries_wrap tries_loadDir) ?_
  rintro snap w₁ ⟨rfl, -⟩
  refine calm_lift_bind fun draw w₂ => ?_
  refine calm_seq (calm_wrap (calm_liftExcept (resolve_error hE _ draw)))
    (tries_wrap (tries_resolve hE h draw)) ?_
  intro fetched w₃ hkubeconfig
  refine calm_bind (calm_wrap (calm_bind (saveStateFile_calm dir draw) fun _ _ => ?_)) fun _ _ => ?_
  · exact calm_call fun _ _ h => calm_liftExcept h
  refine calm_bind (calm_wrap (calm_liftExcept hkubeconfig)) fun _ _ => ?_
  refine calm_bind (calm_wrap (saveStateFile_calm dir draw)) fun _ _ => ?_
  exact calm_bind (calm_wrap (saveStateFile_calm dir draw)) fun _ _ => calm_pure _

theorem writeAuth_calm (path : Path) (data : B) : Calm (writeAuth path data) w :=
  calm_bind (calm_wrap (calm_call fun _ _ h => calm_liftExcept h)) fun _ _ =>
    calm_wrap (calm_call fun _ _ h => calm_liftExcept h)

theorem writeMerged_calm (iso : Path) (idData : IdentityData B) (new : SeedReconfiguration) :
    Calm (writeMerged E iso idData new) w := by
  unfold writeMerged
  split
  · exact calm_throw rfl
  next secret _ =>
  have hvalid : aborted (validateReinstallConfig new secret) = false := by
    unfold validateReinstallConfig
    split
    · rfl
    split
    · rfl
    · rfl
  refine calm_bind (calm_wrap (calm_liftExcept hvalid)) fun _ _ => ?_
  refine calm_bind ?_ fun _ _ => calm_bind (writeAuth_calm _ _) fun _ _ => writeAuth_calm _ _
  exact calm_bind (calm_wrap (calm_call fun _ _ h => calm_liftExcept h)) fun _ _ =>
    calm_wrap (calm_call fun _ _ h => calm_liftExcept h)

theorem writeReinstallData_calm (hE : E.NeverAborts) {tmp : Path} (h : Fetchable tmp w) (iso : Path)
    (idData : IdentityData B) : Calm (writeReinstallData E tmp iso idData) w := by
  rw [writeReinstallData_eq]
  exact calm_bind (getBaseAssets_calm hE h) fun new _ => writeMerged_calm iso idData new

/-- The kubeconfig lies in the work directory then. -/
theorem writeReinstallData_fetchable (tmp iso : Path) (idData : IdentityData B) :
    Tries (Alone fun _ _ _ _ => True) (writeReinstallData E tmp iso idData)
      (fun _ w' => Fetchable iso w') (fun _ _ => True) w := by
  rw [writeReinstallData_eq]
  refine Tries.seq (tries_true _) fun new w₁ _ => ?_
  refine Tries.mono writeMerged_files ?_ fun _ _ _ => trivial
  rintro _ w₂ ⟨secret, -, hfiles⟩
  refine .inr ?_
  rw [World.content, hfiles.kubeconfig]
  rfl

theorem parseNetworks_error (networks : List String) :
    aborted (parseNetworks E networks) = false := by
  unfold parseNetworks
  induction networks with
  | nil => rfl
  | cons network networks ih =>
    rw [List.mapM_cons]
    refine aborted_bind ?_ fun cidr _ => aborted_bind ih fun _ _ => rfl
    split
    · rfl
    · rfl

theorem writeInstallConfig_calm (s : Spec) (cd : ClusterDeployment) (psData caBundle : String)
    (file : Path) : Calm (writeInstallConfig E s cd psData caBundle file) w :=
  calm_bind (calm_liftExcept (parseNetworks_error _)) fun _ _ =>
    calm_wrap (calm_call fun _ _ h => calm_liftExcept h)

/-- The install config lies in its directory then. -/
theorem writeInstallConfig_content (s : Spec) (cd : ClusterDeployment) (psData caBundle : String)
    (file : Path) :
    Tries (Alone fun _ _ _ _ => True) (writeInstallConfig E s cd psData caBundle file)
      (fun _ w' => (w'.content file).isSome = true) (fun _ _ => True) w := by
  refine Tries.seq (tries_true _) fun networks w₁ _ => ?_
  refine tries_wrap (Tries.mono tries_writeFile ?_ fun _ _ _ => trivial)
  rintro _ _ rfl
  simp

theorem writeImageBaseConfig_calm (s : Spec) (registry nmstate : String) (file : Path) :
    Calm (writeImageBaseConfig E s registry nmstate file) w := by
  have hconfig : aborted (imageBasedConfig s registry nmstate) = false := by
    unfold imageBasedConfig
    split
    · rfl
    split
    · rfl
    · rfl
  refine calm_bind (calm_liftExcept hconfig) fun config _ => ?_
  split
  · exact calm_throw rfl
  · exact calm_wrap (calm_call fun _ _ h => calm_liftExcept h)

end Installer

/-! ## The build -/

section Build

open Installer

variable [DecidableEq B] {E : Env B} {w : World B} (inp : BuildInput)

omit [DecidableEq B] in
theorem writeImageBaseConfig_calm (hE : E.NeverAborts) (s : Spec) (key : NamespacedName)
    (bmh : BareMetalHost) (file : Path) : Calm (writeImageBaseConfig E s key bmh file) w := by
  refine calm_bind ?_ fun nmstate _ => calm_bind ?_ fun registry _ => ?_
  · unfold nmstateConfig
    split
    · exact calm_pure _
    refine calm_bind (calm_wrap (calm_call fun _ _ h => calm_liftExcept h)) fun secret _ => ?_
    split
    · exact calm_throw rfl
    split
    · exact calm_throw rfl
    · exact calm_pure _
  · exact calm_bind (calm_wrap (calm_call fun _ _ h => calm_liftExcept h)) fun image _ =>
      calm_liftExcept (hE.imageRegistry image)
  · exact Installer.writeImageBaseConfig_calm s registry nmstate file

/-- Calls that read, or write a file. -/
def ReadsOrWrites (op : Op B) : Prop := op.target = .nothing ∨ ∃ path b, op = .writeFile path b

omit [DecidableEq B] in
theorem writeImageBaseConfig_readsOrWrites (s : Spec) (key : NamespacedName) (bmh : BareMetalHost)
    (file : Path) : (writeImageBaseConfig E s key bmh file).run.Uses ReadsOrWrites := by
  refine uses_bind (nmstateConfig_uses (fun _ => .inl) ..) fun nmstate => ?_
  refine uses_bind (imageSetRegistry_uses (fun _ => .inl) ..) fun registry => ?_
  refine uses_bind (uses_liftExcept _) fun config => ?_
  split
  · trivial
  · exact uses_wrap (Prog.uses_perform (.inr ⟨_, _, rfl⟩))

omit [DecidableEq B] in
/-- A file stays a file. -/
theorem ReadsOrWrites.content {op : Op B} {c : Choice B} {r : Resp op} {w' : World B} {path : Path}
    (hop : ReadsOrWrites op) (hc : answer op c w = (r, w'))
    (h : (w.content path).isSome = true) : (w'.content path).isSome = true := by
  have hset : ∀ q b, ((w.setEntry q (some (.file b))).content path).isSome = true := by
    intro q b
    rw [World.content_setEntry, Function.update_apply]
    split
    · rfl
    · exact h
  rcases hop with hread | ⟨q, b, rfl⟩
  · rw [World.content, (answer_framed hc).fs (by simp [hread]) (by simp [hread])]
    exact h
  · obtain ⟨-, rfl⟩ | ⟨_, -, rfl | ⟨_, rfl⟩⟩ := answer_writeFile hc
    · exact hset ..
    · exact h
    · exact hset ..

omit [DecidableEq B] in
theorem writeConfigFiles_calm (hE : E.NeverAborts) (psData caBundle : String) (dir : Path) :
    Calm (writeConfigFiles E inp psData caBundle dir) w :=
  calm_bind (calm_wrap (writeInstallConfig_calm _ _ _ _ _)) fun _ _ =>
    calm_wrap (writeImageBaseConfig_calm hE _ _ _ _)

omit [DecidableEq B] in
theorem writeConfigFiles_fetchable (psData caBundle : String) (dir : Path) :
    Tries (Alone fun _ _ _ _ => True) (writeConfigFiles E inp psData caBundle dir)
      (fun _ w' => Fetchable dir w') (fun _ _ => True) w := by
  refine Tries.seq (tries_wrap (writeInstallConfig_content _ _ _ _ _)) fun _ w₁ h₁ => ?_
  refine tries_wrap (Meets.mono (Meets.of_uses
    (I := fun w' : World B => (w'.content (dir.join [installConfigFilename])).isSome = true)
    (writeImageBaseConfig_readsOrWrites _ _ _ _) (fun _ _ h hr => hr ▸ h) ?_ h₁) ?_)
  · rintro op w₂ r w₃ hop h ⟨⟨c, hc⟩, -⟩
    exact ⟨trivial, hop.content hc h⟩
  · intro r w₂ h
    cases r with
    | ok u => exact .inl h
    | error e => trivial

theorem finishBuild_calm (hE : E.NeverAborts) {dir : Path} (h : Fetchable dir w) :
    Calm (finishBuild E inp dir) w :=
  calm_bind (calm_wrap (createInstallationIso_calm hE _ h)) fun _ _ => ensureCreds_calm E _ _ _

theorem firstInstall_calm (hE : E.NeverAborts) (psData caBundle : String) (dir : Path) :
    Calm (firstInstall E inp psData caBundle dir) w :=
  calm_seq (writeConfigFiles_calm inp hE _ _ _) (writeConfigFiles_fetchable inp _ _ _)
    fun _ _ h => finishBuild_calm inp hE h

theorem reinstall_calm (hE : E.NeverAborts) (psData caBundle : String) (idData : IdentityData B)
    (tmp iso : Path) : Calm (reinstall E inp psData caBundle idData tmp iso) w := by
  refine calm_seq (writeConfigFiles_calm inp hE _ _ _) (writeConfigFiles_fetchable inp _ _ _) ?_
  intro _ w₁ htmp
  refine calm_seq (calm_wrap (writeReinstallData_calm hE htmp _ _))
    (tries_wrap (writeReinstallData_fetchable _ _ _)) fun _ w₂ hiso => ?_
  exact finishBuild_calm inp hE hiso

omit [DecidableEq B] in
theorem deferRemoveAll_calm {body : Act B Unit} (h : Calm body w) (dir : Path) :
    Calm (deferRemoveAll dir body) w := by
  refine calm_attempt_bind h (fun _ _ => ?_) fun e _ he => ?_
  · exact calm_bind calm_attempt fun _ _ => calm_liftExcept rfl
  · exact calm_bind calm_attempt fun _ _ => calm_liftExcept he

/-- The build aborts only on the pull secret. -/
theorem buildImage_aborts (hE : E.NeverAborts) (dir : Path) :
    AbortsOnly (¬PullSecretTyped E inp.cd.pullSecretRef inp.cdKey.ns w)
      (buildImage E inp dir) w := by
  refine abortsOnly_after (Tries.lift (meets_true _))
    (uses_lift (verifyIsoAndAuthExists_uses (fun _ h => by simp [h]) _)) fun complete w₁ h₁ => ?_
  split
  · exact (ensureCreds_calm E _ _ _).only
  -- the rebuild
  refine abortsOnly_after calm_attempt (uses_attempt (Prog.uses_perform (by simp [Op.target])))
    fun _ w₂ h₂ => ?_
  refine abortsOnly_after (calm_call fun _ _ h => calm_liftExcept h)
    (Prog.uses_perform (by simp [Op.target])) fun _ w₃ h₃ => ?_
  have hsecrets : w₃.secrets = w.secrets := h₃.trans (h₂.trans h₁)
  refine Tries.seq (Q := fun _ _ => True) (tries_wrap (Tries.mono getValidPullSecret_aborts
    (fun _ _ h => h) fun e _ he habort htyped => ?_)) fun psData w₄ _ => Calm.only ?_
  · rw [Err.aborts_within] at habort
    exact he habort (htyped.of_kept fun key => by rw [hsecrets])
  refine calm_bind (calm_wrap (getCABundle_calm _ _)) fun caBundle _ => ?_
  refine calm_bind (calm_wrap (generateExtraManifests_calm E _ _ _)) fun _ _ => ?_
  refine calm_bind (calm_wrap (clusterIdentitySecrets_calm E _)) fun secrets _ => ?_
  split
  · exact firstInstall_calm inp hE _ _ _
  refine calm_bind (calm_wrap (calm_call fun _ _ h => calm_liftExcept h)) fun tmp _ => ?_
  exact deferRemoveAll_calm (reinstall_calm inp hE _ _ _ _ _) _

/-- Taking the lock or the callback aborts. -/
def Locked.aborted {α : Type} : Locked α → Bool
  | .lockErr e => e.aborts
  | .busy => false
  | .ran r => ImageBasedInstall.aborted r

omit [DecidableEq B] in
/-- Taking the lock neither aborts nor changes a secret. -/
theorem withWriteLock_aborts {α : Type} {P : Prop} {f : Act B α} (dir : Path)
    (hf : ∀ w', w'.secrets = w.secrets → AbortsOnly P f w') :
    Meets (Alone fun _ _ _ _ => True) (withWriteLock E dir f)
      (fun r _ => r.aborted = true → P) w := by
  have hlock : Calm (lockForDir E dir) w := by
    refine calm_attempt_bind (calm_call fun _ _ h => calm_liftExcept h) ?_ ?_
    · exact fun _ _ => calm_call fun _ _ h => calm_liftExcept h
    · intro e w' he
      dsimp only
      split
      · exact calm_throw he
      · exact calm_bind (calm_call fun _ _ h => calm_liftExcept h) fun _ _ =>
          calm_call fun _ _ h => calm_liftExcept h
  have huses : (lockForDir E dir).run.Uses fun op : Op B => op.target ≠ .secret :=
    lockForDir_uses (fun _ h => by simp [h]) E dir (by simp [Op.target])
  refine Meets.seq (Meets.and (hlock.only (P := P)) (meets_secrets huses)) ?_
  rintro (e | locked) w₁ ⟨hr, hsecrets⟩
  · exact meets_ret.2 hr
  cases locked with
  | false => exact meets_ret.2 fun h => absurd h Bool.false_ne_true
  | true =>
    refine Meets.seq (hf w₁ hsecrets) fun r w₂ hr => meets_ret.2 ?_
    cases r with
    | ok a => exact fun h => absurd h Bool.false_ne_true
    | error e => exact hr

theorem writeInputData_aborts (hE : E.NeverAborts) (uid : String) :
    AbortsOnly (¬PullSecretTyped E inp.cd.pullSecretRef inp.cdKey.ns w)
      (writeInputData E inp uid) w := by
  refine abortsOnly_after
    (calm_bind (calm_call fun _ _ h => calm_liftExcept h) fun _ _ => calm_pure _)
    (uses_bind (Prog.uses_perform (by simp [Op.target])) fun _ => trivial) fun dirs w₁ h₁ => ?_
  have hbuild : ∀ w₂ : World B, w₂.secrets = w₁.secrets →
      AbortsOnly (¬PullSecretTyped E inp.cd.pullSecretRef inp.cdKey.ns w)
        (buildImage E inp (dirs.2.join [clusterConfigDir])) w₂ := by
    intro w₂ h₂
    refine Tries.mono (buildImage_aborts inp hE _) (fun _ _ h => h) fun e _ he habort htyped => ?_
    exact he habort (htyped.of_kept fun key => by rw [h₂, h₁])
  refine Tries.bind (Tries.lift (Meets.mono (withWriteLock_aborts _ hbuild) fun r w₂ hr => ?_))
  cases r with
  | lockErr e => exact tries_throw.2 fun h => hr ((Err.aborts_within ..).symm.trans h)
  | busy => exact tries_pure.2 trivial
  | ran built =>
    cases built with
    | error e => exact tries_throw.2 fun h => hr ((Err.aborts_within ..).symm.trans h)
    | ok => exact tries_pure.2 trivial

end Build

/-! ## The pass -/

section Pass

variable {E : Env B} {w : World B} {req key : NamespacedName} {ici : ImageClusterInstall}
  {bmh : BareMetalHost} {cond : Condition}

theorem afterPatch_error {new : α} {r : Except Err α} (h : aborted r = false) :
    aborted (afterPatch new r).2 = false := by
  cases r with
  | ok a => rfl
  | error e => exact h

theorem patchICI_calm (new : ImageClusterInstall) :
    Meets (Alone fun _ _ _ _ => True) (patchICI req ici new) (fun r _ => aborted r.2 = false) w :=
  meets_call fun _ _ _ hc _ => ⟨trivial, meets_ret.2 (afterPatch_error (answer_noAbort hc))⟩

theorem patchICIStatus_calm (new : ImageClusterInstall) :
    Meets (Alone fun _ _ _ _ => True) (patchICIStatus req ici new)
      (fun r _ => aborted r.2 = false) w :=
  meets_call fun _ _ _ hc _ => ⟨trivial, meets_ret.2 (afterPatch_error (answer_noAbort hc))⟩

theorem patchBMH_calm (new : BareMetalHost) :
    Meets (Alone fun _ _ _ _ => True) (patchBMH key bmh new) (fun r _ => aborted r.2 = false) w :=
  meets_call fun _ _ _ hc _ => ⟨trivial, meets_ret.2 (afterPatch_error (answer_noAbort hc))⟩

theorem removeBMHDataImage_calm (key : NamespacedName) :
    Calm (removeBMHDataImage key : Act B _) w :=
  (removeBMHDataImage_running (fun _ => .free) (fun _ _ => .free) fun _ _ _ _ _ => .free).mono
    (fun _ _ _ => trivial) fun _ _ h => h.2

theorem handlePostCleanup_calm : Calm (handlePostCleanup ici : Act B _) w := by
  unfold handlePostCleanup
  split
  · exact calm_pure _
  split
  · exact calm_pure _
  refine calm_bind (calm_wrap (removeBMHDataImage_calm _)) fun _ _ => ?_
  refine calm_attempt_bind (calm_call fun _ _ h => calm_liftExcept h) (fun _ _ => calm_pure _) ?_
  intro e _ _
  dsimp only
  split
  · exact calm_pure _
  · exact calm_throw rfl

theorem finalize_calm : Calm (finalize E req ici) w := by
  refine calm_bind ?_ fun removed _ => ?_
  · refine calm_bind (calm_bind (calm_call fun _ _ h => calm_liftExcept h)
      fun _ _ => calm_pure _) ?_
    intro dirs _
    refine calm_attempt_bind (calm_call fun _ _ h => calm_liftExcept h) (fun _ _ => ?_) ?_
    · refine Tries.bind (Tries.lift (Meets.mono (withWriteLock_aborts (P := False) _ fun _ _ =>
        Calm.only (calm_call fun _ _ h => calm_liftExcept h)) fun r _ hr => ?_))
      have hr : r.aborted = false := Bool.eq_false_iff.2 hr
      match r with
      | .lockErr e => exact calm_throw ((Err.aborts_within ..).trans hr)
      | .busy => exact calm_pure _
      | .ran (.error e) => exact calm_throw ((Err.aborts_within ..).trans hr)
      | .ran (.ok ()) => exact calm_pure _
    · intro e _ _
      dsimp only
      split
      · exact calm_throw rfl
      · exact calm_pure _
  split
  · exact calm_pure _
  refine calm_bind ?_ fun gone _ => ?_
  · unfold removeHostDataImage
    split
    · exact calm_pure _
    · exact calm_bind (calm_wrap (removeBMHDataImage_calm _)) fun _ _ => calm_pure _
  split
  · exact calm_pure _
  refine calm_bind ?_ fun _ _ => calm_pure _
  unfold removeFinalizer
  split
  · refine Tries.bind (Tries.lift (Meets.mono (patchICI_calm _) fun r _ hr => ?_))
    exact calm_liftExcept hr
  · exact calm_pure _

theorem handleFinalizer_calm :
    Meets (Alone fun _ _ _ _ => True) (handleFinalizer E req ici)
      (fun r _ => ∀ res err, r.2 = some (res, err) → err.any Err.aborts = false) w := by
  unfold handleFinalizer
  split
  · split
    · exact meets_ret.2 nofun
    refine Meets.seq (patchICI_calm _) ?_
    rintro ⟨ici', r⟩ w₁ hr
    refine meets_ret.2 fun res err heq => ?_
    cases heq
    cases r with
    | ok u => rfl
    | error e => exact hr
  · refine Meets.seq finalize_calm fun r w₁ hr => ?_
    cases r with
    | ok result =>
      refine meets_ret.2 fun res err heq => ?_
      cases heq
      rfl
    | error e =>
      refine meets_ret.2 fun res err heq => ?_
      cases heq
      exact hr

theorem ensureAnnotated_calm (key value : String) :
    Meets (Alone fun _ _ _ _ => True) (ensureAnnotated req ici key value)
      (fun r _ => aborted r.2 = false) w := by
  unfold ensureAnnotated
  dsimp only
  split
  · exact meets_ret.2 rfl
  · exact patchICI_calm _

theorem prepare_calm :
    Meets (Alone fun _ _ _ _ => True) (prepare req ici) (fun r _ => aborted r.2 = false) w := by
  refine Meets.seq (ensureAnnotated_calm _ _) ?_
  rintro ⟨ici₁, e | u⟩ w₁ h₁
  · exact meets_ret.2 h₁
  refine Meets.seq (ensureAnnotated_calm _ _) ?_
  rintro ⟨ici₂, e | u⟩ w₂ h₂
  · exact meets_ret.2 h₂
  refine Meets.seq (meets_true _) fun acc w₃ _ => ?_
  dsimp only
  split
  · exact meets_ret.2 rfl
  · exact patchICIStatus_calm _

theorem validateConfiguration_calm (s : Spec) (cd : Option (NamespacedName × ClusterDeployment)) :
    Meets (Alone fun _ _ _ _ => True) (validateConfiguration req s cd cond)
      (fun r _ => aborted r.2 = false) w := by
  unfold validateConfiguration
  split
  · split
    · exact meets_ret.2 rfl
    · exact meets_ret.2 rfl
  · exact meets_ret.2 rfl
  refine Meets.seq (meets_true _) fun r w₁ _ => ?_
  split
  · exact meets_ret.2 rfl
  split
  · exact meets_ret.2 rfl
  refine Meets.seq (patchBMH_calm _) ?_
  rintro ⟨bmh', e | u⟩ w₂ h₂
  · exact meets_ret.2 h₂
  · exact meets_ret.2 rfl

theorem validateBMHMachineNetworks_error (legacy : String) (networks : Slice String)
    (nics : List NIC) : aborted (validateBMHMachineNetworks E legacy networks nics) = false := by
  refine Installer.aborted_bind ?_ fun nets _ => ?_
  · unfold getEffectiveMachineNetworksCIDRs
    split
    · split
      · rfl
      · rfl
    · split
      · rfl
      · rfl
  split
  · rfl
  · split
    · rfl
    · rfl
  · unfold validateDualStackMachineNetworks
    dsimp only
    split
    · rfl
    split
    · rfl
    · rfl

theorem validateBMH_error (s : Spec) : aborted (validateBMH E s key bmh cond).2 = false := by
  unfold validateBMH
  split
  · rfl
  split
  · rfl
  split
  · rfl
  split
  · rfl
  split
  · next e he =>
    exact (congrArg aborted he).symm.trans (validateBMHMachineNetworks_error _ _ _)
  · rfl

theorem validateHost_calm (s : Spec) :
    Meets (Alone fun _ _ _ _ => True) (validateHost E s key bmh cond)
      (fun r _ => aborted r.2.2 = false) w := by
  have herror : aborted (validateBMH E s key bmh cond).2 = false := validateBMH_error s
  unfold validateHost
  split
  · next cond' e hv =>
    rw [hv] at herror
    exact meets_ret.2 herror
  split
  · exact meets_ret.2 rfl
  split
  · exact meets_ret.2 rfl
  refine Meets.seq (patchBMH_calm _) ?_
  rintro ⟨bmh', e | u⟩ w₂ h₂
  · exact meets_ret.2 h₂
  · exact meets_ret.2 rfl

/-- The comparison of the metadata is the only abort. -/
theorem setClusterInstallMetadata_aborts (cdKey : NamespacedName) (cd : ClusterDeployment) :
    Meets (Alone fun _ _ _ _ => True) (setClusterInstallMetadata E req ici cdKey cd)
      (fun r _ => aborted r.2 = true →
        aborted (metadataIsCurrent cdKey.name ici.spec.clusterMetadata) = true) w := by
  unfold setClusterInstallMetadata
  split
  · next e he =>
    refine meets_ret.2 fun habort => ?_
    rw [he]
    exact habort
  · exact meets_ret.2 nofun
  refine Meets.seq (seedReconfigSecretClusterIDs_calm E cdKey) fun r w₁ hr => ?_
  cases r with
  | error e => exact meets_ret.2 (elim_of_calm ((Err.aborts_within ..).trans hr))
  | ok ids =>
    refine Meets.seq (meets_true _) fun clusterID w₂ _ => ?_
    refine Meets.seq (meets_true _) fun infraID w₃ _ => ?_
    exact (patchICI_calm _).mono fun _ _ h => elim_of_calm h

theorem createImage_aborts [DecidableEq B] (hE : E.NeverAborts) (uid : String) (inp : BuildInput) :
    Meets (Alone fun _ _ _ _ => True) (createImage E req uid inp cond)
      (fun r _ => aborted r.2 = true →
        ¬PullSecretTyped E inp.cd.pullSecretRef inp.cdKey.ns w) w := by
  refine Meets.seq (writeInputData_aborts inp hE uid) fun r w₁ hr => ?_
  split
  · exact meets_ret.2 hr
  · exact meets_ret.2 hr
  · exact meets_ret.2 hr
  split
  · exact meets_ret.2 nofun
  split
  · exact meets_ret.2 nofun
  · exact meets_ret.2 nofun

theorem ensureBMHDataImage_calm (url : String) :
    Calm (ensureBMHDataImage key url : Act B _) w := by
  refine calm_attempt_bind (calm_call fun _ _ h => calm_liftExcept h) ?_ ?_
  · intro image _
    dsimp only
    split
    · exact calm_pure _
    · exact calm_pure _
  · intro e _ he
    dsimp only
    split
    · exact calm_throw he
    refine calm_bind (calm_wrap (calm_call fun _ _ h => calm_liftExcept h)) fun _ _ => ?_
    exact calm_bind (calm_call fun _ _ h => calm_liftExcept h) fun _ _ => calm_pure _

theorem updateBMHProvisioningState_calm (image : DataImage) :
    Meets (Alone fun _ _ _ _ => True) (updateBMHProvisioningState key bmh image : Program B _)
      (fun r _ => aborted r.2 = false) w := by
  unfold updateBMHProvisioningState
  split
  · exact meets_ret.2 rfl
  split
  · exact meets_ret.2 rfl
  · exact patchBMH_calm _

theorem recordBoot_calm :
    Meets (Alone fun _ _ _ _ => True) (recordBoot req ici cond : Program B _)
      (fun out _ => out.err.any Err.aborts = false) w := by
  unfold recordBoot
  split
  · exact meets_ret.2 rfl
  refine Meets.seq (meets_true _) fun t w₁ _ => ?_
  refine Meets.seq (patchICIStatus_calm _) ?_
  rintro ⟨ici', e | u⟩ w₂ h₂
  · exact meets_ret.2 h₂
  · exact meets_ret.2 rfl

theorem configureHost_calm (url : String) :
    Meets (Alone fun _ _ _ _ => True) (configureHost E req ici url key bmh cond)
      (fun out _ => out.err.any Err.aborts = false) w := by
  refine Meets.seq (ensureBMHDataImage_calm url) fun r w₁ hr => ?_
  cases r with
  | error e => exact meets_ret.2 hr
  | ok image =>
    dsimp only
    split
    · exact meets_ret.2 rfl
    refine Meets.seq (meets_true _) fun t w₂ _ => ?_
    split
    · exact meets_ret.2 rfl
    refine Meets.seq (updateBMHProvisioningState_calm _) ?_
    rintro ⟨bmh', e | u⟩ w₃ h₃
    · exact meets_ret.2 h₃
    dsimp only
    split
    · exact meets_ret.2 rfl
    · exact recordBoot_calm

theorem imagePhases_aborts [DecidableEq B] (hE : E.NeverAborts)
    (cd : NamespacedName × ClusterDeployment) :
    Meets (Alone fun _ _ _ _ => True) (imagePhases E req ici cd key bmh cond)
      (fun out _ => out.err.any Err.aborts = true →
        ¬PullSecretTyped E cd.2.pullSecretRef cd.1.ns w) w := by
  refine Meets.seq (createImage_aborts hE _ _) ?_
  rintro ⟨cond', e | ⟨url, res⟩⟩ w₁ h₁
  · exact meets_ret.2 h₁
  dsimp only
  split
  · exact meets_ret.2 nofun
  refine Meets.seq (configureHost_calm _) fun out w₂ h₂ => ?_
  split
  · exact meets_ret.2 (elim_of_calm h₂)
  · exact meets_ret.2 (elim_of_calm h₂)

end Pass

end ImageBasedInstall

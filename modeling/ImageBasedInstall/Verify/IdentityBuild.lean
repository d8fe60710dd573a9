import ImageBasedInstall.Verify.Identity
import ImageBasedInstall.Verify.Secrets

/-!
# Builds keep the identity

A build of an object of the cluster deployment first empties the work directory, so that an output
is missing until the installer runs. The installer settles on the credentials: new ones in a first
install, the stored ones in a reinstall. From then on every output that is written belongs to them
(`Building`), and so do the payloads that are copied into the secrets. The seed reconfiguration is
copied last, when the other two are in place.

Builds of other objects stay away from the secrets and from the work directory.
-/

namespace ImageBasedInstall

open Interactive Installer

variable {B : Type}

/-! ## What is assumed of a build -/

/-- What the call writes, and where. -/
def Op.entry : Op B → Option (Path × Entry B)
  | .writeFile path content => some (path, .file content)
  | .writeIso path image builtFrom => some (path, .iso image builtFrom)
  | _ => none

/-- The installer draws a password, and the stored one if it runs on a manifest. -/
def Redraws (E : Env B) (cd : NamespacedName) (dir : Path) (w : World B) :
    (op : Op B) → Resp op → Prop
  | .drawAssets, draw => draw.password ≠ "" ∧ ((w.fs (dir.join manifestPath)).isSome = true →
    ∀ id, w.identity E cd = some id → E.ofString draw.password = id.kubeadminPassword)
  | _, _ => True

/-- What the installer and the file system grant to builds in the work directory: the installer
draws the stored password again, a removal leaves nothing, and an output is written as a whole or
not at all, unless another one is missing. -/
structure Steady (E : Env B) (cd : NamespacedName) (dir : Path) (w : World B)
    (op : Op B) (r : Resp op) (w' : World B) : Prop where
  draws : Redraws E cd dir w op r
  removal : op = .removeAll dir → Cleared dir w'
  writes : ∀ file ∈ buildOutputs, ∀ e, op.entry = some (dir.join file, e) →
    w'.fs (dir.join file) = w.fs (dir.join file) ∨ w'.fs (dir.join file) = some e ∨ Missing dir w'

/-- Steps between worlds with the invariant. -/
abbrev Keeping (E : Env B) (cd : NamespacedName) (dir : Path) : Contract (Op B) Resp (World B) :=
  Running (fun w op r w' => IdentityKept E cd w ∧ Steady E cd dir w op r w')
    fun w _ _ w' => Preserves E cd w w'

/-- The call keeps the invariant. -/
abbrev Keeps (E : Env B) (cd : NamespacedName) (dir : Path) (w : World B) (op : Op B) : Prop :=
  Permits (fun w op r w' => IdentityKept E cd w ∧ Steady E cd dir w op r w')
    (fun w _ _ w' => Preserves E cd w w') w op

/-! ## The work directory of the cluster deployment -/

/-- The directory belongs to the one object of the cluster deployment. -/
structure OwnDir (cd : NamespacedName) (dir : Path) (w : World B) : Prop where
  stored : ∃ k ici, w.icis k = some ici ∧ Refers cd k ici ∧ getClusterConfigDir k.ns ici.uid = dir
  only : ∀ k ici, w.icis k = some ici → Refers cd k ici → getClusterConfigDir k.ns ici.uid = dir

/-- A build on its way to the credentials `t`. -/
structure Building (E : Env B) (cd : NamespacedName) (dir : Path) (t : IdentityData B)
    (w : World B) :
    Prop where
  own : OwnDir cd dir w
  secrets : SecretsKept E cd w
  fits : FitsIdentity E cd t w
  toward : Toward dir t w

section Own

variable {E : Env B} {cd key : NamespacedName} {ici : ImageClusterInstall} {t : IdentityData B}
  {dir : Path} {w w' : World B} {op : Op B} {c : Choice B} {r : Resp op} {α : Type}

theorem IdentityKept.ownDir (h : IdentityKept E cd w) (hici : w.icis key = some ici)
    (href : Refers cd key ici) : OwnDir cd (getClusterConfigDir key.ns ici.uid) w := by
  refine ⟨⟨key, ici, hici, href, rfl⟩, fun k ici' hk hrefk => ?_⟩
  obtain rfl := h.single k key ici' ici hk hici hrefk href
  obtain rfl : ici' = ici := Option.some.inj (hk.symm.trans hici)
  rfl

theorem OwnDir.of_icis (h : OwnDir cd dir w) (hicis : w'.icis = w.icis) : OwnDir cd dir w' := by
  obtain ⟨hstored, honly⟩ := h
  rw [← hicis] at hstored honly
  exact ⟨hstored, honly⟩

theorem IdentityKept.dirKept (h : IdentityKept E cd w) (ho : OwnDir cd dir w) :
    DirKept E cd dir w := by
  obtain ⟨k, ici, hk, href, rfl⟩ := ho.stored
  exact h.dirs k ici hk href

/-- A step that leaves the objects as they are. -/
theorem IdentityKept.of_own (h : IdentityKept E cd w) (ho : OwnDir cd dir w)
    (hicis : w'.icis = w.icis) (hsecrets : SecretsKept E cd w') (hdir : DirKept E cd dir w') :
    IdentityKept E cd w' := by
  refine ⟨?_, ?_, hsecrets, ?_⟩
  · exact h.uids.of_kept fun _ ici hk => ⟨ici, hicis ▸ hk, rfl⟩
  · intro k k' ici ici' hk hk'
    rw [hicis] at hk hk'
    exact h.single k k' ici ici' hk hk'
  · intro k ici hk href
    rw [ho.only k ici (hicis ▸ hk) href]
    exact hdir

/-- A step that leaves the objects and the stored identity as they are. -/
theorem Preserves.of_same (h : IdentityKept E cd w) (ho : OwnDir cd dir w)
    (hicis : w'.icis = w.icis) (hsecrets : SecretsKept E cd w')
    (hid : w'.identity E cd = w.identity E cd) (hdir : DirKept E cd dir w') : Preserves E cd w w' :=
  ⟨h.of_own ho hicis hsecrets hdir,
    fun id hid' => ⟨id, hid.trans hid', .refl (h.secrets.hash hid')⟩⟩

theorem payload_of_files (hframe : Framed [.nothing, .file, .iso] w w') (kind : IdentitySecret) :
    w'.payload E kind cd = w.payload E kind cd :=
  payload_of_eq (by rw [hframe.secrets (by decide)])

theorem identity_of_files (hframe : Framed [.nothing, .file, .iso] w w') :
    w'.identity E cd = w.identity E cd :=
  identity_of_payloads fun kind _ => payload_of_files hframe kind

theorem Preserves.of_files (h : IdentityKept E cd w) (ho : OwnDir cd dir w)
    (hframe : Framed [.nothing, .file, .iso] w w') (hdir : DirKept E cd dir w') :
    Preserves E cd w w' :=
  .of_same h ho (hframe.icis (by decide))
    (h.secrets.of_eq (payload_of_files hframe _) (identity_of_files hframe))
    (identity_of_files hframe) hdir

theorem Building.dirKept (h : Building E cd dir t w) : DirKept E cd dir w :=
  .inr ⟨t, h.fits, h.toward⟩

theorem Building.of_files (h : Building E cd dir t w) (hframe : Framed [.nothing, .file, .iso] w w')
    (htoward : Toward dir t w') : Building E cd dir t w' where
  own := h.own.of_icis (hframe.icis (by decide))
  secrets := h.secrets.of_eq (payload_of_files hframe _) (identity_of_files hframe)
  fits := h.fits.of_eq (identity_of_files hframe)
  toward := htoward

/-! ## Calls of a build -/

theorem keeps_read (hop : op.target = .nothing) : Keeps E cd dir w op := by
  rintro c r w' hc ⟨hI, -⟩
  exact (bystands_of_read hI.uids hop hc).preserves hI

theorem meets_keeps_read {p : Program B α} {Q : α → World B → Prop}
    (hp : p.Uses fun op => op.target = .nothing)
    (hspec : Meets (Alone fun w op r w' => IdentityKept E cd w ∧ Steady E cd dir w op r w') p Q w) :
    Meets (Keeping E cd dir) p Q w :=
  (meets_reading (fun hop => keeps_read hop) hp hspec).mono fun _ _ h => h.2

/-- Calls that write files, but no output. -/
def Quiet (dir : Path) (op : Op B) : Prop :=
  op.target ∈ [.nothing, .file, .iso] ∧ ∀ file ∈ buildOutputs, ¬op.writes (dir.join file)

theorem Quiet.framed (hop : Quiet dir op) (hc : answer op c w = (r, w')) :
    Framed [.nothing, .file, .iso] w w' :=
  (answer_framed hc).mono (by simpa using hop.1)

theorem Building.quiet (h : Building E cd dir t w) (hop : Quiet dir op)
    (hc : answer op c w = (r, w')) : Building E cd dir t w' :=
  h.of_files (hop.framed hc) (h.toward.of_outputs fun file hfile =>
    kept_or_gone hc (hop.2 file hfile))

theorem tries_quiet {x : Act B α} (hx : x.run.Uses (Quiet dir)) (h : Building E cd dir t w) :
    Tries (Keeping E cd dir) x (fun _ w' => Building E cd dir t w') (fun _ _ => True) w := by
  have hkept : Meets (Keeping E cd dir) x.run (fun _ w' => Building E cd dir t w') w := by
    refine meets_permitted hx ?_ (fun hI hop hc => hI.quiet hop hc) h
    rintro w₁ op h₁ hop c r w₂ hc ⟨hI, -⟩
    exact .of_files hI h₁.own (hop.framed hc) (h₁.quiet hop hc).dirKept
  refine hkept.mono fun r w' h' => ?_
  cases r with
  | ok a => exact h'
  | error e => trivial

/-- A write touches its own path only. -/
theorem entry_elsewhere {p q : Path} {e : Entry B} (hop : op.entry = some (p, e))
    (hc : answer op c w = (r, w')) (hq : q ≠ p) : w'.fs q = w.fs q := by
  cases op with
  | writeFile path content =>
    obtain ⟨rfl, -⟩ := Prod.mk.inj (Option.some.inj hop)
    obtain ⟨-, rfl⟩ | ⟨e, -, rfl | ⟨b, rfl⟩⟩ := answer_writeFile hc
    · exact Function.update_of_ne hq ..
    · rfl
    · exact Function.update_of_ne hq ..
  | writeIso path image builtFrom =>
    obtain ⟨rfl, -⟩ := Prod.mk.inj (Option.some.inj hop)
    obtain ⟨-, rfl⟩ | ⟨e, -, rfl | ⟨i, rfl⟩⟩ := answer_writeIso hc
    · exact Function.update_of_ne hq ..
    · rfl
    · exact Function.update_of_ne hq ..
  | _ => cases hop

theorem entry_framed {p : Path} {e : Entry B} (hop : op.entry = some (p, e))
    (hc : answer op c w = (r, w')) : Framed [.nothing, .file, .iso] w w' := by
  refine (answer_framed hc).mono ?_
  cases op with
  | writeFile path content => simp [Op.target]
  | writeIso path image builtFrom => simp [Op.target]
  | _ => cases hop

section Output

variable {file : List String} {e : Entry B}

theorem Toward.written (h : Toward dir t w) (he : Belongs t file e)
    (hself : w'.fs (dir.join file) = w.fs (dir.join file) ∨ w'.fs (dir.join file) = some e)
    (hother : ∀ q, q ≠ dir.join file → w'.fs q = w.fs q) : Toward dir t w' := by
  intro file' hfile' e' he'
  by_cases heq : file' = file
  · subst heq
    rcases hself with hk | hk
    · exact h file' hfile' e' (hk ▸ he')
    · obtain rfl : e = e' := Option.some.inj (hk.symm.trans he')
      exact he
  · rw [hother _ (by simpa using heq)] at he'
    exact h file' hfile' e' he'

variable (h : Building E cd dir t w) (hfile : file ∈ buildOutputs) (he : Belongs t file e)
include h hfile he

/-- The write of an output that belongs to the credentials. -/
theorem Building.keeps_write (hop : op.entry = some (dir.join file, e)) : Keeps E cd dir w op := by
  rintro c r w' hc ⟨hI, hsteady⟩
  refine .of_files hI h.own (entry_framed hop hc) ?_
  have htoward : w'.fs (dir.join file) = w.fs (dir.join file) ∨ w'.fs (dir.join file) = some e →
      DirKept E cd dir w' := fun hself =>
    (h.of_files (entry_framed hop hc)
      (h.toward.written he hself fun q hq => entry_elsewhere hop hc hq)).dirKept
  rcases hsteady.writes file hfile e hop with hk | hk | hmissing
  · exact htoward (.inl hk)
  · exact htoward (.inr hk)
  · exact .inl hmissing

omit hfile in
theorem Building.set : Building E cd dir t (w.setEntry (dir.join file) (some e)) := by
  have hframe : Framed [.nothing, .file, .iso] w (w.setEntry (dir.join file) (some e)) := by
    constructor <;> simp [World.setEntry]
  refine h.of_files hframe (h.toward.written he (.inr (Function.update_self ..)) ?_)
  exact fun q hq => Function.update_of_ne hq ..

end Output

theorem tries_keeps_writeFile {file : List String} {b : B} (h : Building E cd dir t w)
    (hfile : file ∈ buildOutputs) (hb : (file, b) ∈ t.files) :
    Tries (Keeping E cd dir) (writeFile (dir.join file) b) (fun _ w' => Building E cd dir t w')
      (fun _ _ => True) w := by
  have hbelongs : Belongs t file (.file b) := hb
  refine meets_call fun c r w' hc ho =>
    ⟨h.keeps_write hfile hbelongs rfl c r w' hc ho, meets_ret.2 ?_⟩
  obtain ⟨rfl, rfl⟩ | ⟨_, rfl, -⟩ := answer_writeFile hc
  · exact h.set hbelongs
  · trivial

theorem tries_keeps_writeIso {image : IsoImage B} {s : Spec} (h : Building E cd dir t w)
    (himage : image.manifest = t.seedReconfig) :
    Tries (Keeping E cd dir) (writeIso (dir.join isoPath) image s)
      (fun _ w' => Building E cd dir t w') (fun _ _ => True) w := by
  have hbelongs : Belongs t isoPath (.iso image s) := fun _ => himage
  refine meets_call fun c r w' hc ho =>
    ⟨h.keeps_write (by decide) hbelongs rfl c r w' hc ho, meets_ret.2 ?_⟩
  obtain ⟨rfl, rfl⟩ | ⟨_, rfl, -⟩ := answer_writeIso hc
  · exact h.set hbelongs
  · trivial

end Own

/-! ## The installer -/

/-- What the installer fetched is made of the credentials. -/
structure Makes (E : Env B) (t : IdentityData B) (fetched : Fetched B) : Prop where
  manifest : fetched.image.manifest = t.seedReconfig
  password : E.ofString fetched.password = t.kubeadminPassword
  kubeconfig : ∀ b, fetched.kubeconfig = .ok b → b = t.kubeconfig

section Install

variable {E : Env B} {cd : NamespacedName} {t : IdentityData B} {dir : Path} {ns uid : String}
  {w : World B}

theorem fetchAndPersist_keeps {saved persist : Act B Unit} (hsaved : saved.run.Uses (Quiet dir))
    (hpersist : ∀ w, Building E cd dir t w →
      Tries (Keeping E cd dir) persist (fun _ w' => Building E cd dir t w') (fun _ _ => True) w)
    (h : Building E cd dir t w) :
    Tries (Keeping E cd dir) (fetchAndPersist saved persist) (fun _ w' => Building E cd dir t w')
      (fun _ _ => True) w := by
  refine Tries.seq (tries_quiet (uses_attempt hsaved) h) fun err w₁ h₁ => ?_
  refine Tries.seq (hpersist w₁ h₁) fun _ w₂ h₂ => ?_
  exact tries_quiet (uses_liftExcept _) h₂

theorem saveStateFile_quiet (E : Env B) (draw : Draw) :
    (saveStateFile E (getClusterConfigDir ns uid) draw).run.Uses
      (Quiet (getClusterConfigDir ns uid)) :=
  Prog.uses_perform ⟨by simp [Op.target], fun _ hfile => output_ne_scratch hfile (by simp)⟩

theorem persistToFile_keeps {file : List String} {b : B}
    (hfile : file ∈ [kubeconfigPath, kubeadminPasswordPath, manifestPath])
    (hb : (file, b) ∈ t.files) (h : Building E cd (getClusterConfigDir ns uid) t w) :
    Tries (Keeping E cd (getClusterConfigDir ns uid))
      (persistToFile ((getClusterConfigDir ns uid).join file) b)
      (fun _ w' => Building E cd (getClusterConfigDir ns uid) t w') (fun _ _ => True) w := by
  have houtputs : ∀ file ∈ [kubeconfigPath, kubeadminPasswordPath, manifestPath],
      file ∈ buildOutputs := by decide
  obtain ⟨sub, hsub, heq⟩ := outputDir_eq (getClusterConfigDir ns uid) file hfile
  unfold persistToFile
  rw [heq]
  refine Tries.seq (tries_quiet
    (Prog.uses_perform ⟨by simp [Op.target], fun file' hfile' hw => ?_⟩) h) fun _ w₁ h₁ =>
      tries_keeps_writeFile h₁ (houtputs file hfile) hb
  rw [Op.writes, not_within_output hfile' hsub] at hw
  cases hw

/-- The installer settles on credentials, and all it writes belongs to them. -/
theorem createInstallationIso_keeps (s : Spec) (ho : OwnDir cd (getClusterConfigDir ns uid) w)
    (htarget : ∀ draw fetched, IdentityKept E cd w →
      Redraws E cd (getClusterConfigDir ns uid) w .drawAssets draw →
      resolve E (w.files (getClusterConfigDir ns uid)) draw = .ok fetched →
      ∃ t, FitsIdentity E cd t w ∧ Toward (getClusterConfigDir ns uid) t w ∧ Makes E t fetched) :
    Tries (Keeping E cd (getClusterConfigDir ns uid))
      (createInstallationIso E s (getClusterConfigDir ns uid))
      (fun _ w' => ∃ t, Building E cd (getClusterConfigDir ns uid) t w') (fun _ _ => True) w := by
  refine Tries.seq (meets_keeps_read (Prog.uses_perform rfl) tries_loadDir) ?_
  rintro _ w ⟨rfl, rfl⟩
  refine Tries.seq (Q := fun draw w' => w' = w ∧ IdentityKept E cd w ∧
    Redraws E cd (getClusterConfigDir ns uid) w .drawAssets draw) (Tries.lift ?_) ?_
  · refine meets_call fun c r w' hc hok => ⟨keeps_read rfl c r w' hc hok, meets_ret.2 ?_⟩
    cases hc
    exact ⟨rfl, hok.1, hok.2.draws⟩
  rintro draw w ⟨rfl, hI, hdraw⟩
  refine Tries.seq (Q := fun fetched w' => ∃ t, Building E cd (getClusterConfigDir ns uid) t w' ∧
    Makes E t fetched) (tries_liftExcept.2 ?_) ?_
  · cases hresolve : resolve E (w.files (getClusterConfigDir ns uid)) draw with
    | error e => trivial
    | ok fetched =>
      obtain ⟨t, hfits, htoward, hmakes⟩ := htarget draw fetched hI hdraw hresolve
      exact ⟨t, ⟨ho, hI.secrets, hfits, htoward⟩, hmakes⟩
  rintro fetched w₁ ⟨t, h₁, hmakes⟩
  refine Tries.seq (fetchAndPersist_keeps ?_ (fun _ h => tries_keeps_writeIso h hmakes.manifest) h₁)
    fun _ w₂ h₂ => ?_
  · exact uses_bind (saveStateFile_quiet E draw) fun _ =>
      Prog.uses_perform ⟨by simp [Op.target], fun _ _ => id⟩
  refine Tries.seq (Q := fun kubeconfig w' => Building E cd (getClusterConfigDir ns uid) t w' ∧
    kubeconfig = t.kubeconfig) (tries_liftExcept.2 ?_) ?_
  · cases hkubeconfig : fetched.kubeconfig with
    | error e => trivial
    | ok b => exact ⟨h₂, hmakes.kubeconfig b hkubeconfig⟩
  rintro kubeconfig w₃ ⟨h₃, rfl⟩
  -- the three credential files
  have hpersist : ∀ {file : List String} {b : B} {w : World B},
      file ∈ [kubeconfigPath, kubeadminPasswordPath, manifestPath] → (file, b) ∈ t.files →
      Building E cd (getClusterConfigDir ns uid) t w →
      Tries (Keeping E cd (getClusterConfigDir ns uid))
        (fetchAndPersist (saveStateFile E (getClusterConfigDir ns uid) draw)
          (persistToFile ((getClusterConfigDir ns uid).join file) b))
        (fun _ w' => Building E cd (getClusterConfigDir ns uid) t w') (fun _ _ => True) w :=
    fun hfile hb h =>
      fetchAndPersist_keeps (saveStateFile_quiet E draw) (fun _ => persistToFile_keeps hfile hb) h
  refine Tries.seq (hpersist (by simp) (by simp [IdentityData.files]) h₃) fun _ w₄ h₄ => ?_
  refine Tries.seq (hpersist (by simp) (by simp [IdentityData.files, hmakes.password]) h₄)
    fun _ w₅ h₅ => ?_
  refine Tries.mono (hpersist (by simp) (by simp [IdentityData.files, hmakes.manifest]) h₅)
    (fun _ _ h => ⟨t, h⟩) fun _ _ h => h

end Install

/-! ## The credentials of an install -/

section Targets

variable {E : Env B} {inp : BuildInput} {dir : Path} {w₀ w : World B} {draw : Draw}
  {fetched : Fetched B}

/-- A directory without an image, whose files are those of `t` as far as they are there. -/
theorem toward_of_files {t : IdentityData B} (hiso : w.fs (dir.join isoPath) = none)
    (hpassword : ∀ b, w.files dir kubeadminPasswordPath = some b → t.kubeadminPassword = b)
    (hkubeconfig : ∀ b, w.files dir kubeconfigPath = some b → t.kubeconfig = b)
    (hmanifest : ∀ b, w.files dir manifestPath = some b → t.seedReconfig = b) : Toward dir t w := by
  refine toward_of_content hiso fun file hfile b hb => ?_
  rw [← World.files_eq] at hb
  simp only [buildOutputs, List.mem_cons, List.not_mem_nil, or_false] at hfile
  rcases hfile with rfl | rfl | rfl | rfl
  · simp [World.files, hiso] at hb
  · simp [IdentityData.files, hpassword b hb]
  · simp [IdentityData.files, hkubeconfig b hb]
  · simp [IdentityData.files, hmanifest b hb]

/-- A first install makes new credentials. -/
theorem FirstReady.target (hE : E.Lawful) (h : FirstReady E inp dir w₀ w)
    (hdraw : Redraws E inp.cdKey dir w .drawAssets draw)
    (hok : resolve E (w.files dir) draw = .ok fetched) :
    ∃ t, FitsIdentity E inp.cdKey t w ∧ Toward dir t w ∧ Makes E t fetched := by
  obtain ⟨ic, ibc, manifests, -, -, hsnap⟩ := h.found
  obtain rfl := resolve_first hsnap hok
  refine ⟨⟨E.generateKubeconfig ic draw, E.ofString draw.password,
    E.marshalSeed (generateClusterConfiguration E ic ibc draw)⟩, ⟨⟨?_, ?_, ?_, ?_⟩, ?_⟩, ?_, ?_⟩
  · exact ⟨draw.password, draw.salt, _, rfl, hE.unmarshalSeed_marshalSeed _, rfl⟩
  · exact hE.generateKubeconfig_nonempty ..
  · exact hE.ofString_nonempty _ hdraw.1
  · exact hE.marshalSeed_nonempty _
  · intro id hid
    rw [identity_of_framed h.framed, h.identity] at hid
    cases hid
  · -- none of the files is there yet
    refine toward_of_files h.noImage (fun b hb => ?_) (fun b hb => ?_) fun b hb => ?_
    · simp [hsnap.password] at hb
    · simp [hsnap.kubeconfig] at hb
    · simp [hsnap.manifest] at hb
  · refine ⟨rfl, rfl, fun b hb => ?_⟩
    obtain ⟨onDisk, -, hb⟩ := exists_of_bind_eq_ok hb
    exact (Except.ok.inj hb).symm

/-- The hash that goes into the new manifest is the stored one. -/
theorem hashOf_merge (hE : E.Lawful) {password seed : B} {config secret : SeedReconfiguration}
    (h : HashOf E password seed) (hsecret : E.unmarshalSeed seed = some secret) :
    HashOf E password (E.marshalSeed (mergeIdentity config secret)) := by
  obtain ⟨pw, salt, s, hpw, hs, hhash⟩ := h
  obtain rfl : secret = s := Option.some.inj (hsecret.symm.trans hs)
  exact ⟨pw, salt, _, hpw, hE.unmarshalSeed_marshalSeed _, hhash⟩

theorem sameCrypto_merge (hE : E.Lawful) {seed : B} {config secret : SeedReconfiguration}
    (hsecret : E.unmarshalSeed seed = some secret) :
    SameCrypto E seed (E.marshalSeed (mergeIdentity config secret)) :=
  ⟨secret, _, hsecret, hE.unmarshalSeed_marshalSeed _, rfl, rfl⟩

/-- A reinstall goes on with the stored credentials, if the installer draws the stored password. -/
theorem ReinstallReady.target (hE : E.Lawful) (h : ReinstallReady E inp dir w₀ w)
    (hI : IdentityKept E inp.cdKey w) (hdraw : Redraws E inp.cdKey dir w .drawAssets draw)
    (hok : resolve E (w.files dir) draw = .ok fetched) :
    ∃ t, FitsIdentity E inp.cdKey t w ∧ Toward dir t w ∧ Makes E t fetched := by
  obtain ⟨id, ic, ibc, manifests, draw', secret, hid, -, -, hsecret, hsnap⟩ := h.found
  rw [← identity_of_framed h.framed] at hid
  obtain rfl := resolve_reinstall hE hsnap hok
  obtain ⟨hkubeconfig, hpassword, -⟩ := identity_eq_some.1 hid
  have hhash := hI.secrets.hash hid
  have hmanifest : (w.fs (dir.join manifestPath)).isSome = true := by
    obtain ⟨e, he, -⟩ := Option.bind_eq_some_iff.1 hsnap.manifest
    rw [he]
    rfl
  refine ⟨⟨id.kubeconfig, id.kubeadminPassword, _⟩, ⟨⟨?_, ?_, ?_, ?_⟩, ?_⟩, ?_, ⟨rfl, ?_, ?_⟩⟩
  · exact hashOf_merge hE hhash hsecret
  · exact nonempty_of_payload hkubeconfig
  · exact nonempty_of_payload hpassword
  · exact hE.marshalSeed_nonempty _
  · intro id' hid'
    obtain rfl : id = id' := Option.some.inj (hid.symm.trans hid')
    exact ⟨rfl, rfl, sameCrypto_merge hE hsecret⟩
  · -- the reinstall data
    refine toward_of_files h.noImage (fun b hb => ?_) (fun b hb => ?_) fun b hb => ?_
    · exact Option.some.inj (hsnap.password.symm.trans hb)
    · exact Option.some.inj (hsnap.kubeconfig.symm.trans hb)
    · exact Option.some.inj (hsnap.manifest.symm.trans hb)
  · exact hdraw.2 hmanifest id hid
  · exact fun b hb => fetchKubeconfig_kept hsnap hb

end Targets

/-! ## The secrets -/

/-- The payload of one secret is `b` now, and the others are as before. -/
structure PayloadStored (E : Env B) (kind : IdentitySecret) (cd : NamespacedName) (b : B)
    (w w' : World B) : Prop where
  payload : w'.payload E kind cd = some b
  others : ∀ kind' ∈ identitySecrets, kind' ≠ kind → w'.payload E kind' cd = w.payload E kind' cd

section Stores

variable {E : Env B} {cd : NamespacedName} {kind : IdentitySecret} {uid : String} {b : B}
  {t : IdentityData B} {dir : Path} {w w' : World B}

/-- The payload and the other secrets decide. -/
theorem PayloadStored.of_secrets (hkind : kind ∈ identitySecrets) (hb : E.isEmpty b = false)
    (hvalid : ExistsAndValid kind cd b w')
    (hothers : ∀ k, k ≠ kind.key cd → w'.secrets k = w.secrets k) :
    PayloadStored E kind cd b w w' := by
  refine ⟨payload_of_valid hvalid hb,
    fun kind' hkind' hne => payload_of_eq (hothers _ fun heq => ?_)⟩
  exact hne (IdentitySecret.key_inj hkind' hkind heq).1

theorem payloadStored_set {s : Secret B} (hkind : kind ∈ identitySecrets) (hb : E.isEmpty b = false)
    (hs : FullyManaged kind cd uid b s) :
    PayloadStored E kind cd b w (w.setSecret (kind.key cd) s) :=
  .of_secrets hkind hb ⟨s, Function.update_self .., hs.isCached, hs.payload⟩
    fun _ hk => Function.update_of_ne hk ..

theorem Ensures.payloadStored (h : Ensures kind cd uid b w w') (hkind : kind ∈ identitySecrets)
    (hb : E.isEmpty b = false) : PayloadStored E kind cd b w w' := by
  refine .of_secrets hkind hb h.valid ?_
  cases h with
  | kept _ heq => exact fun _ _ => by rw [heq]
  | written _ _ hothers => exact hothers

theorem identity_none_of_seed (h : w.payload E seedReconfigurationSecret cd = none) :
    w.identity E cd = none := by
  cases hid : w.identity E cd with
  | none => rfl
  | some id =>
    rw [(identity_eq_some.1 hid).2.2] at h
    cases h

/-- Storing the stored kubeconfig or password again, or the first one, does not change the identity:
there is none without a seed reconfiguration. -/
theorem PayloadStored.same (h : PayloadStored E kind cd b w w') (hs : SecretsKept E cd w)
    (hkind : kind ≠ seedReconfigurationSecret)
    (hb : ∀ id, w.identity E cd = some id → w.payload E kind cd = some b) :
    w'.payload E seedReconfigurationSecret cd = w.payload E seedReconfigurationSecret cd ∧
      w'.identity E cd = w.identity E cd := by
  have hseed := h.others seedReconfigurationSecret (by simp [identitySecrets]) (Ne.symm hkind)
  refine ⟨hseed, ?_⟩
  rcases hs with hnone | ⟨id, hid, -⟩
  · rw [identity_none_of_seed hnone, identity_none_of_seed (hseed.trans hnone)]
  · refine identity_of_payloads fun kind' hkind' => ?_
    by_cases heq : kind' = kind
    · rw [heq, h.payload, hb id hid]
    · exact h.others kind' hkind' heq

/-- With the seed reconfiguration the identity is complete. -/
theorem PayloadStored.complete
    (h : PayloadStored E seedReconfigurationSecret cd t.seedReconfig w w')
    (hpassword : w.payload E adminPasswordSecret cd = some t.kubeadminPassword)
    (hkubeconfig : w.payload E kubeconfigSecret cd = some t.kubeconfig) :
    w'.identity E cd = some t := by
  refine identity_eq_some.2 ⟨?_, ?_, h.payload⟩
  · rw [h.others _ (by simp [identitySecrets]) fun heq => kubeconfig_ne_seed cd cd (by rw [heq])]
    exact hkubeconfig
  · rw [h.others _ (by simp [identitySecrets]) fun heq => adminPassword_ne_seed cd cd (by rw [heq])]
    exact hpassword

/-- One of the other two payloads is stored. -/
theorem Building.stored (h : Building E cd dir t w) (hkind : kind ≠ seedReconfigurationSecret)
    (hb : ∀ id, w.identity E cd = some id → w.payload E kind cd = some b)
    (hstored : PayloadStored E kind cd b w w') (hicis : w'.icis = w.icis) (hfs : w'.fs = w.fs) :
    Building E cd dir t w' where
  own := h.own.of_icis hicis
  secrets := h.secrets.of_eq (hstored.same h.secrets hkind hb).1 (hstored.same h.secrets hkind hb).2
  fits := h.fits.of_eq (hstored.same h.secrets hkind hb).2
  toward file hfile e he := h.toward file hfile e (hfs ▸ he)

/-- The seed reconfiguration is stored. -/
theorem Building.completed (h : Building E cd dir t w) (hid : w'.identity E cd = some t)
    (hicis : w'.icis = w.icis) (hfs : w'.fs = w.fs) : Building E cd dir t w' where
  own := h.own.of_icis hicis
  secrets := .inr ⟨t, hid, h.fits.storable.hash⟩
  fits := by
    refine ⟨h.fits.storable, fun id hid' => ?_⟩
    obtain rfl : t = id := Option.some.inj (hid.symm.trans hid')
    exact .refl h.fits.storable.hash
  toward file hfile e he := h.toward file hfile e (hfs ▸ he)

end Stores

section Ensure

variable [DecidableEq B] {E : Env B} {cd : NamespacedName} {kind : IdentitySecret} {uid : String}
  {file : List String} {b : B} {t : IdentityData B} {dir : Path} {w w' : World B}

omit [DecidableEq B] in
/-- A secret is stored with one call or the other, as a whole or not at all. -/
theorem keeps_store {s : Secret B} {key : NamespacedName}
    (hset : IdentityKept E cd w → Preserves E cd w (w.setSecret key s)) :
    Keeps E cd dir w (.createSecret key s) ∧ Keeps E cd dir w (.updateSecret key s) := by
  have hsame : IdentityKept E cd w → Preserves E cd w w := fun hI =>
    ⟨hI, fun id hid => ⟨id, hid, .refl (hI.secrets.hash hid)⟩⟩
  constructor
  · rintro c r w' hc ⟨hI, -⟩
    obtain rfl | ⟨rfl, -⟩ := answer_createSecret hc
    · exact hset hI
    · exact hsame hI
  · rintro c r w' hc ⟨hI, -⟩
    obtain rfl | ⟨rfl, -⟩ := answer_updateSecret hc
    · exact hset hI
    · exact hsame hI

/-- The password or the kubeconfig is copied into its secret. -/
theorem ensureSecret_keeps (hmem : kind ∈ identitySecrets)
    (hkind : kind ≠ seedReconfigurationSecret) (hb : E.isEmpty b = false)
    (hfile : ∀ b', w.fs (dir.join file) = some (.file b') → b' = b)
    (hsame : ∀ id, w.identity E cd = some id → w.payload E kind cd = some b)
    (h : Building E cd dir t w) :
    Tries (Keeping E cd dir) (ensureSecret E kind cd uid (dir.join file))
      (fun _ w' => Building E cd dir t w' ∧ PayloadStored E kind cd b w w')
      (fun _ _ => True) w := by
  have hruns : Tries (Keeping E cd dir) (ensureSecret E kind cd uid (dir.join file))
      (fun _ w' => ∃ b, w.fs (dir.join file) = some (.file b) ∧ Ensures kind cd uid b w w')
      (fun _ _ => True) w := by
    refine ensureSecret_runs E kind cd uid (dir.join file) (fun _ => keeps_read) ?_
    intro b' s hb' hs
    obtain rfl := hfile b' hb'
    have hstored : PayloadStored E kind cd b' w (w.setSecret (kind.key cd) s) :=
      payloadStored_set hmem hb hs
    have hnext := h.stored hkind hsame hstored rfl rfl
    exact keeps_store fun hI =>
      .of_same hI h.own rfl hnext.secrets (hstored.same h.secrets hkind hsame).2 hnext.dirKept
  have hframed : Meets (Alone fun w op r w' => IdentityKept E cd w ∧ Steady E cd dir w op r w')
      (ensureSecret E kind cd uid (dir.join file)).run
      (fun _ w' => Framed [.nothing, .secret] w w') w := by
    refine (meets_framed (ensureSecret_uses ?_ E hmem cd uid _ ?_)).guar_mono
      fun _ _ _ _ _ => trivial
    · exact fun op hop => by simp [hop]
    · exact fun op hop => by simp [hop.target]
  refine (meets_alone hruns hframed).mono ?_
  rintro (e | _) w' ⟨hout, hframe⟩
  · trivial
  · obtain ⟨b', hb', hensures⟩ := hout
    obtain rfl := hfile b' hb'
    have hstored := hensures.payloadStored hmem hb
    exact ⟨h.stored hkind hsame hstored (hframe.icis (by decide)) hensures.fs, hstored⟩

/-- The seed reconfiguration is copied into its secret, after the other two. -/
theorem ensureSeed_keeps (h : Building E cd dir t w)
    (hpassword : w.payload E adminPasswordSecret cd = some t.kubeadminPassword)
    (hkubeconfig : w.payload E kubeconfigSecret cd = some t.kubeconfig) :
    Tries (Keeping E cd dir) (ensureSecret E seedReconfigurationSecret cd uid
      (dir.join manifestPath)) (fun _ _ => True) (fun _ _ => True) w := by
  refine Tries.mono (ensureSecret_runs E _ cd uid (dir.join manifestPath) (fun _ => keeps_read) ?_)
    (fun _ _ _ => trivial) fun _ _ h => h
  intro b s hb hs
  obtain rfl : b = t.seedReconfig := h.toward.manifest hb
  have hstored : PayloadStored E seedReconfigurationSecret cd t.seedReconfig w
      (w.setSecret (seedReconfigurationSecret.key cd) s) :=
    payloadStored_set (by simp [identitySecrets]) h.fits.storable.seedReconfig hs
  have hid := hstored.complete hpassword hkubeconfig
  have hnext := h.completed hid rfl rfl
  refine keeps_store fun hI => ⟨hI.of_own h.own rfl hnext.secrets hnext.dirKept, fun id hid' => ?_⟩
  exact ⟨t, hid, h.fits.agrees id hid'⟩

theorem ensureCreds_keeps (h : Building E cd dir t w) :
    Tries (Keeping E cd dir) (ensureCreds E cd uid dir) (fun _ _ => True) (fun _ _ => True) w := by
  have hpassword : adminPasswordSecret ≠ seedReconfigurationSecret := fun heq =>
    adminPassword_ne_seed cd cd (by rw [heq])
  have hkubeconfig : kubeconfigSecret ≠ seedReconfigurationSecret := fun heq =>
    kubeconfig_ne_seed cd cd (by rw [heq])
  have hne : adminPasswordSecret ≠ kubeconfigSecret := fun heq =>
    adminPassword_ne_kubeconfig cd cd (by rw [heq])
  refine Tries.seq (tries_wrap (ensureSecret_keeps (by simp [identitySecrets]) hpassword
    h.fits.storable.kubeadminPassword (fun _ => h.toward.password) (fun id hid => ?_) h)) ?_
  · rw [(identity_eq_some.1 hid).2.1, (h.fits.agrees id hid).kubeadminPassword]
  rintro _ w₁ ⟨h₁, hstored₁⟩
  refine Tries.seq (tries_wrap (ensureSecret_keeps (by simp [identitySecrets]) hkubeconfig
    h₁.fits.storable.kubeconfig (fun _ => h₁.toward.kubeconfig) (fun id hid => ?_) h₁)) ?_
  · rw [(identity_eq_some.1 hid).1, (h₁.fits.agrees id hid).kubeconfig]
  rintro _ w₂ ⟨h₂, hstored₂⟩
  refine tries_wrap (ensureSeed_keeps h₂ ?_ hstored₂.payload)
  rw [hstored₂.others _ (by simp [identitySecrets]) hne]
  exact hstored₁.payload

end Ensure

/-! ## The build -/

section Build

variable [DecidableEq B] {E : Env B} {inp : BuildInput} {cd : NamespacedName} {ns uid : String}
  {w : World B}

omit [DecidableEq B] in
/-- A build stores the secrets of its own cluster deployment. -/
theorem secret_of_store {op : Op B} {c : Choice B} {r : Resp op} {w' : World B} {cdUID : String}
    {k : NamespacedName} (h : StoresSecret E cd cdUID op) (hc : answer op c w = (r, w'))
    (hk : ∀ kind ∈ identitySecrets, kind.key cd ≠ k) : w'.secrets k = w.secrets k := by
  cases h with
  | create hkind =>
    obtain rfl | ⟨rfl, -⟩ := answer_createSecret hc
    · exact Function.update_of_ne (Ne.symm (hk _ hkind)) ..
    · rfl
  | update hkind =>
    obtain rfl | ⟨rfl, -⟩ := answer_updateSecret hc
    · exact Function.update_of_ne (Ne.symm (hk _ hkind)) ..
    · rfl

omit [DecidableEq B] in
theorem keeps_removeAll {dir p : Path} : Keeps E cd dir w (.removeAll p) := by
  rintro c r w' hc ⟨hI, -⟩
  exact (bystands_of_file hI.uids hc (by simp [Op.target]) fun _ _ _ _ _ _ => id).preserves hI

theorem finishBuild_keeps (ho : OwnDir inp.cdKey (getClusterConfigDir ns uid) w)
    (htarget : ∀ draw fetched, IdentityKept E inp.cdKey w →
      Redraws E inp.cdKey (getClusterConfigDir ns uid) w .drawAssets draw →
      resolve E (w.files (getClusterConfigDir ns uid)) draw = .ok fetched →
      ∃ t, FitsIdentity E inp.cdKey t w ∧ Toward (getClusterConfigDir ns uid) t w ∧
        Makes E t fetched) :
    Tries (Keeping E inp.cdKey (getClusterConfigDir ns uid))
      (finishBuild E inp (getClusterConfigDir ns uid)) (fun _ _ => True) (fun _ _ => True) w := by
  refine Tries.seq (tries_wrap (createInstallationIso_keeps inp.spec ho htarget)) ?_
  rintro _ w₁ ⟨t, h₁⟩
  exact ensureCreds_keeps h₁

theorem rebuild_keeps (hE : E.Lawful) (ho : OwnDir inp.cdKey (getClusterConfigDir ns uid) w) :
    Tries (Keeping E inp.cdKey (getClusterConfigDir ns uid))
      (rebuild E inp (getClusterConfigDir ns uid)) (fun _ _ => True) (fun _ _ => True) w := by
  refine rebuild_runs (Q := fun _ => True) ?_ hE (fun _ _ _ hok => hok.2.removal rfl)
    keeps_removeAll (fun _ _ => keeps_removeAll) (fun _ _ _ h => h) ?_ ?_
  · -- until the installer runs there is no image
    rintro w₁ op h₁ hop c r w₂ hc ⟨hI, -⟩
    have hframe : Framed [.nothing, .file] w₁ w₂ :=
      (answer_framed hc).mono (by simpa using hop.target)
    exact .of_files hI (ho.of_icis (h₁.framed.icis (by decide))) (hframe.mono (by simp))
      (.inl ⟨isoPath, by decide, (h₁.step hop hc).noImage⟩)
  · exact fun w₁ h₁ => finishBuild_keeps (ho.of_icis (h₁.framed.icis (by decide)))
      fun draw fetched _ hdraw hok => h₁.target hE hdraw hok
  · exact fun w₁ h₁ => finishBuild_keeps (ho.of_icis (h₁.framed.icis (by decide)))
      fun draw fetched hI hdraw hok => h₁.target hE hI hdraw hok

theorem buildImage_keeps (hE : E.Lawful) (ho : OwnDir inp.cdKey (getClusterConfigDir ns uid) w) :
    Tries (Keeping E inp.cdKey (getClusterConfigDir ns uid))
      (buildImage E inp (getClusterConfigDir ns uid)) (fun _ _ => True) (fun _ _ => True) w := by
  refine Tries.seq (Tries.lift (meets_keeps_read (verifyIsoAndAuthExists_uses (fun _ h => h) _)
    (verifyIsoAndAuthExists_spec _))) ?_
  rintro (_ | _) _ ⟨rfl, hexists⟩
  · exact rebuild_keeps hE ho
  · -- all outputs are there, so they fit what is stored
    refine Meets.given (I := IdentityKept E inp.cdKey) nofun (fun _ _ _ hok => hok.1) fun hI => ?_
    rcases hI.dirKept ho with ⟨file, hfile, hnone⟩ | ⟨t, hfits, htoward⟩
    · have hsome := hexists rfl file hfile
      rw [hnone] at hsome
      cases hsome
    · exact ensureCreds_keeps ⟨ho, hI.secrets, hfits, htoward⟩

/-- A build for the cluster deployment. -/
theorem writeInputData_keeps (hE : E.Lawful)
    (ho : OwnDir inp.cdKey (getClusterConfigDir inp.ns uid) w) :
    Meets (Keeping E inp.cdKey (getClusterConfigDir inp.ns uid)) (writeInputData E inp uid).run
      (fun _ _ => True) w := by
  refine Meets.mono (writeInputData_runs (Q := fun _ => True) ?_ fun w₁ h₁ =>
    buildImage_keeps hE (ho.of_icis (h₁.framed.icis (by decide)))) fun _ _ _ => trivial
  rintro w₁ op h₁ hop c r w₂ hc ⟨hI, -⟩
  have htarget : op.target ∈ [.nothing, .file, .iso] := List.mem_append_left [Target.iso] hop.target
  exact (bystands_of_file hI.uids hc htarget
    fun _ _ _ _ _ hfile => hop.not_writes_output hfile).preserves hI

/-- A build for another cluster deployment. -/
theorem writeInputData_elsewhere {ok : World B → (op : Op B) → Resp op → World B → Prop}
    (hok : ∀ w op r w', ok w op r w' → IdentityKept E cd w) (hne : inp.cdKey ≠ cd)
    (hdir : ∀ k ici, w.icis k = some ici → Refers cd k ici → ¬(k.ns = inp.ns ∧ ici.uid = uid)) :
    Meets (Running ok fun w _ _ w' => Preserves E cd w w') (writeInputData E inp uid).run
      (fun _ _ => True) w := by
  have huses := (writeInputData_outputs inp uid).and (writeInputData_stores E inp uid)
  refine meets_beside huses ?_ ?_
  · rintro op ⟨-, hop | hop⟩
    · exact ne_of_mem_of_not_mem hop (by decide)
    · exact ne_of_eq_of_ne hop.target (by decide)
  rintro w₁ op ⟨houtputs, hop⟩ hicis c r w₂ hc ho
  have hI := hok w₁ op r w₂ ho
  rcases hop with hop | hop
  · refine (bystands_of_file hI.uids hc hop fun k ici hk href file hfile hw => ?_).preserves hI
    exact hdir k ici (hicis ▸ hk) href (houtputs _ _ file hfile hw)
  · have hframe : Framed [.secret] w₁ w₂ := (answer_framed hc).mono (by simp [hop.target])
    refine (Bystands.of_icis hI.uids (hframe.icis (by decide)) (fun kind hkind => ?_)
      fun k ici _ _ file _ => .inl (by rw [hframe.fs (by decide) (by decide)])).preserves hI
    exact payload_of_eq (secret_of_store hop hc fun kind' hkind' heq =>
      hne (IdentitySecret.key_inj hkind' hkind heq).2)

end Build

end ImageBasedInstall

import ImageBasedInstall.Verify.Boot
import ImageBasedInstall.Verify.Images

/-!
# First install and reinstall

The two ways of a build give the same cluster configuration up to the identity, and the same extra
manifests. They disagree on the image digest mirror set: the installer makes it from an
`install-config.yaml` in the work directory, and in a reinstall that file lies in the temp
directory.
-/

namespace ImageBasedInstall

open Interactive Installer

variable {B : Type}

/-! ## The image of a build -/

section Image

variable {ok : World B → (op : Op B) → Resp op → World B → Prop} {E : Env B} {inp : BuildInput}
  {ns uid : String} {w₀ w w' : World B}

/-- An entry that is neither written nor removed. -/
theorem entry_kept {op : Op B} {c : Choice B} {r : Resp op} {p : Path} {e : Entry B}
    (hwrites : ¬op.writes p) (hkeeps : op.keepsFiles) (hc : answer op c w = (r, w'))
    (h : w.fs p = some e) : w'.fs p = some e := by
  rcases kept_or_gone hc hwrites with hk | hk
  · exact hk.trans h
  · have hsome := isSome_of_keepsFiles hkeeps hc (h ▸ rfl : (w.fs p).isSome = true)
    rw [hk] at hsome
    cases hsome

theorem tries_entry_kept {α : Type} {x : Act B α} {p : Path} {e : Entry B}
    (hx : x.run.Uses fun op => ¬op.writes p ∧ op.keepsFiles) (h : w.fs p = some e) :
    Tries (Alone ok) x (fun _ w' => w'.fs p = some e) (fun _ _ => True) w := by
  refine Meets.mono (Meets.of_uses (I := fun w' => w'.fs p = some e) hx (fun _ _ h hr => hr ▸ h) ?_
    h) ?_
  · rintro op w₁ r w₂ hop hI ⟨⟨c, hc⟩, -⟩
    exact ⟨trivial, entry_kept hop.1 hop.2 hc hI⟩
  · intro r w' h
    cases r with
    | ok a => exact h
    | error e => trivial

/-- The three assets after the image leave it alone. -/
theorem persist_keepsImage (E : Env B) (draw : Draw) {elems : List String}
    (helems : elems ∈ [kubeconfigPath, kubeadminPasswordPath, manifestPath]) (content : B) :
    (fetchAndPersist (saveStateFile E (getClusterConfigDir ns uid) draw)
      (persistToFile ((getClusterConfigDir ns uid).join elems) content)).run.Uses
      fun op => ¬op.writes ((getClusterConfigDir ns uid).join isoPath) ∧ op.keepsFiles := by
  have hne : ∀ elems ∈ [kubeconfigPath, kubeadminPasswordPath, manifestPath], isoPath ≠ elems := by
    decide
  obtain ⟨sub, hsub, heq⟩ := outputDir_eq (getClusterConfigDir ns uid) elems helems
  refine fetchAndPersist_uses (Prog.uses_perform ⟨output_ne_scratch (by decide) (by decide),
    trivial⟩) ?_
  unfold persistToFile
  rw [heq]
  refine uses_bind (Prog.uses_perform ⟨?_, trivial⟩) fun _ =>
    Prog.uses_perform ⟨fun h => ?_, trivial⟩
  · rw [Op.writes, not_within_output (by decide) hsub]
    exact Bool.false_ne_true
  · exact hne elems helems (workDir_join_inj h).2.2

/-- The installer leaves the image it made of the directory. -/
theorem createInstallationIso_image (E : Env B) (s : Spec) :
    Tries (Alone ok) (createInstallationIso E s (getClusterConfigDir ns uid))
      (fun _ w' => ∃ draw fetched,
        resolve E (w.files (getClusterConfigDir ns uid)) draw = .ok fetched ∧
        w'.fs ((getClusterConfigDir ns uid).join isoPath) = some (.iso fetched.image s))
      (fun _ _ => True) w := by
  refine Tries.seq tries_loadDir ?_
  rintro _ w ⟨rfl, rfl⟩
  refine Tries.seq (tries_true _) fun draw _ _ => ?_
  refine Tries.seq (Q := fun fetched _ =>
    resolve E (w.files (getClusterConfigDir ns uid)) draw = .ok fetched) (tries_liftExcept.2 ?_) ?_
  · cases resolve E (w.files (getClusterConfigDir ns uid)) draw with
    | error e => trivial
    | ok fetched => rfl
  intro fetched w₁ hfetched
  refine Tries.seq (Q := fun _ w' => w'.fs ((getClusterConfigDir ns uid).join isoPath) =
    some (.iso fetched.image s)) ?_ fun _ w₂ h₂ => ?_
  · refine Tries.seq (tries_true _) fun err w₂ _ => ?_
    refine Tries.seq (Q := fun _ w' => w'.fs ((getClusterConfigDir ns uid).join isoPath) =
      some (.iso fetched.image s)) ?_ fun _ w₃ h₃ => tries_entry_kept (uses_liftExcept _) h₃
    refine meets_call fun c r w' hc _ => ⟨trivial, meets_ret.2 ?_⟩
    obtain ⟨rfl, rfl⟩ | ⟨e, rfl, -⟩ := answer_writeIso hc
    · exact Function.update_self ..
    · trivial
  -- the other assets
  refine Tries.seq (tries_entry_kept (uses_liftExcept _) h₂) fun kubeconfig w₃ h₃ => ?_
  refine Tries.seq (tries_entry_kept (persist_keepsImage E draw (by simp) _) h₃) fun _ w₄ h₄ => ?_
  refine Tries.seq (tries_entry_kept (persist_keepsImage E draw (by simp) _) h₄) fun _ w₅ h₅ => ?_
  refine Tries.mono (tries_entry_kept (persist_keepsImage E draw (by simp) _) h₅) ?_ fun _ _ h => h
  exact fun _ w₆ h₆ => ⟨draw, fetched, hfetched, h₆⟩

/-- What an image built from `w₀` holds: the configuration of both config files, with the stored
crypto in a reinstall, and the extra manifests; the mirror set in a first install only. -/
structure MadeFrom (E : Env B) (inp : BuildInput) (w₀ : World B) (ic : InstallConfig)
    (ibc : ImageBasedConfig) (image : IsoImage B) : Prop where
  configs : Configs E inp (inp.sources E w₀) ic ibc
  extraManifests : MapsAreMaps w₀ →
    image.extraManifests = imageManifests ((inp.sources E w₀).manifests E)
  first : w₀.identity E inp.cdKey = none →
    (∃ draw, image.manifest = E.marshalSeed (generateClusterConfiguration E ic ibc draw)) ∧
    image.imageDigestMirrorSet = generateMirrorSet E (some ic)
  reinstall : ∀ idData, w₀.identity E inp.cdKey = some idData →
    (∃ draw secret, image.manifest =
      E.marshalSeed (mergeIdentity (generateClusterConfiguration E ic ibc draw) secret)) ∧
    image.imageDigestMirrorSet = none

/-- The work directory holds an image made from `w₀`. -/
def HoldsImage (E : Env B) (inp : BuildInput) (dir : Path) (w₀ w : World B) : Prop :=
  ∃ image ic ibc, w.fs (dir.join isoPath) = some (.iso image inp.spec) ∧
    MadeFrom E inp w₀ ic ibc image

theorem FirstReady.madeFrom {dir : Path} {draw : Draw} {fetched : Fetched B}
    (h : FirstReady E inp dir w₀ w) (hok : resolve E (w.files dir) draw = .ok fetched) :
    ∃ ic ibc, MadeFrom E inp w₀ ic ibc fetched.image := by
  obtain ⟨ic, ibc, manifests, hconfigs, hmanifests, hsnap⟩ := h.found
  rw [resolve_first hsnap hok]
  refine ⟨ic, ibc, hconfigs, fun hmaps => ?_, fun _ => ⟨⟨draw, rfl⟩, rfl⟩, fun idData hid => ?_⟩
  · rw [← hmanifests hmaps]
  · rw [h.identity] at hid
    cases hid

theorem ReinstallReady.madeFrom (hE : E.Lawful) {dir : Path} {draw : Draw} {fetched : Fetched B}
    (h : ReinstallReady E inp dir w₀ w) (hok : resolve E (w.files dir) draw = .ok fetched) :
    ∃ ic ibc, MadeFrom E inp w₀ ic ibc fetched.image := by
  obtain ⟨idData, ic, ibc, manifests, draw', secret, hid, hconfigs, hmanifests, -, hsnap⟩ := h.found
  rw [resolve_reinstall hE hsnap hok]
  refine ⟨ic, ibc, hconfigs, fun hmaps => ?_, fun hnone => ?_,
    fun _ _ => ⟨⟨draw', secret, rfl⟩, rfl⟩⟩
  · rw [← hmanifests hmaps]
  · rw [hid] at hnone
    cases hnone

variable [DecidableEq B]

theorem finishBuild_image
    (h : ∀ draw fetched, resolve E (w.files (getClusterConfigDir ns uid)) draw = .ok fetched →
      ∃ ic ibc, MadeFrom E inp w₀ ic ibc fetched.image) :
    Tries (Alone ok) (finishBuild E inp (getClusterConfigDir ns uid))
      (fun _ w' => HoldsImage E inp (getClusterConfigDir ns uid) w₀ w') (fun _ _ => True) w := by
  refine Tries.seq (tries_wrap (createInstallationIso_image E inp.spec)) ?_
  rintro _ w₁ ⟨draw, fetched, hfetched, hiso⟩
  obtain ⟨ic, ibc, hmade⟩ := h draw fetched hfetched
  refine Tries.mono (ensureCreds_spec E _ _ _) ?_ fun _ _ h => h
  intro _ w₂ h₂
  exact ⟨fetched.image, ic, ibc, by rw [h₂.1, hiso], hmade⟩

/-- The removal of a work directory leaves nothing of it. -/
def Clears (dir : Path) (_ : World B) (op : Op B) (_ : Resp op) (w' : World B) : Prop :=
  op = .removeAll dir → Cleared dir w'

theorem rebuild_image (hE : E.Lawful) :
    Tries (Alone (Clears (getClusterConfigDir ns uid))) (rebuild E inp (getClusterConfigDir ns uid))
      (fun _ w' => HoldsImage E inp (getClusterConfigDir ns uid) w w') (fun _ _ => True) w := by
  refine rebuild_runs (fun _ _ _ _ => .free) hE (fun _ _ _ h => h rfl) .free (fun _ _ => .free) ?_
    (fun w₁ h₁ => finishBuild_image fun _ _ => h₁.madeFrom)
    fun w₁ h₁ => finishBuild_image fun _ _ => h₁.madeFrom hE
  rintro name w₁ kept ⟨image, ic, ibc, hiso, hmade⟩
  refine ⟨image, ic, ibc, ?_, hmade⟩
  rw [← hiso]
  simp [World.prune, Path.within, Path.join, getClusterConfigDir]

omit [DecidableEq B] in
theorem MadeFrom.of_framed {ic : InstallConfig} {ibc : ImageBasedConfig} {image : IsoImage B}
    (hf : Framed [.nothing, .file] w₀ w) (h : MadeFrom E inp w ic ibc image) :
    MadeFrom E inp w₀ ic ibc image := by
  have hsources : inp.sources E w = inp.sources E w₀ := sources_of_framed hf
  have hidentity : w.identity E inp.cdKey = w₀.identity E inp.cdKey := identity_of_framed hf
  have hmaps : MapsAreMaps w₀ → MapsAreMaps w := fun hmaps key cm hcm =>
    hmaps key cm (hf.configMaps (by decide) ▸ hcm)
  constructor
  · exact hsources ▸ h.configs
  · exact fun hm => hsources ▸ h.extraManifests (hmaps hm)
  · exact fun hid => h.first (hidentity.trans hid)
  · exact fun idData hid => h.reinstall idData (hidentity.trans hid)

/-- A call of `writeInputData` in an incomplete work directory that succeeds has built an image. -/
theorem writeInputData_image (hE : E.Lawful)
    (hmissing : Missing (getClusterConfigDir inp.ns uid) w) :
    Tries (Alone (Clears (getClusterConfigDir inp.ns uid))) (writeInputData E inp uid)
      (fun res w' => res = {} → HoldsImage E inp (getClusterConfigDir inp.ns uid) w w')
      (fun _ _ => True) w := by
  refine writeInputData_runs (fun _ _ _ _ => .free) fun w₁ h₁ => ?_
  refine Tries.seq (Tries.lift (verifyIsoAndAuthExists_spec _)) ?_
  rintro (_ | _) _ ⟨rfl, hexists⟩
  · refine Tries.mono (rebuild_image hE) ?_ fun _ _ h => h
    rintro _ w₂ ⟨image, ic, ibc, hiso, hmade⟩
    exact ⟨image, ic, ibc, hiso, hmade.of_framed h₁.framed⟩
  · obtain ⟨file, hfile, hnone⟩ := h₁.missing hmissing
    have hsome := hexists rfl file hfile
    rw [hnone] at hsome
    cases hsome

end Image

/-! ## Agreement -/

/-- Two images hold the same cluster configuration up to the password hash and the crypto, the same
mirror set and the same extra manifests. -/
structure AgreeButIdentity (E : Env B) (image image' : IsoImage B) : Prop where
  config : ∃ c c', E.unmarshalSeed image.manifest = some c ∧
    E.unmarshalSeed image'.manifest = some c' ∧ mergeIdentity c c' = c'
  imageDigestMirrorSet : image.imageDigestMirrorSet = image'.imageDigestMirrorSet
  extraManifests : image.extraManifests = image'.extraManifests

section Agreement

variable {E : Env B} {inp : BuildInput} {src : Sources} {ic : InstallConfig}
  {ibc : ImageBasedConfig}

/-- A build knows the IDs of its cluster. -/
theorem Configs.ids (h : Configs E inp src ic ibc) : ibc.clusterID ≠ "" ∧ ibc.infraID ≠ "" := by
  have hibc := h.imageBasedConfig
  simp only [Sources.imageBasedConfig, Option.bind_eq_bind, Option.bind_eq_some_iff] at hibc
  obtain ⟨nmstate, -, releaseImage, -, registry, -, config, hconfig, hibc⟩ := hibc
  obtain rfl := Option.some.inj hibc
  unfold Installer.imageBasedConfig at hconfig
  split at hconfig
  · cases hconfig
  · next m _ =>
    split at hconfig
    · cases hconfig
    · next hids =>
      obtain rfl := Option.some.inj hconfig
      rwa [not_or] at hids

/-- The draws of the installer show in the hash and the crypto only. -/
theorem generateClusterConfiguration_agree (E : Env B) (ic : InstallConfig)
    (hids : ibc.clusterID ≠ "" ∧ ibc.infraID ≠ "") (draw draw' : Draw)
    (secret : SeedReconfiguration) :
    mergeIdentity (generateClusterConfiguration E ic ibc draw)
      (mergeIdentity (generateClusterConfiguration E ic ibc draw') secret) =
      mergeIdentity (generateClusterConfiguration E ic ibc draw') secret := by
  simp [mergeIdentity, generateClusterConfiguration, hids]

/-- There is a mirror set exactly if the spec has mirrors. -/
theorem generateMirrorSet_eq_none (h : Configs E inp src ic ibc) :
    generateMirrorSet E (some ic) = none ↔ inp.spec.imageDigestSources.items = [] := by
  have hic := h.installConfig
  simp only [Sources.installConfig, Option.bind_eq_bind, Option.bind_eq_some_iff] at hic
  obtain ⟨psData, -, caBundle, -, nets, -, hic⟩ := hic
  obtain rfl := Option.some.inj hic
  cases hs : inp.spec.imageDigestSources with
  | none => simp [generateMirrorSet, InstallConfig.reloaded, installConfig, hs, Slice.items]
  | some l =>
    cases l with
    | nil => simp [generateMirrorSet, InstallConfig.reloaded, installConfig, hs, Slice.items,
        convertIDMToIDS, Option.filter]
    | cons idm l => simp [generateMirrorSet, InstallConfig.reloaded, installConfig, hs, Slice.items,
        convertIDMToIDS, Option.filter]

/-- Images made from the same sources, in a first install and in a reinstall. -/
theorem MadeFrom.agree_iff (hE : E.Lawful) {w w' : World B} {ic' : InstallConfig}
    {ibc' : ImageBasedConfig} {image image' : IsoImage B} {idData : IdentityData B}
    (hmaps : MapsAreMaps w) (hmaps' : MapsAreMaps w')
    (hsources : inp.sources E w = inp.sources E w')
    (hfirst : w.identity E inp.cdKey = none) (hagain : w'.identity E inp.cdKey = some idData)
    (h : MadeFrom E inp w ic ibc image) (h' : MadeFrom E inp w' ic' ibc' image') :
    AgreeButIdentity E image image' ↔ inp.spec.imageDigestSources.items = [] := by
  have hconfigs := h.configs
  have hconfigs' := h'.configs
  rw [← hsources] at hconfigs'
  obtain rfl : ic = ic' :=
    Option.some.inj (hconfigs.installConfig.symm.trans hconfigs'.installConfig)
  obtain rfl : ibc = ibc' :=
    Option.some.inj (hconfigs.imageBasedConfig.symm.trans hconfigs'.imageBasedConfig)
  obtain ⟨⟨draw, hmanifest⟩, hmirrors⟩ := h.first hfirst
  obtain ⟨⟨draw', secret, hmanifest'⟩, hmirrors'⟩ := h'.reinstall idData hagain
  rw [← generateMirrorSet_eq_none hconfigs, ← hmirrors]
  constructor
  · intro hagree
    exact hagree.imageDigestMirrorSet.trans hmirrors'
  · intro hnone
    refine ⟨⟨_, _, ?_, ?_, generateClusterConfiguration_agree E ic hconfigs.ids draw draw' secret⟩,
      hnone.trans hmirrors'.symm, ?_⟩
    · rw [hmanifest, hE.unmarshalSeed_marshalSeed]
    · rw [hmanifest', hE.unmarshalSeed_marshalSeed]
    · rw [h.extraManifests hmaps, h'.extraManifests hmaps', hsources]

end Agreement

variable [DecidableEq B]

/-- Two successful builds from the same sources, the one without and the other with a stored
identity: their images agree on everything but the identity exactly if the spec has no image digest
mirrors. -/
theorem branches_agree_iff (E : Env B) (hE : E.Lawful) (inp : BuildInput) (uid uid' : String)
    (cs cs' : List (Choice B)) (w w' v v' : World B) (hmaps : MapsAreMaps w)
    (hmaps' : MapsAreMaps w') (hsources : inp.sources E w = inp.sources E w')
    (hfirst : w.identity E inp.cdKey = none) (hagain : (w'.identity E inp.cdKey).isSome = true)
    (hmissing : Missing (getClusterConfigDir inp.ns uid) w)
    (hmissing' : Missing (getClusterConfigDir inp.ns uid') w')
    (hclears : TraceOk answer (Clears (getClusterConfigDir inp.ns uid))
      (writeInputData E inp uid).run cs w)
    (hclears' : TraceOk answer (Clears (getClusterConfigDir inp.ns uid'))
      (writeInputData E inp uid').run cs' w')
    (hexec : (writeInputData E inp uid).run.exec answer cs w = (v, some (.ok {})))
    (hexec' : (writeInputData E inp uid').run.exec answer cs' w' = (v', some (.ok {}))) :
    (∃ image image' spec spec', v.fs (isoFile inp.ns uid) = some (.iso image spec) ∧
      v'.fs (isoFile inp.ns uid') = some (.iso image' spec') ∧ AgreeButIdentity E image image') ↔
      inp.spec.imageDigestSources.items = [] := by
  obtain ⟨idData, hid⟩ := Option.isSome_iff_exists.1 hagain
  have hbuilt := (writeInputData_image hE hmissing).exec cs hclears (congrArg Prod.snd hexec)
  have hbuilt' := (writeInputData_image hE hmissing').exec cs' hclears' (congrArg Prod.snd hexec')
  rw [hexec] at hbuilt
  rw [hexec'] at hbuilt'
  obtain ⟨image, ic, ibc, hiso, hmade⟩ := hbuilt rfl
  obtain ⟨image', ic', ibc', hiso', hmade'⟩ := hbuilt' rfl
  rw [← hmade.agree_iff hE hmaps hmaps' hsources hfirst hid hmade']
  constructor
  · rintro ⟨i, i', s, s', hi, hi', hagree⟩
    cases hi.symm.trans hiso
    cases hi'.symm.trans hiso'
    exact hagree
  · intro hagree
    exact ⟨image, image', _, _, hiso, hiso', hagree⟩

/-! ## A first install and a reinstall -/

section Scenario

/-- A build of the first object, with the mirrors given. -/
def sampleInput (mirrors : Slice ImageDigestMirrors) : BuildInput where
  ns := "spokes"
  spec := { sampleICI.spec with
    clusterMetadata := some ⟨"7d1e", "sno-xxxxx", "", none⟩
    imageDigestSources := mirrors }
  cdKey := ⟨"spokes", "sno"⟩
  cd := ⟨"3b1d", "example.com", "sno", some "pull"⟩
  bmhKey := sampleHost
  bmh := { externallyProvisioned := true, provisioningState := .externallyProvisioned }

def sampleWrite (inp : BuildInput) (w : World Doc) : World Doc × Option (Except Err Result) :=
  (writeInputData Env.symbolic inp "8f2c").run.exec answer instantly w

theorem sampleWrite_done {inp : BuildInput} {w : World Doc} {res : Except Err Result}
    (h : (sampleWrite inp w).2 = some res) :
    (writeInputData Env.symbolic inp "8f2c").run.exec answer instantly w =
      ((sampleWrite inp w).1, some res) :=
  Prod.ext rfl h

/-- The operator is restarted after the first install: its secrets are stored, and the work
directory is empty. -/
def sampleRestart (inp : BuildInput) : World Doc :=
  { sampleWorld with secrets := (sampleWrite inp sampleWorld).1.secrets }

/-- A removal that succeeds clears. -/
theorem clears_of_ok {op : Op Doc} {c : Choice Doc} {w : World Doc} (dir : Path)
    (hc : c.ending = .ok) : Clears dir w op (answer op c w).1 (answer op c w).2 := by
  rintro rfl p hp
  simp [answer, Choice.removal, World.prune, hc, hp]

theorem instantly_clears {α : Type} (p : Program Doc α) (dir : Path) (w : World Doc) :
    TraceOk answer (Clears dir) p instantly w := by
  intro t ht
  have hending : t.choice.ending = .ok := by
    rw [List.eq_of_mem_replicate (trace_choice answer ht)]
  have hclears : Clears dir t.before t.op (answer t.op t.choice t.before).1 _ :=
    clears_of_ok dir hending
  rwa [trace_answer answer ht] at hclears

theorem branches_agree_iff_sample :
    ∃ image image' spec spec',
      (sampleWrite (sampleInput none) sampleWorld).1.fs (isoFile "spokes" "8f2c") =
        some (.iso image spec) ∧
      (sampleWrite (sampleInput none) (sampleRestart (sampleInput none))).1.fs
        (isoFile "spokes" "8f2c") = some (.iso image' spec') ∧
      AgreeButIdentity Env.symbolic image image' := by
  have hfirst : (sampleWrite (sampleInput none) sampleWorld).2 = some (.ok {}) := by decide +kernel
  have hagain : (sampleWrite (sampleInput none) (sampleRestart (sampleInput none))).2 =
      some (.ok {}) := by decide +kernel
  have hsources : (sampleInput none).sources Env.symbolic sampleWorld =
      (sampleInput none).sources Env.symbolic (sampleRestart (sampleInput none)) := by
    decide +kernel
  exact (branches_agree_iff Env.symbolic Env.symbolic_lawful (sampleInput none) "8f2c"
    "8f2c" instantly instantly sampleWorld (sampleRestart (sampleInput none)) _ _
    (fun _ _ h => nomatch h) (fun _ _ h => nomatch h) hsources (by decide +kernel)
    (by decide +kernel) ⟨isoPath, by decide, rfl⟩ ⟨isoPath, by decide, rfl⟩ (instantly_clears _ _ _)
    (instantly_clears _ _ _) (sampleWrite_done hfirst) (sampleWrite_done hagain)).2 rfl

/-- The mirror set of an image. -/
def Entry.mirrorSet : Entry Doc → Option Doc
  | .iso image _ => image.imageDigestMirrorSet
  | _ => none

/-- With a mirror, both builds succeed from the same sources, and their images differ: that of the
reinstall has no mirror set. -/
theorem reinstall_loses_mirrors :
    let inp := sampleInput (some mayContact)
    let first := sampleWrite inp sampleWorld
    let again := sampleWrite inp (sampleRestart inp)
    inp.sources Env.symbolic sampleWorld = inp.sources Env.symbolic (sampleRestart inp) ∧
    sampleWorld.identity Env.symbolic inp.cdKey = none ∧
    ((sampleRestart inp).identity Env.symbolic inp.cdKey).isSome = true ∧
    first.2 = some (.ok {}) ∧ again.2 = some (.ok {}) ∧
    ¬∃ image image' spec spec', first.1.fs (isoFile "spokes" "8f2c") = some (.iso image spec) ∧
      again.1.fs (isoFile "spokes" "8f2c") = some (.iso image' spec') ∧
      AgreeButIdentity Env.symbolic image image' := by
  intro inp first again
  have hruns : inp.sources Env.symbolic sampleWorld = inp.sources Env.symbolic (sampleRestart inp) ∧
      sampleWorld.identity Env.symbolic inp.cdKey = none ∧
      ((sampleRestart inp).identity Env.symbolic inp.cdKey).isSome = true ∧
      first.2 = some (.ok {}) ∧ again.2 = some (.ok {}) := by decide +kernel
  have hmirrors : (first.1.fs (isoFile "spokes" "8f2c")).bind Entry.mirrorSet ≠
      (again.1.fs (isoFile "spokes" "8f2c")).bind Entry.mirrorSet := by decide +kernel
  refine ⟨hruns.1, hruns.2.1, hruns.2.2.1, hruns.2.2.2.1, hruns.2.2.2.2, ?_⟩
  rintro ⟨image, image', spec, spec', hfirst, hagain, hagree⟩
  rw [hfirst, hagain] at hmirrors
  exact hmirrors hagree.imageDigestMirrorSet

end Scenario

end ImageBasedInstall

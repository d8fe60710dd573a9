import ImageBasedInstall.Installer.Symbolic
import ImageBasedInstall.Verify.Files

/-!
# The inputs of a build

The pull secret is checked entry by entry; an `auth` field that is not a string aborts the check.
The extra manifests of several config maps and the operator's own two are written to one directory:
they are layers, and a later one hides the entries of an earlier one that have the same name.
-/

namespace ImageBasedInstall

open Interactive Patch

variable {B : Type}

/-! ## The pull secret -/

section PullSecret

variable {E : Env B} {entry : String × JsonMap} {auths : List (String × JsonMap)}

/-- The pull secret as it is decoded: its `auths`, each a map of fields. -/
def decodePullSecret (E : Env B) (s : String) : Option (List (String × JsonMap)) :=
  (E.parseJson (E.trimSpace s)).bind unmarshalPullSecret

/-- The entry has credentials: base64 of bytes with one colon. -/
def HasCredentials (E : Env B) (entry : String × JsonMap) : Prop :=
  ∃ auth data, entry.2.lookup "auth" = some (.str auth) ∧ E.decodeBase64 auth = some data ∧
    data.count 58 = 1

/-- The `auth` field, if there is one, is a string. -/
def AuthIsString (entry : String × JsonMap) : Prop :=
  ∀ field, entry.2.lookup "auth" = some field → ∃ auth, field = .str auth

/-- The format of a pull secret. -/
def WellFormedPullSecret (E : Env B) (s : String) : Prop :=
  ∃ auths, decodePullSecret E s = some auths ∧ auths ≠ [] ∧ ∀ entry ∈ auths, HasCredentials E entry

/-- The check of one entry. -/
theorem checkAuth_cases (E : Env B) (entry : String × JsonMap) :
    (¬AuthIsString entry ∧ checkAuth E entry = .error .badAssertion) ∨
      (AuthIsString entry ∧
        ∃ errs, checkAuth E entry = .ok errs ∧ (errs = [] ↔ HasCredentials E entry)) := by
  unfold checkAuth AuthIsString HasCredentials
  cases hfield : entry.2.lookup "auth" with
  | none => simp
  | some field =>
    cases field with
    | str auth =>
      cases hdata : E.decodeBase64 auth with
      | none => simp [hdata]
      | some data =>
        by_cases hcount : data.count 58 = 1
        · simp [hdata, hcount]
        · simp [hdata, hcount]
    | null => simp
    | bool b => simp
    | num text => simp
    | arr items => simp
    | obj members => simp

/-- The loop: it aborts, or gathers the errors of all entries. -/
theorem checkAuths_cases (E : Env B) (auths : List (String × JsonMap)) :
    ((∃ entry ∈ auths, ¬AuthIsString entry) ∧ auths.mapM (checkAuth E) = .error .badAssertion) ∨
      ((∀ entry ∈ auths, AuthIsString entry) ∧ ∃ errs, auths.mapM (checkAuth E) = .ok errs ∧
        (errs.flatten = [] ↔ ∀ entry ∈ auths, HasCredentials E entry)) := by
  induction auths with
  | nil => exact .inr ⟨by simp, [], rfl, by simp⟩
  | cons entry auths ih =>
    rw [List.mapM_cons]
    rcases checkAuth_cases E entry with ⟨habort, hentry⟩ | ⟨hstring, errs, hentry, herrs⟩
    · exact .inl ⟨⟨entry, List.mem_cons_self .., habort⟩, by rw [hentry]; rfl⟩
    · rcases ih with ⟨⟨other, hother, habort⟩, hrest⟩ | ⟨hstrings, errs', hrest, herrs'⟩
      · refine .inl ⟨⟨other, List.mem_cons_of_mem _ hother, habort⟩, ?_⟩
        rw [hentry, hrest]
        rfl
      · refine .inr ⟨List.forall_mem_cons.2 ⟨hstring, hstrings⟩, errs :: errs', ?_, ?_⟩
        · rw [hentry, hrest]
          rfl
        · rw [List.flatten_cons, List.append_eq_nil_iff, herrs, herrs', List.forall_mem_cons]

/-- The `auth` fields of the decoded secret are strings. -/
def AuthsAreStrings (E : Env B) (s : String) : Prop :=
  ∀ auths, decodePullSecret E s = some auths → ∀ entry ∈ auths, AuthIsString entry

/-- The validator aborts, accepts or refuses. -/
theorem validatePullSecret_cases (E : Env B) (s : String) :
    (¬AuthsAreStrings E s ∧ validatePullSecret E s = .error .badAssertion) ∨
      (AuthsAreStrings E s ∧ WellFormedPullSecret E s ∧ validatePullSecret E s = .ok ()) ∨
      (AuthsAreStrings E s ∧ ¬WellFormedPullSecret E s ∧
        ∃ text, validatePullSecret E s = .error (.mk text)) := by
  unfold AuthsAreStrings WellFormedPullSecret validatePullSecret
  rw [show (E.parseJson (E.trimSpace s)).bind unmarshalPullSecret = decodePullSecret E s from rfl]
  cases decodePullSecret E s with
  | none => exact .inr (.inr ⟨nofun, by simp, _, rfl⟩)
  | some auths =>
    by_cases hnil : auths = []
    · subst hnil
      exact .inr (.inr ⟨by simp, by simp, _, rfl⟩)
    have hlength : auths.length ≠ 0 := fun h => hnil (List.length_eq_zero_iff.1 h)
    simp only [hlength, if_false, Option.some.injEq, exists_eq_left', forall_eq', ne_eq]
    rcases checkAuths_cases E auths with ⟨⟨entry, hentry, habort⟩, hloop⟩ | ⟨hstrings,
      errs, hloop, herrs⟩
    · rw [hloop]
      exact .inl ⟨fun h => habort (h entry hentry), rfl⟩
    · rw [hloop]
      by_cases hflat : errs.flatten = []
      · exact .inr (.inl ⟨hstrings, ⟨hnil, herrs.1 hflat⟩, by simp [bind, Except.bind, hflat]; rfl⟩)
      · refine .inr (.inr ⟨hstrings, fun h => hflat (herrs.2 h.2), aggregateText errs.flatten, ?_⟩)
        simp [bind, Except.bind, hflat]
        rfl

/-- The validator returns, and accepts exactly the well-formed pull secrets, if and only if no
`auth` field is there that is not a string. -/
theorem validatePullSecret_iff (E : Env B) (s : String) :
    (validatePullSecret E s ≠ .error .badAssertion ∧ validatePullSecret E s ≠ .error .panic ∧
      (validatePullSecret E s = .ok () ↔ WellFormedPullSecret E s)) ↔ AuthsAreStrings E s := by
  rcases validatePullSecret_cases E s with ⟨h, hv⟩ | ⟨h, hformat, hv⟩ | ⟨h, hformat, text, hv⟩
  · simp [hv, h]
  · simp [hv, h, hformat]
  · simp [hv, h, hformat]

/-- A decoder that reads a document with a number in place of the credentials. -/
def numericAuth : Env Doc :=
  { Env.symbolic with
    parseJson := fun _ => some (.obj [("auths", .obj [("quay.io", .obj [("auth", .num "5")])])]) }

theorem numeric_auth_aborts :
    validatePullSecret numericAuth
      "\x7b\"auths\": \x7b\"quay.io\": \x7b\"auth\": 5\x7d\x7d\x7d" = .error .badAssertion := by
  decide

end PullSecret

/-! ## Extra manifests -/

section ExtraManifests

variable {ok : World B → (op : Op B) → Resp op → World B → Prop} {E : Env B} {w w' : World B}
  {dir : Path} {ns : String} {entries : List (String × String)}

/-- The regular files of a directory, by name. -/
def World.filesIn (w : World B) (dir : Path) (name : String) : Option B :=
  w.content (dir.join [name])

/-- The entries of a config map, as files. -/
def manifestLayer (E : Env B) (entries : List (String × String)) (name : String) : Option B :=
  (entries.lookup name).map E.ofString

theorem filesIn_setEntry (w : World B) (dir : Path) (name : String) (b : B) :
    (w.setEntry (dir.join [name]) (some (.file b))).filesIn dir =
      Function.update (w.filesIn dir) name (some b) := by
  funext n
  by_cases hn : n = name
  · subst hn
    simp [World.filesIn]
  · have hpath : dir.join [n] ≠ dir.join [name] := by simpa [Path.join] using hn
    simp [World.filesIn, hn, Function.update_of_ne hpath]

theorem filesIn_mkdirs (w : World B) (dir path : Path) :
    (w.mkdirs path).filesIn dir = w.filesIn dir := by
  funext n
  simp [World.filesIn]

theorem writeManifest_spec (entry : String × String) :
    Tries (Alone ok) (writeManifest E dir entry)
      (fun _ w' => w'.configMaps = w.configMaps ∧
        w'.filesIn dir = Function.update (w.filesIn dir) entry.1 (some (E.ofString entry.2)))
      (fun _ _ => True) w := by
  unfold writeManifest
  split
  · exact Tries.seq (Q := fun _ _ => False) (tries_throw.2 trivial) fun _ _ h => h.elim
  · refine Tries.mono (tries_wrap tries_writeFile) ?_ fun _ _ h => h
    rintro _ _ rfl
    exact ⟨rfl, filesIn_setEntry ..⟩

/-- The files of a config map are written over those that are there. -/
theorem writeManifests_spec (hentries : (entries.map Prod.fst).Nodup) :
    Tries (Alone ok) (entries.forM (writeManifest E dir))
      (fun _ w' => w'.configMaps = w.configMaps ∧
        w'.filesIn dir = fun name => (manifestLayer E entries name).or (w.filesIn dir name))
      (fun _ _ => True) w := by
  refine Tries.forM (I := fun done (w' : World B) => w'.configMaps = w.configMaps ∧
    w'.filesIn dir = fun name => (manifestLayer E done name).or (w.filesIn dir name)) entries
    (fun _ _ _ h hr => hr ▸ h) ?_ ⟨rfl, by simp [manifestLayer]⟩
  rintro done ⟨key, content⟩ rest rfl w₁ ⟨hmaps, hfiles⟩
  refine Tries.mono (writeManifest_spec (key, content)) ?_ fun _ _ h => h
  rintro _ w₂ ⟨hmaps', hfiles'⟩
  refine ⟨hmaps'.trans hmaps, ?_⟩
  rw [hfiles', hfiles]
  funext name
  -- the name of this entry is not among the earlier ones
  have hfresh : done.lookup key = none := by
    rw [List.lookup_eq_none_iff]
    intro kv hkv
    simp only [List.map_append, List.map_cons, List.nodup_append, List.mem_map] at hentries
    have hne := hentries.2.2 kv.1 ⟨kv, hkv, rfl⟩ key (List.mem_cons_self ..)
    simpa using Ne.symm hne
  by_cases hname : name = key
  · subst hname
    simp [manifestLayer, List.lookup_append, hfresh]
  · simp [manifestLayer, List.lookup_append, hname, lookup_cons_of_ne]

/-- A referenced config map, and the order in which its entries are visited. -/
structure Visit where
  name : String
  order : List (String × String) → List (String × String)
  perm : ∀ l, (order l).Perm l

/-- `generateExtraManifests` with the entries of each map visited in some order. -/
def generateExtraManifestsIn (E : Env B) (clusterConfigPath : Path) (ns : String)
    (visits : List Visit) : Act B Unit := do
  let extraManifestsPath := clusterConfigPath.join [extraManifestsDir]
  mkdirAll extraManifestsPath
  (writeFile (extraManifestsPath.join [invokerCMFileName]) E.invokerCM).wrap
    "failed to write invoker config map"
  (writeFile (extraManifestsPath.join [startTimeCMFileName]) E.startTimeCM).wrap
    "failed to write ibi-monitor-cm config map"
  visits.forM fun visit => do
    let cm ← (getConfigMap ⟨ns, visit.name⟩).wrap "failed to get extraManifests config map"
    (visit.order cm.data).forM (writeManifest E extraManifestsPath)

/-- The references of a spec, each map visited in the order it is read in. -/
def visitsOf (s : Spec) : List Visit := s.extraManifestsRefs.items.map fun name => ⟨name, id, .refl⟩

theorem generateExtraManifests_eq (E : Env B) (dir : Path) (ns : String) (s : Spec) :
    generateExtraManifests E dir ns s = generateExtraManifestsIn E dir ns (visitsOf s) := by
  simp only [generateExtraManifests, generateExtraManifestsIn, visitsOf, List.forM_eq_forM,
    List.forM_map]
  rfl

/-- The data of a config map is a map. -/
def MapsAreMaps (w : World B) : Prop :=
  ∀ key cm, w.configMaps key = some cm → (cm.data.map Prod.fst).Nodup

/-- The operator's own manifests. -/
def operatorLayer (E : Env B) : String → Option B :=
  Function.update (Function.update (fun _ => none) invokerCMFileName (some E.invokerCM))
    startTimeCMFileName (some E.startTimeCM)

/-- What is written over what was there: the operator's manifests, then each config map's. -/
def manifestLayers (E : Env B) (dir : Path) (ns : String) (names : List String) (w : World B) :
    List (String → Option B) :=
  w.filesIn dir :: operatorLayer E :: names.map fun name =>
    manifestLayer E (((w.configMaps ⟨ns, name⟩).map ConfigMap.data).getD [])

theorem manifestLayers_concat (E : Env B) (dir : Path) (ns : String) (names : List String)
    (name : String) (w : World B) :
    manifestLayers E dir ns (names ++ [name]) w = manifestLayers E dir ns names w ++
      [manifestLayer E (((w.configMaps ⟨ns, name⟩).map ConfigMap.data).getD [])] := by
  simp [manifestLayers]

theorem generateExtraManifestsIn_spec (hmaps : MapsAreMaps w) (visits : List Visit) :
    Tries (Alone ok) (generateExtraManifestsIn E dir ns visits)
      (fun _ w' => w'.filesIn (dir.join [extraManifestsDir]) =
        overlay (manifestLayers E (dir.join [extraManifestsDir]) ns (visits.map Visit.name) w))
      (fun _ _ => True) w := by
  refine Tries.seq tries_mkdirAll ?_
  rintro _ _ rfl
  refine Tries.seq (tries_wrap tries_writeFile) ?_
  rintro _ _ rfl
  refine Tries.seq (tries_wrap tries_writeFile) ?_
  rintro _ _ rfl
  refine Tries.mono (Tries.forM (I := fun done (w' : World B) => w'.configMaps = w.configMaps ∧
    w'.filesIn (dir.join [extraManifestsDir]) =
      overlay (manifestLayers E (dir.join [extraManifestsDir]) ns (done.map Visit.name) w)) visits
    (fun _ _ _ h hr => hr ▸ h) ?_ ⟨rfl, ?_⟩) (fun _ _ h => h.2) fun _ _ h => h
  · rintro done visit rest - w₁ ⟨hsame, hfiles⟩
    refine Tries.bind (tries_wrap (tries_getConfigMap .free ?_ (fun _ => trivial) fun _ => trivial))
    intro cm hcm
    rw [hsame] at hcm
    have hdata := hmaps _ cm hcm
    have hperm := visit.perm cm.data
    refine Tries.mono (writeManifests_spec ((hperm.map Prod.fst).nodup_iff.2 hdata)) ?_
      fun _ _ h => h
    rintro _ w₂ ⟨hsame', hfiles'⟩
    refine ⟨hsame'.trans hsame, ?_⟩
    have hlayer : manifestLayer E (visit.order cm.data) = manifestLayer E cm.data := by
      funext name
      exact congrArg (Option.map E.ofString) (congrFun (lookup_perm hperm hdata) name)
    rw [hfiles', hfiles, hlayer, List.map_append, List.map_singleton, manifestLayers_concat,
      overlay_concat, hcm]
    rfl
  · funext name
    simp only [filesIn_setEntry, filesIn_mkdirs, manifestLayers, List.map_nil, overlay,
      operatorLayer, List.foldl_cons, List.foldl_nil, Function.update_apply]
    by_cases hstart : name = startTimeCMFileName
    · simp [hstart]
    · by_cases hinvoker : name = invokerCMFileName
      · simp only [if_neg hstart, if_pos hinvoker]
        rfl
      · simp [hstart, hinvoker]

/-- Each content of a referenced config map is in some file, and the operator's two manifests are
its own. -/
structure ManifestsKept (E : Env B) (dir : Path) (ns : String) (names : List String)
    (maps : NamespacedName → Option ConfigMap) (w' : World B) : Prop where
  contents : ∀ name ∈ names, ∀ cm, maps ⟨ns, name⟩ = some cm → ∀ entry ∈ cm.data,
    ∃ file, w'.filesIn dir file = some (E.ofString entry.2)
  invoker : w'.filesIn dir invokerCMFileName = some E.invokerCM
  startTime : w'.filesIn dir startTimeCMFileName = some E.startTimeCM

/-- Another order of visits gives the same files. -/
def OrderIrrelevant (E : Env B) (dir : Path) (ns : String) (names : List String) (w w' : World B) :
    Prop :=
  ∀ visits cs w'', visits.map Visit.name = names →
    (generateExtraManifestsIn E dir ns visits).run.exec answer cs w = (w'', some (.ok ())) →
    w''.filesIn (dir.join [extraManifestsDir]) = w'.filesIn (dir.join [extraManifestsDir])

theorem manifests_written {visits : List Visit} {cs : List (Choice B)} (hmaps : MapsAreMaps w)
    (hexec : (generateExtraManifestsIn E dir ns visits).run.exec answer cs w =
      (w', some (.ok ()))) :
    w'.filesIn (dir.join [extraManifestsDir]) =
      overlay (manifestLayers E (dir.join [extraManifestsDir]) ns (visits.map Visit.name) w) := by
  have hmeets : Tries (Alone fun _ _ _ _ => True) (generateExtraManifestsIn E dir ns visits)
      _ _ w :=
    generateExtraManifestsIn_spec hmaps visits
  have hpost := hmeets.exec cs (traceOk_true cs) (congrArg Prod.snd hexec)
  rw [hexec] at hpost
  exact hpost

/-- On success nothing is lost, in any order of visits, exactly if each content of a referenced
config map stands in a layer at a name that no later layer gives another content, and no layer gives
another content to the operator's two names for good. -/
theorem extraManifests_kept_iff (E : Env B) (dir : Path) (ns : String) (s : Spec) (w w' : World B)
    (hmaps : MapsAreMaps w) (cs : List (Choice B))
    (hexec : (generateExtraManifests E dir ns s).run.exec answer cs w = (w', some (.ok ()))) :
    let manifests := dir.join [extraManifestsDir]
    let names := s.extraManifestsRefs.items
    let layers := manifestLayers E manifests ns names w
    (ManifestsKept E manifests ns names w.configMaps w' ∧ OrderIrrelevant E dir ns names w w') ↔
      (∀ name ∈ names, ∀ cm, w.configMaps ⟨ns, name⟩ = some cm → ∀ entry ∈ cm.data,
        ∃ file, Shows layers file (E.ofString entry.2)) ∧
      Shows layers invokerCMFileName E.invokerCM ∧ Shows layers startTimeCMFileName
        E.startTimeCM := by
  intro manifests names layers
  have hnames : (visitsOf s).map Visit.name = names := by
    simp [visitsOf, names, Function.comp_def]
  rw [generateExtraManifests_eq] at hexec
  have hfiles := manifests_written hmaps hexec
  rw [hnames] at hfiles
  change w'.filesIn manifests = overlay layers at hfiles
  simp only [← overlay_eq_some_iff, ← hfiles]
  constructor
  · rintro ⟨⟨hcontents, hinvoker, hstart⟩, -⟩
    exact ⟨hcontents, hinvoker, hstart⟩
  · rintro ⟨hcontents, hinvoker, hstart⟩
    refine ⟨⟨hcontents, hinvoker, hstart⟩, fun visits cs' w'' hvisits hexec' => ?_⟩
    rw [manifests_written hmaps hexec', hvisits, hfiles]

/-- Two config maps with an entry of the same name, and one with an entry under a reserved name. -/
def clashingMaps : World Doc where
  configMaps k :=
    if k = ⟨"spokes", "first"⟩ then some { data := [("50-config.yaml", "first")] }
    else if k = ⟨"spokes", "second"⟩ then some { data := [("50-config.yaml", "second")] }
    else if k = ⟨"spokes", "reserved"⟩ then some { data := [(startTimeCMFileName, "other")] }
    else none

theorem clashingMaps_maps : MapsAreMaps clashingMaps := by
  intro key cm hcm
  simp only [clashingMaps] at hcm
  split at hcm
  · cases hcm
    decide
  · split at hcm
    · cases hcm
      decide
    · split at hcm
      · cases hcm
        decide
      · cases hcm

/-- The manifests of some of these config maps. -/
def clashingRun (names : List String) : World Doc × Option (Except Err Unit) :=
  (generateExtraManifests Env.symbolic ⟨.data "spokes" "8f2c", []⟩ "spokes"
    { extraManifestsRefs := some names }).run.exec answer (List.replicate 10 {}) clashingMaps

def clashingFiles (names : List String) : String → Option Doc :=
  (clashingRun names).1.filesIn ⟨.data "spokes" "8f2c", [extraManifestsDir]⟩

theorem clashingFiles_eq {names : List String} (hok : (clashingRun names).2 = some (.ok ())) :
    clashingFiles names = overlay (manifestLayers Env.symbolic
      ⟨.data "spokes" "8f2c", [extraManifestsDir]⟩ "spokes" names clashingMaps) := by
  have hnames : (visitsOf { extraManifestsRefs := some names }).map Visit.name = names := by
    simp [visitsOf, Slice.items, Function.comp_def]
  unfold clashingFiles
  unfold clashingRun at hok ⊢
  rw [generateExtraManifests_eq] at hok ⊢
  have hfiles := manifests_written clashingMaps_maps (Prod.ext rfl hok)
  rw [hnames] at hfiles
  exact hfiles

theorem extraManifests_kept_sample :
    (clashingRun ["first"]).2 = some (.ok ()) ∧
      ManifestsKept Env.symbolic ⟨.data "spokes" "8f2c", [extraManifestsDir]⟩ "spokes" ["first"]
        clashingMaps.configMaps (clashingRun ["first"]).1 := by
  have hok : (clashingRun ["first"]).2 = some (.ok ()) := by decide +kernel
  refine ⟨hok, ((extraManifests_kept_iff Env.symbolic ⟨.data "spokes" "8f2c", []⟩ "spokes"
    { extraManifestsRefs := some ["first"] } clashingMaps _ clashingMaps_maps _
    (Prod.ext rfl hok)).2 ?_).1⟩
  simp only [← overlay_eq_some_iff]
  refine ⟨?_, by decide +kernel, by decide +kernel⟩
  intro name hname cm hcm entry hentry
  obtain rfl : name = "first" := List.mem_singleton.1 hname
  obtain rfl : { data := [("50-config.yaml", "first")] } = cm := Option.some.inj hcm
  obtain rfl : entry = ("50-config.yaml", "first") := List.mem_singleton.1 hentry
  exact ⟨"50-config.yaml", by decide +kernel⟩

/-- The manifest of the first map is lost, and the operator's own one under the reserved name. -/
theorem clashing_manifests_lost :
    (clashingRun ["first", "second"]).2 = some (.ok ()) ∧
    (∀ file, clashingFiles ["first", "second"] file ≠ some (.text "first")) ∧
    (clashingRun ["reserved"]).2 = some (.ok ()) ∧
    clashingFiles ["reserved"] startTimeCMFileName ≠ some Env.symbolic.startTimeCM := by
  have hok : (clashingRun ["first", "second"]).2 = some (.ok ()) := by decide +kernel
  refine ⟨hok, fun file => ?_, by decide +kernel, by decide +kernel⟩
  rw [clashingFiles_eq hok]
  by_cases hfile : file = "50-config.yaml"
  · subst hfile
    decide +kernel
  · have hlayers : manifestLayers Env.symbolic ⟨.data "spokes" "8f2c", [extraManifestsDir]⟩ "spokes"
        ["first", "second"] clashingMaps =
        [fun _ => none, operatorLayer Env.symbolic, manifestLayer Env.symbolic
          [("50-config.yaml", "first")], manifestLayer Env.symbolic
            [("50-config.yaml", "second")]] := rfl
    rw [hlayers]
    simp only [overlay, manifestLayer, lookup_cons_of_ne _ hfile, List.foldl_cons, List.foldl_nil,
      operatorLayer, Function.update_apply]
    split_ifs
    · simp [Env.symbolic]
    · simp [Env.symbolic]
    · simp

end ExtraManifests

end ImageBasedInstall

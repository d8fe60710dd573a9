import ImageBasedInstall.Interactive.Projection
import ImageBasedInstall.Verify.Boot
import ImageBasedInstall.Verify.LocalPasses
import ImageBasedInstall.Verify.Regions

/-!
# Objects do not disturb each other

A pass changes only what its object refers to (`pass_touches_own`), and passes over objects that
share nothing do not notice each other (`others_unnoticed`): seen from one object, any interleaving
of passes over all objects is an interleaving of its own passes in which time goes by. Whatever the
operator writes to a host that others manage too is added to what they wrote
(`hosts_only_added_to`).
-/

namespace ImageBasedInstall

open Interactive Patch

variable {B : Type} {F G : Footprint} {w w' : World B} {op : Op B} {c : Choice B} {r : Resp op}

/-! ## References of the stored objects -/

/-- A call changes a host only by patching it. -/
theorem bmhs_after (ha : answer op c w = (r, w')) (host : NamespacedName) :
    w'.bmhs host = w.bmhs host ∨ ∃ base new bmh, op = .patchBMH host base new ∧
      w.bmhs host = some bmh ∧ w'.bmhs host = some (.merge base new bmh) := by
  by_cases hop : op.target = .bmh
  · cases op with
    | patchBMH host' base new =>
      cases answer_patchBMH ha with
      | failed e => exact .inl rfl
      | stored a hs | lost a hs =>
        by_cases heq : host = host'
        · subst heq
          exact .inr ⟨base, new, a, rfl, hs, by simp [World.setBMH]⟩
        · exact .inl (by simp [World.setBMH, heq])
    | _ => cases hop
  · rw [(answer_framed ha).bmhs (by simpa using fun h => hop h.symm)]
    exact .inl rfl

namespace Footprint.Covers

/-- A call keeps the footprint's references, if it keeps those of the object. -/
theorem after (h : F.Covers w) (ha : answer op c w = (r, w'))
    (hobject : ∀ ici, w'.icis F.key = some ici → F.Admits ici) : F.Covers w' where
  object := hobject
  hosts host bmh' hhost hbmh := by
    rcases bmhs_after ha host with hb | ⟨base, new, bmh, -, hb, hb'⟩
    · exact h.hosts host bmh' hhost (hb ▸ hbmh)
    · cases hb'.symm.trans hbmh
      exact h.hosts host bmh hhost hb
  cds name cd hname hcd := h.cds name cd hname (by rw [← hcd, (answer_framed ha).cds])

theorem own (h : F.Covers w) (hin : F.Inside op) (ha : answer op c w = (r, w')) : F.Covers w' := by
  refine h.after ha fun ici hici => ?_
  cases iciAfter_stored ha hici with
  | kept hs => exact h.object ici hs
  | patched hs => exact hin.2.merge (h.object _ hs)
  | statusPatched hs => exact hin.2.mergeStatus (h.object _ hs)

theorem others (h : F.Covers w) (hs : G.Spares w w') (hkey : F.key ≠ G.key)
    (ha : answer op c w = (r, w')) : F.Covers w' :=
  h.after ha fun ici hici => h.object ici (hs.icis F.key hkey ▸ hici)

/-- The replies refer to what the stored objects refer to. -/
theorem told (h : F.Covers w) (hin : F.Inside op) (htemp : F.TempOk c op)
    (ha : answer op c w = (r, w')) : F.Told op r := by
  cases op with
  | getICI key =>
    obtain ⟨-, ⟨ici, hici, rfl⟩ | ⟨-, rfl⟩ | ⟨e, rfl⟩⟩ := Choice.lookup_eq ha
    · rintro rfl
      exact h.object ici hici
    · trivial
    · trivial
  | patchICI key base new =>
    cases answer_patchICI ha with
    | stored a hs =>
      rintro rfl
      exact hin.2.merge (h.object a hs)
    | lost a hs => trivial
    | failed e => trivial
  | patchICIStatus key base new =>
    cases answer_patchICIStatus ha with
    | stored a hs =>
      rintro rfl
      exact hin.2.mergeStatus (h.object a hs)
    | lost a hs => trivial
    | failed e => trivial
  | getBMH host =>
    obtain ⟨-, ⟨bmh, hbmh, rfl⟩ | ⟨-, rfl⟩ | ⟨e, rfl⟩⟩ := Choice.lookup_eq ha
    · exact fun hhost => h.hosts host bmh hhost hbmh
    · trivial
    · trivial
  | patchBMH host base new =>
    cases answer_patchBMH ha with
    | stored a hs => exact fun hhost => h.hosts host a hhost hs
    | lost a hs => trivial
    | failed e => trivial
  | getCD key =>
    obtain ⟨-, ⟨cd, hcd, rfl⟩ | ⟨-, rfl⟩ | ⟨e, rfl⟩⟩ := Choice.lookup_eq ha
    · rintro hns hname
      obtain ⟨ns, name⟩ := key
      obtain rfl : ns = F.key.ns := hns
      exact h.cds name cd hname hcd
    · trivial
    · trivial
  | mkdirTemp =>
    rcases Choice.write_eq ha with ⟨-, rfl | ⟨e, rfl⟩⟩ | ⟨-, e, rfl⟩
    · exact htemp
    · trivial
    · trivial
  | _ => trivial

end Footprint.Covers

/-- Some reply of every call refers to nothing: that of a failed call. -/
theorem told_fail (F : Footprint) (op : Op B) (w : World B) :
    F.Told op (answer op { ending := .fail "" } w).1 := by
  cases op with
  | patchICI key base new | patchICIStatus key base new | patchBMH key base new =>
    simp only [answer, Choice.patch]
    split <;> trivial
  | _ => trivial

/-- The next call of a pass that works for an object. -/
theorem local_call {α : Type} {k : Resp op → Program B α} {Q : α → Calls B → Prop} {l : Calls B}
    (h : Meets F.Pass (.call op k) Q l) : F.Call op :=
  (logged_call.1 h _ (told_fail F op {})).1

/-! ## One pass -/

/-- A run of a program that works for an object leaves everything outside its footprint alone. -/
theorem local_exec {α : Type} {p : Program B α} {Q : α → Calls B → Prop} {l : Calls B}
    (h : Meets F.Pass p Q l) (hw : F.Covers w) (cs : List (Choice B))
    (htemp : ∀ c ∈ cs, F.files (.temp c.tempName)) : F.Spares w (p.exec answer cs w).1 := by
  induction p generalizing w l cs with
  | ret a => simpa using Footprint.Spares.refl F w
  | call op k ih =>
    cases cs with
    | nil => exact .refl F w
    | cons c cs =>
      have hop := local_call h
      have hc : F.TempOk c op := by
        cases op with
        | mkdirTemp => exact htemp c (List.mem_cons_self ..)
        | _ => trivial
      have ha : answer op c w = ((answer op c w).1, (answer op c w).2) := rfl
      have hnext := (logged_call.1 h _ (hw.told hop.inside hc ha)).2
      have hrest := ih _ hnext (hw.own hop.inside ha) cs fun c' hc' =>
        htemp c' (List.mem_cons_of_mem _ hc')
      exact (answer_spares hop.inside hc ha).trans hrest

/-- The hosts an object names: the one to install, and the one it has booted. -/
def ImageClusterInstall.Names (ici : ImageClusterInstall) (host : NamespacedName) : Prop :=
  ici.spec.bareMetalHostRef = some host ∨ ici.status.bareMetalHostRef = some host

/-- The secrets that an object stored under `key` refers to: those of its cluster's identity, the
pull secret of its cluster deployment, and the network data of its hosts. -/
inductive SecretOf (w : World B) (key : NamespacedName) (ici : ImageClusterInstall) :
    NamespacedName → Prop where
  | identity {name : String} {kind : IdentitySecret}
    (hname : ici.spec.clusterDeploymentRef = some name) (hkind : kind ∈ identitySecrets) :
    SecretOf w key ici (kind.key ⟨key.ns, name⟩)
  | pull {name pull : String} {cd : ClusterDeployment}
    (hname : ici.spec.clusterDeploymentRef = some name) (hcd : w.cds ⟨key.ns, name⟩ = some cd)
    (hpull : cd.pullSecretRef = some pull) : SecretOf w key ici ⟨key.ns, pull⟩
  | kubeconfig {m : ClusterMetadata} (hm : ici.spec.clusterMetadata = some m) :
    SecretOf w key ici ⟨key.ns, m.adminKubeconfigSecretRef⟩
  | password {m : ClusterMetadata} {name : String} (hm : ici.spec.clusterMetadata = some m)
    (hname : m.adminPasswordSecretRef = some name) : SecretOf w key ici ⟨key.ns, name⟩
  | network {host : NamespacedName} {bmh : BareMetalHost} (hhost : ici.Names host)
    (hbmh : w.bmhs host = some bmh) :
    SecretOf w key ici ⟨host.ns, bmh.preprovisioningNetworkDataName⟩

/-- The footprint of a pass over the object stored under `key`: what the object refers to, its own
directory, and the temp directories that the pass is given. -/
def Footprint.ofStored (key : NamespacedName) (w : World B) (cs : List (Choice B)) : Footprint where
  key := key
  cds name := ∃ ici, w.icis key = some ici ∧ ici.spec.clusterDeploymentRef = some name
  hosts host := ∃ ici, w.icis key = some ici ∧ ici.Names host
  secrets s := ∃ ici, w.icis key = some ici ∧ SecretOf w key ici s
  configMaps cm := ∃ ici, w.icis key = some ici ∧
    ∃ name ∈ ici.spec.caBundleRef.toList ++ ici.spec.extraManifestsRefs.items, cm = ⟨key.ns, name⟩
  files root := (∃ ici, w.icis key = some ici ∧ root = .data key.ns ici.uid) ∨
    ∃ c ∈ cs, root = .temp c.tempName
  identity _ := fun ⟨ici, hici, hname⟩ _ hkind => ⟨ici, hici, .identity hname hkind⟩

theorem covers_ofStored (key : NamespacedName) (w : World B) (cs : List (Choice B)) :
    (Footprint.ofStored key w cs).Covers w where
  object ici hici :=
    { dir := .inl ⟨ici, hici, rfl⟩
      cd := fun _ hname => ⟨ici, hici, hname⟩
      host := fun _ hhost => ⟨ici, hici, .inl hhost⟩
      bootedHost := fun _ hhost => ⟨ici, hici, .inr hhost⟩
      caBundle := fun name hname => ⟨ici, hici, name, by simp [hname], rfl⟩
      manifests := fun name hname => ⟨ici, hici, name, by simp [hname], rfl⟩
      metadata := fun _ hm =>
        ⟨⟨ici, hici, .kubeconfig hm⟩, fun _ hname => ⟨ici, hici, .password hm hname⟩⟩ }
  hosts := fun _ _ ⟨ici, hici, hhost⟩ hbmh _ => ⟨ici, hici, .network hhost hbmh⟩
  cds := fun _ _ ⟨ici, hici, hname⟩ hcd _ hpull => ⟨ici, hici, .pull hname hcd hpull⟩

/-- A pass of either controller, whatever its calls reply and wherever it stops, leaves everything
alone that its object does not refer to, the temp directories of other passes among it. -/
theorem pass_touches_own [DecidableEq B] (E : Env B) (controller : Controller)
    (key : NamespacedName) (w : World B) (cs : List (Choice B)) :
    (Footprint.ofStored key w cs).Spares w
      ((controllerPass E ⟨controller, key⟩).exec answer cs w).1 :=
  local_exec (l := []) (controllerPass_local (F := .ofStored key w cs) E controller)
    (covers_ofStored key w cs) cs fun c hc => .inr ⟨c, hc, rfl⟩

/-! ## Interleaved passes over many objects -/

/-- The footprint of the object stored under `key` shares nothing with those of other objects, which
may share what they like. -/
structure Apart (foot : NamespacedName → Footprint) (key : NamespacedName) : Prop where
  hosts : ∀ k host, key ≠ k → (foot key).hosts host → ¬(foot k).hosts host
  secrets : ∀ k s, key ≠ k → (foot key).secrets s → ¬(foot k).secrets s
  configMaps : ∀ k cm, key ≠ k → (foot key).configMaps cm → ¬(foot k).configMaps cm
  files : ∀ k root, key ≠ k → (foot key).files root → ¬(foot k).files root

/-- What an object sees of the others: time goes by, or the environment has changed something. -/
inductive Footprint.Sees {Ev : Type} (F : Footprint) (env : World B → Ev → World B → Prop) :
    World B → World B → Prop where
  | time {v : World B} {t : Time} (h : v.clock ≤ t) : F.Sees env v { v with clock := t }
  | change {v v' w w' : World B} {ev : Ev} (hv : F.Agree v w) (h : env w ev w')
    (hv' : F.Agree v' w') : F.Sees env v v'

section Interleaved

variable [DecidableEq B] (E : Env B) {Ev : Type} {foot : NamespacedName → Footprint}
  (hfoot : ∀ k, (foot k).key = k) {env : World B → Ev → World B → Prop} {w₀ : World B}
  {cfg : Passes B}

/-- The temp directories that a pass is given belong to its object. -/
abbrev OwnTemps (foot : NamespacedName → Footprint) (req : Request) (op : Op B) (c : Choice B) :
    Prop :=
  (foot req.key).TempOk c op

include hfoot

omit [DecidableEq B] in
theorem covers_after {req : Request} {w : World B} {c : Choice B} (hin : (foot req.key).Inside op)
    (htemp : (foot req.key).TempOk c op) (hw : ∀ k, (foot k).Covers w) (k : NamespacedName) :
    (foot k).Covers (answer op c w).2 := by
  have heq : answer op c w = ((answer op c w).1, (answer op c w).2) := rfl
  by_cases hk : k = req.key
  · subst hk
    exact (hw _).own hin heq
  · refine (hw k).others (answer_spares hin htemp heq) ?_ heq
    rwa [hfoot, hfoot]

/-- In every reachable configuration the objects refer to what their footprints list, and each pass
works for its object. -/
theorem passes_local
    (henv : ∀ w ev w', (∀ k, (foot k).Covers w) → env w ev w' → ∀ k, (foot k).Covers w')
    (h₀ : ∀ k, (foot k).Covers w₀)
    (h : Reaches (Sched answer (controllerPass E) env) (Allowing (OwnTemps foot))
      (· = { world := w₀ }) cfg) :
    (∀ k, (foot k).Covers cfg.world) ∧ ∀ i t, cfg.threads i = some t →
      Meets (foot t.tag.key).Pass t.prog (fun _ _ => True) t.log := by
  refine Sched.invariant (I := fun w => ∀ k, (foot k).Covers w)
    (T := fun _ t => Meets (foot t.tag.key).Pass t.prog (fun _ _ => True) t.log) h ?_ ?_ ?_ ?_ ?_
  · rintro _ rfl
    exact ⟨h₀, fun _ => rfl⟩
  · rintro _ ⟨controller, key⟩ -
    have hpass := controllerPass_local (F := foot key) (l := []) E controller
    rwa [hfoot key] at hpass
  · exact fun _ _ _ => logged_ret.2 trivial
  · intro cfg i tag log op k c hi hcond hI hT
    have hop : (foot tag.key).Call op := local_call hT
    have htemp : (foot tag.key).TempOk c op := hcond tag log op k hi
    refine ⟨covers_after hfoot hop.inside htemp hI, ?_, fun _ ht => ht⟩
    exact (logged_call.1 hT _ ((hI tag.key).told hop.inside htemp rfl)).2
  · exact fun _ ev w' hI _ he => ⟨henv _ ev w' hI he, fun _ _ _ ht => ht⟩

/-- An object whose footprint shares nothing with those of the others does not notice them: whatever
passes over all objects run interleaved, the passes over this one make the same calls and get the
same replies as in a run without the others, in which only time goes by and the environment acts. -/
theorem others_unnoticed (key : NamespacedName) (ha : Apart foot key)
    (henv : ∀ w ev w', (∀ k, (foot k).Covers w) → env w ev w' → ∀ k, (foot k).Covers w')
    (h₀ : ∀ k, (foot k).Covers w₀)
    (h : Reaches (Sched answer (controllerPass E) env) (Allowing (OwnTemps foot))
      (· = { world := w₀ }) cfg) :
    ∃ small : Passes B,
      Reaches (Sched answer (controllerPass E) fun v (_ : Unit) v' => (foot key).Sees env v v')
        (AllowingAmong (fun req => req.key == key) (OwnTemps foot)) (· = { world := w₀ }) small ∧
      Projects (fun req => req.key == key) (foot key).Agree cfg small := by
  have hseparate : ∀ cfg : Passes B,
      Reaches (Sched answer (controllerPass E) env) (Allowing (OwnTemps foot))
        (· = { world := w₀ }) cfg →
      Separate answer (OwnTemps foot) (fun req => req.key == key) (foot key).Agree
        ((foot key).Sees env) cfg := by
    intro cfg hreach
    obtain ⟨hcovers, hthreads⟩ := passes_local E hfoot henv h₀ hreach
    constructor
    · intro i req log op k c v hi hmine htemp hv
      obtain rfl : req.key = key := by simpa using hmine
      exact answer_agree c (local_call (hthreads i _ hi)).inside hv
    · intro i req log op k c v hi hmine htemp hv
      have hne : key ≠ req.key := fun heq => by simp [heq] at hmine
      have hspares : (foot req.key).Spares cfg.world (answer op c cfg.world).2 :=
        answer_spares (local_call (hthreads i _ hi)).inside htemp rfl
      refine ⟨{ v with clock := (answer op c cfg.world).2.clock },
        .time (hv.clock ▸ hspares.clock), hv.others hspares ?_ ?_ ?_ ?_ ?_⟩
      · rwa [hfoot, hfoot]
      · exact fun host => ha.hosts _ host hne
      · exact fun s => ha.secrets _ s hne
      · exact fun cm => ha.configMaps _ cm hne
      · exact fun root => ha.files _ root hne
  refine h.project ?_ hseparate ?_
  · rintro _ rfl
    exact ⟨fun _ => rfl, rfl, .refl ..⟩
  · intro v w ev w' hv he
    exact ⟨w', .change hv he (.refl ..), .refl ..⟩

end Interleaved

/-! ### Two objects in two namespaces -/

section Twins

/-- All that lies in the namespace of an object of this name; other objects have nothing. -/
def ownNamespace (key : NamespacedName) : Footprint where
  key := key
  cds _ := key.name = "sno"
  hosts host := key.name = "sno" ∧ host.ns = key.ns
  secrets s := key.name = "sno" ∧ s.ns = key.ns
  configMaps cm := key.name = "sno" ∧ cm.ns = key.ns
  files
    | .data ns _ => key.name = "sno" ∧ ns = key.ns
    | .temp name => key.name = "sno" ∧ name = key.ns
  identity _ hname _ _ := ⟨hname, rfl⟩

theorem ownNamespace_apart (key : NamespacedName) : Apart ownNamespace key := by
  have hne : ∀ (k k' : NamespacedName) (ns : String), k ≠ k' → k.name = "sno" ∧ ns = k.ns →
      ¬(k'.name = "sno" ∧ ns = k'.ns) := by
    rintro ⟨ns, name⟩ ⟨ns', name'⟩ _ hk ⟨rfl, rfl⟩ ⟨rfl, rfl⟩
    exact hk rfl
  refine ⟨?_, ?_, ?_, ?_⟩
  · exact fun k host => hne key k host.ns
  · exact fun k s => hne key k s.ns
  · exact fun k cm => hne key k cm.ns
  · intro k root
    cases root with
    | data ns uid => exact hne key k ns
    | temp name => exact hne key k name

def twinWorld : World Doc where
  icis k :=
    if k.name = "sno" ∧ (k.ns = "spoke1" ∨ k.ns = "spoke2") then
      some { sampleICI with
        finalizers := [clusterInstallFinalizerName]
        spec := { sampleICI.spec with bareMetalHostRef := some ⟨k.ns, "rack"⟩ } }
    else none
  bmhs k :=
    if k.name = "rack" then
      some { externallyProvisioned := true, provisioningState := .externallyProvisioned }
    else none
  cds k := if k.name = "sno" then some ⟨"3b1d", "example.com", "sno", some "pull"⟩ else none
  imageSets := sampleWorld.imageSets
  secrets k :=
    if k.name = "pull" then some { data := [(dockerConfigJsonKey, .text "pull")] } else none

theorem twinWorld_covers (key : NamespacedName) : (ownNamespace key).Covers twinWorld where
  object ici hici := by
    simp only [twinWorld] at hici
    split_ifs at hici with hkey
    cases hici
    refine ⟨⟨hkey.1, rfl⟩, fun _ _ => hkey.1, fun host hhost => ?_, ?_, ?_, ?_, ?_⟩
    · cases hhost
      exact ⟨hkey.1, rfl⟩
    · simp [sampleICI]
    · simp [sampleICI]
    · simp [sampleICI, Slice.items]
    · simp [sampleICI]
  hosts host bmh hhost hbmh := by
    simp only [twinWorld] at hbmh
    split_ifs at hbmh
    cases hbmh
    exact fun h => absurd rfl h
  cds name cd hname hcd pull _ := ⟨hname, rfl⟩

/-- A call of a pass under a choice whose temp directory is named after the object's namespace. -/
def namedTemp (cfg : Passes Doc) : Label (Choice Doc) Request Empty → Bool
  | .call i c => (cfg.threads i).all fun t => t.tag.key == ⟨c.tempName, "sno"⟩
  | _ => true

theorem namedTemp_ok (cfg : Passes Doc) (lab : Label (Choice Doc) Request Empty)
    (h : namedTemp cfg lab = true) : Allowing (OwnTemps ownNamespace) cfg lab := by
  cases lab with
  | call i c =>
    intro req log op k hi
    have hkey : req.key = ⟨c.tempName, "sno"⟩ := by simpa [namedTemp, hi] using h
    cases op with
    | mkdirTemp => exact ⟨by rw [hkey], by rw [hkey]⟩
    | _ => trivial
  | _ => trivial

/-- Passes of the reconciler over both objects, a call of the one after a call of the other. -/
def twinRun : Passes Doc :=
  Config.moves answer (controllerPass Env.symbolic) namedTemp
    ([.spawn 0 ⟨.reconciler, ⟨"spoke1", "sno"⟩⟩, .spawn 1 ⟨.reconciler, ⟨"spoke2", "sno"⟩⟩] ++
      (List.replicate 100 [.call 0 { tempName := "spoke1" },
        .call 1 { tempName := "spoke2" }]).flatten)
    { world := twinWorld }

theorem twinRun_reached :
    Reaches (Sched answer (controllerPass Env.symbolic) fun _ (ev : Empty) _ => ev.elim)
      (Allowing (OwnTemps ownNamespace)) (· = { world := twinWorld }) twinRun :=
  Reaches.moves namedTemp_ok _ (.start rfl)

theorem others_unnoticed_twins :
    (∀ ns ∈ ["spoke1", "spoke2"], (twinRun.world.dataImages ⟨ns, "rack"⟩).isSome) ∧
    ∃ small : Passes Doc,
      Reaches (Sched answer (controllerPass Env.symbolic) fun v (_ : Unit) v' =>
        (ownNamespace ⟨"spoke1", "sno"⟩).Sees (fun _ (ev : Empty) _ => ev.elim) v v')
        (AllowingAmong (fun req => req.key == ⟨"spoke1", "sno"⟩) (OwnTemps ownNamespace))
        (· = { world := twinWorld }) small ∧
      Projects (fun req => req.key == ⟨"spoke1", "sno"⟩)
        (ownNamespace ⟨"spoke1", "sno"⟩).Agree twinRun small :=
  ⟨by decide +kernel, others_unnoticed Env.symbolic (fun _ => rfl) _ (ownNamespace_apart _)
    (fun _ ev => ev.elim) twinWorld_covers twinRun_reached⟩

end Twins

/-! ## Edits of hosts -/

/-- What the operator makes of a host keeps what others have made of it: labels and annotations are
added, and three fields may be set. -/
structure BareMetalHost.AddedTo (bmh bmh' : BareMetalHost) : Prop where
  labels : ∀ k, bmh'.labels k = bmh.labels k ∨ k = backupLabel ∧ bmh'.labels k = some "true"
  annotations : ∀ k, bmh'.annotations k = bmh.annotations k ∨
    (k = rebootAnnotation ∨ k = ibioManagedBMH) ∧ bmh'.annotations k = some ""
  cleaning : bmh'.automatedCleaningMode = bmh.automatedCleaningMode ∨
    bmh'.automatedCleaningMode = .disabled
  provisioned : bmh'.externallyProvisioned = bmh.externallyProvisioned ∨
    bmh'.externallyProvisioned = true
  online : bmh'.online = bmh.online ∨ bmh'.online = true
  network : bmh'.preprovisioningNetworkDataName = bmh.preprovisioningNetworkDataName
  status : bmh'.provisioningState = bmh.provisioningState ∧ bmh'.poweredOn = bmh.poweredOn ∧
    bmh'.hardwareDetails = bmh.hardwareDetails

theorem setAnnotationIfNotExists_apply (annotations : String → Option String)
    (key value k : String) :
    (setAnnotationIfNotExists annotations key value).1 k = annotations k ∨
      k = key ∧ (setAnnotationIfNotExists annotations key value).1 k = some value := by
  unfold setAnnotationIfNotExists
  split
  · exact .inl rfl
  · by_cases hk : k = key
    · subst hk
      exact .inr ⟨rfl, by simp⟩
    · exact .inl (by simp [hk])

/-- The annotations of a booted host: those it had, a reboot request and the operator's mark. -/
theorem booted_annotations (bmh : BareMetalHost) (image : DataImage) (k : String) :
    (bmh.booted image).annotations k = bmh.annotations k ∨
      (k = rebootAnnotation ∨ k = ibioManagedBMH) ∧ (bmh.booted image).annotations k = some "" := by
  have hreboot := setAnnotationIfNotExists_apply bmh.annotations rebootAnnotation
    rebootAnnotationValue k
  simp only [BareMetalHost.booted]
  rcases setAnnotationIfNotExists_apply (if image.attachedURL = "" then
      (setAnnotationIfNotExists bmh.annotations rebootAnnotation rebootAnnotationValue).1
    else bmh.annotations) ibioManagedBMH "" k with heq | ⟨hk, heq⟩
  · rw [heq]
    split
    · exact hreboot.imp_right fun h => ⟨.inl h.1, h.2⟩
    · exact .inl rfl
  · exact .inr ⟨.inr hk, heq⟩

/-- A merge keeps whatever others have stored since the copy was made. -/
theorem HostEdit.added {base new : BareMetalHost} (h : HostEdit base new) (stored : BareMetalHost) :
    stored.AddedTo (.merge base new stored) := by
  have hlabels : ∀ k, new.labels k = base.labels k ∨ k = backupLabel ∧ new.labels k =
      some "true" := by
    intro k
    cases h with
    | labelled =>
      by_cases hk : k = backupLabel
      · exact .inr ⟨hk, by simp [hk]⟩
      · exact .inl (by simp [hk])
    | _ => exact .inl rfl
  have hannotations : ∀ k, new.annotations k = base.annotations k ∨
      (k = rebootAnnotation ∨ k = ibioManagedBMH) ∧ new.annotations k = some "" := by
    intro k
    cases h with
    | rebooted =>
      exact (setAnnotationIfNotExists_apply base.annotations rebootAnnotation rebootAnnotationValue
        k).imp_right fun h => ⟨.inl h.1, h.2⟩
    | booted image => exact booted_annotations base image k
    | _ => exact .inl rfl
  have hcleaning : new.automatedCleaningMode = base.automatedCleaningMode ∨
      new.automatedCleaningMode = .disabled := by
    cases h <;> simp [BareMetalHost.booted]
  have hprovisioned : new.externallyProvisioned = base.externallyProvisioned ∨
      new.externallyProvisioned = true := by
    cases h <;> simp [BareMetalHost.booted]
  have honline : new.online = base.online ∨ new.online = true := by
    cases h <;> simp [BareMetalHost.booted]
  refine ⟨fun k => ?_, fun k => ?_, ?_, ?_, ?_, rfl, rfl, rfl, rfl⟩
  · exact mergeField_set (P := fun o => k = backupLabel ∧ o = some "true") (hlabels k)
  · exact mergeField_set
      (P := fun o => (k = rebootAnnotation ∨ k = ibioManagedBMH) ∧ o = some "") (hannotations k)
  · exact mergeField_set (P := fun m => m = CleaningMode.disabled) hcleaning
  · exact mergeField_set (P := fun b => b = true) hprovisioned
  · exact mergeField_set (P := fun b => b = true) honline

theorem BareMetalHost.AddedTo.refl (bmh : BareMetalHost) : bmh.AddedTo bmh :=
  ⟨fun _ => .inl rfl, fun _ => .inl rfl, .inl rfl, .inl rfl, .inl rfl, rfl, rfl, rfl, rfl⟩

/-- The footprint that lists everything. -/
def Footprint.everything (key : NamespacedName) : Footprint :=
  ⟨key, fun _ => True, fun _ => True, fun _ => True, fun _ => True, fun _ => True,
    fun _ _ _ _ => trivial⟩

theorem told_everything (key : NamespacedName) (op : Op B) (r : Resp op) :
    (Footprint.everything key).Told op r := by
  have hadmits : ∀ ici, (Footprint.everything key).Admits ici := fun ici =>
    ⟨trivial, fun _ _ => trivial, fun _ _ => trivial, fun _ _ => trivial, fun _ _ => trivial,
      fun _ _ => trivial, fun _ _ => ⟨trivial, fun _ _ => trivial⟩⟩
  cases op with
  | getICI k | patchICI k base new | patchICIStatus k base new =>
    cases r with
    | error e => trivial
    | ok ici => exact fun _ => hadmits ici
  | getBMH k | patchBMH k base new | getCD k | mkdirTemp =>
    cases r with
    | error e => trivial
    | ok a => simp [Footprint.Told, Footprint.AdmitsHost, Footprint.AdmitsCD, Footprint.everything]
  | _ => trivial

/-- Whatever the replies are, a pass edits hosts as the operator does. -/
theorem controllerPass_tame [DecidableEq B] (E : Env B) (req : Request) :
    (controllerPass E req).Uses Op.Tame := by
  have huses : ∀ (p : Program B Unit) (l : Calls B),
      Meets (Footprint.everything req.key).Pass p (fun _ _ => True) l → p.Uses Op.Tame := by
    intro p
    induction p with
    | ret a => exact fun _ _ => trivial
    | call op k ih =>
      intro l h
      exact ⟨(local_call h).tame,
        fun r => ih r _ (logged_call.1 h r (told_everything req.key op r)).2⟩
  exact huses _ [] (controllerPass_local (F := .everything req.key) E req.controller)

theorem rel_added_refl (o : Option BareMetalHost) : Option.Rel BareMetalHost.AddedTo o o := by
  cases o with
  | none => exact .none
  | some bmh => exact .some (.refl bmh)

theorem tame_added (htame : op.Tame) (ha : answer op c w = (r, w')) (host : NamespacedName) :
    Option.Rel BareMetalHost.AddedTo (w.bmhs host) (w'.bmhs host) := by
  rcases bmhs_after ha host with heq | ⟨base, new, bmh, rfl, hb, hb'⟩
  · rw [heq]
    exact rel_added_refl _
  · rw [hb, hb']
    exact .some (HostEdit.added htame bmh)

/-- Whatever passes run interleaved, over any objects and from copies as old as the cache serves
them, a call leaves every host as it was stored before the call, with the operator's edit added to
it. -/
theorem hosts_only_added_to [DecidableEq B] (E : Env B) {Ev : Type}
    {env : Aged (World B) → Ev → Aged (World B) → Prop}
    {cond : Config (Op B) Resp (Aged (World B)) (Choice B × Nat) Request →
      Label (Choice B × Nat) Request Ev → Prop} {s₀ : Aged (World B)}
    {cfg : Config (Op B) Resp (Aged (World B)) (Choice B × Nat) Request}
    (h : Reaches (Sched (aged answer Op.cached) (controllerPass E) env) cond
      (· = { world := s₀ }) cfg) :
    ∀ m ∈ cfg.history, ∀ host, Option.Rel BareMetalHost.AddedTo (m.before.now.bmhs host)
      ((aged answer Op.cached m.op m.choice m.before).2.now.bmhs host) := by
  intro m hm host
  have htame : m.op.Tame := by
    refine h.made ?_ (controllerPass_tame E) m hm
    rintro _ rfl
    exact ⟨fun _ => rfl, rfl⟩
  unfold aged
  split
  · exact rel_added_refl _
  · exact tame_added htame rfl host

/-- Passes over both objects whose cached reads lag a version behind. -/
def agedTwins : Config (Op Doc) Resp (Aged (World Doc)) (Choice Doc × Nat) Request :=
  Config.moves (aged answer Op.cached) (controllerPass Env.symbolic) (fun _ _ => true)
    ([.spawn 0 ⟨.reconciler, ⟨"spoke1", "sno"⟩⟩, .spawn 1 ⟨.reconciler, ⟨"spoke2", "sno"⟩⟩] ++
      (List.replicate 20 [.call 0 ({}, 1), .call 1 ({}, 1)]).flatten :
      List (Label (Choice Doc × Nat) Request Empty))
    { world := ⟨twinWorld, []⟩ }

theorem hosts_only_added_to_twins :
    agedTwins.history.any (fun m => m.op.target == .bmh) = true ∧
    ∀ m ∈ agedTwins.history, ∀ host, Option.Rel BareMetalHost.AddedTo (m.before.now.bmhs host)
      ((aged answer Op.cached m.op m.choice m.before).2.now.bmhs host) := by
  refine ⟨by decide +kernel, ?_⟩
  have hreach : Reaches (Sched (aged answer Op.cached) (controllerPass Env.symbolic)
      fun _ (ev : Empty) _ => ev.elim) (fun _ _ => True) (· = { world := ⟨twinWorld, []⟩ })
      agedTwins := Reaches.moves (fun _ _ _ => trivial) _ (.start rfl)
  exact hosts_only_added_to Env.symbolic hreach

end ImageBasedInstall

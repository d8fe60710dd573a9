import ImageBasedInstall.Patch.Overlay
import ImageBasedInstall.Verify.Footprints

/-!
# What a successful build leaves

`writeInputData` succeeds only with the ISO in the work directory and the kubeconfig, the password
and the manifest there copied byte for byte into the three identity secrets.
-/

namespace ImageBasedInstall

open Interactive

variable {B : Type}

/-! ## Names of the identity secrets -/

theorem append_ne_append_of_last {a b s t : String} {c d : Char}
    (hs : s.toList.getLast? = some c) (ht : t.toList.getLast? = some d) (hcd : c ≠ d) :
    a ++ s ≠ b ++ t := by
  intro h
  have hl := congrArg (fun x => x.toList.getLast?) h
  simp [String.toList_append, List.getLast?_append, hs, ht] at hl
  exact hcd hl

theorem adminPassword_ne_kubeconfig (cd cd' : NamespacedName) :
    adminPasswordSecret.key cd ≠ kubeconfigSecret.key cd' := fun h =>
  append_ne_append_of_last (c := 'd') (d := 'g') (by decide) (by decide) (by decide)
    (congrArg NamespacedName.name h)

theorem adminPassword_ne_seed (cd cd' : NamespacedName) :
    adminPasswordSecret.key cd ≠ seedReconfigurationSecret.key cd' := fun h =>
  append_ne_append_of_last (c := 'd') (d := 'n') (by decide) (by decide) (by decide)
    (congrArg NamespacedName.name h)

theorem kubeconfig_ne_seed (cd cd' : NamespacedName) :
    kubeconfigSecret.key cd ≠ seedReconfigurationSecret.key cd' := fun h =>
  append_ne_append_of_last (c := 'g') (d := 'n') (by decide) (by decide) (by decide)
    (congrArg NamespacedName.name h)

/-! ## Copying files into secrets -/

/-- The file at `path` and the payload of a secret of the cluster deployment are the same bytes. -/
def HoldsFile (kind : IdentitySecret) (cd : NamespacedName) (path : Path) (w : World B) : Prop :=
  ∃ b s, w.fs path = some (.file b) ∧ w.secrets (kind.key cd) = some s ∧ s.get kind.dataKey = some b

theorem Entry.of_content {e : Option (Entry B)} {b : B} (h : e.bind Entry.content = some b) :
    e = some (.file b) := by
  cases e with
  | none => cases h
  | some e =>
    cases e with
    | file c => cases h; rfl
    | dir => cases h
    | iso i s => cases h

/-- The payload is found in the data of an identity secret, in any order of its entries. -/
theorem IdentitySecret.lookup_of_perm {E : Env B} {kind : IdentitySecret} {b : B}
    {l : List (String × B)} (h : l.Perm (kind.data E b)) : l.lookup kind.dataKey = some b := by
  refine Patch.lookup_of_unique (h.mem_iff.2 ?_) fun b' hb' => ?_
  · simp [IdentitySecret.data]
  · rcases List.mem_append.1 (h.mem_iff.1 hb') with hx | hx
    · obtain ⟨kv, hkv, heq⟩ := List.mem_map.1 hx
      exact absurd (congrArg Prod.fst heq) (kind.dataKey_fresh kv hkv)
    · simpa using hx

section Alone

variable [DecidableEq B] {ok guar : World B → (op : Op B) → Resp op → World B → Prop} {w : World B}

/-- The secret holds a payload, carries the labels of its kind and is owned by the cluster
deployment. -/
structure FullyManaged (kind : IdentitySecret) (cd : NamespacedName) (cdUID : String) (content : B)
    (s : Secret B) : Prop where
  payload : s.get kind.dataKey = some content
  labels : ∀ kv ∈ kind.labels cd, s.labels kv.1 = some kv.2
  owner : cdUID ∈ s.owners

omit [DecidableEq B] in
theorem IdentitySecret.mutate_managed (E : Env B) (kind : IdentitySecret) (cd : NamespacedName)
    (cdUID : String) (content : B) (s : Secret B) :
    FullyManaged kind cd cdUID content (kind.mutate E cd cdUID content s) where
  payload := IdentitySecret.lookup_of_perm (.refl _)
  labels := by
    simp [IdentitySecret.mutate, IdentitySecret.labels, Function.update_apply, secretResourceLabel]
  owner := List.mem_singleton_self _

theorem IdentitySecret.unchanged_managed {E : Env B} {kind : IdentitySecret} {cd : NamespacedName}
    {cdUID : String} {content : B} {s : Secret B} (h : kind.unchanged E cd cdUID content s = true) :
    FullyManaged kind cd cdUID content s := by
  simp only [IdentitySecret.unchanged, Bool.and_eq_true, decide_eq_true_eq, List.all_eq_true,
    beq_iff_eq] at h
  obtain ⟨⟨hdata, howners⟩, hlabels⟩ := h
  exact ⟨IdentitySecret.lookup_of_perm hdata, hlabels, howners ▸ List.mem_singleton_self _⟩

theorem createOrUpdate_runs (E : Env B) (kind : IdentitySecret) (cd : NamespacedName)
    (uid : String) (b : B) (hread : ∀ op : Op B, op.target = .nothing → Permits ok guar w op)
    (hstore : ∀ s, FullyManaged kind cd uid b s →
      Permits ok guar w (.createSecret (kind.key cd) s) ∧
      Permits ok guar w (.updateSecret (kind.key cd) s)) :
    Tries (Running ok guar) (createOrUpdateClusterCredentialSecret E kind cd uid b)
      (fun _ w' => w'.fs = w.fs ∧ (∀ k, k ≠ kind.key cd → w'.secrets k = w.secrets k) ∧
        ∃ s, w'.secrets (kind.key cd) = some s ∧ FullyManaged kind cd uid b s)
      (fun _ _ => True) w := by
  have hset : ∀ s : Secret B, FullyManaged kind cd uid b s →
      (w.setSecret (kind.key cd) s).fs = w.fs ∧
      (∀ k, k ≠ kind.key cd → (w.setSecret (kind.key cd) s).secrets k = w.secrets k) ∧
      ∃ s', (w.setSecret (kind.key cd) s).secrets (kind.key cd) = some s' ∧
        FullyManaged kind cd uid b s' := fun s hs =>
    ⟨rfl, fun k hk => Function.update_of_ne hk .., s, Function.update_self .., hs⟩
  have hmanaged : ∀ s, FullyManaged kind cd uid b (kind.mutate E cd uid b s) :=
    IdentitySecret.mutate_managed E kind cd uid b
  refine Tries.bind (tries_attempt (tries_getSecret (hread _ rfl) ?_ ?_ ?_))
  · -- the secret is visible: it is left alone or updated
    intro s hsome
    have hs : w.secrets (kind.key cd) = some s := Option.eq_some_of_filter_eq_some hsome
    dsimp only
    split
    · next hu =>
      exact tries_pure.2 ⟨rfl, fun _ _ => rfl, s, hs, IdentitySecret.unchanged_managed hu⟩
    · exact tries_wrap (tries_updateSecret (hstore _ (hmanaged s)).2
        ⟨hset _ (hmanaged s), fun _ => trivial⟩ fun _ => trivial)
  · intro _
    exact tries_wrap (tries_createSecret (hstore _ (hmanaged {})).1
      ⟨hset _ (hmanaged {}), fun _ => trivial⟩ fun _ => trivial)
  · intro e
    exact tries_throw.2 trivial

/-- The verdict of `secretExistsAndValid`: the cache has the secret, with that payload. -/
def ExistsAndValid (kind : IdentitySecret) (cd : NamespacedName) (content : B)
    (w : World B) : Prop :=
  ∃ s, w.secrets (kind.key cd) = some s ∧ s.isCached = true ∧ s.get kind.dataKey = some content

/-- A call of `ensureSecret` that succeeds finds the payload stored, and leaves everything as it is,
or leaves a managed secret and changes nothing else. -/
inductive Ensures (kind : IdentitySecret) (cd : NamespacedName) (cdUID : String) (content : B)
    (w w' : World B) : Prop where
  | kept (h : ExistsAndValid kind cd content w) (heq : w' = w)
  | written (h : ¬ExistsAndValid kind cd content w) (hfs : w'.fs = w.fs)
      (hothers : ∀ k, k ≠ kind.key cd → w'.secrets k = w.secrets k) (s : Secret B)
      (hs : w'.secrets (kind.key cd) = some s) (hmanaged : FullyManaged kind cd cdUID content s)

theorem secretExistsAndValid_runs (kind : IdentitySecret) (cd : NamespacedName) (b : B)
    (hread : ∀ op : Op B, op.target = .nothing → Permits ok guar w op) :
    Tries (Running ok guar) (secretExistsAndValid (kind.key cd) kind.dataKey b)
      (fun valid w' => w' = w ∧ (valid = true ↔ ExistsAndValid kind cd b w))
      (fun _ w' => w' = w) w := by
  refine Tries.bind (tries_attempt (tries_getSecret (hread _ rfl) ?_ ?_ ?_))
  · intro s hs
    obtain ⟨hstored, hcached⟩ := Option.filter_eq_some_iff.1 hs
    refine tries_pure.2 ⟨rfl, ?_⟩
    constructor
    · intro hvalid
      exact ⟨s, hstored, by simpa using hcached, by simpa using hvalid⟩
    · rintro ⟨s', hs', -, hget⟩
      obtain rfl : s = s' := Option.some.inj (hstored.symm.trans hs')
      simp [hget]
  · intro hnone
    refine tries_pure.2 ⟨rfl, ?_⟩
    constructor
    · intro hvalid
      cases hvalid
    · rintro ⟨s, hs, hcached, -⟩
      simp [hs, Option.filter, hcached] at hnone
  · exact fun e => tries_throw.2 rfl

/-- `ensureSecret` reads, and stores a managed secret with the content of its file. -/
theorem ensureSecret_runs (E : Env B) (kind : IdentitySecret) (cd : NamespacedName)
    (uid : String) (path : Path) (hread : ∀ op : Op B, op.target = .nothing → Permits ok guar w op)
    (hstore : ∀ b s, w.fs path = some (.file b) → FullyManaged kind cd uid b s →
      Permits ok guar w (.createSecret (kind.key cd) s) ∧
      Permits ok guar w (.updateSecret (kind.key cd) s)) :
    Tries (Running ok guar) (ensureSecret E kind cd uid path)
      (fun _ w' => ∃ b, w.fs path = some (.file b) ∧ Ensures kind cd uid b w w')
      (fun _ _ => True) w := by
  refine Tries.bind (tries_wrap (tries_readFile (hread _ rfl) ?_ (fun _ => trivial)
    fun _ => trivial))
  intro b hb
  have hfile := Entry.of_content hb
  refine Tries.seq (Tries.mono (secretExistsAndValid_runs kind cd b hread) (fun _ _ h => h)
    fun _ _ _ => trivial) ?_
  rintro valid _ ⟨rfl, hvalid⟩
  split
  · next h => exact tries_pure.2 ⟨b, hfile, .kept (hvalid.1 h) rfl⟩
  · next h =>
    refine tries_wrap (Tries.mono (createOrUpdate_runs E kind cd uid b hread
      fun s hs => hstore b s hfile hs) ?_ fun _ _ h => h)
    rintro _ w' ⟨hfs, hothers, s, hs, hmanaged⟩
    exact ⟨b, hfile, .written (fun hv => h (hvalid.2 hv)) hfs hothers s hs hmanaged⟩

theorem ensureSecret_cases (E : Env B) (kind : IdentitySecret) (cd : NamespacedName)
    (uid : String) (path : Path) :
    Tries (Alone ok) (ensureSecret E kind cd uid path)
      (fun _ w' => ∃ b, w.fs path = some (.file b) ∧ Ensures kind cd uid b w w')
      (fun _ _ => True) w :=
  ensureSecret_runs E kind cd uid path (fun _ _ => .free) fun _ _ _ _ => ⟨.free, .free⟩

/-- What `ensureSecret` leaves when it succeeds: the file is in its secret, nothing else changed. -/
structure Ensured (kind : IdentitySecret) (cd : NamespacedName) (path : Path) (w w' : World B) :
    Prop where
  fs : w'.fs = w.fs
  others : ∀ k, k ≠ kind.key cd → w'.secrets k = w.secrets k
  holds : HoldsFile kind cd path w'

theorem ensureSecret_spec (E : Env B) (kind : IdentitySecret) (cd : NamespacedName)
    (uid : String) (path : Path) :
    Tries (Alone ok) (ensureSecret E kind cd uid path) (fun _ w' => Ensured kind cd path w w')
      (fun _ _ => True) w := by
  refine Tries.mono (ensureSecret_cases E kind cd uid path) ?_ fun _ _ h => h
  rintro _ w' ⟨b, hfile, hensures⟩
  cases hensures with
  | kept h heq =>
    obtain ⟨s, hs, -, hget⟩ := h
    subst heq
    exact ⟨rfl, fun _ _ => rfl, b, s, hfile, hs, hget⟩
  | written _ hfs hothers s hs hmanaged =>
    exact ⟨hfs, hothers, b, s, hfs ▸ hfile, hs, hmanaged.payload⟩

omit [DecidableEq B] in
theorem HoldsFile.of_ensured {kind kind' : IdentitySecret} {cd : NamespacedName}
    {path path' : Path} {w w' : World B} (h : HoldsFile kind cd path w)
    (he : Ensured kind' cd path' w w') (hne : kind.key cd ≠ kind'.key cd) :
    HoldsFile kind cd path w' := by
  obtain ⟨b, s, hf, hs, hg⟩ := h
  exact ⟨b, s, he.fs ▸ hf, he.others _ hne ▸ hs, hg⟩

/-- The three credential files of a work directory are in the secrets of the cluster deployment. -/
structure CredsStored (cd : NamespacedName) (dir : Path) (w : World B) : Prop where
  password : HoldsFile adminPasswordSecret cd (dir.join kubeadminPasswordPath) w
  kubeconfig : HoldsFile kubeconfigSecret cd (dir.join kubeconfigPath) w
  manifest : HoldsFile seedReconfigurationSecret cd (dir.join manifestPath) w

theorem ensureCreds_spec (E : Env B) (cd : NamespacedName) (uid : String) (dir : Path) :
    Tries (Alone ok) (ensureCreds E cd uid dir) (fun _ w' => w'.fs = w.fs ∧ CredsStored cd dir w')
      (fun _ _ => True) w := by
  refine Tries.seq (tries_wrap (ensureSecret_spec E adminPasswordSecret cd uid _)) ?_
  intro _ w₁ h₁
  refine Tries.seq (tries_wrap (ensureSecret_spec E kubeconfigSecret cd uid _)) ?_
  intro _ w₂ h₂
  refine Tries.mono (tries_wrap (ensureSecret_spec E seedReconfigurationSecret cd uid _)) ?_
    fun _ _ h => h
  intro _ w₃ h₃
  refine ⟨by rw [h₃.fs, h₂.fs, h₁.fs], ?_, ?_, h₃.holds⟩
  · exact (h₁.holds.of_ensured h₂ (adminPassword_ne_kubeconfig cd cd)).of_ensured h₃
      (adminPassword_ne_seed cd cd)
  · exact h₂.holds.of_ensured h₃ (kubeconfig_ne_seed cd cd)

/-! ## The image -/

/-- Calls that remove no file. -/
def Op.keepsFiles : Op B → Prop
  | .removeAll _ | .purge _ | .mkdirTemp => False
  | _ => True

omit [DecidableEq B] in
theorem isSome_of_keepsFiles {op : Op B} {c : Choice B} {w w' : World B} {r : Resp op} {p : Path}
    (hop : op.keepsFiles) (h : answer op c w = (r, w')) (hp : (w.fs p).isSome) :
    (w'.fs p).isSome := by
  have hset : ∀ q e, ((w.setEntry q (some e)).fs p).isSome := by
    intro q e
    simp only [World.setEntry, Function.update_apply]
    split
    · rfl
    · exact hp
  cases op with
  | mkdirAll path =>
    rcases Choice.write_eq h with ⟨rfl, -⟩ | ⟨rfl, -⟩
    · simp only [World.mkdirs]
      split
      · rfl
      · exact hp
    · exact hp
  | writeFile path content =>
    obtain ⟨-, rfl⟩ | ⟨_, -, rfl | ⟨_, rfl⟩⟩ := answer_writeFile h
    · exact hset ..
    · exact hp
    · exact hset ..
  | writeIso path image builtFrom =>
    obtain ⟨-, rfl⟩ | ⟨_, -, rfl | ⟨_, rfl⟩⟩ := answer_writeIso h
    · exact hset ..
    · exact hp
    · exact hset ..
  | removeAll path | purge which | mkdirTemp => exact hop.elim
  | _ => rwa [(answer_framed h).fs (by simp [Op.target]) (by simp [Op.target])]

omit [DecidableEq B] in
theorem tries_keepsFiles {α : Type} {x : Act B α} {p : Path} (hx : x.run.Uses Op.keepsFiles)
    (hp : (w.fs p).isSome) :
    Tries (Alone ok) x (fun _ w' => (w'.fs p).isSome) (fun _ _ => True) w := by
  refine Meets.mono (Meets.of_uses (I := fun w' => (w'.fs p).isSome) hx
    (fun _ _ h hr => hr ▸ h) ?_ hp) ?_
  · rintro op w₁ r w₂ hop hI ⟨⟨c, hc⟩, -⟩
    exact ⟨trivial, isSome_of_keepsFiles hop hc hI⟩
  · intro r w' h
    cases r with
    | ok a => exact h
    | error e => trivial

omit [DecidableEq B] in
theorem meets_true {α : Type} (p : Program B α) : Meets (Alone ok) p (fun _ _ => True) w :=
  Meets.triv fun _ _ _ _ => trivial

omit [DecidableEq B] in
theorem tries_true {α : Type} (x : Act B α) :
    Tries (Alone ok) x (fun _ _ => True) (fun _ _ => True) w :=
  (meets_true x.run).mono fun r _ _ => by cases r <;> trivial

omit [DecidableEq B] in
/-- A build that succeeds leaves an ISO. -/
theorem createInstallationIso_spec (E : Env B) (s : Spec) (dir : Path) :
    Tries (Alone ok) (Installer.createInstallationIso E s dir)
      (fun _ w' => (w'.fs (dir.join isoPath)).isSome) (fun _ _ => True) w := by
  refine Tries.seq (tries_true _) fun snap _ _ => ?_
  refine Tries.seq (tries_true _) fun draw _ _ => ?_
  refine Tries.seq (tries_true _) fun fetched w₁ _ => ?_
  refine Tries.seq (Q := fun _ w' => (w'.fs (dir.join isoPath)).isSome) ?_ fun _ w₂ hiso => ?_
  · refine Tries.seq (tries_true _) fun err w₂ _ => ?_
    refine Tries.seq (Q := fun _ w' => (w'.fs (dir.join isoPath)).isSome) ?_ fun _ w₃ h => ?_
    · refine meets_call fun c r w' hc _ => ⟨trivial, meets_ret.2 ?_⟩
      obtain ⟨rfl, rfl⟩ | ⟨e, rfl, -⟩ := answer_writeIso hc
      · simp [World.setEntry]
      · trivial
    · rw [tries_liftExcept]
      cases err with
      | ok _ => exact h
      | error e => trivial
  -- the rest writes files, but removes none
  have hrest : ∀ (a : Act B Unit), a.run.Uses Op.keepsFiles →
      ∀ w, (w.fs (dir.join isoPath)).isSome →
      Tries (Alone ok) a (fun _ w' => (w'.fs (dir.join isoPath)).isSome) (fun _ _ => True) w :=
    fun a ha w hw => tries_keepsFiles ha hw
  refine Tries.seq (Q := fun _ w' => (w'.fs (dir.join isoPath)).isSome) ?_
    fun kubeconfig w₃ h₃ => ?_
  · rw [tries_liftExcept]
    cases fetched.kubeconfig with
    | ok b => exact hiso
    | error e => trivial
  have hsave : ∀ path content, (Installer.fetchAndPersist (Installer.saveStateFile E dir draw)
      (Installer.persistToFile path content)).run.Uses Op.keepsFiles := fun path content =>
    fetchAndPersist_uses (Prog.uses_perform trivial)
      (uses_bind (Prog.uses_perform trivial) fun _ => Prog.uses_perform trivial)
  refine Tries.seq (hrest _ (hsave ..) _ h₃) fun _ w₄ h₄ => ?_
  refine Tries.seq (hrest _ (hsave ..) _ h₄) fun _ w₅ h₅ => ?_
  exact hrest _ (hsave ..) _ h₅

/-- The image of a work directory and its credentials are in place: the four files exist, and the
three credential files are in the identity secrets. -/
structure ImageReady (cd : NamespacedName) (dir : Path) (w : World B) : Prop where
  iso : (w.fs (dir.join isoPath)).isSome
  creds : CredsStored cd dir w

omit [DecidableEq B] in
theorem HoldsFile.of_eq {kind : IdentitySecret} {cd : NamespacedName} {path : Path}
    {w w' : World B} (h : HoldsFile kind cd path w) (hf : w'.fs path = w.fs path)
    (hs : w'.secrets = w.secrets) : HoldsFile kind cd path w' := by
  obtain ⟨b, s, hb, hsec, hg⟩ := h
  exact ⟨b, s, hf ▸ hb, hs ▸ hsec, hg⟩

omit [DecidableEq B] in
/-- Nothing below the root of the work directory and no secret changed. -/
theorem ImageReady.of_eq {cd : NamespacedName} {dir : Path} {w w' : World B}
    (h : ImageReady cd dir w) (hf : ∀ p, p.root = dir.root → w'.fs p = w.fs p)
    (hs : w'.secrets = w.secrets) : ImageReady cd dir w' where
  iso := hf (dir.join isoPath) rfl ▸ h.iso
  creds :=
    ⟨h.creds.password.of_eq (hf _ rfl) hs, h.creds.kubeconfig.of_eq (hf _ rfl) hs,
      h.creds.manifest.of_eq (hf _ rfl) hs⟩

theorem ensureCreds_ready (E : Env B) (cd : NamespacedName) (uid : String) (dir : Path)
    (hiso : (w.fs (dir.join isoPath)).isSome) :
    Tries (Alone ok) (ensureCreds E cd uid dir) (fun _ w' => ImageReady cd dir w')
      (fun _ _ => True) w :=
  Tries.mono (ensureCreds_spec E cd uid dir) (fun _ _ h => ⟨h.1 ▸ hiso, h.2⟩) fun _ _ h => h

variable (E : Env B) (inp : BuildInput)

theorem finishBuild_spec (dir : Path) :
    Tries (Alone ok) (finishBuild E inp dir) (fun _ w' => ImageReady inp.cdKey dir w')
      (fun _ _ => True) w :=
  Tries.seq (tries_wrap (createInstallationIso_spec E inp.spec dir)) fun _ _ h =>
    ensureCreds_ready E _ _ _ h

omit [DecidableEq B] in
/-- What the body establishes holds after the deferred removal if the removal keeps it. -/
theorem deferRemoveAll_runs {guar : World B → (op : Op B) → Resp op → World B → Prop} {tmp : Path}
    {body : Act B Unit} {Q : World B → Prop} (htmp : ∀ w, Permits ok guar w (.removeAll tmp))
    (hQ : ∀ w kept, Q w → Q (w.prune (·.within tmp) kept))
    (hbody : Tries (Running ok guar) body (fun _ w' => Q w') (fun _ _ => True) w) :
    Tries (Running ok guar) (deferRemoveAll tmp body) (fun _ w' => Q w') (fun _ _ => True) w := by
  refine Tries.seq (Q := fun r w' => r = .ok () → Q w') ?_ fun r w₁ hr => ?_
  · exact tries_attempt (Tries.mono hbody (fun _ _ h _ => h) fun _ _ _ h => nomatch h)
  refine Tries.seq (Q := fun _ w' => r = .ok () → Q w') ?_ fun _ w₂ h₂ => ?_
  · refine tries_attempt (meets_call fun c r' w' hc ho => ⟨htmp _ _ _ _ hc ho, meets_ret.2 ?_⟩)
    have hpost : r = .ok () → Q w' := by
      intro hok
      obtain ⟨-, rfl⟩ | ⟨_, kept, -, rfl⟩ := Choice.removal_eq hc
      · exact hQ _ _ (hr hok)
      · exact hQ _ _ (hr hok)
    cases r' <;> exact hpost
  · rw [tries_liftExcept]
    cases r with
    | ok _ => exact h₂ rfl
    | error e => trivial

omit [DecidableEq B] in
/-- The deferred removal of a temp directory does not touch the work directory. -/
theorem deferRemoveAll_ready {cd : NamespacedName} {dir : Path} {tmp : Path} {body : Act B Unit}
    (hroot : dir.root ≠ tmp.root)
    (hbody : Tries (Alone ok) body (fun _ w' => ImageReady cd dir w') (fun _ _ => True) w) :
    Tries (Alone ok) (deferRemoveAll tmp body) (fun _ w' => ImageReady cd dir w')
      (fun _ _ => True) w := by
  refine deferRemoveAll_runs (fun _ => .free) (fun w₁ kept h => h.of_eq (fun p hp => ?_) rfl) hbody
  have hne : p.root ≠ tmp.root := hp ▸ hroot
  simp [World.prune, Path.within, hne]

theorem rebuild_spec {ns uid : String} {rel : List String} :
    Tries (Alone ok) (rebuild E inp ⟨.data ns uid, rel⟩)
      (fun _ w' => ImageReady inp.cdKey ⟨.data ns uid, rel⟩ w') (fun _ _ => True) w := by
  refine Tries.seq (tries_true _) fun _ _ _ => ?_
  refine Tries.seq (tries_true _) fun _ _ _ => ?_
  refine Tries.seq (tries_true _) fun psData _ _ => ?_
  refine Tries.seq (tries_true _) fun caBundle _ _ => ?_
  refine Tries.seq (tries_true _) fun _ _ _ => ?_
  refine Tries.seq (tries_true _) fun idData _ _ => ?_
  cases idData with
  | none => exact Tries.seq (tries_true _) fun _ _ _ => finishBuild_spec E inp _
  | some idData =>
    refine Tries.seq (Q := fun tmp _ => ∃ name, tmp = ⟨.temp name, []⟩) ?_ ?_
    · refine tries_wrap (meets_call fun c r w' hc _ => ⟨trivial, meets_ret.2 ?_⟩)
      rcases Choice.write_eq hc with ⟨-, rfl | ⟨_, rfl⟩⟩ | ⟨-, _, rfl⟩
      · exact ⟨_, rfl⟩
      · trivial
      · trivial
    · rintro _ _ ⟨name, rfl⟩
      refine deferRemoveAll_ready (by simp) ?_
      refine Tries.seq (tries_true _) fun _ _ _ => ?_
      exact Tries.seq (tries_true _) fun _ _ _ => finishBuild_spec E inp _

omit [DecidableEq B] in
theorem fileExists_spec (path : Path) :
    Meets (Alone ok) (fileExists path)
      (fun b w' => w' = w ∧ (b = true → (w.fs path).isSome)) w := by
  refine Meets.bind (Meets.mono (tries_stat (Q := fun _ w' => w' = w ∧ (w.fs path).isSome)
    (R := fun _ w' => w' = w) .free (fun h => ⟨rfl, h⟩) (fun _ => rfl) fun _ => rfl) ?_)
  rintro (e | _) w' hr
  · exact meets_ret.2 ⟨hr, fun h => nomatch h⟩
  · exact meets_ret.2 ⟨hr.1, fun _ => hr.2⟩

omit [DecidableEq B] in
theorem verifyIsoAndAuthExists_spec (dir : Path) :
    Meets (Alone ok) (verifyIsoAndAuthExists dir)
      (fun b w' => w' = w ∧ (b = true →
        ∀ file ∈ [isoPath, kubeadminPasswordPath, kubeconfigPath, manifestPath],
          (w.fs (dir.join file)).isSome)) w := by
  refine Meets.allM (I := (· = w)) _ (fun _ _ h hr => hr ▸ h) ?_ rfl
  rintro file _ rfl
  exact fileExists_spec _

theorem buildImage_spec {ns uid : String} {rel : List String} :
    Tries (Alone ok) (buildImage E inp ⟨.data ns uid, rel⟩)
      (fun _ w' => ImageReady inp.cdKey ⟨.data ns uid, rel⟩ w') (fun _ _ => True) w := by
  refine Tries.seq (Tries.lift (verifyIsoAndAuthExists_spec _)) ?_
  rintro b _ ⟨rfl, hb⟩
  cases b with
  | true => exact ensureCreds_ready E _ _ _ (hb rfl _ (List.mem_cons_self ..))
  | false => exact rebuild_spec E inp

/-- `writeInputData` under any contract of code that runs alone. `I` holds until the lock is held,
`Q` after the build, and `R` if there is no build or it fails. -/
theorem writeInputData_steps {S C : Type} {act : (op : Op B) → C → S → Resp op × S}
    {ok guar : S → (op : Op B) → Resp op → S → Prop} {A : Op B → Prop} {I Q R : S → Prop}
    {uid : String} {s : S} (hr : ∀ op : Op B, op.target = .nothing → A op)
    (ht : ∀ op : Op B, Tidies E (lockDirOf inp.ns uid) op → A op)
    (hopen : ∀ {α : Type} {p : Program B α} {s : S}, p.Uses A → I s →
      Meets (.atomic act ok guar) p (fun _ s' => I s') s)
    (hbuild : ∀ s, I s → Tries (.atomic act ok guar)
      (buildImage E inp (getClusterConfigDir inp.ns uid)) (fun _ s' => Q s') (fun _ s' => R s') s)
    (hR : ∀ s, I s → R s) (hs : I s) :
    Tries (.atomic act ok guar) (writeInputData E inp uid)
      (fun res s' => (res = {} ∧ Q s') ∨ (res = { requeueAfter := 5 } ∧ R s'))
      (fun _ s' => R s') s := by
  refine Tries.seq (Q := fun dirs s' => dirs = (lockDirOf inp.ns uid,
    (lockDirOf inp.ns uid).join [filesDir]) ∧ I s') ?_ ?_
  · refine Tries.seq (Q := fun _ s' => I s') ?_ fun _ s₁ h₁ => fun _ hs => hs ▸ ⟨rfl, h₁⟩
    refine Meets.mono (hopen (Prog.uses_perform (ht _ .files)) hs) fun r s' h' => ?_
    cases r with
    | ok _ => exact h'
    | error e => exact hR s' h'
  rintro _ s₁ ⟨rfl, h₁⟩
  refine Tries.seq (Q := fun r s' => (r = .ran (.ok ()) → Q s') ∧ (r ≠ .ran (.ok ()) → R s'))
    (Tries.lift ?_) ?_
  · refine Meets.seq (hopen (lockForDir_uses hr E _ (ht _ .lock)) h₁) ?_
    rintro (e | _ | _) s₂ h₂
    · exact fun _ hs => hs ▸ ⟨by simp, fun _ => hR s₂ h₂⟩
    · exact fun _ hs => hs ▸ ⟨by simp, fun _ => hR s₂ h₂⟩
    · refine Meets.seq (hbuild s₂ h₂) fun r s₃ h₃ => ?_
      cases r with
      | error e => exact fun _ hs => hs ▸ ⟨by simp, fun _ => h₃⟩
      | ok _ => exact fun _ hs => hs ▸ ⟨fun _ => h₃, fun hne => absurd rfl hne⟩
  · rintro (e | _ | (e | _)) s₂ ⟨hran, hnot⟩
    · exact fun _ hs => hs ▸ hnot (by simp)
    · exact fun _ hs => hs ▸ .inr ⟨rfl, hnot (by simp)⟩
    · exact fun _ hs => hs ▸ hnot (by simp)
    · exact fun _ hs => hs ▸ .inl ⟨rfl, hran rfl⟩

/-- A call of `writeInputData` that succeeds without being asked to wait leaves the image and its
credentials in place. -/
theorem writeInputData_spec (uid : String) :
    Tries (Alone ok) (writeInputData E inp uid)
      (fun res w' => res.isZero = true →
        ImageReady inp.cdKey (getClusterConfigDir inp.ns uid) w') (fun _ _ => True) w := by
  refine Tries.mono (writeInputData_steps E inp (A := fun _ => True) (I := fun _ => True)
    (R := fun _ => True) (fun _ _ => trivial) (fun _ _ => trivial) (fun _ _ => meets_true _)
    (fun _ _ => buildImage_spec E inp) (fun _ _ => trivial) trivial) ?_ fun _ _ _ => trivial
  rintro res w' (⟨-, h⟩ | ⟨rfl, -⟩) hzero
  · exact h
  · cases hzero

end Alone

end ImageBasedInstall

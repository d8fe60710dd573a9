import ImageBasedInstall.Verify.ClusterIDs
import ImageBasedInstall.Verify.Images
import ImageBasedInstall.Verify.Runs

/-!
# The identity of a cluster

The kubeconfig, the password and the seed reconfiguration of a cluster live in its three secrets,
and in the work directory of the object that is installed. `IdentityKept` is what holds between the
calls of a pass: a seed reconfiguration is stored only beside the credentials it belongs to, with a
hash of the stored password, and a work directory without a missing output agrees with the secrets.

A build keeps it if the password that the installer draws in a reinstall is the stored one, if
the removal of a work directory leaves nothing, and if no output is left half written beside the
others (`Steady`).
-/

namespace ImageBasedInstall

open Interactive Installer

variable {B : Type}

/-! ## Credentials -/

/-- Two seed reconfigurations with the same password hash and the same crypto. -/
def SameCrypto (E : Env B) (a b : B) : Prop :=
  ∃ s t, E.unmarshalSeed a = some s ∧ E.unmarshalSeed b = some t ∧
    t.kubeadminPasswordHash = s.kubeadminPasswordHash ∧
    t.kubeconfigCryptoRetention = s.kubeconfigCryptoRetention

/-- The password hash in the seed reconfiguration was computed from the password. -/
def HashOf (E : Env B) (password seed : B) : Prop :=
  ∃ pw salt s, password = E.ofString pw ∧ E.unmarshalSeed seed = some s ∧
    s.kubeadminPasswordHash = E.bcrypt salt pw

/-- The same kubeconfig and password, and the same crypto. -/
structure SameIdentity (E : Env B) (id id' : IdentityData B) : Prop where
  kubeconfig : id'.kubeconfig = id.kubeconfig
  kubeadminPassword : id'.kubeadminPassword = id.kubeadminPassword
  crypto : SameCrypto E id.seedReconfig id'.seedReconfig

/-- Credentials that can be stored: none is empty, and the hash is one of the password. -/
structure Storable (E : Env B) (t : IdentityData B) : Prop where
  hash : HashOf E t.kubeadminPassword t.seedReconfig
  kubeconfig : E.isEmpty t.kubeconfig = false
  kubeadminPassword : E.isEmpty t.kubeadminPassword = false
  seedReconfig : E.isEmpty t.seedReconfig = false

section Credentials

variable {E : Env B} {a b c : B} {id id' id'' : IdentityData B}

theorem HashOf.sameCrypto (h : HashOf E a b) : SameCrypto E b b := by
  obtain ⟨-, -, s, -, hs, -⟩ := h
  exact ⟨s, s, hs, hs, rfl, rfl⟩

theorem SameCrypto.trans (h : SameCrypto E a b) (h' : SameCrypto E b c) : SameCrypto E a c := by
  obtain ⟨s, t, hs, ht, hhash, hcrypto⟩ := h
  obtain ⟨t', u, ht', hu, hhash', hcrypto'⟩ := h'
  obtain rfl : t = t' := Option.some.inj (ht.symm.trans ht')
  exact ⟨s, u, hs, hu, hhash'.trans hhash, hcrypto'.trans hcrypto⟩

theorem SameIdentity.refl (h : HashOf E id.kubeadminPassword id.seedReconfig) :
    SameIdentity E id id :=
  ⟨rfl, rfl, h.sameCrypto⟩

theorem SameIdentity.trans (h : SameIdentity E id id') (h' : SameIdentity E id' id'') :
    SameIdentity E id id'' :=
  ⟨h'.kubeconfig.trans h.kubeconfig, h'.kubeadminPassword.trans h.kubeadminPassword,
    h.crypto.trans h'.crypto⟩

end Credentials

/-! ## Payloads -/

section Payloads

variable {E : Env B} {kind kind' : IdentitySecret} {cd cd' : NamespacedName} {uid : String}
  {w w' : World B} {b : B} {s : Secret B} {id : IdentityData B}

/-- The names of the identity secrets tell them apart. -/
theorem IdentitySecret.key_inj (hkind : kind ∈ identitySecrets) (hkind' : kind' ∈ identitySecrets)
    (h : kind.key cd = kind'.key cd') : kind = kind' ∧ cd = cd' := by
  have hsame : ∀ text : String, cd.ns = cd'.ns → cd.name ++ text = cd'.name ++ text → cd = cd' := by
    intro text hns hname
    have hlist := congrArg String.toList hname
    rw [String.toList_append, String.toList_append, List.append_cancel_right_eq] at hlist
    cases cd
    cases cd'
    simp_all
  simp only [identitySecrets, List.mem_cons, List.not_mem_nil, or_false] at hkind hkind'
  rcases hkind with rfl | rfl | rfl <;> rcases hkind' with rfl | rfl | rfl
  · exact ⟨rfl, hsame _ (congrArg (·.ns) h) (congrArg (·.name) h)⟩
  · exact absurd h (adminPassword_ne_kubeconfig cd cd')
  · exact absurd h (adminPassword_ne_seed cd cd')
  · exact absurd h.symm (adminPassword_ne_kubeconfig cd' cd)
  · exact ⟨rfl, hsame _ (congrArg (·.ns) h) (congrArg (·.name) h)⟩
  · exact absurd h (kubeconfig_ne_seed cd cd')
  · exact absurd h.symm (adminPassword_ne_seed cd' cd)
  · exact absurd h.symm (kubeconfig_ne_seed cd' cd)
  · exact ⟨rfl, hsame _ (congrArg (·.ns) h) (congrArg (·.name) h)⟩

theorem payload_of_shown (h : (w'.secrets (kind.key cd)).map Secret.shown =
    (w.secrets (kind.key cd)).map Secret.shown) : w'.payload E kind cd = w.payload E kind cd := by
  exact bind_of_shown h fun data => (data.lookup kind.dataKey).filter fun b => !E.isEmpty b

theorem payload_of_eq (h : w'.secrets (kind.key cd) = w.secrets (kind.key cd)) :
    w'.payload E kind cd = w.payload E kind cd := by
  unfold World.payload
  rw [h]

theorem payload_of_valid (h : ExistsAndValid kind cd b w) (hb : E.isEmpty b = false) :
    w.payload E kind cd = some b := by
  obtain ⟨s, hs, hcached, hget⟩ := h
  simp [World.payload, hs, Option.filter, hcached, hget, hb]

theorem identity_eq_some : w.identity E cd = some id ↔
    w.payload E kubeconfigSecret cd = some id.kubeconfig ∧
    w.payload E adminPasswordSecret cd = some id.kubeadminPassword ∧
    w.payload E seedReconfigurationSecret cd = some id.seedReconfig := by
  cases id
  simp [World.identity, Option.bind_eq_some_iff]

theorem identity_of_payloads
    (h : ∀ kind ∈ identitySecrets, w'.payload E kind cd = w.payload E kind cd) :
    w'.identity E cd = w.identity E cd := by
  unfold World.identity
  rw [h kubeconfigSecret (by simp [identitySecrets]), h adminPasswordSecret
    (by simp [identitySecrets]), h seedReconfigurationSecret (by simp [identitySecrets])]

theorem nonempty_of_payload (h : w.payload E kind cd = some b) : E.isEmpty b = false := by
  obtain ⟨s, -, hb⟩ := Option.bind_eq_some_iff.1 h
  simpa using (Option.filter_eq_some_iff.1 hb).2

end Payloads

/-! ## The invariant -/

/-- The object is installed for the cluster deployment. -/
def Refers (cd key : NamespacedName) (ici : ImageClusterInstall) : Prop :=
  key.ns = cd.ns ∧ ici.spec.clusterDeploymentRef = some cd.name

/-- The credential files of a work directory, with what they hold. -/
def IdentityData.files (t : IdentityData B) : List (List String × B) :=
  [(kubeadminPasswordPath, t.kubeadminPassword), (kubeconfigPath, t.kubeconfig),
    (manifestPath, t.seedReconfig)]

/-- The entry is an output that belongs to the credentials `t`. -/
def Belongs (t : IdentityData B) (file : List String) : Entry B → Prop
  | .file b => (file, b) ∈ t.files
  | .iso i _ => file = isoPath → i.manifest = t.seedReconfig
  | .dir => file ≠ isoPath

/-- Whatever output the directory holds belongs to the credentials `t`. -/
def Toward (dir : Path) (t : IdentityData B) (w : World B) : Prop :=
  ∀ file ∈ buildOutputs, ∀ e, w.fs (dir.join file) = some e → Belongs t file e

/-- Credentials that fit the stored identity, if there is one. -/
structure FitsIdentity (E : Env B) (cd : NamespacedName) (t : IdentityData B) (w : World B) :
    Prop where
  storable : Storable E t
  agrees : ∀ id, w.identity E cd = some id → SameIdentity E id t

/-- A seed reconfiguration is stored only with the other two credentials, and with a hash of the
stored password. -/
def SecretsKept (E : Env B) (cd : NamespacedName) (w : World B) : Prop :=
  w.payload E seedReconfigurationSecret cd = none ∨
  ∃ id, w.identity E cd = some id ∧ HashOf E id.kubeadminPassword id.seedReconfig

/-- An output is missing, or all that are there fit the stored identity. -/
def DirKept (E : Env B) (cd : NamespacedName) (dir : Path) (w : World B) : Prop :=
  Missing dir w ∨ ∃ t, FitsIdentity E cd t w ∧ Toward dir t w

/-- What holds between the calls of a run over the cluster deployment `cd`. -/
structure IdentityKept (E : Env B) (cd : NamespacedName) (w : World B) : Prop where
  uids : DistinctUIDs w
  single : ∀ k k' ici ici', w.icis k = some ici → w.icis k' = some ici' → Refers cd k ici →
    Refers cd k' ici' → k = k'
  secrets : SecretsKept E cd w
  dirs : ∀ k ici, w.icis k = some ici → Refers cd k ici →
    DirKept E cd (getClusterConfigDir k.ns ici.uid) w

/-- The invariant holds after the step, and a stored identity is still stored. -/
structure Preserves (E : Env B) (cd : NamespacedName) (w w' : World B) : Prop where
  kept : IdentityKept E cd w'
  identity : ∀ id, w.identity E cd = some id →
    ∃ id', w'.identity E cd = some id' ∧ SameIdentity E id id'

section Invariant

variable {E : Env B} {cd key : NamespacedName} {ici : ImageClusterInstall} {t : IdentityData B}
  {dir : Path} {w w' : World B}

theorem SecretsKept.hash {id : IdentityData B} (h : SecretsKept E cd w)
    (hid : w.identity E cd = some id) : HashOf E id.kubeadminPassword id.seedReconfig := by
  rcases h with hnone | ⟨id', hid', hhash⟩
  · rw [(identity_eq_some.1 hid).2.2] at hnone
    cases hnone
  · obtain rfl : id = id' := Option.some.inj (hid.symm.trans hid')
    exact hhash

theorem SecretsKept.of_eq (h : SecretsKept E cd w)
    (hseed : w'.payload E seedReconfigurationSecret cd = w.payload E seedReconfigurationSecret cd)
    (hid : w'.identity E cd = w.identity E cd) : SecretsKept E cd w' := by
  unfold SecretsKept
  rw [hseed, hid]
  exact h

theorem FitsIdentity.of_eq (h : FitsIdentity E cd t w) (hid : w'.identity E cd = w.identity E cd) :
    FitsIdentity E cd t w' :=
  ⟨h.storable, fun id hid' => h.agrees id (hid ▸ hid')⟩

/-- Outputs stay or get lost. -/
theorem Toward.of_outputs (h : Toward dir t w)
    (hfs : ∀ file ∈ buildOutputs, w'.fs (dir.join file) = w.fs (dir.join file) ∨
      w'.fs (dir.join file) = none) : Toward dir t w' := by
  intro file hfile e he
  rcases hfs file hfile with hk | hk
  · exact h file hfile e (hk ▸ he)
  · rw [hk] at he
    cases he

theorem DirKept.of_outputs (h : DirKept E cd dir w) (hid : w'.identity E cd = w.identity E cd)
    (hfs : ∀ file ∈ buildOutputs, w'.fs (dir.join file) = w.fs (dir.join file) ∨
      w'.fs (dir.join file) = none) : DirKept E cd dir w' := by
  rcases h with hmissing | ⟨t, hfits, htoward⟩
  · exact .inl (hmissing.of_outputs hfs)
  · exact .inr ⟨t, hfits.of_eq hid, htoward.of_outputs hfs⟩

/-- The credential files of a directory hold their part of the credentials. -/
theorem Toward.file {file : List String} {b : B} (h : Toward dir t w) (hfile : file ∈ buildOutputs)
    (hb : w.fs (dir.join file) = some (.file b)) : (file, b) ∈ t.files :=
  h file hfile _ hb

theorem Toward.password {b : B} (h : Toward dir t w)
    (hb : w.fs (dir.join kubeadminPasswordPath) = some (.file b)) : b = t.kubeadminPassword := by
  have hmem := h.file (by decide) hb
  have hne : kubeadminPasswordPath ≠ kubeconfigPath ∧
      kubeadminPasswordPath ≠ manifestPath := by decide
  simpa [IdentityData.files, hne] using hmem

theorem Toward.kubeconfig {b : B} (h : Toward dir t w)
    (hb : w.fs (dir.join kubeconfigPath) = some (.file b)) : b = t.kubeconfig := by
  have hmem := h.file (by decide) hb
  have hne : kubeconfigPath ≠ kubeadminPasswordPath ∧ kubeconfigPath ≠ manifestPath := by decide
  simpa [IdentityData.files, hne] using hmem

theorem Toward.manifest {b : B} (h : Toward dir t w)
    (hb : w.fs (dir.join manifestPath) = some (.file b)) : b = t.seedReconfig := by
  have hmem := h.file (by decide) hb
  have hne : manifestPath ≠ kubeadminPasswordPath ∧ manifestPath ≠ kubeconfigPath := by decide
  simpa [IdentityData.files, hne] using hmem

/-- The image, which is nothing but an image. -/
theorem Toward.image {e : Entry B} (h : Toward dir t w) (he : w.fs (dir.join isoPath) = some e) :
    ∃ image s, e = .iso image s ∧ image.manifest = t.seedReconfig := by
  have hbelongs := h isoPath (by decide) e he
  cases e with
  | iso image s => exact ⟨image, s, rfl, hbelongs rfl⟩
  | dir => exact absurd rfl hbelongs
  | file b =>
    have hne : isoPath ≠ kubeadminPasswordPath ∧ isoPath ≠ kubeconfigPath ∧
        isoPath ≠ manifestPath := by
      decide
    simp [Belongs, IdentityData.files, hne] at hbelongs

/-- What the file system says of the outputs, if it has no image yet. -/
theorem toward_of_content (hiso : w.fs (dir.join isoPath) = none)
    (hfiles : ∀ file ∈ buildOutputs, ∀ b, w.content (dir.join file) = some b →
      (file, b) ∈ t.files) :
    Toward dir t w := by
  intro file hfile e he
  have hne : file ≠ isoPath := by
    rintro rfl
    rw [hiso] at he
    cases he
  cases e with
  | file b => exact hfiles file hfile b (by simp [World.content, he, Entry.content])
  | iso i s => exact fun h => absurd h hne
  | dir => exact hne

end Invariant

/-! ## Steps that leave the identity alone -/

/-- A step that has nothing to do with the identity: the payloads stay, objects keep their UIDs and
references, and outputs stay or get lost. -/
structure Bystands (E : Env B) (cd : NamespacedName) (w w' : World B) : Prop where
  uids : DistinctUIDs w'
  payloads : ∀ kind ∈ identitySecrets, w'.payload E kind cd = w.payload E kind cd
  icis : ∀ k ici', w'.icis k = some ici' → Refers cd k ici' →
    ∃ ici, w.icis k = some ici ∧ Refers cd k ici ∧ ici'.uid = ici.uid
  outputs : ∀ k ici', w'.icis k = some ici' → Refers cd k ici' → ∀ file ∈ buildOutputs,
    w'.fs ((getClusterConfigDir k.ns ici'.uid).join file) =
      w.fs ((getClusterConfigDir k.ns ici'.uid).join file) ∨
    w'.fs ((getClusterConfigDir k.ns ici'.uid).join file) = none

section Bystanders

variable {E : Env B} {cd req : NamespacedName} {w₀ w w' : World B} {op : Op B} {c : Choice B}
  {r : Resp op}

theorem Bystands.preserves (hs : Bystands E cd w w') (h : IdentityKept E cd w) :
    Preserves E cd w w' := by
  have hid := identity_of_payloads hs.payloads
  have hseed := hs.payloads seedReconfigurationSecret (by simp [identitySecrets])
  refine ⟨⟨hs.uids, ?_, h.secrets.of_eq hseed hid, ?_⟩, ?_⟩
  · intro k k' ici ici' hk hk' href href'
    obtain ⟨a, ha, hrefa, -⟩ := hs.icis k ici hk href
    obtain ⟨b, hb, hrefb, -⟩ := hs.icis k' ici' hk' href'
    exact h.single k k' a b ha hb hrefa hrefb
  · intro k ici' hk href
    obtain ⟨ici, hici, hrefi, huid⟩ := hs.icis k ici' hk href
    have hdir := h.dirs k ici hici hrefi
    rw [← huid] at hdir
    exact hdir.of_outputs hid (hs.outputs k ici' hk href)
  · intro id hid'
    exact ⟨id, hid.trans hid', .refl (h.secrets.hash hid')⟩

/-- The objects stay as they are. -/
theorem Bystands.of_icis (huids : DistinctUIDs w) (hicis : w'.icis = w.icis)
    (hpayloads : ∀ kind ∈ identitySecrets, w'.payload E kind cd = w.payload E kind cd)
    (houtputs : ∀ k ici, w.icis k = some ici → Refers cd k ici → ∀ file ∈ buildOutputs,
      w'.fs ((getClusterConfigDir k.ns ici.uid).join file) =
        w.fs ((getClusterConfigDir k.ns ici.uid).join file) ∨
      w'.fs ((getClusterConfigDir k.ns ici.uid).join file) = none) : Bystands E cd w w' where
  uids := huids.of_kept fun _ ici hk => ⟨ici, hicis ▸ hk, rfl⟩
  payloads := hpayloads
  icis _ ici hk href := ⟨ici, hicis ▸ hk, href, rfl⟩
  outputs k ici hk href := houtputs k ici (hicis ▸ hk) href

/-- A file operation that writes no output of an object of the cluster deployment. -/
theorem bystands_of_file (huids : DistinctUIDs w) (hc : answer op c w = (r, w'))
    (htarget : op.target ∈ [.nothing, .file, .iso])
    (hop : ∀ k ici, w.icis k = some ici → Refers cd k ici → ∀ file ∈ buildOutputs,
      ¬op.writes ((getClusterConfigDir k.ns ici.uid).join file)) : Bystands E cd w w' := by
  have hframe : Framed [.nothing, .file, .iso] w w' :=
    (answer_framed hc).mono (by simpa using htarget)
  refine .of_icis huids (hframe.icis (by decide)) (fun kind _ => ?_) ?_
  · exact payload_of_eq (by rw [hframe.secrets (by decide)])
  · exact fun k ici hk href file hfile => kept_or_gone hc (hop k ici hk href file hfile)

theorem bystands_of_read (huids : DistinctUIDs w) (hop : op.target = .nothing)
    (hc : answer op c w = (r, w')) : Bystands E cd w w' :=
  bystands_of_file huids hc (by simp [hop]) fun _ _ _ _ =>
    (sparesOutputs_of_plain (plain_of_read hop)).1

theorem PassCall.not_writes_output (h : PassCall E req w₀ w op) {ns uid : String}
    {file : List String} (hfile : file ∈ buildOutputs) :
    ¬op.writes ((getClusterConfigDir ns uid).join file) := by
  cases h with
  | read hn => exact (sparesOutputs_of_plain (plain_of_read hn)).1 file hfile
  | tidy _ _ ht => exact ht.not_writes_output
  | _ => exact id

/-- The calls of a pass outside the build. -/
theorem bystands_of_call (huids : DistinctUIDs w) (hop : PassCall E req w₀ w op)
    (hc : answer op c w = (r, w')) : Bystands E cd w w' where
  uids := distinctUIDs_pass (passStep_of_call hop hc) huids
  payloads kind _ := payload_of_shown (shown_of_call hop hc _)
  icis k ici' hk href := by
    obtain ⟨ici, hici, huid, hconf, -⟩ := (passStep_of_call hop hc).icis.kept k ici' hk
    refine ⟨ici, hici, ⟨href.1, ?_⟩, huid⟩
    rw [← clusterDeploymentRef_eq_of_configured hconf]
    exact href.2
  outputs _ _ _ _ _ hfile := kept_or_gone hc (hop.not_writes_output hfile)

end Bystanders

end ImageBasedInstall

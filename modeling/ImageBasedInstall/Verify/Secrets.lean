import ImageBasedInstall.Installer.Symbolic
import ImageBasedInstall.Verify.Build

/-!
# The identity secrets are managed

A secret that already holds the bytes of its file is left as it is, whatever its labels and owners
are. So an `Ensure` function that succeeds leaves a fully managed secret exactly if such a secret
was one before the call. A second call finds the bytes and changes nothing.
-/

namespace ImageBasedInstall

open Interactive

variable {B : Type} [DecidableEq B]

section

variable {ok : World B → (op : Op B) → Resp op → World B → Prop} {w w' : World B}
  {kind : IdentitySecret} {cd : NamespacedName} {uid : String} {b : B} {path : Path}

omit [DecidableEq B] in
theorem FullyManaged.isCached {s : Secret B} (h : FullyManaged kind cd uid b s) :
    s.isCached = true := by
  have hlabel : s.labels secretResourceLabel = some "true" :=
    h.labels (secretResourceLabel, "true") (by simp [IdentitySecret.labels])
  simp [Secret.isCached, hlabel]

omit [DecidableEq B] in
/-- After a call that succeeded, the payload is found. -/
theorem Ensures.valid (h : Ensures kind cd uid b w w') : ExistsAndValid kind cd b w' := by
  cases h with
  | kept h heq => exact heq ▸ h
  | written _ _ _ s hs hmanaged => exact ⟨s, hs, hmanaged.isCached, hmanaged.payload⟩

omit [DecidableEq B] in
theorem Ensures.fs (h : Ensures kind cd uid b w w') : w'.fs = w.fs := by
  cases h with
  | kept _ heq => rw [heq]
  | written _ hfs => exact hfs

/-- A call that finds its payload changes nothing, whatever its calls reply. -/
theorem ensureSecret_again (E : Env B) (hfile : w.fs path = some (.file b))
    (h : ExistsAndValid kind cd b w) :
    Tries (Alone ok) (ensureSecret E kind cd uid path) (fun _ w' => w' = w)
      (fun _ w' => w' = w) w := by
  refine Tries.bind (tries_wrap (tries_readFile .free ?_ (fun _ => rfl) fun _ => rfl))
  intro b' hb'
  obtain rfl : b = b' := by simpa [hfile, Entry.content] using hb'
  refine Tries.seq (secretExistsAndValid_runs kind cd b fun _ _ => .free) ?_
  rintro valid _ ⟨rfl, hvalid⟩
  rw [hvalid.2 h]
  exact tries_pure.2 rfl

end

/-- The three functions, each with its kind of secret. -/
def ensureFunctions (E : Env B) :
    List (IdentitySecret × (NamespacedName → String → Path → Act B Unit)) :=
  [(kubeconfigSecret, ensureKubeconfigSecret E), (adminPasswordSecret, ensureAdminPasswordSecret E),
   (seedReconfigurationSecret, ensureSeedReconfigurationSecret E)]

theorem ensureFunctions_eq (E : Env B) :
    ∀ p ∈ ensureFunctions E, p.2 = ensureSecret E p.1 := by
  simp only [ensureFunctions, List.forall_mem_cons, List.not_mem_nil]
  exact ⟨rfl, rfl, rfl, nofun⟩

/-- The secret of a cluster deployment is left fully managed, and a second call changes nothing. -/
def LeavesManaged (kind : IdentitySecret) (ensure : Act B Unit) (cd : NamespacedName)
    (cdUID : String) (content : B) (w' : World B) : Prop :=
  (∃ s, w'.secrets (kind.key cd) = some s ∧ FullyManaged kind cd cdUID content s) ∧
  ∀ cs w'' r, ensure.run.exec answer cs w' = (w'', some r) → w'' = w'

/-- An `Ensure` function that succeeds leaves its secret fully managed exactly if a visible secret
that held the bytes of the file was so before. -/
theorem ensured_managed_iff (E : Env B) (kind : IdentitySecret)
    (ensure : NamespacedName → String → Path → Act B Unit)
    (hfun : (kind, ensure) ∈ ensureFunctions E) (cd : NamespacedName) (cdUID : String) (file : Path)
    (content : B) (w w' : World B) (hfile : w.fs file = some (.file content)) (cs : List (Choice B))
    (hexec : (ensure cd cdUID file).run.exec answer cs w = (w', some (.ok ()))) :
    LeavesManaged kind (ensure cd cdUID file) cd cdUID content w' ↔
      ∀ s, w.secrets (kind.key cd) = some s → s.isCached = true →
        s.get kind.dataKey = some content →
        (∀ kv ∈ kind.labels cd, s.labels kv.1 = some kv.2) ∧ cdUID ∈ s.owners := by
  obtain rfl : ensure = ensureSecret E kind := ensureFunctions_eq E _ hfun
  have hmeets : Tries (Alone fun _ _ _ _ => True) (ensureSecret E kind cd cdUID file) _ _ w :=
    ensureSecret_cases E kind cd cdUID file
  obtain ⟨b, hb, hensures⟩ := hmeets.exec cs (traceOk_true cs) (congrArg Prod.snd hexec)
  rw [hexec] at hensures
  dsimp only at hensures
  obtain rfl : content = b := by simpa [hfile] using hb
  constructor
  · rintro ⟨⟨s', hs', hmanaged⟩, -⟩ s hs hcached hget
    -- the call returned early, so this is the secret it found
    cases hensures with
    | kept _ heq =>
      obtain rfl : s = s' := Option.some.inj (hs.symm.trans (heq ▸ hs'))
      exact ⟨hmanaged.labels, hmanaged.owner⟩
    | written hnot => exact absurd ⟨s, hs, hcached, hget⟩ hnot
  · intro hcond
    refine ⟨?_, fun cs' w'' r hagain => ?_⟩
    · cases hensures with
      | kept h heq =>
        obtain ⟨s, hs, hcached, hget⟩ := h
        obtain ⟨hlabels, howner⟩ := hcond s hs hcached hget
        exact ⟨s, heq ▸ hs, hget, hlabels, howner⟩
      | written _ _ _ s hs hmanaged => exact ⟨s, hs, hmanaged⟩
    · have hsecond : Tries (Alone fun _ _ _ _ => True) (ensureSecret E kind cd cdUID file) _ _ w' :=
        ensureSecret_again E (hensures.fs ▸ hfile) hensures.valid
      have hpost := hsecond.exec cs' (traceOk_true cs') (congrArg Prod.snd hagain)
      rw [hagain] at hpost
      cases r with
      | ok u => exact hpost
      | error e => exact hpost

/-- A cluster deployment, a work directory with a credential file, and the secret as it is
re-created by hand before a reinstallation: with the operator's label and without owners. -/
def restoredCD : NamespacedName := ⟨"ibi-test", "ibi-test"⟩
def restoredFile : Path := ⟨.data "ibi-test" "8f2c", ["credentials"]⟩

def restoredWorld (kind : IdentitySecret) : World Doc where
  fs p := if p = restoredFile then some (.file (.text "credentials")) else none
  secrets k :=
    if k = kind.key restoredCD then
      some { data := kind.data Env.symbolic (.text "credentials")
             labels := Function.update (fun _ => none) secretResourceLabel (some "true") }
    else none

theorem ensured_managed_sample :
    ∃ w', (ensureKubeconfigSecret Env.symbolic restoredCD "3b1d" restoredFile).run.exec answer
        (List.replicate 4 {}) { restoredWorld kubeconfigSecret with secrets := fun _ => none } =
        (w', some (.ok ())) ∧
      LeavesManaged kubeconfigSecret
        (ensureKubeconfigSecret Env.symbolic restoredCD "3b1d" restoredFile) restoredCD "3b1d"
        (.text "credentials") w' := by
  have hok : ((ensureKubeconfigSecret Env.symbolic restoredCD "3b1d" restoredFile).run.exec answer
      (List.replicate 4 {}) { restoredWorld kubeconfigSecret with secrets := fun _ => none }).2 =
      some (.ok ()) := by decide +kernel
  refine ⟨_, Prod.ext rfl hok, ?_⟩
  exact (ensured_managed_iff Env.symbolic kubeconfigSecret _ (by simp [ensureFunctions]) restoredCD
    "3b1d" restoredFile (.text "credentials") _ _ rfl _ (Prod.ext rfl hok)).2 nofun

/-- The function succeeds on the restored secret and leaves it without its owner. -/
def LeavesUnmanaged (kind : IdentitySecret)
    (ensure : NamespacedName → String → Path → Act Doc Unit) : Prop :=
  ∃ w', (restoredWorld kind).fs restoredFile = some (.file (.text "credentials")) ∧
    (ensure restoredCD "3b1d" restoredFile).run.exec answer (List.replicate 4 {})
      (restoredWorld kind) = (w', some (.ok ())) ∧
    ∃ s, w'.secrets (kind.key restoredCD) = some s ∧
      ¬FullyManaged kind restoredCD "3b1d" (.text "credentials") s

/-- None of the three functions completes a secret that was restored by hand. -/
theorem restored_secret_unmanaged :
    LeavesUnmanaged kubeconfigSecret (ensureKubeconfigSecret Env.symbolic) ∧
    LeavesUnmanaged adminPasswordSecret (ensureAdminPasswordSecret Env.symbolic) ∧
    LeavesUnmanaged seedReconfigurationSecret (ensureSeedReconfigurationSecret Env.symbolic) := by
  have hunmanaged : ∀ (kind : IdentitySecret) (s : Secret Doc), s.owners = [] →
      ¬FullyManaged kind restoredCD "3b1d" (.text "credentials") s := by
    intro kind s hs h
    have howner := h.owner
    rw [hs] at howner
    cases howner
  exact ⟨⟨_, rfl, Prod.ext rfl (by decide +kernel), _, rfl, hunmanaged _ _ rfl⟩,
    ⟨_, rfl, Prod.ext rfl (by decide +kernel), _, rfl, hunmanaged _ _ rfl⟩,
    ⟨_, rfl, Prod.ext rfl (by decide +kernel), _, rfl, hunmanaged _ _ rfl⟩⟩

end ImageBasedInstall

import ImageBasedInstall.Cluster.Client

/-!
# Rules for the calls

What a reply says about the world it was given in, call by call, and the resulting triples for code
that runs alone (`Running ok guar`: replies are restricted by `ok`, each call satisfies `guar`).
-/

namespace ImageBasedInstall

open Interactive

variable {B : Type} {α : Type}

/-! ## Replies -/

/-- The ways a patch of the object `o` ends. -/
inductive Patched (w : World B) (o : Option α) (merge : α → α) (store : α → World B) :
    Except Err α → World B → Prop where
  | stored (a : α) (h : o = some a) : Patched w o merge store (.ok (merge a)) (store (merge a))
  | lost (a : α) (h : o = some a) (e : Err) : Patched w o merge store (.error e) (store (merge a))
  | failed (e : Err) : Patched w o merge store (.error e) w

theorem Choice.read_eq {c : Choice B} {w w' : World B} {x r : Except Err α}
    (h : c.read w x = (r, w')) : w' = w ∧ (r = x ∨ ∃ e, r = .error (.api e)) := by
  unfold Choice.read at h
  split at h <;> cases h
  · exact ⟨rfl, .inl rfl⟩
  · exact ⟨rfl, .inr ⟨_, rfl⟩⟩
  · exact ⟨rfl, .inr ⟨_, rfl⟩⟩

theorem Choice.write_eq {c : Choice B} {w w₁ w' : World B} {a : α} {r : Except Err α}
    (h : c.write w w₁ a = (r, w')) :
    (w' = w₁ ∧ (r = .ok a ∨ ∃ e, r = .error (.api e))) ∨ (w' = w ∧ ∃ e, r = .error (.api e)) := by
  unfold Choice.write at h
  split at h <;> cases h
  · exact .inl ⟨rfl, .inl rfl⟩
  · exact .inr ⟨rfl, _, rfl⟩
  · exact .inl ⟨rfl, .inr ⟨_, rfl⟩⟩

theorem Choice.patch_eq {c : Choice B} {w w' : World B} {o : Option α} {merge : α → α}
    {store : α → World B} {r : Except Err α} (h : c.patch w o merge store = (r, w')) :
    Patched w o merge store r w' := by
  unfold Choice.patch at h
  split at h
  · obtain ⟨rfl, rfl | ⟨e, rfl⟩⟩ := Choice.read_eq h
    · exact .failed _
    · exact .failed _
  · next a =>
    rcases Choice.write_eq h with ⟨rfl, rfl | ⟨e, rfl⟩⟩ | ⟨rfl, e, rfl⟩
    · exact .stored a rfl
    · exact .lost a rfl _
    · exact .failed _

theorem Choice.removal_eq {c : Choice B} {w w' : World B} {which : Path → Bool}
    {r : Except Err Unit} (h : c.removal w which = (r, w')) :
    (r = .ok () ∧ w' = w.prune which fun _ => false) ∨
      ∃ e kept, r = .error (.api e) ∧ w' = w.prune which kept := by
  unfold Choice.removal at h
  split at h <;> cases h
  · exact .inl ⟨rfl, rfl⟩
  · exact .inr ⟨_, _, rfl, rfl⟩
  · exact .inr ⟨_, _, rfl, rfl⟩

/-- A call that is refused fails, with the refusal or before it. -/
theorem Choice.read_refused {c : Choice B} {w w' : World B} {e : Err} {r : Except Err α}
    (h : c.read w (.error e) = (r, w')) : w' = w ∧ ∃ e', r = .error e' := by
  obtain ⟨rfl, rfl | ⟨t, rfl⟩⟩ := Choice.read_eq h
  · exact ⟨rfl, e, rfl⟩
  · exact ⟨rfl, .api t, rfl⟩

/-- A read that succeeds found the object; one that reports "not found" found nothing. -/
theorem Choice.lookup_eq {c : Choice B} {w w' : World B} {o : Option α} {r : Except Err α}
    (h : c.read w (orNotFound o) = (r, w')) :
    w' = w ∧ ((∃ a, o = some a ∧ r = .ok a) ∨ (o = none ∧ r = .error .notFound) ∨
      ∃ e, r = .error (.api e)) := by
  obtain ⟨rfl, rfl | he⟩ := Choice.read_eq h
  · cases o with
    | none => exact ⟨rfl, .inr (.inl ⟨rfl, rfl⟩)⟩
    | some a => exact ⟨rfl, .inl ⟨a, rfl, rfl⟩⟩
  · exact ⟨rfl, .inr (.inr he)⟩

theorem answer_patchICI {key : NamespacedName} {base new : ImageClusterInstall} {c : Choice B}
    {w w' : World B} {r : Except Err ImageClusterInstall}
    (h : answer (.patchICI key base new) c w = (r, w')) :
    Patched w (w.icis key) (.merge base new) (fun ici => w.setICI key ici.remains) r w' :=
  Choice.patch_eq h

theorem answer_patchICIStatus {key : NamespacedName} {base new : ImageClusterInstall}
    {c : Choice B} {w w' : World B} {r : Except Err ImageClusterInstall}
    (h : answer (.patchICIStatus key base new) c w = (r, w')) :
    Patched w (w.icis key) (.mergeStatus base new) (fun ici => w.setICI key (some ici)) r w' :=
  Choice.patch_eq h

theorem answer_patchBMH {key : NamespacedName} {base new : BareMetalHost} {c : Choice B}
    {w w' : World B} {r : Except Err BareMetalHost}
    (h : answer (.patchBMH key base new) c w = (r, w')) :
    Patched w (w.bmhs key) (.merge base new) (w.setBMH key) r w' :=
  Choice.patch_eq h

theorem answer_patchConfigMap {key : NamespacedName} {base new : ConfigMap} {c : Choice B}
    {w w' : World B} {r : Except Err ConfigMap}
    (h : answer (.patchConfigMap key base new) c w = (r, w')) :
    Patched w (w.configMaps key) (.merge base new) (w.setConfigMap key) r w' :=
  Choice.patch_eq h

theorem answer_patchSecret {key : NamespacedName} {base new : Secret B} {c : Choice B}
    {w w' : World B} {r : Except Err (Secret B)}
    (h : answer (.patchSecret key base new) c w = (r, w')) :
    Patched w (w.secrets key) (.merge base new) (w.setSecret key) r w' :=
  Choice.patch_eq h

theorem answer_createDataImage {key : NamespacedName} {url : String} {c : Choice B}
    {w w' : World B} {r : Except Err Unit}
    (h : answer (.createDataImage key url) c w = (r, w')) :
    (∃ t, w.dataImages key = none ∧ w.clock ≤ t ∧
        w' = ({ w with clock := t } : World B).setDataImage key
          (some { url, creationTimestamp := t })) ∨
      (∃ e t, r = .error e ∧ w.clock ≤ t ∧ w' = { w with clock := t }) := by
  simp only [answer] at h
  have hle : w.clock ≤ w.clock + c.elapsed :=
    Int.le_add_of_nonneg_right (Int.natCast_nonneg _)
  cases hd : w.dataImages key with
  | some d =>
    rw [hd] at h
    obtain ⟨rfl, e, rfl⟩ := Choice.read_refused h
    exact .inr ⟨e, _, rfl, Int.le_refl _, rfl⟩
  | none =>
    rw [hd] at h
    rcases Choice.write_eq h with ⟨rfl, -⟩ | ⟨rfl, e, rfl⟩
    · exact .inl ⟨_, rfl, hle, rfl⟩
    · exact .inr ⟨_, _, rfl, hle, rfl⟩

theorem answer_deleteDataImage {key : NamespacedName} {c : Choice B} {w w' : World B}
    {r : Except Err Unit} (h : answer (.deleteDataImage key) c w = (r, w')) :
    (∃ image, w.dataImages key = some image ∧
        w' = w.setDataImage key (image.delete w.clock)) ∨
      (w' = w ∧ ∃ e, r = .error e) := by
  simp only [answer] at h
  cases hd : w.dataImages key with
  | none =>
    rw [hd] at h
    exact .inr (Choice.read_refused h)
  | some image =>
    rw [hd] at h
    rcases Choice.write_eq h with ⟨rfl, -⟩ | ⟨rfl, e, rfl⟩
    · exact .inl ⟨image, rfl, rfl⟩
    · exact .inr ⟨rfl, _, rfl⟩

/-- A failed call reports an error of the API, never an abort. -/
theorem Choice.write_error {c : Choice B} {w w₁ w' : World B} {a : α} {e : Err}
    (h : c.write w w₁ a = (.error e, w')) : e.aborts = false := by
  rcases Choice.write_eq h with ⟨-, h | ⟨t, h⟩⟩ | ⟨-, t, h⟩ <;> cases h
  · rfl
  · rfl

theorem Choice.read_error {c : Choice B} {w w' : World B} {x : Except Err α} {e : Err}
    (h : c.read w x = (.error e, w')) (hx : ∀ e, x = .error e → e.aborts = false) :
    e.aborts = false := by
  obtain ⟨-, h | ⟨t, h⟩⟩ := Choice.read_eq h
  · exact hx e h.symm
  · cases h
    rfl

theorem Choice.refused_error {c : Choice B} {w w' : World B} {e₀ e : Err}
    (h : c.read w (.error e₀ : Except Err α) = (.error e, w')) (he : e₀.aborts = false) :
    e.aborts = false :=
  Choice.read_error h fun _ heq => Except.error.inj heq ▸ he

theorem Choice.patch_error {c : Choice B} {w w' : World B} {o : Option α} {merge : α → α}
    {store : α → World B} {e : Err} (h : c.patch w o merge store = (.error e, w')) :
    e.aborts = false := by
  unfold Choice.patch at h
  split at h
  · exact Choice.refused_error h rfl
  · exact Choice.write_error h

theorem answer_deleteDataImage_error {key : NamespacedName} {c : Choice B} {w w' : World B}
    {e : Err} (h : answer (.deleteDataImage key) c w = (.error e, w')) : e.aborts = false := by
  simp only [answer] at h
  split at h
  · exact Choice.refused_error h rfl
  · exact Choice.write_error h

theorem answer_patchBMH_error {key : NamespacedName} {base new : BareMetalHost} {c : Choice B}
    {w w' : World B} {e : Err} (h : answer (.patchBMH key base new) c w = (.error e, w')) :
    e.aborts = false :=
  Choice.patch_error h

theorem answer_patchICIStatus_error {key : NamespacedName} {base new : ImageClusterInstall}
    {c : Choice B} {w w' : World B} {e : Err}
    (h : answer (.patchICIStatus key base new) c w = (.error e, w')) : e.aborts = false := by
  simp only [answer] at h
  exact Choice.patch_error h

theorem answer_writeFile {path : Path} {content : B} {c : Choice B} {w w' : World B}
    {r : Except Err Unit} (h : answer (.writeFile path content) c w = (r, w')) :
    (r = .ok () ∧ w' = w.setEntry path (some (.file content))) ∨
      ∃ e, r = .error (.api e) ∧ (w' = w ∨ ∃ b, w' = w.setEntry path (some (.file b))) := by
  simp only [answer] at h
  split at h
  · cases h
    exact .inr ⟨_, rfl, .inr ⟨_, rfl⟩⟩
  · rcases Choice.write_eq h with ⟨rfl, rfl | ⟨e, rfl⟩⟩ | ⟨rfl, e, rfl⟩
    · exact .inl ⟨rfl, rfl⟩
    · exact .inr ⟨e, rfl, .inr ⟨_, rfl⟩⟩
    · exact .inr ⟨e, rfl, .inl rfl⟩

theorem answer_writeIso {path : Path} {image : IsoImage B} {builtFrom : Spec} {c : Choice B}
    {w w' : World B} {r : Except Err Unit}
    (h : answer (.writeIso path image builtFrom) c w = (r, w')) :
    (r = .ok () ∧ w' = w.setEntry path (some (.iso image builtFrom))) ∨
      ∃ e, r = .error (.api e) ∧
        (w' = w ∨ ∃ i, w' = w.setEntry path (some (.iso i builtFrom))) := by
  simp only [answer] at h
  split at h
  · cases h
    exact .inr ⟨_, rfl, .inr ⟨_, rfl⟩⟩
  · rcases Choice.write_eq h with ⟨rfl, rfl | ⟨e, rfl⟩⟩ | ⟨rfl, e, rfl⟩
    · exact .inl ⟨rfl, rfl⟩
    · exact .inr ⟨e, rfl, .inr ⟨_, rfl⟩⟩
    · exact .inr ⟨e, rfl, .inl rfl⟩

/-! ## Code that runs alone -/

/-- The contract of code that runs alone: replies are restricted by `ok`, and every call satisfies
`guar`. -/
abbrev Running (ok guar : World B → (op : Op B) → Resp op → World B → Prop) :
    Contract (Op B) Resp (World B) :=
  .atomic answer ok guar

/-- The same with a guarantee about the world only. -/
abbrev Atomic (ok : World B → (op : Op B) → Resp op → World B → Prop)
    (G : World B → World B → Prop) : Contract (Op B) Resp (World B) :=
  .atomic answer ok fun w _ _ w' => G w w'

/-- The same without a guarantee: a postcondition only. -/
abbrev Alone (ok : World B → (op : Op B) → Resp op → World B → Prop) :
    Contract (Op B) Resp (World B) :=
  Atomic ok fun _ _ => True

section Running

variable {ok guar : World B → (op : Op B) → Resp op → World B → Prop} {w : World B}
  {Q : α → World B → Prop} {R : Err → World B → Prop}

@[simp] theorem meets_ret {a : α} : Meets (Running ok guar) (.ret a) Q w ↔ Q a w :=
  ⟨fun h => h w rfl, fun h _ hw => hw ▸ h⟩

theorem meets_call {op : Op B} {k : Resp op → Program B α}
    (h : ∀ c r w', answer op c w = (r, w') → ok w op r w' →
      guar w op r w' ∧ Meets (Running ok guar) (k r) Q w') :
    Meets (Running ok guar) (.call op k) Q w := by
  rintro _ rfl r w' ⟨⟨c, hc⟩, ho⟩
  exact h c r w' hc ho

@[simp] theorem tries_pure {a : α} : Tries (Running ok guar) (pure a) Q R w ↔ Q a w := meets_ret

@[simp] theorem tries_throw {e : Err} :
    Tries (Running ok guar) (throw e : Act B α) Q R w ↔ R e w := meets_ret

@[simp] theorem tries_liftExcept {x : Except Err α} :
    Tries (Running ok guar) (liftExcept x) Q R w ↔ Outcome Q R x w := meets_ret

theorem tries_wrap {x : Act B α} {text : String}
    (h : Tries (Running ok guar) x Q (fun e w => R (e.within text) w) w) :
    Tries (Running ok guar) (x.wrap text) Q R w :=
  Tries.adapt h

theorem tries_attempt {x : Act B α} {Q : Except Err α → World B → Prop}
    (h : Tries (Running ok guar) x (fun a w => Q (.ok a) w) (fun e w => Q (.error e) w) w) :
    Tries (Running ok guar) x.attempt Q R w :=
  Tries.lift (Meets.mono h fun r w hr => by cases r <;> exact hr)

/-- Whatever is answered to the call, the guarantee holds. -/
def Permits (ok guar : World B → (op : Op B) → Resp op → World B → Prop) (w : World B)
    (op : Op B) : Prop :=
  ∀ c r w', answer op c w = (r, w') → ok w op r w' → guar w op r w'

theorem Permits.free {op : Op B} : Permits ok (fun _ _ _ _ => True) w op :=
  fun _ _ _ _ _ => trivial

/-! ### Lookups -/

/-- A lookup: the object as stored, "not found", or another error. -/
theorem lookup_post {o : Option α} {r : Except Err α} {w' : World B}
    (hr : w' = w ∧ ((∃ a, o = some a ∧ r = .ok a) ∨ (o = none ∧ r = .error .notFound) ∨
      ∃ e, r = .error (.api e)))
    (hsome : ∀ a, o = some a → Q a w) (hnone : o = none → R .notFound w)
    (herr : ∀ e, R (.api e) w) : Meets (Running ok guar) (.ret r) (Outcome Q R) w' := by
  obtain ⟨rfl, ⟨a, ha, rfl⟩ | ⟨ho, rfl⟩ | ⟨e, rfl⟩⟩ := hr
  · exact meets_ret.2 (hsome a ha)
  · exact meets_ret.2 (hnone ho)
  · exact meets_ret.2 (herr e)

theorem tries_getICI {key : NamespacedName} {Q : ImageClusterInstall → World B → Prop}
    (hg : Permits ok guar w (.getICI key))
    (hsome : ∀ a, w.icis key = some a → Q a w) (hnone : w.icis key = none → R .notFound w)
    (herr : ∀ e, R (.api e) w) : Tries (Running ok guar) (getICI key) Q R w :=
  meets_call fun _ _ _ hc ho =>
    ⟨hg _ _ _ hc ho, lookup_post (Choice.lookup_eq hc) hsome hnone herr⟩

theorem tries_getBMH {key : NamespacedName} {Q : BareMetalHost → World B → Prop}
    (hg : Permits ok guar w (.getBMH key))
    (hsome : ∀ a, w.bmhs key = some a → Q a w) (hnone : w.bmhs key = none → R .notFound w)
    (herr : ∀ e, R (.api e) w) : Tries (Running ok guar) (getBMH key) Q R w :=
  meets_call fun _ _ _ hc ho =>
    ⟨hg _ _ _ hc ho, lookup_post (Choice.lookup_eq hc) hsome hnone herr⟩

theorem tries_getDataImage {key : NamespacedName} {Q : DataImage → World B → Prop}
    (hg : Permits ok guar w (.getDataImage key))
    (hsome : ∀ a, w.dataImages key = some a → Q a w)
    (hnone : w.dataImages key = none → R .notFound w)
    (herr : ∀ e, R (.api e) w) : Tries (Running ok guar) (getDataImage key) Q R w :=
  meets_call fun _ _ _ hc ho =>
    ⟨hg _ _ _ hc ho, lookup_post (Choice.lookup_eq hc) hsome hnone herr⟩

theorem tries_getCD {key : NamespacedName} {Q : ClusterDeployment → World B → Prop}
    (hg : Permits ok guar w (.getCD key))
    (hsome : ∀ a, w.cds key = some a → Q a w) (hnone : w.cds key = none → R .notFound w)
    (herr : ∀ e, R (.api e) w) : Tries (Running ok guar) (getCD key) Q R w :=
  meets_call fun _ _ _ hc ho =>
    ⟨hg _ _ _ hc ho, lookup_post (Choice.lookup_eq hc) hsome hnone herr⟩

theorem tries_getConfigMap {key : NamespacedName} {Q : ConfigMap → World B → Prop}
    (hg : Permits ok guar w (.getConfigMap key))
    (hsome : ∀ a, w.configMaps key = some a → Q a w)
    (hnone : w.configMaps key = none → R .notFound w)
    (herr : ∀ e, R (.api e) w) : Tries (Running ok guar) (getConfigMap key) Q R w :=
  meets_call fun _ _ _ hc ho =>
    ⟨hg _ _ _ hc ho, lookup_post (Choice.lookup_eq hc) hsome hnone herr⟩

theorem tries_getSecret {cached : Bool} {key : NamespacedName} {Q : Secret B → World B → Prop}
    (hg : Permits ok guar w (.getSecret cached key))
    (hsome : ∀ a, (w.secrets key).filter (fun s => !cached || s.isCached) = some a → Q a w)
    (hnone : (w.secrets key).filter (fun s => !cached || s.isCached) = none → R .notFound w)
    (herr : ∀ e, R (.api e) w) :
    Tries (Running ok guar) (.mk (Prog.perform (Op.getSecret cached key))) Q R w :=
  meets_call fun _ _ _ hc ho =>
    ⟨hg _ _ _ hc ho, lookup_post (Choice.lookup_eq hc) hsome hnone herr⟩

theorem tries_readFile {path : Path} {Q : B → World B → Prop}
    (hg : Permits ok guar w (.readFile path))
    (hsome : ∀ b, (w.fs path).bind Entry.content = some b → Q b w)
    (hnone : (w.fs path).bind Entry.content = none → R .notFound w)
    (herr : ∀ e, R (.api e) w) : Tries (Running ok guar) (readFile path) Q R w :=
  meets_call fun _ _ _ hc ho =>
    ⟨hg _ _ _ hc ho, lookup_post (Choice.lookup_eq hc) hsome hnone herr⟩

theorem tries_stat {path : Path} {Q : Unit → World B → Prop} (hg : Permits ok guar w (.stat path))
    (hsome : (w.fs path).isSome → Q () w) (hnone : w.fs path = none → R .notFound w)
    (herr : ∀ e, R (.api e) w) : Tries (Running ok guar) (stat path) Q R w :=
  meets_call fun _ r w' hc ho => by
    refine ⟨hg _ _ _ hc ho, ?_⟩
    obtain ⟨rfl, rfl | ⟨e, rfl⟩⟩ := Choice.read_eq hc
    · cases hp : w'.fs path with
      | none => exact meets_ret.2 (hnone hp)
      | some a => exact meets_ret.2 (hsome (hp ▸ rfl))
    · exact meets_ret.2 (herr e)

/-! ### Writes of secrets -/

/-- A secret is created as a whole, or nothing happens. -/
theorem answer_createSecret {key : NamespacedName} {s : Secret B} {c : Choice B}
    {r : Except Err Unit} {w' : World B} (h : answer (.createSecret key s) c w = (r, w')) :
    w' = w.setSecret key s ∨ w' = w ∧ ∃ e, r = .error e := by
  simp only [answer] at h
  split at h
  · exact .inr (Choice.read_refused h)
  · rcases Choice.write_eq h with ⟨rfl, -⟩ | ⟨rfl, e, rfl⟩
    · exact .inl rfl
    · exact .inr ⟨rfl, _, rfl⟩

theorem answer_updateSecret {key : NamespacedName} {s : Secret B} {c : Choice B}
    {r : Except Err Unit} {w' : World B} (h : answer (.updateSecret key s) c w = (r, w')) :
    w' = w.setSecret key s ∨ w' = w ∧ ∃ e, r = .error e := by
  simp only [answer] at h
  split at h
  · exact .inr (Choice.read_refused h)
  · rcases Choice.write_eq h with ⟨rfl, -⟩ | ⟨rfl, e, rfl⟩
    · exact .inl rfl
    · exact .inr ⟨rfl, _, rfl⟩

theorem tries_createSecret {key : NamespacedName} {s : Secret B} {Q : Unit → World B → Prop}
    (hg : Permits ok guar w (.createSecret key s))
    (hok : Q () (w.setSecret key s) ∧ ∀ e, R e (w.setSecret key s))
    (hfail : ∀ e, R e w) : Tries (Running ok guar) (createSecret key s) Q R w :=
  meets_call fun _ r w' hc ho => by
    refine ⟨hg _ _ _ hc ho, meets_ret.2 ?_⟩
    obtain rfl | ⟨rfl, e, rfl⟩ := answer_createSecret hc
    · cases r with
      | ok u => exact hok.1
      | error e => exact hok.2 e
    · exact hfail e

theorem tries_updateSecret {key : NamespacedName} {s : Secret B} {Q : Unit → World B → Prop}
    (hg : Permits ok guar w (.updateSecret key s))
    (hok : Q () (w.setSecret key s) ∧ ∀ e, R e (w.setSecret key s))
    (hfail : ∀ e, R e w) : Tries (Running ok guar) (updateSecret key s) Q R w :=
  meets_call fun _ r w' hc ho => by
    refine ⟨hg _ _ _ hc ho, meets_ret.2 ?_⟩
    obtain rfl | ⟨rfl, e, rfl⟩ := answer_updateSecret hc
    · cases r with
      | ok u => exact hok.1
      | error e => exact hok.2 e
    · exact hfail e

theorem meets_now {Q : Time → World B → Prop} (hg : Permits ok guar w .now)
    (h : ∀ t, w.clock ≤ t → Q t { w with clock := t }) : Meets (Running ok guar) now Q w :=
  meets_call fun c r w' hc ho => by
    refine ⟨hg _ _ _ hc ho, ?_⟩
    cases hc
    exact meets_ret.2 (h (w.clock + c.elapsed)
      (Int.le_add_of_nonneg_right (Int.natCast_nonneg _)))

/-! ### Patches in memory -/

section Patches

variable {key : NamespacedName}

/-- The common rule of the three patch helpers. -/
theorem patched_post {o : Option α} {merge : α → α} {store : α → World B} {r : Except Err α}
    {w' : World B} {new : α} {Q : α × Except Err Unit → World B → Prop}
    (h : Patched w o merge store r w')
    (hok : ∀ a, o = some a → Q (merge a, .ok ()) (store (merge a)) ∧
      ∀ e, Q (new, .error e) (store (merge a)))
    (hfail : ∀ e, Q (new, .error e) w) :
    Meets (Running ok guar) (.ret (afterPatch new r)) Q w' := by
  cases h with
  | stored a ha => exact meets_ret.2 (hok a ha).1
  | lost a ha e => exact meets_ret.2 ((hok a ha).2 e)
  | failed e => exact meets_ret.2 (hfail e)

theorem meets_patchICI {base new : ImageClusterInstall}
    {Q : ImageClusterInstall × Except Err Unit → World B → Prop}
    (hg : Permits ok guar w (.patchICI key base new))
    (hok : ∀ stored, w.icis key = some stored →
      Q (.merge base new stored, .ok ())
        (w.setICI key (ImageClusterInstall.merge base new stored).remains) ∧
      ∀ e, Q (new, .error e) (w.setICI key (ImageClusterInstall.merge base new stored).remains))
    (hfail : ∀ e, Q (new, .error e) w) :
    Meets (Running ok guar) (patchICI key base new) Q w :=
  meets_call fun _ _ _ hc ho =>
    ⟨hg _ _ _ hc ho, patched_post (answer_patchICI hc) hok hfail⟩

theorem meets_patchICIStatus {base new : ImageClusterInstall}
    {Q : ImageClusterInstall × Except Err Unit → World B → Prop}
    (hg : Permits ok guar w (.patchICIStatus key base new))
    (hok : ∀ stored, w.icis key = some stored →
      Q (.mergeStatus base new stored, .ok ())
        (w.setICI key (some (.mergeStatus base new stored))) ∧
      ∀ e, Q (new, .error e) (w.setICI key (some (.mergeStatus base new stored))))
    (hfail : ∀ e, Q (new, .error e) w) :
    Meets (Running ok guar) (patchICIStatus key base new) Q w :=
  meets_call fun _ _ _ hc ho =>
    ⟨hg _ _ _ hc ho, patched_post (answer_patchICIStatus hc) hok hfail⟩

theorem meets_patchBMH {base new : BareMetalHost}
    {Q : BareMetalHost × Except Err Unit → World B → Prop}
    (hg : Permits ok guar w (.patchBMH key base new))
    (hok : ∀ stored, w.bmhs key = some stored →
      Q (.merge base new stored, .ok ()) (w.setBMH key (.merge base new stored)) ∧
      ∀ e, Q (new, .error e) (w.setBMH key (.merge base new stored)))
    (hfail : ∀ e, Q (new, .error e) w) :
    Meets (Running ok guar) (patchBMH key base new) Q w :=
  meets_call fun _ _ _ hc ho =>
    ⟨hg _ _ _ hc ho, patched_post (answer_patchBMH hc) hok hfail⟩

end Patches

end Running

end ImageBasedInstall

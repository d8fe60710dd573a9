import ImageBasedInstall.Cluster.Rules

/-!
# What a call leaves alone

Every call writes at most one part of the world, its `target`. `Framed S w w'` says that `w'`
differs from `w` in the parts listed in `S` only, and `meets_framed` that a program whose calls all
have their target in `S` is framed by `S`.
-/

namespace ImageBasedInstall

open Interactive

variable {B : Type} {α : Type}

/-- The parts of the world that calls write. -/
inductive Target where
  | nothing
  | ici
  | bmh
  | dataImage
  | secret
  | configMap
  | file
  | iso
  deriving DecidableEq, Repr

def Op.target : Op B → Target
  | .patchICI .. | .patchICIStatus .. => .ici
  | .patchBMH .. => .bmh
  | .createDataImage .. | .deleteDataImage _ => .dataImage
  | .createSecret .. | .updateSecret .. | .patchSecret .. => .secret
  | .patchConfigMap .. => .configMap
  | .mkdirAll _ | .mkdirTemp | .writeFile .. | .purge _ | .removeAll _ => .file
  | .writeIso .. => .iso
  | _ => .nothing

/-- Only the parts in `S` differ; time goes on. Removing or overwriting an ISO counts as a file
write, making one does not. -/
structure Framed (S : List Target) (w w' : World B) : Prop where
  icis : .ici ∉ S → w'.icis = w.icis
  bmhs : .bmh ∉ S → w'.bmhs = w.bmhs
  dataImages : .dataImage ∉ S → w'.dataImages = w.dataImages
  secrets : .secret ∉ S → w'.secrets = w.secrets
  configMaps : .configMap ∉ S → w'.configMaps = w.configMaps
  fs : .file ∉ S → .iso ∉ S → w'.fs = w.fs
  isos : .iso ∉ S → ∀ p i b, w'.fs p = some (.iso i b) → w.fs p = some (.iso i b)
  cds : w'.cds = w.cds
  imageSets : w'.imageSets = w.imageSets
  clock : w.clock ≤ w'.clock

namespace Framed

variable {S T : List Target} {w w' w'' : World B}

theorem refl (S : List Target) (w : World B) : Framed S w w :=
  ⟨fun _ => rfl, fun _ => rfl, fun _ => rfl, fun _ => rfl, fun _ => rfl, fun _ _ => rfl,
    fun _ _ _ _ h => h, rfl, rfl, Int.le_refl _⟩

theorem trans (h : Framed S w w') (h' : Framed S w' w'') : Framed S w w'' where
  icis hS := (h'.icis hS).trans (h.icis hS)
  bmhs hS := (h'.bmhs hS).trans (h.bmhs hS)
  dataImages hS := (h'.dataImages hS).trans (h.dataImages hS)
  secrets hS := (h'.secrets hS).trans (h.secrets hS)
  configMaps hS := (h'.configMaps hS).trans (h.configMaps hS)
  fs hS hS' := (h'.fs hS hS').trans (h.fs hS hS')
  isos hS p i b hp := h.isos hS p i b (h'.isos hS p i b hp)
  cds := h'.cds.trans h.cds
  imageSets := h'.imageSets.trans h.imageSets
  clock := Int.le_trans h.clock h'.clock

theorem mono (h : Framed S w w') (hST : S ⊆ T) : Framed T w w' where
  icis hT := h.icis fun hS => hT (hST hS)
  bmhs hT := h.bmhs fun hS => hT (hST hS)
  dataImages hT := h.dataImages fun hS => hT (hST hS)
  secrets hT := h.secrets fun hS => hT (hST hS)
  configMaps hT := h.configMaps fun hS => hT (hST hS)
  fs hT hT' := h.fs (fun hS => hT (hST hS)) fun hS => hT' (hST hS)
  isos hT := h.isos fun hS => hT (hST hS)
  cds := h.cds
  imageSets := h.imageSets
  clock := h.clock

/-- What changes nothing is framed by nothing. -/
theorem of_nothing {T : Target} (h : Framed [T] w w') (hT : T = .nothing) : Framed [] w w' where
  icis _ := h.icis (by simp [hT])
  bmhs _ := h.bmhs (by simp [hT])
  dataImages _ := h.dataImages (by simp [hT])
  secrets _ := h.secrets (by simp [hT])
  configMaps _ := h.configMaps (by simp [hT])
  fs _ _ := h.fs (by simp [hT]) (by simp [hT])
  isos _ := h.isos (by simp [hT])
  cds := h.cds
  imageSets := h.imageSets
  clock := h.clock

theorem setICI (w : World B) (key : NamespacedName) (ici : Option ImageClusterInstall) :
    Framed [.ici] w (w.setICI key ici) := by
  constructor <;> simp [World.setICI]

theorem setBMH (w : World B) (key : NamespacedName) (bmh : BareMetalHost) :
    Framed [.bmh] w (w.setBMH key bmh) := by
  constructor <;> simp [World.setBMH]

theorem setDataImage (w : World B) (key : NamespacedName) (image : Option DataImage) :
    Framed [.dataImage] w (w.setDataImage key image) := by
  constructor <;> simp [World.setDataImage]

theorem setSecret (w : World B) (key : NamespacedName) (s : Secret B) :
    Framed [.secret] w (w.setSecret key s) := by
  constructor <;> simp [World.setSecret]

theorem setConfigMap (w : World B) (key : NamespacedName) (cm : ConfigMap) :
    Framed [.configMap] w (w.setConfigMap key cm) := by
  constructor <;> simp [World.setConfigMap]

theorem setFile (w : World B) (p : Path) (b : B) :
    Framed [.file] w (w.setEntry p (some (.file b))) := by
  constructor
  case isos =>
    intro _ q i s hq
    simp only [World.setEntry, Function.update_apply] at hq
    split at hq
    · cases hq
    · exact hq
  all_goals simp [World.setEntry]

theorem setIso (w : World B) (p : Path) (i : IsoImage B) (s : Spec) :
    Framed [.iso] w (w.setEntry p (some (.iso i s))) := by
  constructor <;> simp [World.setEntry]

theorem mkdirs (w : World B) (p : Path) : Framed [.file] w (w.mkdirs p) := by
  constructor
  case isos =>
    intro _ q i s hq
    simp only [World.mkdirs] at hq
    split at hq
    · cases hq
    · exact hq
  all_goals simp [World.mkdirs]

theorem prune (w : World B) (which kept : Path → Bool) :
    Framed [.file] w (w.prune which kept) := by
  constructor <;> simp [World.prune]

theorem tick {w : World B} {t : Time} (h : w.clock ≤ t) (S : List Target) :
    Framed S w { w with clock := t } := by
  constructor <;> simp [h]

theorem of_write {c : Choice B} {w₁ : World B} {a : α} {r : Except Err α} (h₁ : Framed S w w₁)
    (h : c.write w w₁ a = (r, w')) : Framed S w w' := by
  rcases Choice.write_eq h with ⟨rfl, -⟩ | ⟨rfl, -⟩
  · exact h₁
  · exact refl S _

theorem of_patched {o : Option α} {merge : α → α} {store : α → World B} {r : Except Err α}
    (hs : ∀ a, Framed S w (store a)) (h : Patched w o merge store r w') : Framed S w w' := by
  cases h with
  | stored a _ => exact hs _
  | lost a _ e => exact hs _
  | failed e => exact refl S w

theorem of_read {c : Choice B} {x r : Except Err α} (h : c.read w x = (r, w')) : Framed S w w' := by
  obtain ⟨rfl, -⟩ := Choice.read_eq h
  exact refl S _

theorem of_removal {c : Choice B} {which : Path → Bool} {r : Except Err Unit}
    (h : c.removal w which = (r, w')) : Framed [.file] w w' := by
  rcases Choice.removal_eq h with ⟨-, rfl⟩ | ⟨_, _, -, rfl⟩
  · exact prune ..
  · exact prune ..

end Framed

/-- A call changes its target only. -/
theorem answer_framed {op : Op B} {c : Choice B} {w w' : World B} {r : Resp op}
    (h : answer op c w = (r, w')) : Framed [op.target] w w' := by
  cases op with
  | getICI key | getBMH key | getDataImage key | getCD key | getImageSet name | getConfigMap key
  | getSecret cached key | spokeStatus kubeconfig | stat path | readFile path | loadDir path
  | tryLock dir => exact .of_read h
  | patchICI key base new => exact .of_patched (fun _ => .setICI ..) (answer_patchICI h)
  | patchICIStatus key base new =>
    exact .of_patched (fun _ => .setICI ..) (answer_patchICIStatus h)
  | patchBMH key base new => exact .of_patched (fun _ => .setBMH ..) (answer_patchBMH h)
  | createDataImage key url =>
    obtain ⟨t, -, ht, rfl⟩ | ⟨e, t, -, ht, rfl⟩ := answer_createDataImage h
    · exact (Framed.tick ht _).trans (.setDataImage ..)
    · exact .tick ht _
  | deleteDataImage key =>
    obtain ⟨image, -, rfl⟩ | ⟨rfl, -⟩ := answer_deleteDataImage h
    · exact .setDataImage ..
    · exact .refl ..
  | patchConfigMap key base new =>
    exact .of_patched (fun _ => .setConfigMap ..) (answer_patchConfigMap h)
  | createSecret key secret =>
    simp only [answer] at h
    split at h
    · exact .of_read h
    · exact .of_write (.setSecret ..) h
  | updateSecret key secret =>
    simp only [answer] at h
    split at h
    · exact .of_read h
    · exact .of_write (.setSecret ..) h
  | patchSecret key base new => exact .of_patched (fun _ => .setSecret ..) (answer_patchSecret h)
  | mkdirAll path => exact .of_write (.mkdirs ..) h
  | mkdirTemp => exact .of_write ((Framed.prune ..).trans (.mkdirs ..)) h
  | writeFile path content =>
    obtain ⟨-, rfl⟩ | ⟨_, -, rfl | ⟨_, rfl⟩⟩ := answer_writeFile h
    · exact .setFile ..
    · exact .refl ..
    · exact .setFile ..
  | writeIso path image builtFrom =>
    obtain ⟨-, rfl⟩ | ⟨_, -, rfl | ⟨_, rfl⟩⟩ := answer_writeIso h
    · exact .setIso ..
    · exact .refl ..
    · exact .setIso ..
  | purge which => exact .of_removal h
  | removeAll path => exact .of_removal h
  | now =>
    cases h
    exact .tick (Int.le_add_of_nonneg_right (Int.natCast_nonneg _)) _
  | newUUID | randString | drawAssets =>
    cases h
    exact .refl ..

/-- A program whose calls have their targets in `S` leaves the rest alone. -/
theorem meets_framed {ok : World B → (op : Op B) → Resp op → World B → Prop} {S : List Target}
    {p : Program B α} {w : World B} (hp : p.Uses fun op => op.target ∈ S) :
    Meets (Atomic ok fun w w' => Framed S w w') p (fun _ w' => Framed S w w') w := by
  refine Meets.of_uses (I := fun w' => Framed S w w') hp (fun _ _ h hr => hr ▸ h) ?_ (.refl S w)
  rintro op w₁ r w₂ ht hI ⟨⟨c, hc⟩, -⟩
  have hstep : Framed S w₁ w₂ := (answer_framed hc).mono (by simpa using ht)
  exact ⟨hstep, hI.trans hstep⟩

section Permitted

variable {ok guar : World B → (op : Op B) → Resp op → World B → Prop} {A : Op B → Prop}
  {p : Program B α} {w : World B}

/-- A program all of whose possible calls are permitted. -/
theorem meets_permits (hp : p.Uses A) (h : ∀ w op, A op → Permits ok guar w op) :
    Meets (Running ok guar) p (fun _ _ => True) w := by
  refine Meets.of_uses (I := fun _ => True) hp (fun _ _ _ _ => trivial) ?_ trivial
  rintro op w₁ r w₂ hop - ⟨⟨c, hc⟩, ho⟩
  exact ⟨h w₁ op hop c r w₂ hc ho, trivial⟩

/-- A program that leaves the objects alone, and whose possible calls are permitted as long as they
are those it started with. -/
theorem meets_beside (hp : p.Uses A) (hici : ∀ op, A op → op.target ≠ .ici)
    (h : ∀ w' op, A op → w'.icis = w.icis → Permits ok guar w' op) :
    Meets (Running ok guar) p (fun _ _ => True) w := by
  refine Meets.mono (Meets.of_uses (I := fun w' => w'.icis = w.icis) hp (fun _ _ h hr => hr ▸ h) ?_
    rfl) fun _ _ _ => trivial
  rintro op w₁ r w₂ hop hI ⟨⟨c, hc⟩, ho⟩
  refine ⟨h w₁ op hop hI c r w₂ hc ho, ?_⟩
  rw [(answer_framed hc).icis (by simpa using (hici op hop).symm), hI]

end Permitted

end ImageBasedInstall

import ImageBasedInstall.Verify.Locality

/-!
# Calls inside a footprint

A call inside a footprint leaves everything else alone (`answer_spares`), and what it replies and
does depends on nothing else (`answer_agree`).
-/

namespace ImageBasedInstall

open Interactive Patch

variable {B : Type} {F G : Footprint} {u v w w' : World B} {α : Type}

/-- A temp directory that a call is given belongs to the footprint. -/
def Footprint.TempOk (F : Footprint) (c : Choice B) : Op B → Prop
  | .mkdirTemp => F.files (.temp c.tempName)
  | _ => True

section Update

variable {κ : Type} [DecidableEq κ] {P : κ → Prop} {f g : κ → α}

/-- A value set in an own place leaves the other places alone. -/
theorem update_outside {key k : κ} (h : P key) (hk : ¬P k) (a : α) :
    Function.update f key a k = f k := by
  refine Function.update_of_ne ?_ a f
  rintro rfl
  exact hk h

/-- Functions that agree on the own places still do with the same value in the same place. -/
theorem update_inside (hfg : ∀ k, P k → f k = g k) (key : κ) (a : α) (k : κ) (hk : P k) :
    Function.update f key a k = Function.update g key a k := by
  by_cases heq : k = key
  · subst heq
    simp
  · simp [heq, hfg k hk]

end Update

/-! ## Outside a footprint -/

/-- Nothing outside the footprint changes, except that time goes on. -/
structure Footprint.Spares (F : Footprint) (w w' : World B) : Prop where
  icis : ∀ key, key ≠ F.key → w'.icis key = w.icis key
  bmhs : ∀ host, ¬F.hosts host → w'.bmhs host = w.bmhs host
  dataImages : ∀ host, ¬F.hosts host → w'.dataImages host = w.dataImages host
  secrets : ∀ key, ¬F.secrets key → w'.secrets key = w.secrets key
  configMaps : ∀ key, ¬F.configMaps key → w'.configMaps key = w.configMaps key
  fs : ∀ path, ¬F.files path.root → w'.fs path = w.fs path
  cds : w'.cds = w.cds
  imageSets : w'.imageSets = w.imageSets
  clock : w.clock ≤ w'.clock

namespace Footprint.Spares

theorem refl (F : Footprint) (w : World B) : F.Spares w w where
  icis _ _ := rfl
  bmhs _ _ := rfl
  dataImages _ _ := rfl
  secrets _ _ := rfl
  configMaps _ _ := rfl
  fs _ _ := rfl
  cds := rfl
  imageSets := rfl
  clock := Int.le_refl _

theorem trans (h : F.Spares u v) (h' : F.Spares v w) : F.Spares u w where
  icis key hkey := (h'.icis key hkey).trans (h.icis key hkey)
  bmhs host hhost := (h'.bmhs host hhost).trans (h.bmhs host hhost)
  dataImages host hhost := (h'.dataImages host hhost).trans (h.dataImages host hhost)
  secrets key hkey := (h'.secrets key hkey).trans (h.secrets key hkey)
  configMaps key hkey := (h'.configMaps key hkey).trans (h.configMaps key hkey)
  fs path hpath := (h'.fs path hpath).trans (h.fs path hpath)
  cds := h'.cds.trans h.cds
  imageSets := h'.imageSets.trans h.imageSets
  clock := Int.le_trans h.clock h'.clock

theorem setICI (w : World B) (ici : Option ImageClusterInstall) :
    F.Spares w (w.setICI F.key ici) :=
  { refl F w with icis := fun _ hkey => Function.update_of_ne hkey .. }

theorem setBMH (w : World B) {host : NamespacedName} (h : F.hosts host) (bmh : BareMetalHost) :
    F.Spares w (w.setBMH host bmh) :=
  { refl F w with bmhs := fun _ hhost => update_outside h hhost _ }

theorem setDataImage (w : World B) {host : NamespacedName} (h : F.hosts host)
    (image : Option DataImage) : F.Spares w (w.setDataImage host image) :=
  { refl F w with dataImages := fun _ hhost => update_outside h hhost _ }

theorem setSecret (w : World B) {key : NamespacedName} (h : F.secrets key) (s : Secret B) :
    F.Spares w (w.setSecret key s) :=
  { refl F w with secrets := fun _ hkey => update_outside h hkey _ }

theorem setConfigMap (w : World B) {key : NamespacedName} (h : F.configMaps key) (cm : ConfigMap) :
    F.Spares w (w.setConfigMap key cm) :=
  { refl F w with configMaps := fun _ hkey => update_outside h hkey _ }

theorem setEntry (w : World B) {path : Path} (h : F.files path.root) (entry : Option (Entry B)) :
    F.Spares w (w.setEntry path entry) :=
  { refl F w with fs := fun _ hpath =>
    update_outside (P := fun q : Path => F.files q.root) h hpath _ }

theorem mkdirs (w : World B) {path : Path} (h : F.files path.root) :
    F.Spares w (w.mkdirs path) := by
  refine { refl F w with fs := fun q hq => ?_ }
  have hne : path.within q = false := by
    simp only [Path.within, Bool.and_eq_false_imp, decide_eq_true_eq]
    intro hroot
    exact absurd (hroot ▸ h) hq
  simp [World.mkdirs, hne]

theorem prune (w : World B) {which : Path → Bool}
    (h : ∀ path, which path = true → F.files path.root) (kept : Path → Bool) :
    F.Spares w (w.prune which kept) := by
  refine { refl F w with fs := fun q hq => ?_ }
  have hne : which q = false := by
    cases hw : which q with
    | true => exact absurd (h q hw) hq
    | false => rfl
  simp [World.prune, hne]

theorem tick {t : Time} (h : w.clock ≤ t) : F.Spares w { w with clock := t } :=
  { refl F w with clock := h }

theorem of_read {c : Choice B} {x r : Except Err α} (h : c.read w x = (r, w')) : F.Spares w w' := by
  obtain ⟨rfl, -⟩ := Choice.read_eq h
  exact refl F _

theorem of_write {c : Choice B} {a : α} {r : Except Err α} (hu : F.Spares w u)
    (h : c.write w u a = (r, w')) : F.Spares w w' := by
  rcases Choice.write_eq h with ⟨rfl, -⟩ | ⟨rfl, -⟩
  · exact hu
  · exact refl F _

theorem of_patched {o : Option α} {merge : α → α} {store : α → World B} {r : Except Err α}
    (hs : ∀ a, F.Spares w (store a)) (h : Patched w o merge store r w') : F.Spares w w' := by
  cases h with
  | stored a _ => exact hs _
  | lost a _ e => exact hs _
  | failed e => exact refl F w

theorem of_removal {c : Choice B} {which : Path → Bool} {r : Except Err Unit}
    (hw : ∀ path, which path = true → F.files path.root) (h : c.removal w which = (r, w')) :
    F.Spares w w' := by
  rcases Choice.removal_eq h with ⟨-, rfl⟩ | ⟨_, _, -, rfl⟩
  · exact prune w hw _
  · exact prune w hw _

end Footprint.Spares

theorem within_files {dir path : Path} (h : F.files dir.root) (hw : path.within dir = true) :
    F.files path.root := by
  simp only [Path.within, Bool.and_eq_true, decide_eq_true_eq] at hw
  exact hw.1 ▸ h

/-- A call inside a footprint leaves everything outside it alone. -/
theorem answer_spares {op : Op B} {c : Choice B} {r : Resp op} (hin : F.Inside op)
    (htemp : F.TempOk c op) (h : answer op c w = (r, w')) : F.Spares w w' := by
  cases op with
  | getICI key | getBMH key | getDataImage key | getCD key | getImageSet name | getConfigMap key
  | getSecret cached key | spokeStatus kubeconfig | stat path | readFile path | loadDir path
  | tryLock dir => exact .of_read h
  | patchICI key base new =>
    obtain ⟨rfl, -⟩ := hin
    exact .of_patched (fun _ => .setICI ..) (answer_patchICI h)
  | patchICIStatus key base new =>
    obtain ⟨rfl, -⟩ := hin
    exact .of_patched (fun _ => .setICI ..) (answer_patchICIStatus h)
  | patchBMH key base new => exact .of_patched (fun _ => .setBMH w hin _) (answer_patchBMH h)
  | createDataImage key url =>
    obtain ⟨t, -, ht, rfl⟩ | ⟨e, t, -, ht, rfl⟩ := answer_createDataImage h
    · exact (Footprint.Spares.tick ht).trans (.setDataImage _ hin _)
    · exact .tick ht
  | deleteDataImage key =>
    obtain ⟨image, -, rfl⟩ | ⟨rfl, -⟩ := answer_deleteDataImage h
    · exact .setDataImage _ hin _
    · exact .refl ..
  | patchConfigMap key base new =>
    exact .of_patched (fun _ => .setConfigMap w hin _) (answer_patchConfigMap h)
  | createSecret key secret =>
    obtain rfl | ⟨rfl, -⟩ := answer_createSecret h
    · exact .setSecret w hin _
    · exact .refl ..
  | updateSecret key secret =>
    obtain rfl | ⟨rfl, -⟩ := answer_updateSecret h
    · exact .setSecret w hin _
    · exact .refl ..
  | patchSecret key base new =>
    exact .of_patched (fun _ => .setSecret w hin _) (answer_patchSecret h)
  | mkdirAll path => exact .of_write (.mkdirs w hin) h
  | mkdirTemp =>
    have hroot : F.files (⟨.temp c.tempName, []⟩ : Path).root := htemp
    exact .of_write (.trans (.prune w (fun _ hw => within_files hroot hw) _) (.mkdirs _ hroot)) h
  | writeFile path content =>
    obtain ⟨-, rfl⟩ | ⟨_, -, rfl | ⟨_, rfl⟩⟩ := answer_writeFile h
    · exact .setEntry w hin _
    · exact .refl ..
    · exact .setEntry w hin _
  | writeIso path image builtFrom =>
    obtain ⟨-, rfl⟩ | ⟨_, -, rfl | ⟨_, rfl⟩⟩ := answer_writeIso h
    · exact .setEntry w hin _
    · exact .refl ..
    · exact .setEntry w hin _
  | purge which => exact .of_removal hin h
  | removeAll path => exact .of_removal (fun _ hw => within_files hin hw) h
  | now =>
    cases h
    exact .tick (Int.le_add_of_nonneg_right (Int.natCast_nonneg _))
  | newUUID | randString | drawAssets =>
    cases h
    exact .refl ..

/-! ## Inside a footprint -/

/-- The worlds look the same inside the footprint. -/
structure Footprint.Agree (F : Footprint) (v w : World B) : Prop where
  object : v.icis F.key = w.icis F.key
  bmhs : ∀ host, F.hosts host → v.bmhs host = w.bmhs host
  dataImages : ∀ host, F.hosts host → v.dataImages host = w.dataImages host
  secrets : ∀ key, F.secrets key → v.secrets key = w.secrets key
  configMaps : ∀ key, F.configMaps key → v.configMaps key = w.configMaps key
  fs : ∀ path, F.files path.root → v.fs path = w.fs path
  cds : v.cds = w.cds
  imageSets : v.imageSets = w.imageSets
  clock : v.clock = w.clock

/-- Two calls reply the same and leave worlds that look the same. -/
def Footprint.Same {ρ : Type} (F : Footprint) (x y : ρ × World B) : Prop :=
  x.1 = y.1 ∧ F.Agree x.2 y.2

namespace Footprint.Agree

theorem refl (F : Footprint) (w : World B) : F.Agree w w where
  object := rfl
  bmhs _ _ := rfl
  dataImages _ _ := rfl
  secrets _ _ := rfl
  configMaps _ _ := rfl
  fs _ _ := rfl
  cds := rfl
  imageSets := rfl
  clock := rfl

variable (h : F.Agree v w)
include h

theorem setICI (ici : Option ImageClusterInstall) :
    F.Agree (v.setICI F.key ici) (w.setICI F.key ici) :=
  { h with object := by simp [World.setICI] }

theorem setBMH (host : NamespacedName) (bmh : BareMetalHost) :
    F.Agree (v.setBMH host bmh) (w.setBMH host bmh) :=
  { h with bmhs := update_inside h.bmhs host (some bmh) }

theorem setDataImage (host : NamespacedName) (image : Option DataImage) :
    F.Agree (v.setDataImage host image) (w.setDataImage host image) :=
  { h with dataImages := update_inside h.dataImages host image }

theorem setSecret (key : NamespacedName) (s : Secret B) :
    F.Agree (v.setSecret key s) (w.setSecret key s) :=
  { h with secrets := update_inside h.secrets key (some s) }

theorem setConfigMap (key : NamespacedName) (cm : ConfigMap) :
    F.Agree (v.setConfigMap key cm) (w.setConfigMap key cm) :=
  { h with configMaps := update_inside h.configMaps key (some cm) }

theorem setEntry (path : Path) (entry : Option (Entry B)) :
    F.Agree (v.setEntry path entry) (w.setEntry path entry) := by
  refine { h with fs := fun q hq => ?_ }
  exact update_inside (P := fun q : Path => F.files q.root) h.fs path entry q hq

theorem mkdirs (path : Path) : F.Agree (v.mkdirs path) (w.mkdirs path) :=
  { h with fs := fun q hq => by simp [World.mkdirs, h.fs q hq] }

theorem prune (which kept : Path → Bool) : F.Agree (v.prune which kept) (w.prune which kept) :=
  { h with fs := fun q hq => by simp [World.prune, h.fs q hq] }

theorem tick (d : Nat) :
    F.Agree { v with clock := v.clock + d } { w with clock := w.clock + d } :=
  { h with clock := by rw [h.clock] }

theorem read (c : Choice B) {x y : Except Err α} (hxy : x = y) :
    F.Same (c.read v x) (c.read w y) := by
  subst hxy
  unfold Choice.read
  split <;> exact ⟨rfl, h⟩

theorem write (c : Choice B) {v' w' : World B} (h' : F.Agree v' w') (a : α) :
    F.Same (c.write v v' a) (c.write w w' a) := by
  unfold Choice.write
  split
  · exact ⟨rfl, h'⟩
  · exact ⟨rfl, h⟩
  · exact ⟨rfl, h'⟩

theorem patch (c : Choice B) {o o' : Option α} (ho : o = o') (merge : α → α)
    {store store' : α → World B} (hs : ∀ a, F.Agree (store a) (store' a)) :
    F.Same (c.patch v o merge store) (c.patch w o' merge store') := by
  subst ho
  cases o with
  | none => exact h.read c rfl
  | some a => exact h.write c (hs _) _

theorem removal (c : Choice B) (which : Path → Bool) :
    F.Same (c.removal v which) (c.removal w which) := by
  unfold Choice.removal
  split
  · exact ⟨rfl, h.prune ..⟩
  · exact ⟨rfl, h.prune ..⟩
  · exact ⟨rfl, h.prune ..⟩

/-- What another object's call changes is not seen, apart from the time it takes. -/
theorem others (hs : G.Spares w w') (hkey : F.key ≠ G.key)
    (hhosts : ∀ host, F.hosts host → ¬G.hosts host)
    (hsecrets : ∀ key, F.secrets key → ¬G.secrets key)
    (hcms : ∀ key, F.configMaps key → ¬G.configMaps key)
    (hfiles : ∀ root, F.files root → ¬G.files root) :
    F.Agree { v with clock := w'.clock } w' where
  object := h.object.trans (hs.icis F.key hkey).symm
  bmhs host hhost := (h.bmhs host hhost).trans (hs.bmhs host (hhosts host hhost)).symm
  dataImages host hhost := (h.dataImages host hhost).trans
    (hs.dataImages host (hhosts host hhost)).symm
  secrets key hk := (h.secrets key hk).trans (hs.secrets key (hsecrets key hk)).symm
  configMaps key hk := (h.configMaps key hk).trans (hs.configMaps key (hcms key hk)).symm
  fs path hpath := (h.fs path hpath).trans (hs.fs path (hfiles _ hpath)).symm
  cds := h.cds.trans hs.cds.symm
  imageSets := h.imageSets.trans hs.imageSets.symm
  clock := rfl

end Footprint.Agree

/-- A call inside a footprint depends on nothing outside it. -/
theorem answer_agree {op : Op B} (c : Choice B) (hin : F.Inside op) (h : F.Agree v w) :
    F.Same (answer op c v) (answer op c w) := by
  cases op with
  | getICI key => exact h.read c (by rw [show key = F.key from hin, h.object])
  | patchICI key base new =>
    obtain ⟨rfl, -⟩ := hin
    exact h.patch c h.object _ fun _ => h.setICI _
  | patchICIStatus key base new =>
    obtain ⟨rfl, -⟩ := hin
    exact h.patch c h.object _ fun _ => h.setICI _
  | getBMH host => exact h.read c (by rw [h.bmhs host hin])
  | patchBMH host base new => exact h.patch c (h.bmhs host hin) _ fun _ => h.setBMH ..
  | getDataImage host => exact h.read c (by rw [h.dataImages host hin])
  | createDataImage host url =>
    simp only [answer, h.dataImages host hin]
    cases w.dataImages host with
    | some image => exact h.read c rfl
    | none =>
      refine (h.tick c.elapsed).write c ?_ ()
      have hset := (h.tick c.elapsed).setDataImage host
        (some { url, creationTimestamp := w.clock + c.elapsed })
      simpa only [h.clock] using hset
  | deleteDataImage host =>
    simp only [answer, h.dataImages host hin]
    cases w.dataImages host with
    | none => exact h.read c rfl
    | some image =>
      refine h.write c ?_ ()
      rw [h.clock]
      exact h.setDataImage host _
  | getCD key => exact h.read c (by rw [h.cds])
  | getImageSet name => exact h.read c (by rw [h.imageSets])
  | getConfigMap key => exact h.read c (by rw [h.configMaps key hin])
  | patchConfigMap key base new =>
    exact h.patch c (h.configMaps key hin) _ fun _ => h.setConfigMap ..
  | getSecret cached key => exact h.read c (by rw [h.secrets key hin])
  | createSecret key secret =>
    simp only [answer, h.secrets key hin]
    cases w.secrets key with
    | some s => exact h.read c rfl
    | none => exact h.write c (h.setSecret ..) ()
  | updateSecret key secret =>
    simp only [answer, h.secrets key hin]
    cases w.secrets key with
    | none => exact h.read c rfl
    | some s => exact h.write c (h.setSecret ..) ()
  | patchSecret key base new => exact h.patch c (h.secrets key hin) _ fun _ => h.setSecret ..
  | spokeStatus kubeconfig => exact h.read c rfl
  | mkdirAll path => exact h.write c (h.mkdirs path) ()
  | mkdirTemp => exact h.write c ((h.prune _ _).mkdirs _) _
  | stat path => exact h.read c (by rw [h.fs path hin])
  | readFile path => exact h.read c (by rw [h.fs path hin])
  | writeFile path content =>
    simp only [answer]
    split
    · exact ⟨rfl, h.setEntry ..⟩
    · exact h.write c (h.setEntry ..) ()
  | writeIso path image builtFrom =>
    simp only [answer]
    split
    · exact ⟨rfl, h.setEntry ..⟩
    · exact h.write c (h.setEntry ..) ()
  | purge which => exact h.removal c which
  | removeAll path => exact h.removal c _
  | loadDir path =>
    refine h.read c ?_
    have hfiles : v.files path = w.files path := by
      funext rel
      simp only [World.files, h.fs (path.join rel) hin]
    rw [hfiles]
  | tryLock dir => exact h.read c rfl
  | now => exact ⟨by simp [answer, h.clock], h.tick c.elapsed⟩
  | newUUID | randString | drawAssets => exact ⟨rfl, h⟩

end ImageBasedInstall

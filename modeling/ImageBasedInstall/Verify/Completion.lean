import ImageBasedInstall.Verify.Boot
import ImageBasedInstall.Verify.Interleaving

/-!
# An installation is completed without its image

Passes of the monitor interleave with the baremetal operator, which removes `DataImage`s and makes
none. The monitor reads through the cache. Before it reports the end of an installation it deletes
the host's `DataImage` and looks for it again; both reads have to be current, or the image may still
be there when the report is stored.

The proof is a rely/guarantee argument: `Watching` is the contract of a pass of the monitor, whose
rely is that images fade.
-/

namespace ImageBasedInstall

open Interactive Patch

variable {B : Type}

/-- Configurations of monitor passes that read through the cache. -/
abbrev Watch (B : Type) :=
  Config (Op B) Resp (Aged (World B)) (Choice B × Nat) NamespacedName

/-! ## Images fade -/

/-- No `DataImage` is made, and marks for deletion stay. -/
def ImagesFade (w w' : World B) : Prop :=
  ∀ host d', w'.dataImages host = some d' → ∃ d, w.dataImages host = some d ∧
    (d.deletionTimestamp.isSome = true → d'.deletionTimestamp.isSome = true)

/-- What the baremetal operator may do: it leaves the `ImageClusterInstall`s alone. -/
structure BmoStep (w w' : World B) : Prop where
  icis : w'.icis = w.icis
  fade : ImagesFade w w'

section Fading

variable {w w' w'' : World B} {host : NamespacedName}

theorem ImagesFade.of_eq (h : w'.dataImages = w.dataImages) : ImagesFade w w' :=
  fun _ d' hd' => ⟨d', h ▸ hd', id⟩

theorem ImagesFade.refl (w : World B) : ImagesFade w w := .of_eq rfl

theorem ImagesFade.trans (h : ImagesFade w w') (h' : ImagesFade w' w'') : ImagesFade w w'' := by
  intro host d'' hd''
  obtain ⟨d', hd', hmark'⟩ := h' host d'' hd''
  obtain ⟨d, hd, hmark⟩ := h host d' hd'
  exact ⟨d, hd, fun hm => hmark' (hmark hm)⟩

theorem ImageGone.fade (h : ImageGone host w) (hw : ImagesFade w w') : ImageGone host w' := by
  intro d' hd'
  obtain ⟨d, hd, hmark⟩ := hw host d' hd'
  exact hmark (h d hd)

theorem gone_fade (h : w.dataImages host = none) (hw : ImagesFade w w') :
    w'.dataImages host = none := by
  cases hd' : w'.dataImages host with
  | none => rfl
  | some d' =>
    obtain ⟨d, hd, -⟩ := hw host d' hd'
    rw [h] at hd
    cases hd

theorem ImagesFade.delete {image : DataImage} (hs : w.dataImages host = some image) :
    ImagesFade w (w.setDataImage host (image.delete w.clock)) := by
  intro k d' hd'
  simp only [World.setDataImage, Function.update_apply] at hd'
  split at hd'
  · next heq =>
    subst heq
    exact ⟨image, hs, fun _ => by rw [DataImage.delete_some hd']; rfl⟩
  · exact ⟨d', hd', id⟩

end Fading

/-! ## The contract of a pass -/

/-- The pass has found the cluster installed. -/
def foundInstalled (l : Calls B) : Bool :=
  l.any fun e =>
    match e with
    | ⟨.spokeStatus _, .ok status⟩ => status.installed
    | _ => false

/-- Once the pass has found the cluster installed, its reads of the `DataImage` are current. -/
def CurrentRead (s : Aged (World B)) (l : Calls B) (op : Op B) (lag : Nat) : Prop :=
  ∀ host, op = .getDataImage host → foundInstalled l = true →
    (s.version lag).dataImages host = s.now.dataImages host

/-- In every version, the status of the object `key` has the host reference `ref key`. -/
def HostRefs (ref : NamespacedName → Option NamespacedName) (s : Aged (World B)) : Prop :=
  ∀ v ∈ s.versions, ∀ key ici, v.icis key = some ici → ici.status.bareMetalHostRef = ref key

/-- A call that stores the completion of an object finds no `DataImage` of its host. -/
def HonestReport (ref : NamespacedName → Option NamespacedName) (s : Aged (World B)) : Op B → Prop
  | .patchICIStatus key _ new => Completed new.status.conditions →
    ∀ host, ref key = some host → s.now.dataImages host = none
  | _ => True

/-- The contract of a pass of the monitor, over the world and its log. -/
def Watching (ref : NamespacedName → Option NamespacedName) :
    Contract (Op B) Resp (Aged (World B) × Calls B) where
  step op σ r σ' := HostRefs ref σ.1 ∧ σ'.2 = ⟨op, r⟩ :: σ.2 ∧
    ∃ c, aged answer Op.cached op c σ.1 = (r, σ'.1) ∧ CurrentRead σ.1 σ.2 op c.2
  rely σ σ' := ImagesFade σ.1.now σ'.1.now ∧ σ'.2 = σ.2
  guar σ op _ σ' := ImagesFade σ.1.now σ'.1.now ∧ HostRefs ref σ'.1 ∧ HonestReport ref σ.1 op
  rely_refl _ := ⟨.refl _, rfl⟩
  rely_trans h h' := ⟨h.1.trans h'.1, h'.2.trans h.2⟩

/-- An assertion about the world and the log that survives as images fade and the log grows. -/
def Lasting (P : World B → Calls B → Prop) : Prop :=
  ∀ w w' l l', ImagesFade w w' → l ⊆ l' → P w l → P w' l'

theorem foundInstalled_mono {l l' : Calls B} (hl : l ⊆ l') (h : foundInstalled l = true) :
    foundInstalled l' = true := by
  obtain ⟨e, he, hinst⟩ := List.any_eq_true.1 h
  exact List.any_eq_true.2 ⟨e, hl he, hinst⟩

theorem lasting_found : Lasting fun (_ : World B) l => foundInstalled l = true :=
  fun _ _ _ _ _ hl h => foundInstalled_mono hl h

theorem lasting_faded (host : NamespacedName) :
    Lasting fun (w : World B) l => foundInstalled l = true ∧ ImageGone host w :=
  fun _ _ _ _ hw hl h => ⟨foundInstalled_mono hl h.1, h.2.fade hw⟩

theorem lasting_gone (host : NamespacedName) :
    Lasting fun (w : World B) _ => w.dataImages host = none :=
  fun _ _ _ _ hw _ h => gone_fade h hw

theorem lasting_true : Lasting fun (_ : World B) _ => True := fun _ _ _ _ _ _ _ => trivial

section Rules

variable {ref : NamespacedName → Option NamespacedName} {op : Op B}
  {σ σ' : Aged (World B) × Calls B} {P : World B → Calls B → Prop}

/-- A call behind the cache: a read from some version, or a call on the current world. -/
theorem aged_cases {c : Choice B × Nat} {s s' : Aged (World B)} {r : Resp op}
    (h : aged answer Op.cached op c s = (r, s')) :
    (s' = s ∧ (answer op c.1 (s.version c.2)).1 = r) ∨
      ∃ w', answer op c.1 s.now = (r, w') ∧ s' = s.update w' := by
  unfold aged at h
  split at h
  · cases h
    exact .inl ⟨rfl, rfl⟩
  · cases h
    exact .inr ⟨_, rfl, rfl⟩

/-- A call that is not answered from the cache. -/
theorem aged_uncached (op : Op B) {c : Choice B × Nat} {s s' : Aged (World B)} {r : Resp op}
    (hop : op.cached = false) (h : aged answer Op.cached op c s = (r, s')) :
    ∃ w', answer op c.1 s.now = (r, w') ∧ s' = s.update w' := by
  simp only [aged, hop, Bool.false_eq_true, if_false, Prod.mk.injEq] at h
  exact ⟨_, Prod.ext h.1 rfl, h.2.symm⟩

theorem HostRefs.update {s : Aged (World B)} {w' : World B} (h : HostRefs ref s)
    (hw : ∀ key ici', w'.icis key = some ici' → ici'.status.bareMetalHostRef = ref key) :
    HostRefs ref (s.update w') :=
  Aged.forall_update h hw

/-- A call that writes neither the object nor the image. -/
theorem watching_step (op : Op B) {r : Resp op} (hi : op.target ≠ .ici)
    (hd : op.target ≠ .dataImage) (h : (Watching ref).step op σ r σ') :
    (Watching ref).guar σ op r σ' ∧ ImagesFade σ.1.now σ'.1.now ∧ σ'.2 = ⟨op, r⟩ :: σ.2 := by
  obtain ⟨hrefs, hlog, c, haged, -⟩ := h
  have hhonest : HonestReport ref σ.1 op := by
    cases op with
    | patchICIStatus key base new => exact absurd rfl hi
    | _ => trivial
  rcases aged_cases haged with ⟨heq, -⟩ | ⟨w', hanswer, heq⟩
  · have hfade : ImagesFade σ.1.now σ'.1.now := .of_eq (by rw [heq])
    exact ⟨⟨hfade, by rwa [heq], hhonest⟩, hfade, hlog⟩
  · have hframe := answer_framed hanswer
    have hfade : ImagesFade σ.1.now σ'.1.now := by
      refine .of_eq ?_
      rw [heq]
      exact hframe.dataImages (by simpa using fun h => hd h.symm)
    have hicis : w'.icis = σ.1.now.icis := hframe.icis (by simpa using fun h => hi h.symm)
    refine ⟨⟨hfade, ?_, hhonest⟩, hfade, hlog⟩
    rw [heq]
    exact hrefs.update fun key ici hici => hrefs _ σ.1.now_mem key ici (hicis ▸ hici)

theorem Lasting.rely (hP : Lasting P) (h : P σ.1.now σ.2) (hr : (Watching ref).rely σ σ') :
    P σ'.1.now σ'.2 :=
  hP _ _ _ _ hr.1 (by rw [hr.2]; exact List.Subset.refl _) h

theorem Lasting.step {e : (op : Op B) × Resp op} (hP : Lasting P) (h : P σ.1.now σ.2)
    (hfade : ImagesFade σ.1.now σ'.1.now) (hlog : σ'.2 = e :: σ.2) : P σ'.1.now σ'.2 :=
  hP _ _ _ _ hfade (by rw [hlog]; exact List.subset_cons_self ..) h

/-- A program all of whose calls leave the object and the image alone. -/
theorem watching_uses {α : Type} {p : Program B α} (hP : Lasting P)
    (hp : p.Uses fun op => op.target ≠ .ici ∧ op.target ≠ .dataImage) (h : P σ.1.now σ.2) :
    Meets (Watching ref) p (fun _ σ => P σ.1.now σ.2) σ := by
  refine Meets.of_uses (I := fun σ => P σ.1.now σ.2) hp (fun _ _ h hr => hP.rely h hr) ?_ h
  rintro op σ₁ r σ₂ ⟨hi, hd⟩ h₁ hstep
  obtain ⟨hguar, hfade, hlog⟩ := watching_step op hi hd hstep
  exact ⟨hguar, hP.step h₁ hfade hlog⟩

/-- A call that leaves the object and the image alone. -/
theorem watching_perform (op : Op B) (hi : op.target ≠ .ici) (hd : op.target ≠ .dataImage)
    (hP : Lasting P) (h : P σ.1.now σ.2) :
    Meets (Watching ref) (Prog.perform op) (fun r σ => P σ.1.now σ.2 ∧ ⟨op, r⟩ ∈ σ.2) σ := by
  intro σ₁ hr r σ₂ hstep
  obtain ⟨hguar, hfade, hlog⟩ := watching_step op hi hd hstep
  refine ⟨hguar, fun σ₃ hr₃ => ?_⟩
  have h₂ := hP.step (hP.rely h hr) hfade hlog
  refine ⟨hP.rely h₂ hr₃, ?_⟩
  rw [hr₃.2, hlog]
  exact List.mem_cons_self ..

/-- A read of the image once the cluster was found installed: it is current. -/
theorem watching_getDataImage {host : NamespacedName} (hP : Lasting P) (h : P σ.1.now σ.2)
    (hfound : foundInstalled σ.2 = true) :
    Meets (Watching ref) (getDataImage host).run
      (fun r σ => P σ.1.now σ.2 ∧ foundInstalled σ.2 = true ∧
        (∀ e, r = .error e → e.isNotFound = true → σ.1.now.dataImages host = none) ∧
        (∀ d, r = .ok d → ∃ w l, P w l ∧ w.dataImages host = some d)) σ := by
  intro σ₁ hr r σ₂ hstep
  obtain ⟨hguar, hfade, hlog⟩ := watching_step (.getDataImage host) nofun nofun hstep
  refine ⟨hguar, fun σ₃ hr₃ => ?_⟩
  have h₁ := hP.rely h hr
  have hfound₁ := lasting_found.rely (P := fun _ l => foundInstalled l = true) hfound hr
  have hsub : σ₁.2 ⊆ σ₃.2 := by
    rw [hr₃.2, hlog]
    exact List.subset_cons_self ..
  have hfade₃ := hfade.trans hr₃.1
  obtain ⟨-, -, c, haged, hcurrent⟩ := hstep
  -- whether it was answered from a version or from the current world, the image is the current one
  have hread : ∃ w, w.dataImages host = σ₁.1.now.dataImages host ∧
      (answer (.getDataImage host) c.1 w).1 = r := by
    rcases aged_cases haged with ⟨-, hr⟩ | ⟨w', hr, -⟩
    · exact ⟨_, hcurrent host rfl hfound₁, hr⟩
    · exact ⟨_, rfl, by rw [hr]⟩
  obtain ⟨w, hw, hr⟩ := hread
  have hans : c.1.read w (orNotFound (w.dataImages host)) = (r, w) :=
    Prod.ext hr (Choice.read_eq (c := c.1) (w := w) rfl).1
  obtain ⟨-, hlookup⟩ := Choice.lookup_eq hans
  refine ⟨hP _ _ _ _ hfade₃ hsub h₁, foundInstalled_mono hsub hfound₁, fun e he hnot => ?_,
    fun d hd => ⟨σ₁.1.now, σ₁.2, h₁, ?_⟩⟩
  · rcases hlookup with ⟨a, -, heq⟩ | ⟨hnone, -⟩ | ⟨text, heq⟩
    · rw [he] at heq
      cases heq
    · exact gone_fade (hw ▸ hnone) hfade₃
    · rw [he] at heq
      cases heq
      cases hnot
  · rcases hlookup with ⟨a, ha, heq⟩ | ⟨-, heq⟩ | ⟨e, heq⟩
    · rw [hd] at heq
      cases heq
      exact hw ▸ ha
    · rw [hd] at heq
      cases heq
    · rw [hd] at heq
      cases heq

/-- A deletion that succeeds leaves no image, or a marked one. -/
theorem watching_requestDelete {host : NamespacedName} (hP : Lasting P) (h : P σ.1.now σ.2) :
    Meets (Watching ref) (requestDelete host).run
      (fun r σ => P σ.1.now σ.2 ∧ (r = .ok () → ImageGone host σ.1.now)) σ := by
  rintro σ₁ hr r σ₂ ⟨hrefs, hlog, c, haged, -⟩
  have h₁ := hP.rely h hr
  obtain ⟨w', hanswer, heq⟩ := aged_uncached (.deleteDataImage host) rfl haged
  have hicis : w'.icis = σ₁.1.now.icis := (answer_framed hanswer).icis (by simp [Op.target])
  have hrefs' : HostRefs ref σ₂.1 := by
    rw [heq]
    exact hrefs.update fun key ici hici => hrefs _ σ₁.1.now_mem key ici (hicis ▸ hici)
  have hnow : σ₂.1.now = w' := by
    rw [heq]
    rfl
  rcases answer_deleteDataImage hanswer with ⟨image, himage, rfl⟩ | ⟨rfl, e, rfl⟩
  · have hfade : ImagesFade σ₁.1.now σ₂.1.now := hnow ▸ ImagesFade.delete himage
    refine ⟨⟨hfade, hrefs', trivial⟩, fun σ₃ hr₃ => ⟨?_, fun _ => ?_⟩⟩
    · exact hP.rely (hP.step h₁ hfade hlog) hr₃
    · exact ImageGone.fade (hnow ▸ .delete himage) hr₃.1
  · have hfade : ImagesFade σ₁.1.now σ₂.1.now := .of_eq (by rw [hnow])
    refine ⟨⟨hfade, hrefs', trivial⟩, fun σ₃ hr₃ => ⟨?_, fun hok => ?_⟩⟩
    · exact hP.rely (hP.step h₁ hfade hlog) hr₃
    · cases hok

/-- A copy of the object has the host reference of all versions. -/
theorem watching_getICI (req : NamespacedName) :
    Meets (Watching ref) (getICI req : Act B _).run
      (fun r _ => ∀ ici, r = .ok ici → ici.status.bareMetalHostRef = ref req) σ := by
  intro σ₁ hr r σ₂ hstep
  obtain ⟨hguar, -, -⟩ := watching_step (.getICI req) nofun nofun hstep
  refine ⟨hguar, fun σ₃ _ ici hici => ?_⟩
  obtain ⟨hrefs, -, c, haged, -⟩ := hstep
  have hread : ∃ v ∈ σ₁.1.versions, (answer (.getICI req) c.1 v).1 = r := by
    rcases aged_cases haged with ⟨-, hr⟩ | ⟨w', hr, -⟩
    · exact ⟨_, σ₁.1.version_mem _, hr⟩
    · exact ⟨_, σ₁.1.now_mem, by rw [hr]⟩
  obtain ⟨v, hv, hr⟩ := hread
  have hans : c.1.read v (orNotFound (v.icis req)) = (r, v) :=
    Prod.ext hr (Choice.read_eq (c := c.1) (w := v) rfl).1
  obtain ⟨-, ⟨a, ha, heq⟩ | ⟨-, heq⟩ | ⟨e, heq⟩⟩ := Choice.lookup_eq hans
  · rw [hici] at heq
    cases heq
    exact hrefs v hv req ici ha
  · rw [hici] at heq
    cases heq
  · rw [hici] at heq
    cases heq

/-- A status patch that changes the conditions only. -/
theorem watching_patch {req : NamespacedName} {ici : ImageClusterInstall} {conds : List Condition}
    (hP : Lasting P) (h : P σ.1.now σ.2)
    (hsafe : Completed conds → ∀ w l, P w l → ∀ host, ref req = some host →
      w.dataImages host = none) :
    Meets (Watching ref) (patchICIStatus req ici (ici.withConditions conds))
      (fun _ _ => True) σ := by
  refine Meets.bind ?_
  rintro σ₁ hr r σ₂ ⟨hrefs, hlog, c, haged, -⟩
  obtain ⟨w', hanswer, heq⟩ :=
    aged_uncached (.patchICIStatus req ici (ici.withConditions conds)) rfl haged
  have himages : w'.dataImages = σ₁.1.now.dataImages :=
    (answer_framed hanswer).dataImages (by simp [Op.target])
  refine ⟨⟨.of_eq (by rw [heq]; exact himages), ?_, fun hdone host hhost => ?_⟩,
    fun _ _ _ _ => trivial⟩
  · rw [heq]
    refine hrefs.update fun key ici' hici' => ?_
    cases iciAfter_stored hanswer hici' with
    | kept hk => exact hrefs _ σ₁.1.now_mem key ici' hk
    | @statusPatched _ _ stored hs =>
      change mergeField ici.status.bareMetalHostRef ici.status.bareMetalHostRef _ = _
      rw [mergeField_unchanged]
      exact hrefs _ σ₁.1.now_mem _ stored hs
  · exact hsafe hdone _ _ (hP.rely h hr) host hhost

end Rules

/-! ## The pass -/

/-- Only the report of the end says that the installation is completed. -/
theorem MonitorReport.completed {report conds conds' : List Condition} (hr : MonitorReport report)
    (hs : Sets report conds conds') (hdone : Completed conds') : report = installedConditions := by
  obtain ⟨c, hc, htrue⟩ := hdone
  have hfind : ∀ d ∈ report, d.type = .completed → d.status = .true := by
    intro d hd hdc
    obtain ⟨c', hc', hsays⟩ := hs.find hr.nodup hd
    rw [hdc, hc] at hc'
    cases hc'
    exact hsays.1.symm.trans htrue
  cases hr with
  | installing message => exact absurd (hfind _ (List.mem_cons_self ..) rfl) nofun
  | timeout timeout => exact absurd (hfind _ (List.mem_cons_self ..) rfl) nofun
  | installed => rfl

section Pass

variable {ref : NamespacedName → Option NamespacedName} {σ : Aged (World B) × Calls B}
  {P : World B → Calls B → Prop} {req host : NamespacedName} {ici : ImageClusterInstall}

theorem setInstallConditions_watching {conds : List Condition} (hr : MonitorReport conds)
    (hP : Lasting P) (h : P σ.1.now σ.2)
    (hsafe : conds = installedConditions → ∀ w l, P w l → ∀ host, ref req = some host →
      w.dataImages host = none) :
    Meets (Watching ref) (setInstallConditions req ici conds) (fun _ _ => True) σ := by
  have hnow : (now : Program B Time).Uses fun op => op.target ≠ .ici ∧ op.target ≠ .dataImage :=
    ⟨⟨nofun, nofun⟩, fun _ => trivial⟩
  refine Meets.seq (meets_sets (P := fun σ => P σ.1.now σ.2) (fun _ _ h hr => hP.rely h hr)
    (fun _ h => watching_uses hP hnow h) conds _ h) ?_
  rintro ⟨conditions, updated⟩ σ₁ ⟨hsets, h₁⟩
  cases updated with
  | false => exact fun _ _ => trivial
  | true => exact watching_patch hP h₁ fun hdone => hsafe (hr.completed hsets hdone)

/-- The reports of progress are never the one of the end. -/
theorem progress_watching {conds : List Condition} (hr : MonitorReport conds)
    (hne : conds ≠ installedConditions) :
    Meets (Watching ref) (setInstallConditions req ici conds) (fun _ _ => True) σ :=
  setInstallConditions_watching hr lasting_true trivial fun h => absurd h hne

theorem installing_ne (message : String) : installingConditions message ≠ installedConditions := by
  intro h
  cases h

theorem timeout_ne (timeout : String) : timeoutConditions timeout ≠ installedConditions := by
  intro h
  cases h

theorem tries_watching {α : Type} {x : Act B α}
    (h : Meets (Watching ref) x.run (fun _ _ => True) σ) :
    Tries (Watching ref) x (fun _ _ => True) (fun _ _ => True) σ :=
  Meets.mono h fun r _ _ => by cases r <;> trivial

theorem handleClusterTimeout_watching (E : Env B) :
    Tries (Watching ref) (handleClusterTimeout E req ici) (fun _ _ => True)
      (fun _ _ => True) σ := by
  unfold handleClusterTimeout
  split
  · exact fun _ _ => trivial
  refine Tries.bind ?_
  cases installTimeout E ici with
  | error e => exact fun _ _ => trivial
  | ok timeout =>
    refine fun σ₁ _ => Tries.seq
      (Tries.lift (watching_perform .now nofun nofun lasting_true trivial)) fun t σ₂ _ => ?_
    split
    · refine Tries.seq (Tries.lift (progress_watching (.timeout _) (timeout_ne _))) fun _ σ₃ _ => ?_
      exact fun _ _ => trivial
    · exact fun _ _ => trivial

theorem reportProgress_watching (E : Env B) (message : String) :
    Tries (Watching ref) (reportProgress E req ici message) (fun _ _ => True)
      (fun _ _ => True) σ := by
  refine Tries.seq (handleClusterTimeout_watching E) fun expired σ₁ _ => ?_
  split
  · exact fun _ _ => trivial
  · refine Tries.seq (Tries.lift (progress_watching (.installing _) (installing_ne _)))
      fun _ σ₂ _ => ?_
    exact fun _ _ => trivial

/-- Before the cluster is found installed. -/
theorem handleDataImageDeletion_watching :
    Tries (Watching ref) (handleDataImageDeletion req ici host) (fun _ _ => True)
      (fun _ _ => True) σ := by
  refine Tries.seq
    (Tries.lift (watching_perform (.getDataImage host) nofun nofun lasting_true trivial))
    fun r σ₁ _ => ?_
  cases r with
  | error e =>
    dsimp only
    split <;> exact fun _ _ => trivial
  | ok image =>
    dsimp only
    split
    · exact fun _ _ => trivial
    · refine Tries.seq (Tries.lift (progress_watching (.installing _) (installing_ne _)))
        fun _ σ₂ _ => ?_
      exact fun _ _ => trivial

/-- After the image was deleted: if the pass goes on, it is gone. -/
theorem handleDataImageDeletion_gone (hfound : foundInstalled σ.2 = true)
    (hfaded : ImageGone host σ.1.now) :
    Tries (Watching ref) (handleDataImageDeletion req ici host)
      (fun r σ => r = none → σ.1.now.dataImages host = none) (fun _ _ => True) σ := by
  refine Tries.seq (Tries.lift
    (watching_getDataImage (lasting_faded host) ⟨hfound, hfaded⟩ hfound)) ?_
  rintro r σ₁ ⟨-, -, hnot, hok⟩
  cases r with
  | error e =>
    dsimp only
    split
    · next he => exact fun σ₂ hr₂ _ => gone_fade (hnot e rfl he) hr₂.1
    · exact fun _ _ => trivial
  | ok image =>
    obtain ⟨w, l, ⟨-, hmarked⟩, himage⟩ := hok image rfl
    have hmark := hmarked image himage
    dsimp only
    split
    · next hnone =>
      rw [Option.isNone_iff_eq_none.1 hnone] at hmark
      cases hmark
    · refine Tries.seq (Tries.lift (progress_watching (.installing _) (installing_ne _)))
        fun _ σ₂ _ => ?_
      exact fun _ _ => nofun

theorem deleteDataImage_watching (hfound : foundInstalled σ.2 = true) :
    Tries (Watching ref) (deleteDataImage host)
      (fun _ σ => foundInstalled σ.2 = true ∧ ImageGone host σ.1.now) (fun _ _ => True) σ := by
  refine Tries.seq (Tries.lift (watching_getDataImage lasting_found hfound hfound)) ?_
  rintro r σ₁ ⟨hfound₁, -, hnot, -⟩
  cases r with
  | error e =>
    dsimp only
    split
    · next he =>
      intro σ₂ hr₂
      refine ⟨lasting_found.rely (P := fun _ l => foundInstalled l = true) hfound₁ hr₂, ?_⟩
      intro d hd
      rw [gone_fade (hnot e rfl he) hr₂.1] at hd
      cases hd
    · exact fun _ _ => trivial
  | ok image =>
    refine Tries.bind (Meets.mono (watching_requestDelete lasting_found hfound₁) ?_)
    rintro r σ₂ ⟨hfound₂, hfaded⟩
    cases r with
    | error e => trivial
    | ok _ => exact fun σ₃ hr₃ => (lasting_faded host).rely ⟨hfound₂, hfaded rfl⟩ hr₃

theorem removeBMHDataImage_watching (hfound : foundInstalled σ.2 = true) :
    Tries (Watching ref) (removeBMHDataImage host)
      (fun _ σ => foundInstalled σ.2 = true ∧ ImageGone host σ.1.now) (fun _ _ => True) σ := by
  refine Tries.seq (deleteDataImage_watching hfound) fun d σ₁ h₁ => ?_
  cases d with
  | none => exact fun σ₂ hr₂ => (lasting_faded host).rely h₁ hr₂
  | some image =>
    refine Meets.mono (watching_uses (lasting_faded host) ?_ h₁) fun r σ₂ h₂ => ?_
    · refine uses_bind (uses_attempt (Prog.uses_perform ⟨nofun, nofun⟩)) fun r => ?_
      split
      · split <;> trivial
      · refine uses_bind ?_ fun _ => trivial
        unfold rebootBMH
        dsimp only
        split
        · exact uses_bind (Prog.uses_perform ⟨nofun, nofun⟩) fun _ => trivial
        · trivial
    · cases r with
      | error e => trivial
      | ok _ => exact h₂

/-- The end is reported only when the image is gone. -/
theorem reportInstalled_watching (hfound : foundInstalled σ.2 = true)
    (hhost : ref req = some host) :
    Tries (Watching ref) (reportInstalled req ici host) (fun _ _ => True) (fun _ _ => True) σ := by
  refine Tries.seq (removeBMHDataImage_watching hfound) ?_
  rintro _ σ₁ ⟨hfound₁, hfaded⟩
  refine Tries.seq (handleDataImageDeletion_gone hfound₁ hfaded) fun r σ₂ hgone => ?_
  cases r with
  | some res => exact fun _ _ => trivial
  | none =>
    refine Tries.seq (Tries.lift (setInstallConditions_watching .installed (lasting_gone host)
      (hgone rfl) fun _ w _ h host' hhost' => ?_)) ?_
    · obtain rfl : host = host' := Option.some.inj (hhost.symm.trans hhost')
      exact h
    · rintro ⟨_, err⟩ σ₃ -
      cases err <;> exact fun _ _ => trivial

theorem monitorInstallationProgress_watching (E : Env B)
    (hhost : ici.status.bareMetalHostRef = ref req) :
    Tries (Watching ref) (monitorInstallationProgress E req ici) (fun _ _ => True)
      (fun _ _ => True) σ := by
  unfold monitorInstallationProgress
  split
  · exact fun _ _ => trivial
  · next host href =>
    refine Tries.bind (Meets.mono
      (watching_perform (.getBMH host) nofun nofun lasting_true trivial) fun r σ₁ _ => ?_)
    cases r with
    | error e => trivial
    | ok bmh =>
      dsimp only [Outcome]
      split
      · refine Tries.seq handleDataImageDeletion_watching fun r σ₂ _ => ?_
        cases r with
        | some res => exact fun _ _ => trivial
        | none =>
          refine Tries.seq (tries_watching (watching_uses lasting_true (spokeKubeconfig_uses
            (fun op h => by rw [h]; decide) E req ici) trivial)) fun kubeconfig σ₃ _ => ?_
          refine Tries.bind (Tries.adapt (Meets.mono
            (watching_perform (.spokeStatus kubeconfig) nofun nofun lasting_true trivial) ?_))
          rintro r σ₄ ⟨-, hmem⟩
          cases r with
          | error e => trivial
          | ok status =>
            dsimp only [Outcome]
            split
            · next hinst =>
              refine reportInstalled_watching (List.any_eq_true.2 ⟨_, hmem, hinst⟩) ?_
              exact hhost.symm.trans href
            · exact reportProgress_watching E _
      · exact reportProgress_watching E _

/-- A pass of the monitor keeps the contract. -/
theorem monitor_watching (E : Env B) :
    Meets (Watching ref) (monitor E req).ignore (fun _ _ => True) σ := by
  have hpass : Tries (Watching ref) (monitor E req) (fun _ _ => True) (fun _ _ => True) σ := by
    refine Tries.seq (Tries.lift (watching_getICI req)) fun r σ₁ hread => ?_
    cases r with
    | error e =>
      dsimp only
      split <;> exact fun _ _ => trivial
    | ok ici =>
      dsimp only
      split
      · exact fun _ _ => trivial
      split
      · exact fun _ _ => trivial
      · exact monitorInstallationProgress_watching E (hread ici rfl)
  exact Meets.seq hpass fun _ _ _ _ _ => trivial

end Pass

/-! ## Runs -/

/-- A thread that has found the cluster installed and is about to read the `DataImage` reads the
current one. -/
def currentReads (cfg : Watch B) : Label (Choice B × Nat) NamespacedName Unit → Bool
  | .call i c =>
    match cfg.threads i with
    | some ⟨_, log, .call (.getDataImage host) _⟩ => !foundInstalled log ||
      decide ((cfg.world.version c.2).dataImages host = cfg.world.now.dataImages host)
    | _ => true
  | _ => true

theorem currentReads_call {cfg : Watch B} {i : Nat} {c : Choice B × Nat} {key : NamespacedName}
    {log : Calls B} {op : Op B} {k : Resp op → Program B Unit}
    (h : currentReads cfg (.call i c) = true) (hi : cfg.threads i = some ⟨key, log, .call op k⟩) :
    CurrentRead cfg.world log op c.2 := by
  rintro host rfl hfound
  simpa [currentReads, hi, hfound] using h

/-- Passes of the monitor behind the cache, with the baremetal operator acting in between. -/
abbrev WatchRun (E : Env B) (cond : Watch B → Label (Choice B × Nat) NamespacedName Unit → Prop)
    (w₀ : World B) :=
  Reaches (Sched (aged answer Op.cached) (fun key => (monitor E key).ignore)
    fun s (_ : Unit) s' => ∃ w', BmoStep s.now w' ∧ s' = s.update w') cond
    (fun cfg => cfg = { world := { now := w₀ } })

section Runs

variable {E : Env B} {w₀ : World B} {cfg : Watch B}

/-- The host references of the objects at the start. -/
def World.hostRef (w : World B) (key : NamespacedName) : Option NamespacedName :=
  (w.icis key).bind fun ici => ici.status.bareMetalHostRef

theorem WatchRun.invariant (h : WatchRun E (fun cfg lab => currentReads cfg lab = true) w₀ cfg) :
    HostRefs w₀.hostRef cfg.world ∧ ∀ i t, cfg.threads i = some t →
      Meets (Watching w₀.hostRef) t.prog (fun _ _ => True) (cfg.world, t.log) := by
  refine Sched.invariant (I := HostRefs w₀.hostRef)
    (T := fun s t => Meets (Watching w₀.hostRef) t.prog (fun _ _ => True) (s, t.log)) h
      ?_ ?_ ?_ ?_ ?_
  · rintro cfg rfl
    refine ⟨fun v hv key ici hici => ?_, fun _ => rfl⟩
    obtain rfl : v = w₀ := by simpa [Aged.versions] using hv
    simp [World.hostRef, hici]
  · exact fun _ _ _ => monitor_watching E
  · exact fun _ _ _ _ _ => trivial
  · intro cfg i key log op k c hi hcond hI hT
    have hstep : (Watching w₀.hostRef).step op (cfg.world, log)
        (aged answer Op.cached op c cfg.world).1 ((aged answer Op.cached op c cfg.world).2, _) :=
      ⟨hI, rfl, c, rfl, currentReads_call hcond hi⟩
    obtain ⟨⟨hfade, hrefs, -⟩, hnext⟩ := hT (cfg.world, log) ((Watching _).rely_refl _) _ _ hstep
    exact ⟨hrefs, hnext, fun t ht => Meets.stable ht ⟨hfade, rfl⟩⟩
  · rintro cfg - _ hI - ⟨w', hbmo, rfl⟩
    refine ⟨hI.update fun key ici hici => ?_, fun i t _ hT => Meets.stable hT ⟨hbmo.fade, rfl⟩⟩
    exact hI _ cfg.world.now_mem key ici (hbmo.icis ▸ hici)

end Runs

theorem completed_without_image (E : Env B) (w₀ : World B) (cfg : Watch B)
    (h : WatchRun E (fun cfg lab => currentReads cfg lab = true) w₀ cfg) :
    ∀ m ∈ cfg.history, ∀ key conds ici host,
      storedConditions key m.op m.choice.1 m.before.now = some conds → Completed conds →
      m.before.now.icis key = some ici → ici.status.bareMetalHostRef = some host →
      m.before.now.dataImages host = none := by
  refine h.induct (I := fun cfg => ∀ m ∈ cfg.history, ∀ key conds ici host,
    storedConditions key m.op m.choice.1 m.before.now = some conds → Completed conds →
    m.before.now.icis key = some ici → ici.status.bareMetalHostRef = some host →
    m.before.now.dataImages host = none) ?_ ?_
  · rintro cfg rfl m hm
    cases hm
  · intro cfg lab cfg' hr hI hcond hs
    cases hs with
    | spawn tag hnone => exact hI
    | stop hi => exact hI
    | env henv => exact hI
    | @call i key' log op k c hi =>
      intro m hm key conds ici host hstored hdone hici hhost
      rcases List.mem_cons.1 hm with rfl | hm
      · obtain ⟨base, new, -, rfl, -, -, -, rfl⟩ := storedConditions_some hstored
        obtain ⟨hrefs, hthreads⟩ := WatchRun.invariant hr
        have hT := hthreads i _ hi
        obtain ⟨⟨-, -, hhonest⟩, -⟩ := hT (cfg.world, log) ((Watching _).rely_refl _) _
          (_, _) ⟨hrefs, rfl, c, rfl, currentReads_call hcond hi⟩
        refine hhonest hdone host ?_
        rw [← hrefs _ cfg.world.now_mem key ici hici]
        exact hhost
      · exact hI m hm key conds ici host hstored hdone hici hhost

/-! ## A current and a stale read -/

/-- The monitor finds the cluster installed. -/
def installedChoice (lag : Nat) : Choice Doc × Nat := ({ status := ⟨true, ""⟩ }, lag)

def sampleWatch (w : World Doc)
    (ok : Watch Doc → Label (Choice Doc × Nat) NamespacedName Unit → Bool)
    (labs : List (Label (Choice Doc × Nat) NamespacedName Unit)) : Watch Doc :=
  Config.moves (aged answer Op.cached) (fun key => (monitor Env.symbolic key).ignore) ok
    (.spawn 0 sampleKey :: labs) { world := { now := w } }

/-- The report of the end that a call in the history stored in the sample object, with the host's
`DataImage` at that moment. -/
def reportedWith (m : Made (Op Doc) (Aged (World Doc)) (Choice Doc × Nat) NamespacedName) :
    Option (Option DataImage) :=
  match storedConditions sampleKey m.op m.choice.1 m.before.now, m.before.now.hostRef sampleKey with
  | some conds, some host =>
    if Completed conds ∧ (m.before.now.bmhs host).isSome then some (m.before.now.dataImages host)
    else none
  | _, _ => none

theorem reportedWith_some {m : Made (Op Doc) (Aged (World Doc)) (Choice Doc × Nat) NamespacedName}
    {image : Option DataImage} (h : reportedWith m = some image) :
    ∃ conds ici host, storedConditions sampleKey m.op m.choice.1 m.before.now = some conds ∧
      Completed conds ∧ m.before.now.icis sampleKey = some ici ∧
      ici.status.bareMetalHostRef = some host ∧ (m.before.now.bmhs host).isSome ∧
      m.before.now.dataImages host = image := by
  unfold reportedWith at h
  split at h
  · next conds host hconds hhost =>
    split_ifs at h with hdone
    obtain ⟨ici, hici, hhost⟩ := Option.bind_eq_some_iff.1 hhost
    exact ⟨conds, ici, host, hconds, hdone.1, hici, hhost, hdone.2, Option.some.inj h⟩
  · cases h

/-- All reads are current, and nothing holds the image back when it is deleted. -/
def sampleCurrent : Watch Doc :=
  sampleWatch startedWorld currentReads (List.replicate 20 (.call 0 (installedChoice 0)))

theorem completed_without_image_sample :
    ∃ m ∈ sampleCurrent.history, ∃ conds ici host,
      storedConditions sampleKey m.op m.choice.1 m.before.now = some conds ∧ Completed conds ∧
      m.before.now.icis sampleKey = some ici ∧ ici.status.bareMetalHostRef = some host ∧
      m.before.now.dataImages host = none := by
  have hrun : WatchRun Env.symbolic (fun cfg lab => currentReads cfg lab = true) startedWorld
      sampleCurrent :=
    Reaches.moves (fun _ _ => id) _ (.start rfl)
  have hreported : sampleCurrent.history.any fun m => (reportedWith m).isSome := by decide +kernel
  obtain ⟨m, hm, hsome⟩ := List.any_eq_true.1 hreported
  obtain ⟨image, himage⟩ := Option.isSome_iff_exists.1 hsome
  obtain ⟨conds, ici, host, hconds, hdone, hici, hhost, -, -⟩ := reportedWith_some himage
  exact ⟨m, hm, conds, ici, host, hconds, hdone, hici, hhost,
    completed_without_image Env.symbolic startedWorld _ hrun m hm sampleKey conds ici host hconds
      hdone hici hhost⟩

/-- Two reads of the same object. -/
def Op.sameRead : Op B → Op B → Bool
  | .getICI key, .getICI key' | .getBMH key, .getBMH key'
  | .getDataImage key, .getDataImage key' => key == key'
  | .getSecret true key, .getSecret true key' => key == key'
  | _, _ => false

/-- The reads of a pass never go back: each is answered from a version that is not older than the
one an earlier read of the same object was answered from. -/
def cacheOrder (cfg : Watch B) : Label (Choice B × Nat) NamespacedName Unit → Bool
  | .call i c =>
    match cfg.threads i with
    | some ⟨_, _, .call op _⟩ => cfg.history.all fun m =>
      !(m.thread == i && m.op.sameRead op) ||
        decide (m.before.position m.choice.2 ≤ cfg.world.position c.2)
    | _ => true
  | _ => true

/-- The baremetal operator holds the image back with a finalizer. -/
def attachedWorld : World Doc :=
  { startedWorld with
    dataImages := fun k => (startedWorld.dataImages k).map fun d =>
      { d with finalizers := ["dataimage.metal3.io"] } }

/-- The read after the deletion still sees the version from before it. -/
def sampleStale : Watch Doc :=
  sampleWatch attachedWorld cacheOrder
    (List.replicate 8 (.call 0 (installedChoice 0)) ++ .call 0 (installedChoice 1) ::
      List.replicate 20 (.call 0 (installedChoice 0)))

/-- The end is reported while the host's image is there. -/
theorem completed_with_image :
    WatchRun Env.symbolic (fun cfg lab => cacheOrder cfg lab = true) attachedWorld sampleStale ∧
    ∃ m ∈ sampleStale.history, ∃ conds ici host d,
      storedConditions sampleKey m.op m.choice.1 m.before.now = some conds ∧ Completed conds ∧
      m.before.now.icis sampleKey = some ici ∧ ici.status.bareMetalHostRef = some host ∧
      (m.before.now.bmhs host).isSome ∧ m.before.now.dataImages host = some d := by
  refine ⟨Reaches.moves (fun _ _ => id) _ (.start rfl), ?_⟩
  have hreported : sampleStale.history.any fun m => (reportedWith m).any (·.isSome) := by
    decide +kernel
  obtain ⟨m, hm, hany⟩ := List.any_eq_true.1 hreported
  obtain ⟨image, himage, hsome⟩ := (Option.any_eq_true _ _).1 hany
  obtain ⟨d, rfl⟩ := Option.isSome_iff_exists.1 hsome
  obtain ⟨conds, ici, host, hconds, hdone, hici, hhost, hbmh, himage⟩ := reportedWith_some himage
  exact ⟨m, hm, conds, ici, host, d, hconds, hdone, hici, hhost, hbmh, himage⟩

end ImageBasedInstall

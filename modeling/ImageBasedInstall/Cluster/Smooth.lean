import ImageBasedInstall.Cluster.Rules

/-!
# Runs without failures

`smooth` restricts the replies to those of calls that do not fail and of locks that are free; time,
random draws and what others report stay open. Under it a call has one outcome, so that its rule is
an equivalence: `Meets (Alone smooth) p Q w` is the weakest precondition of `p`.
-/

namespace ImageBasedInstall

open Interactive

variable {B : Type} {α : Type}

/-- The call does not fail, and finds a lock free. -/
structure Choice.Smooth (c : Choice B) : Prop where
  ending : c.ending = .ok
  lockFree : c.lockFree = true

def smooth (w : World B) (op : Op B) (r : Resp op) (w' : World B) : Prop :=
  ∃ c : Choice B, c.Smooth ∧ answer op c w = (r, w')

theorem smooth_of_choice {c : Choice B} (hc : c.Smooth) (w : World B) (op : Op B) :
    smooth w op (answer op c w).1 (answer op c w).2 :=
  ⟨c, hc, rfl⟩

/-- The fallible program succeeds if nothing fails, and `Q` holds then. -/
abbrev Works (x : Act B α) (Q : α → World B → Prop) (w : World B) : Prop :=
  Tries (Alone smooth) x Q (fun _ _ => False) w

theorem Works.and {x : Act B α} {P Q : α → World B → Prop} {w : World B} (h : Works x P w)
    (hQ : Tries (Alone smooth) x Q (fun _ _ => True) w) :
    Works x (fun a w' => P a w' ∧ Q a w') w := by
  refine Meets.mono (Meets.and h hQ) ?_
  rintro (e | a) w' ⟨hP, hQ⟩
  · exact hP
  · exact ⟨hP, hQ⟩

/-- What a program does that does not fail is what it does if it succeeds. -/
theorem Works.spec {x : Act B α} {Q : α → World B → Prop} {w : World B}
    (h : Works x (fun _ _ => True) w) (hQ : Tries (Alone smooth) x Q (fun _ _ => True) w) :
    Works x Q w :=
  (h.and hQ).mono (fun _ _ h => h.2) fun _ _ h => h

section Calls

variable {w : World B} {key : NamespacedName} {path : Path}

theorem smooth_call {op : Op B} {Q : Resp op → World B → Prop} :
    Meets (Alone smooth) (Prog.perform op) Q w ↔
      ∀ c : Choice B, c.Smooth → Q (answer op c w).1 (answer op c w).2 := by
  constructor
  · intro h c hc
    exact (h w rfl _ _ ⟨⟨c, rfl⟩, smooth_of_choice hc w op⟩).2 _ rfl
  · rintro h _ rfl r w' ⟨-, c, hc, heq⟩
    refine ⟨trivial, meets_ret.2 ?_⟩
    have hQ := h c hc
    rwa [heq] at hQ

theorem Choice.Smooth.read {c : Choice B} (hc : c.Smooth) (w : World B) (r : Except Err α) :
    c.read w r = (r, w) := by
  simp only [Choice.read, hc.ending]

theorem Choice.Smooth.write {c : Choice B} (hc : c.Smooth) (w w' : World B) (a : α) :
    c.write w w' a = (.ok a, w') := by
  simp only [Choice.write, hc.ending]

theorem Choice.Smooth.removal {c : Choice B} (hc : c.Smooth) (w : World B) (which : Path → Bool) :
    c.removal w which = (.ok (), w.prune which fun _ => false) := by
  simp only [Choice.removal, hc.ending]

/-- A call whose outcome depends on nothing but the world. -/
theorem smooth_call_of {op : Op B} {Q : Resp op → World B → Prop} {r : Resp op} {w' : World B}
    (h : ∀ c : Choice B, c.Smooth → answer op c w = (r, w')) :
    Meets (Alone smooth) (Prog.perform op) Q w ↔ Q r w' := by
  rw [smooth_call]
  constructor
  · intro hQ
    have hc : ({} : Choice B).Smooth := ⟨rfl, rfl⟩
    have hdefault := hQ _ hc
    rwa [h _ hc] at hdefault
  · intro hQ c hc
    rwa [h c hc]

end Calls

/-! ## Reads -/

section Reads

variable {w : World B} {key : NamespacedName} {path : Path}

theorem smooth_getICI {Q : Except Err ImageClusterInstall → World B → Prop} :
    Meets (Alone smooth) (Prog.perform (Op.getICI key)) Q w ↔ Q (orNotFound (w.icis key)) w :=
  smooth_call_of fun _ hc => hc.read ..

theorem smooth_getBMH {Q : Except Err BareMetalHost → World B → Prop} :
    Meets (Alone smooth) (Prog.perform (Op.getBMH key)) Q w ↔ Q (orNotFound (w.bmhs key)) w :=
  smooth_call_of fun _ hc => hc.read ..

theorem smooth_getDataImage {Q : Except Err DataImage → World B → Prop} :
    Meets (Alone smooth) (Prog.perform (Op.getDataImage key)) Q w ↔
      Q (orNotFound (w.dataImages key)) w :=
  smooth_call_of fun _ hc => hc.read ..

theorem smooth_getCD {Q : Except Err ClusterDeployment → World B → Prop} :
    Meets (Alone smooth) (Prog.perform (Op.getCD key)) Q w ↔ Q (orNotFound (w.cds key)) w :=
  smooth_call_of fun _ hc => hc.read ..

theorem smooth_getImageSet {name : String} {Q : Except Err String → World B → Prop} :
    Meets (Alone smooth) (Prog.perform (Op.getImageSet name)) Q w ↔
      Q (orNotFound (w.imageSets name)) w :=
  smooth_call_of fun _ hc => hc.read ..

theorem smooth_getConfigMap {Q : Except Err ConfigMap → World B → Prop} :
    Meets (Alone smooth) (Prog.perform (Op.getConfigMap key)) Q w ↔
      Q (orNotFound (w.configMaps key)) w :=
  smooth_call_of fun _ hc => hc.read ..

theorem smooth_getSecret {cached : Bool} {Q : Except Err (Secret B) → World B → Prop} :
    Meets (Alone smooth) (Prog.perform (Op.getSecret cached key)) Q w ↔
      Q (orNotFound ((w.secrets key).filter fun s => !cached || s.isCached)) w :=
  smooth_call_of fun _ hc => hc.read ..

theorem smooth_stat {Q : Except Err Unit → World B → Prop} :
    Meets (Alone smooth) (Prog.perform (Op.stat path)) Q w ↔
      Q ((orNotFound (w.fs path)).map fun _ => ()) w :=
  smooth_call_of fun _ hc => hc.read ..

theorem smooth_readFile {Q : Except Err B → World B → Prop} :
    Meets (Alone smooth) (Prog.perform (Op.readFile path)) Q w ↔
      Q (orNotFound ((w.fs path).bind Entry.content)) w :=
  smooth_call_of fun _ hc => hc.read ..

theorem smooth_loadDir {Q : Except Err (Snapshot B) → World B → Prop} :
    Meets (Alone smooth) (Prog.perform (Op.loadDir path)) Q w ↔ Q (.ok (w.files path)) w :=
  smooth_call_of fun _ hc => hc.read ..

theorem smooth_tryLock {Q : Except Err Bool → World B → Prop} :
    Meets (Alone smooth) (Prog.perform (Op.tryLock path)) Q w ↔ Q (.ok true) w :=
  smooth_call_of fun c hc => by
    simp only [answer, hc.lockFree]
    exact hc.read ..

end Reads

/-! ## Writes -/

section Writes

variable {w : World B} {key : NamespacedName} {path : Path}

theorem Choice.Smooth.patch {c : Choice B} (hc : c.Smooth) {o : Option α} {a : α} (ho : o = some a)
    (w : World B) (merge : α → α) (store : α → World B) :
    c.patch w o merge store = (.ok (merge a), store (merge a)) := by
  subst ho
  exact hc.write ..

/-- A patch made from the stored object stores and replies the new version. -/
theorem smooth_patchICI {base new : ImageClusterInstall} (h : w.icis key = some base)
    (hnew : new.uid = base.uid ∧ new.deletionTimestamp = base.deletionTimestamp ∧
      new.status = base.status)
    {Q : Except Err ImageClusterInstall → World B → Prop} :
    Meets (Alone smooth) (Prog.perform (Op.patchICI key base new)) Q w ↔
      Q (.ok new) (w.setICI key new.remains) := by
  have hmerge : ImageClusterInstall.merge base new base = new := by
    obtain ⟨uid, annotations, labels, finalizers, deletion, spec, status⟩ := new
    obtain ⟨rfl, rfl, rfl⟩ := hnew
    simp [ImageClusterInstall.merge, Spec.merge]
  refine smooth_call_of fun c hc => ?_
  refine (hc.patch h w (.merge base new) fun ici => w.setICI key ici.remains).trans ?_
  rw [hmerge]

theorem smooth_patchICIStatus {base : ImageClusterInstall} {status : Status}
    (h : w.icis key = some base) {Q : Except Err ImageClusterInstall → World B → Prop} :
    Meets (Alone smooth) (Prog.perform (Op.patchICIStatus key base { base with status })) Q w ↔
      Q (.ok { base with status }) (w.setICI key (some { base with status })) := by
  have hmerge : ImageClusterInstall.mergeStatus base { base with status } base =
      { base with status } := by
    simp [ImageClusterInstall.mergeStatus, Status.merge]
  refine smooth_call_of fun c hc => ?_
  refine (hc.patch h w (.mergeStatus base { base with status })
    fun ici => w.setICI key (some ici)).trans ?_
  rw [hmerge]

theorem smooth_patchBMH {base new : BareMetalHost} (h : w.bmhs key = some base)
    (hnew : new.preprovisioningNetworkDataName = base.preprovisioningNetworkDataName ∧
      new.provisioningState = base.provisioningState ∧ new.poweredOn = base.poweredOn ∧
      new.hardwareDetails = base.hardwareDetails)
    {Q : Except Err BareMetalHost → World B → Prop} :
    Meets (Alone smooth) (Prog.perform (Op.patchBMH key base new)) Q w ↔
      Q (.ok new) (w.setBMH key new) := by
  have hmerge : BareMetalHost.merge base new base = new := by
    obtain ⟨annotations, labels, mode, provisioned, online, network, state, on, details⟩ := new
    obtain ⟨rfl, rfl, rfl, rfl⟩ := hnew
    simp [BareMetalHost.merge]
  refine smooth_call_of fun c hc => ?_
  refine (hc.patch h w (.merge base new) (w.setBMH key)).trans ?_
  rw [hmerge]

theorem smooth_patchConfigMap {base : ConfigMap} {labels : String → Option String}
    (h : w.configMaps key = some base) {Q : Except Err ConfigMap → World B → Prop} :
    Meets (Alone smooth) (Prog.perform (Op.patchConfigMap key base { base with labels })) Q w ↔
      Q (.ok { base with labels }) (w.setConfigMap key { base with labels }) := by
  refine smooth_call_of fun c hc => ?_
  refine (hc.patch h w (.merge base { base with labels }) (w.setConfigMap key)).trans ?_
  simp [ConfigMap.merge]

theorem smooth_patchSecret {base : Secret B} {labels : String → Option String}
    (h : w.secrets key = some base) {Q : Except Err (Secret B) → World B → Prop} :
    Meets (Alone smooth) (Prog.perform (Op.patchSecret key base { base with labels })) Q w ↔
      Q (.ok { base with labels }) (w.setSecret key { base with labels }) := by
  refine smooth_call_of fun c hc => ?_
  refine (hc.patch h w (.merge base { base with labels }) (w.setSecret key)).trans ?_
  simp [Secret.merge]

theorem smooth_createDataImage {url : String} (h : w.dataImages key = none)
    {Q : Except Err Unit → World B → Prop} :
    Meets (Alone smooth) (Prog.perform (Op.createDataImage key url)) Q w ↔
      ∀ d : Nat, Q (.ok ()) (({ w with clock := w.clock + d } : World B).setDataImage key
        (some { url, creationTimestamp := w.clock + d })) := by
  have hanswer : ∀ c : Choice B, c.Smooth → answer (.createDataImage key url) c w =
      (.ok (), ({ w with clock := w.clock + c.elapsed } : World B).setDataImage key
        (some { url, creationTimestamp := w.clock + c.elapsed })) := by
    intro c hc
    simp only [answer, h]
    exact hc.write ..
  rw [smooth_call]
  constructor
  · intro hQ d
    have hd := hQ { elapsed := d } ⟨rfl, rfl⟩
    rwa [hanswer _ ⟨rfl, rfl⟩] at hd
  · intro hQ c hc
    rw [hanswer c hc]
    exact hQ c.elapsed

theorem smooth_deleteDataImage {image : DataImage} (h : w.dataImages key = some image)
    {Q : Except Err Unit → World B → Prop} :
    Meets (Alone smooth) (Prog.perform (Op.deleteDataImage key)) Q w ↔
      Q (.ok ()) (w.setDataImage key (image.delete w.clock)) := by
  refine smooth_call_of fun c hc => ?_
  simp only [answer, h]
  exact hc.write ..

theorem smooth_createSecret {s : Secret B} (h : w.secrets key = none)
    {Q : Except Err Unit → World B → Prop} :
    Meets (Alone smooth) (Prog.perform (Op.createSecret key s)) Q w ↔
      Q (.ok ()) (w.setSecret key s) := by
  refine smooth_call_of fun c hc => ?_
  simp only [answer, h]
  exact hc.write ..

theorem smooth_updateSecret {s stored : Secret B} (h : w.secrets key = some stored)
    {Q : Except Err Unit → World B → Prop} :
    Meets (Alone smooth) (Prog.perform (Op.updateSecret key s)) Q w ↔
      Q (.ok ()) (w.setSecret key s) := by
  refine smooth_call_of fun c hc => ?_
  simp only [answer, h]
  exact hc.write ..

theorem smooth_mkdirAll {Q : Except Err Unit → World B → Prop} :
    Meets (Alone smooth) (Prog.perform (Op.mkdirAll path)) Q w ↔ Q (.ok ()) (w.mkdirs path) :=
  smooth_call_of fun _ hc => hc.write ..

/-- A fresh temp directory of some name. -/
theorem smooth_mkdirTemp {Q : Except Err Path → World B → Prop} :
    Meets (Alone smooth) (Prog.perform (Op.mkdirTemp : Op B)) Q w ↔
      ∀ name, Q (.ok ⟨.temp name, []⟩)
        ((w.prune (·.within ⟨.temp name, []⟩) fun _ => false).mkdirs ⟨.temp name, []⟩) := by
  rw [smooth_call]
  constructor
  · intro h name
    exact h { tempName := name } ⟨rfl, rfl⟩
  · intro h c hc
    have hanswer : answer .mkdirTemp c w = (.ok ⟨.temp c.tempName, []⟩,
        (w.prune (·.within ⟨.temp c.tempName, []⟩) fun _ => false).mkdirs ⟨.temp c.tempName, []⟩) :=
      hc.write ..
    rw [hanswer]
    exact h c.tempName

theorem smooth_writeFile {content : B} {Q : Except Err Unit → World B → Prop} :
    Meets (Alone smooth) (Prog.perform (Op.writeFile path content)) Q w ↔
      Q (.ok ()) (w.setEntry path (some (.file content))) :=
  smooth_call_of fun c hc => by
    simp only [answer, hc.ending]
    exact hc.write ..

theorem smooth_writeIso {image : IsoImage B} {builtFrom : Spec}
    {Q : Except Err Unit → World B → Prop} :
    Meets (Alone smooth) (Prog.perform (Op.writeIso path image builtFrom)) Q w ↔
      Q (.ok ()) (w.setEntry path (some (.iso image builtFrom))) :=
  smooth_call_of fun c hc => by
    simp only [answer, hc.ending]
    exact hc.write ..

theorem smooth_purge {which : Path → Bool} {Q : Except Err Unit → World B → Prop} :
    Meets (Alone smooth) (Prog.perform (Op.purge which)) Q w ↔
      Q (.ok ()) (w.prune which fun _ => false) :=
  smooth_call_of fun _ hc => hc.removal ..

theorem smooth_removeAll {Q : Except Err Unit → World B → Prop} :
    Meets (Alone smooth) (Prog.perform (Op.removeAll path)) Q w ↔
      Q (.ok ()) (w.prune (·.within path) fun _ => false) :=
  smooth_call_of fun _ hc => hc.removal ..

/-- Looking at the clock takes any time. -/
theorem smooth_now {Q : Time → World B → Prop} :
    Meets (Alone smooth) (now : Program B Time) Q w ↔
      ∀ d : Nat, Q (w.clock + d) { w with clock := w.clock + d } := by
  rw [smooth_call]
  constructor
  · intro h d
    exact h { elapsed := d } ⟨rfl, rfl⟩
  · intro h c _
    exact h c.elapsed

end Writes

end ImageBasedInstall

import ImageBasedInstall.Interactive.Reach
import ImageBasedInstall.Verify.Cleanup

/-!
# Runs of the reconciler

A run is made of whole passes (each with any replies, and possibly cut short), of creations,
admitted updates and deletions of `ImageClusterInstall`s, and of what others do: hosts, secrets,
config maps and cluster deployments change at will, files get lost, and `DataImage`s are attached,
marked or removed, but never made.
-/

namespace ImageBasedInstall

open Interactive

variable {B : Type} [DecidableEq B]

/-! ## Events -/

inductive Event (B : Type) where
  | pass (req : NamespacedName) (choices : List (Choice B))
  | create (key : NamespacedName) (ici : ImageClusterInstall)
  | update (key : NamespacedName) (spec : Spec)
  | delete (key : NamespacedName)
  | others

/-- A new object. Its UID was never used before, so nothing in the cluster or on disk refers to it;
namespaces and UIDs hold no slash, and the status of a new object is dropped. -/
structure Fresh (E : Env B) (key : NamespacedName) (ici : ImageClusterInstall) (w : World B) :
    Prop where
  absent : w.icis key = none
  noSlash : '/' ∉ key.ns.toList ∧ '/' ∉ ici.uid.toList
  uid : ∀ k other, w.icis k = some other → other.uid ≠ ici.uid
  dataImages : ∀ host d, w.dataImages host = some d → d.url ≠ imageURL E key.ns ici.uid
  files : ∀ p : Path, p.root = .data key.ns ici.uid → w.fs p = none
  undeleted : ici.deletionTimestamp = none
  status : ici.status = {}

/-- What others may do. -/
structure Others (w w' : World B) : Prop where
  icis : w'.icis = w.icis
  dataImages : ∀ host d', w'.dataImages host = some d' → ∃ d, w.dataImages host = some d ∧
    d'.url = d.url ∧ (d.deletionTimestamp.isSome = true → d'.deletionTimestamp.isSome = true)
  files : ∀ p e, w'.fs p = some e → w.fs p = some e
  clock : w.clock ≤ w'.clock

/-- The object after a user deleted it. -/
def ImageClusterInstall.deleted (clock : Time) (ici : ImageClusterInstall) :
    Option ImageClusterInstall :=
  ImageClusterInstall.remains
    { ici with deletionTimestamp := some (ici.deletionTimestamp.getD clock) }

/-- The steps of a run. -/
def Event.Fires (E : Env B) (w : World B) : Event B → World B → Prop
  | .pass req cs, w' => w' = ((reconcile E req).exec answer cs w).1
  | .create key ici, w' =>
    Fresh E key ici w ∧ validateCreate E.parsers ici = .ok () ∧ w' = w.setICI key (some ici)
  | .update key spec, w' => ∃ ici, w.icis key = some ici ∧
    validateUpdate E.parsers ici { ici with spec } = .ok () ∧
    w' = w.setICI key (some { ici with spec })
  | .delete key, w' => ∃ ici, w.icis key = some ici ∧ w' = w.setICI key (ici.deleted w.clock)
  | .others, w' => Others w w'

/-- Before the first `ImageClusterInstall`. -/
structure Initial (w : World B) : Prop where
  icis : ∀ k, w.icis k = none
  dataImages : ∀ host, w.dataImages host = none
  files : ∀ p, w.fs p = none

omit [DecidableEq B] in
theorem Initial.fresh {E : Env B} {key : NamespacedName} {ici : ImageClusterInstall} {w : World B}
    (h : Initial w) (hslash : '/' ∉ key.ns.toList ∧ '/' ∉ ici.uid.toList)
    (hdel : ici.deletionTimestamp = none) (hstatus : ici.status = {}) : Fresh E key ici w where
  absent := h.icis key
  noSlash := hslash
  uid k other hk := by
    rw [h.icis k] at hk
    cases hk
  dataImages host d hd := by
    rw [h.dataImages host] at hd
    cases hd
  files p _ := h.files p
  undeleted := hdel
  status := hstatus

/-- `w` is reached by a run whose steps all meet `C`. -/
abbrev Reached (E : Env B) (C : World B → Event B → Prop) : World B → Prop :=
  Reaches (Event.Fires E) C Initial

/-! ## Passes -/

section Pass

variable {E : Env B} {req : NamespacedName} {I : World B → Prop} {w : World B}
  {cs : List (Choice B)}

/-- Every transition of a pass is in the inventory. -/
theorem passStep_of_trace {t : Transition (Op B) Resp (World B) (Choice B)}
    (ht : t ∈ (reconcile E req).trace answer cs w) : PassStep E req t.before t.after :=
  (reconcile_pass E req w).trace cs (traceOk_true cs) t ht

/-- What every entry of the inventory keeps holds throughout a pass. -/
theorem pass_before (hI : ∀ w w', PassStep E req w w' → I w → I w') (hw : I w)
    {t : Transition (Op B) Resp (World B) (Choice B)}
    (ht : t ∈ (reconcile E req).trace answer cs w) : I t.before :=
  (reconcile_pass E req w).before cs (traceOk_true cs) (fun _ _ _ _ h hs => hI _ _ hs h) hw t ht

theorem pass_after (hI : ∀ w w', PassStep E req w w' → I w → I w') (hw : I w) :
    I ((reconcile E req).exec answer cs w).1 :=
  (reconcile_pass E req w).last cs (traceOk_true cs) (fun _ _ _ _ h hs => hI _ _ hs h) hw

/-- A pass that reports its requirements as met ends with everything in place. -/
theorem pass_reported {rep : Report} {c : Condition}
    (hrep : ((reconcile E req).exec answer cs w).2 = some rep) (hc : rep.reported = some c)
    (hstatus : c.status = .true) :
    ∃ host, Prepared E req host ((reconcile E req).exec answer cs w).1 :=
  (reconcile_pass E req w).exec cs (traceOk_true cs) hrep ⟨c, hc, hstatus⟩

end Pass

/-! ## Invariants of runs -/

/-- An assertion holds in every reached state if every kind of event keeps it; for a pass it is
enough that every entry of the inventory does. -/
theorem reached_invariant {E : Env B} {C : World B → Event B → Prop} {I : World B → Prop}
    {w : World B} (h : Reached E C w) (hinit : ∀ w, Initial w → I w)
    (hpass : ∀ req w w', PassStep E req w w' → I w → I w')
    (hcreate : ∀ w key ici, Fresh E key ici w → I w → I (w.setICI key (some ici)))
    (hupdate : ∀ w key ici spec, w.icis key = some ici →
      validateUpdate E.parsers ici { ici with spec } = .ok () → C w (.update key spec) → I w →
      I (w.setICI key (some { ici with spec })))
    (hdelete : ∀ w key ici, w.icis key = some ici → I w → I (w.setICI key (ici.deleted w.clock)))
    (hothers : ∀ w w', Others w w' → I w → I w') : I w := by
  refine h.invariant hinit fun w ev w' hI hC hs => ?_
  cases ev with
  | pass req cs =>
    cases hs
    exact pass_after (hpass req) hI
  | create key ici =>
    obtain ⟨hf, -, rfl⟩ := hs
    exact hcreate w key ici hf hI
  | update key spec =>
    obtain ⟨ici, hici, hv, rfl⟩ := hs
    exact hupdate w key ici spec hici hv hC hI
  | delete key =>
    obtain ⟨ici, hici, rfl⟩ := hs
    exact hdelete w key ici hici hI
  | others => exact hothers w w' hs hI

/-- What a deletion leaves is the object with its mark. -/
theorem deleted_eq {ici ici' : ImageClusterInstall} {clock : Time}
    (h : ici.deleted clock = some ici') :
    ici' = { ici with deletionTimestamp := some (ici.deletionTimestamp.getD clock) } := by
  unfold ImageClusterInstall.deleted ImageClusterInstall.remains at h
  split at h
  · cases h
  · exact (Option.some.inj h).symm

/-- An object with a finalizer is only marked. -/
theorem deleted_of_finalizers {ici : ImageClusterInstall} {clock : Time}
    (h : ici.finalizers ≠ []) : ici.deleted clock =
      some { ici with deletionTimestamp := some (ici.deletionTimestamp.getD clock) } := by
  unfold ImageClusterInstall.deleted ImageClusterInstall.remains
  exact if_neg fun hn => h hn.2

/-! ## Objects are told apart by their UIDs -/

/-- Stored objects have different UIDs, and neither namespaces nor UIDs hold a slash. -/
structure DistinctUIDs (w : World B) : Prop where
  noSlash : ∀ k ici, w.icis k = some ici → '/' ∉ k.ns.toList ∧ '/' ∉ ici.uid.toList
  uids : ∀ k k' ici ici', w.icis k = some ici → w.icis k' = some ici' → ici.uid = ici'.uid → k = k'

section UIDs

variable {E : Env B} {w w' : World B} {C : World B → Event B → Prop}

omit [DecidableEq B] in
/-- An image URL determines the namespace and the UID it is made of. -/
theorem imageURL_inj {ns ns' uid uid' : String} (hns : '/' ∉ ns.toList) (huid : '/' ∉ uid.toList)
    (h : imageURL E ns uid = imageURL E ns' uid') : ns = ns' ∧ uid = uid' := by
  have hl := congrArg String.toList h
  simp only [imageURL, String.toList_append, List.append_assoc, List.append_cancel_left_eq] at hl
  have hiso : '/' ∉ uid.toList ++ ".iso".toList := by
    simp only [List.mem_append, not_or]
    exact ⟨huid, by decide⟩
  have hslash : "/".toList = ['/'] := by decide
  rw [hslash, List.singleton_append, List.singleton_append] at hl
  obtain ⟨h₁, -, h₂⟩ := (List.append_cons_inj_of_notMem hns hiso).1 hl
  exact ⟨String.toList_injective h₁, String.toList_injective (List.append_cancel_right h₂)⟩

omit [DecidableEq B] in
/-- Every stored object goes back to one with its UID. -/
theorem DistinctUIDs.of_kept (h : DistinctUIDs w)
    (hk : ∀ k ici', w'.icis k = some ici' → ∃ ici, w.icis k = some ici ∧ ici'.uid = ici.uid) :
    DistinctUIDs w' := by
  constructor
  · intro k ici' hici
    obtain ⟨ici, hs, huid⟩ := hk k ici' hici
    rw [huid]
    exact h.noSlash k ici hs
  · intro k k' a b ha hb hab
    obtain ⟨a₀, ha₀, hua⟩ := hk k a ha
    obtain ⟨b₀, hb₀, hub⟩ := hk k' b hb
    exact h.uids k k' a₀ b₀ ha₀ hb₀ (by rw [← hua, ← hub, hab])

omit [DecidableEq B] in
theorem DistinctUIDs.create {key : NamespacedName} {ici : ImageClusterInstall}
    (h : DistinctUIDs w) (hf : Fresh E key ici w) : DistinctUIDs (w.setICI key (some ici)) := by
  constructor
  · intro k a ha
    by_cases heq : k = key
    · subst heq
      obtain rfl : ici = a := by simpa [World.setICI] using ha
      exact hf.noSlash
    · exact h.noSlash k a (by simpa [World.setICI, heq] using ha)
  · intro k k' a b ha hb hab
    by_cases hk : k = key <;> by_cases hk' : k' = key
    · rw [hk, hk']
    · subst hk
      obtain rfl : ici = a := by simpa [World.setICI] using ha
      exact absurd hab.symm (hf.uid k' b (by simpa [World.setICI, hk'] using hb))
    · subst hk'
      obtain rfl : ici = b := by simpa [World.setICI] using hb
      exact absurd hab (hf.uid k a (by simpa [World.setICI, hk] using ha))
    · exact h.uids k k' a b (by simpa [World.setICI, hk] using ha)
        (by simpa [World.setICI, hk'] using hb) hab

omit [DecidableEq B] in
theorem distinctUIDs_pass {req : NamespacedName} (hs : PassStep E req w w') (h : DistinctUIDs w) :
    DistinctUIDs w' :=
  h.of_kept fun k ici' hk => by
    obtain ⟨ici, hici, huid, -⟩ := hs.icis.kept k ici' hk
    exact ⟨ici, hici, huid⟩

omit [DecidableEq B] in
/-- An object may change as long as its UID stays. -/
theorem DistinctUIDs.setICI {key : NamespacedName} {ici : ImageClusterInstall}
    {new : Option ImageClusterInstall} (h : DistinctUIDs w) (hici : w.icis key = some ici)
    (hnew : ∀ ici', new = some ici' → ici'.uid = ici.uid) : DistinctUIDs (w.setICI key new) := by
  refine h.of_kept fun k ici' hk => ?_
  by_cases heq : k = key
  · subst heq
    exact ⟨ici, hici, hnew ici' (by simpa [World.setICI] using hk)⟩
  · exact ⟨ici', by simpa [World.setICI, heq] using hk, rfl⟩

/-- Invariants of runs whose proof for a pass needs the objects to be told apart. -/
theorem reached_invariant_uids {I : World B → Prop} (h : Reached E C w)
    (hinit : ∀ w, Initial w → I w)
    (hpass : ∀ req w w', PassStep E req w w' → DistinctUIDs w' → I w → I w')
    (hcreate : ∀ w key ici, Fresh E key ici w → I w → I (w.setICI key (some ici)))
    (hupdate : ∀ w key ici spec, w.icis key = some ici →
      validateUpdate E.parsers ici { ici with spec } = .ok () → C w (.update key spec) → I w →
      I (w.setICI key (some { ici with spec })))
    (hdelete : ∀ w key ici, w.icis key = some ici → I w → I (w.setICI key (ici.deleted w.clock)))
    (hothers : ∀ w w', Others w w' → I w → I w') : I w ∧ DistinctUIDs w := by
  refine reached_invariant (I := fun w => I w ∧ DistinctUIDs w) h
    (fun w hw => ⟨hinit w hw, ?_, ?_⟩) ?_ ?_ ?_ ?_ ?_
  · intro k ici hk
    rw [hw.icis k] at hk
    cases hk
  · intro k k' ici ici' hk
    rw [hw.icis k] at hk
    cases hk
  · intro req w w' hs hI
    have huids := distinctUIDs_pass hs hI.2
    exact ⟨hpass req w w' hs huids hI.1, huids⟩
  · exact fun w key ici hf hI => ⟨hcreate w key ici hf hI.1, hI.2.create hf⟩
  · intro w key ici spec hici hv hC hI
    refine ⟨hupdate w key ici spec hici hv hC hI.1, hI.2.setICI hici fun ici' h => ?_⟩
    rw [← Option.some.inj h]
  · intro w key ici hici hI
    refine ⟨hdelete w key ici hici hI.1, hI.2.setICI hici fun ici' h => ?_⟩
    rw [deleted_eq h]
  · intro w w' ho hI
    exact ⟨hothers w w' ho hI.1, hI.2.of_kept fun k ici' hk => ⟨ici', ho.icis ▸ hk, rfl⟩⟩

theorem reached_distinctUIDs (h : Reached E C w) : DistinctUIDs w :=
  (reached_invariant_uids (I := fun _ => True) h (fun _ _ => trivial) (fun _ _ _ _ _ _ => trivial)
    (fun _ _ _ _ _ => trivial) (fun _ _ _ _ _ _ _ _ => trivial) (fun _ _ _ _ _ => trivial)
    fun _ _ _ _ => trivial).2

end UIDs

/-! ## Building runs -/

/-- The world after a user edited the spec of an object. -/
def World.edit (w : World B) (key : NamespacedName) (f : Spec → Spec) : World B :=
  match w.icis key with
  | none => w
  | some ici => w.setICI key (some { ici with spec := f ici.spec })

theorem toBool_iff {x : Except Err Unit} : x.toBool = true ↔ x = .ok () := by
  cases x with
  | error e => simp [Except.toBool]
  | ok u => simp [Except.toBool]

/-- The object is there and the webhook admits the edit. -/
def World.admits (E : Env B) (w : World B) (key : NamespacedName) (f : Spec → Spec) : Bool :=
  (w.icis key).any fun ici => (validateUpdate E.parsers ici { ici with spec := f ici.spec }).toBool

/-- The world after the deletion of an object. -/
def World.deleteICI (w : World B) (key : NamespacedName) : World B :=
  match w.icis key with
  | none => w
  | some ici => w.setICI key (ici.deleted w.clock)

/-- Only these objects are stored. -/
def StoredIn (ks : List NamespacedName) (w : World B) : Prop :=
  ∀ k ici, w.icis k = some ici → k ∈ ks

section Building

variable {E : Env B} {C : World B → Event B → Prop} {w w' : World B} {key : NamespacedName}
  {f : Spec → Spec} {ks : List NamespacedName}

theorem Reached.pass (h : Reached E C w) (req : NamespacedName) (cs : List (Choice B))
    (hC : C w (.pass req cs)) : Reached E C ((reconcile E req).exec answer cs w).1 :=
  .next h hC rfl

omit [DecidableEq B] in
theorem admits_edit (h : w.admits E key f = true) :
    ∃ ici, w.icis key = some ici ∧
      validateUpdate E.parsers ici { ici with spec := f ici.spec } = .ok () ∧
      w.edit key f = w.setICI key (some { ici with spec := f ici.spec }) := by
  obtain ⟨ici, hici, hv⟩ := (Option.any_eq_true _ _).1 h
  exact ⟨ici, hici, toBool_iff.1 hv, by simp [World.edit, hici]⟩

theorem Reached.edit (h : Reached E C w) (hadm : w.admits E key f = true)
    (hC : ∀ ici, w.icis key = some ici → C w (.update key (f ici.spec))) :
    Reached E C (w.edit key f) := by
  obtain ⟨ici, hici, hv, heq⟩ := admits_edit hadm
  exact .next h (hC ici hici) ⟨ici, hici, hv, heq⟩

theorem Reached.delete (h : Reached E C w) (hkey : (w.icis key).isSome = true)
    (hC : C w (.delete key)) : Reached E C (w.deleteICI key) := by
  refine .next h hC ?_
  obtain ⟨ici, hici⟩ := Option.isSome_iff_exists.1 hkey
  exact ⟨ici, hici, by simp [World.deleteICI, hici]⟩

omit [DecidableEq B] in
theorem StoredIn.of_pass {req : NamespacedName} (hs : PassStep E req w w') (h : StoredIn ks w) :
    StoredIn ks w' := by
  intro k ici' hk
  obtain ⟨ici, hici, -⟩ := hs.icis.kept k ici' hk
  exact h k ici hici

theorem StoredIn.pass (h : StoredIn ks w) (req : NamespacedName) (cs : List (Choice B)) :
    StoredIn ks ((reconcile E req).exec answer cs w).1 :=
  pass_after (fun _ _ => StoredIn.of_pass) h

omit [DecidableEq B] in
theorem StoredIn.edit (h : StoredIn ks w) (key : NamespacedName) (f : Spec → Spec) :
    StoredIn ks (w.edit key f) := by
  unfold World.edit
  split
  · exact h
  · next ici hici =>
    intro k ici' hk
    by_cases heq : k = key
    · exact heq ▸ h key ici hici
    · exact h k ici' (by simpa [World.setICI, heq] using hk)

end Building

end ImageBasedInstall

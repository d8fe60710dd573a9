import ImageBasedInstall.TlsConfig

/-!
# The watch on the TLS settings

A shutdown is requested exactly if a `Modified` event delivers an object with another policy or
another profile, and at most once. `Added` events are ignored, also the one with which the watch
reports the object it finds: a change between the start of the server and that of the watch, or a
failed read at the start, goes unnoticed until the next modification.
-/

namespace ImageBasedInstall

namespace TlsConfig

/-- The object has another policy, or a profile that can be resolved and is another one. -/
def Differs (current : TLSConfigResult) (apiServer : APIServer) : Prop :=
  apiServer.tlsAdherence ≠ current.tlsAdherencePolicy ∨
  ∃ profile, getTLSProfileSpec apiServer.tlsSecurityProfile = .ok profile ∧
    current.tlsProfileSpec.deepEqual profile = false

/-- The profile of the object can be resolved. -/
def Resolvable (apiServer : APIServer) : Prop :=
  ∃ profile, getTLSProfileSpec apiServer.tlsSecurityProfile = .ok profile

/-- An event that ends the watch. -/
def Notices (current : TLSConfigResult) (event : WatchEvent) : Prop :=
  event.type = .modified ∧ ∃ updated, event.object = some updated ∧ Differs current updated

section Watch

variable {current : TLSConfigResult} {event : WatchEvent} {events : List WatchEvent}
  {ch : ShutdownChannel}

theorem watch_cons_of_notices (h : Notices current event) :
    watchAndExitOnTLSChange current (event :: events) ch = requestGracefulShutdown ch := by
  obtain ⟨htype, updated, hobject, hdiffers⟩ := h
  rw [watchAndExitOnTLSChange, if_neg (not_not_intro htype), hobject]
  dsimp only
  split
  · rfl
  · next hpolicy =>
    obtain ⟨profile, hprofile, hequal⟩ := hdiffers.resolve_left fun h => hpolicy h.symm
    rw [hprofile]
    dsimp only
    rw [hequal]
    rfl

theorem watch_cons_of_not_notices (h : ¬Notices current event) :
    watchAndExitOnTLSChange current (event :: events) ch =
      watchAndExitOnTLSChange current events ch := by
  rw [watchAndExitOnTLSChange]
  split
  · rfl
  next htype =>
  cases hobject : event.object with
  | none => rfl
  | some updated =>
    have hsame : ¬Differs current updated := fun hdiffers =>
      h ⟨not_not.1 htype, updated, hobject, hdiffers⟩
    rw [Differs, not_or, not_not] at hsame
    dsimp only
    rw [if_neg (not_not_intro hsame.1.symm)]
    split
    · rfl
    · next profile hprofile =>
      have hequal : current.tlsProfileSpec.deepEqual profile = true := by
        by_contra hne
        exact hsame.2 ⟨profile, hprofile, Bool.eq_false_iff.2 hne⟩
      rw [hequal]
      rfl

/-- The channel after the watch: one request if some event was noticed, else none. -/
theorem watch_eq (current : TLSConfigResult) (events : List WatchEvent) (ch : ShutdownChannel) :
    (∃ event ∈ events, Notices current event) ∧
      watchAndExitOnTLSChange current events ch = requestGracefulShutdown ch ∨
    (∀ event ∈ events, ¬Notices current event) ∧
      watchAndExitOnTLSChange current events ch = ch := by
  induction events with
  | nil => exact .inr ⟨List.forall_mem_nil _, rfl⟩
  | cons event events ih =>
    by_cases hevent : Notices current event
    · exact .inl ⟨⟨event, List.mem_cons_self .., hevent⟩, watch_cons_of_notices hevent⟩
    · rw [watch_cons_of_not_notices hevent]
      rcases ih with ⟨⟨event', hmem, hnotices⟩, heq⟩ | ⟨hnone, heq⟩
      · exact .inl ⟨⟨event', List.mem_cons_of_mem _ hmem, hnotices⟩, heq⟩
      · exact .inr ⟨List.forall_mem_cons.2 ⟨hevent, hnone⟩, heq⟩

end Watch

/-- The object has the policy and, if it can be resolved, the profile of the start. -/
def UpToDate (current : TLSConfigResult) (apiServer : APIServer) : Prop :=
  ∀ profile, getTLSProfileSpec apiServer.tlsSecurityProfile = .ok profile →
    apiServer.tlsAdherence = current.tlsAdherencePolicy ∧
    current.tlsProfileSpec.deepEqual profile = true

/-- Nothing delivered is outdated without a request, and a request has its reason. -/
structure NeverOutdated (current : TLSConfigResult) (events : List WatchEvent)
    (ch : ShutdownChannel) :
    Prop where
  told : 0 < ch.requests ∨ ∀ event ∈ events, event.type = .added ∨ event.type = .modified →
    ∀ apiServer, event.object = some apiServer → UpToDate current apiServer
  justified : 0 < ch.requests →
    ∃ event ∈ events, ∃ apiServer, event.object = some apiServer ∧ Differs current apiServer
  once : ch.requests ≤ 1

theorem upToDate_of_not_differs {current : TLSConfigResult} {apiServer : APIServer}
    (h : ¬Differs current apiServer) : UpToDate current apiServer := by
  rw [Differs, not_or, not_not] at h
  intro profile hprofile
  refine ⟨h.1, ?_⟩
  by_contra hne
  exact h.2 ⟨profile, hprofile, Bool.eq_false_iff.2 hne⟩

/-- Without a request, only `Added` events can have delivered a change. -/
theorem upToDate_of_no_request {current : TLSConfigResult} {events : List WatchEvent}
    (hnone : ∀ event ∈ events, ¬Notices current event)
    (hadded : ∀ event ∈ events, event.type = .added →
      ∀ apiServer, event.object = some apiServer → UpToDate current apiServer) :
    ∀ event ∈ events, event.type = .added ∨ event.type = .modified →
      ∀ apiServer, event.object = some apiServer → UpToDate current apiServer := by
  rintro event hmem (htype | htype) apiServer hobject
  · exact hadded event hmem htype apiServer hobject
  · exact upToDate_of_not_differs fun hdiffers =>
      hnone event hmem ⟨htype, apiServer, hobject, hdiffers⟩

/-- For every start and every sequence of events: the server is never left outdated exactly if a
`Modified` event delivers a change, or no `Added` event does. -/
theorem neverOutdated_iff (current : TLSConfigResult) (events : List WatchEvent) :
    NeverOutdated current events (watchAndExitOnTLSChange current events {}) ↔
      (∃ event ∈ events, Notices current event) ∨
      ∀ event ∈ events, event.type = .added →
        ∀ apiServer, event.object = some apiServer → UpToDate current apiServer := by
  rcases watch_eq current events {} with ⟨hnoticed, heq⟩ | ⟨hnone, heq⟩
  · rw [heq]
    refine ⟨fun _ => .inl hnoticed, fun _ => ⟨.inl (by decide), fun _ => ?_, by decide⟩⟩
    obtain ⟨event, hmem, -, updated, hobject, hdiffers⟩ := hnoticed
    exact ⟨event, hmem, updated, hobject, hdiffers⟩
  · rw [heq]
    constructor
    · intro h
      have hall := h.told.resolve_left (Nat.lt_irrefl 0)
      exact .inr fun event hmem htype => hall event hmem (.inl htype)
    · rintro (⟨event, hmem, hnotices⟩ | hadded)
      · exact absurd hnotices (hnone event hmem)
      · exact ⟨.inr (upToDate_of_no_request hnone hadded), fun h => absurd h (Nat.lt_irrefl 0),
          Nat.zero_le _⟩

/-- The object cannot be read at the start, so the server applies the default profile. The watch
then finds it, with a policy and a profile that the server has to honour, and nothing is
requested. -/
theorem added_change_unnoticed :
    let current := resolveTLSConfig (.error (.api "connection refused"))
      (.error (.api "connection refused"))
    let found : APIServer := ⟨.strictAllComponents, some ⟨.modern, none⟩⟩
    let events : List WatchEvent := [⟨.added, some found⟩]
    watchAndExitOnTLSChange current events {} = {} ∧
    current.applied ≠ (resolveTLSConfig (.ok found) (.ok found)).applied ∧
    ¬NeverOutdated current events (watchAndExitOnTLSChange current events {}) := by
  intro current found events
  have hnone : watchAndExitOnTLSChange current events {} = {} := rfl
  refine ⟨hnone, by decide, fun h => ?_⟩
  rw [hnone] at h
  have hall := h.told.resolve_left (Nat.lt_irrefl 0)
  have hsame := hall _ (List.mem_singleton_self _) (.inl rfl) found rfl _ rfl
  exact absurd hsame.1 (by decide)

/-! ## The settings in use -/

/-- The settings of a server that is started with an object it can read. -/
theorem resolveTLSConfig_ok {apiServer : APIServer} {profile : TLSProfileSpec}
    (h : getTLSProfileSpec apiServer.tlsSecurityProfile = .ok profile) :
    resolveTLSConfig (.ok apiServer) (.ok apiServer) =
      ⟨appliedProfile apiServer.tlsAdherence profile, apiServer.tlsAdherence, profile⟩ := by
  simp [resolveTLSConfig, fetchTLSAdherencePolicy, fetchTLSProfile, h]

theorem appliedProfile_deepEqual {p q : TLSProfileSpec} (h : p.deepEqual q = true)
    (policy : TLSAdherencePolicy) :
    (appliedProfile policy p).deepEqual (appliedProfile policy q) = true := by
  unfold appliedProfile
  split
  · exact h
  · decide

/-- As long as nothing is requested, and no `Added` event delivers a change, the server applies what
it would apply if it were started with any object delivered so far. -/
theorem applied_up_to_date (policyReply profileReply : Except Err APIServer)
    (events : List WatchEvent) :
    let current := resolveTLSConfig policyReply profileReply
    (watchAndExitOnTLSChange current events {}).requests = 0 →
    (∀ event ∈ events, event.type = .added →
      ∀ apiServer, event.object = some apiServer → UpToDate current apiServer) →
    ∀ event ∈ events, event.type = .added ∨ event.type = .modified →
      ∀ apiServer, event.object = some apiServer → Resolvable apiServer →
        current.applied.deepEqual (resolveTLSConfig (.ok apiServer) (.ok apiServer)).applied =
          true := by
  intro current hrequests hadded event hmem htype apiServer hobject ⟨profile, hprofile⟩
  have hnone : ∀ event ∈ events, ¬Notices current event := by
    rcases watch_eq current events {} with ⟨-, heq⟩ | ⟨hnone, -⟩
    · rw [heq] at hrequests
      cases hrequests
    · exact hnone
  obtain ⟨hpolicy, hequal⟩ :=
    upToDate_of_no_request hnone hadded event hmem htype apiServer hobject profile hprofile
  rw [resolveTLSConfig_ok hprofile, hpolicy]
  exact appliedProfile_deepEqual hequal _

end TlsConfig

end ImageBasedInstall

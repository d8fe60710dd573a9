import ImageBasedInstall.Api.Types

/-!
# TLS settings of the image server

`cmd/server/main.go` and `internal/tlsconfig/tlsconfig.go`: the server reads the TLS settings from
the cluster's `APIServer` object when it starts, watches the object, and asks for a shutdown when
they change, to be started again with the new ones.
-/

namespace ImageBasedInstall

namespace TlsConfig

/-! ## The APIServer object -/

/-- `configv1.TLSAdherencePolicy`. -/
inductive TLSAdherencePolicy where
  | noOpinion
  | legacyAdheringComponentsOnly
  | strictAllComponents
  | other (name : String)
  deriving DecidableEq, Repr

/-- `configv1.TLSProtocolVersion`. -/
inductive TLSProtocolVersion where
  | versionTLS10
  | versionTLS11
  | versionTLS12
  | versionTLS13
  | other (name : String)
  deriving DecidableEq, Repr

/-- `configv1.TLSProfileSpec`. -/
structure TLSProfileSpec where
  ciphers : Slice String
  minTLSVersion : TLSProtocolVersion
  deriving DecidableEq, Repr

/-- `equality.Semantic.DeepEqual`: a nil slice equals an empty one. -/
def TLSProfileSpec.deepEqual (p q : TLSProfileSpec) : Bool :=
  p.ciphers.items = q.ciphers.items ∧ p.minTLSVersion = q.minTLSVersion

/-- `configv1.TLSProfileType`; `unset` is the empty string. -/
inductive TLSProfileType where
  | unset
  | old
  | intermediate
  | modern
  | custom
  | other (name : String)
  deriving DecidableEq, Repr

/-- `configv1.TLSSecurityProfile`, without the markers of the predefined profiles. -/
structure TLSSecurityProfile where
  type : TLSProfileType
  custom : Option TLSProfileSpec := none
  deriving DecidableEq, Repr

/-- What is read of `configv1.APIServer`. -/
structure APIServer where
  tlsAdherence : TLSAdherencePolicy := .noOpinion
  tlsSecurityProfile : Option TLSSecurityProfile := none
  deriving DecidableEq, Repr

/-! ## Profiles -/

def modernCiphers : List String :=
  ["TLS_AES_128_GCM_SHA256", "TLS_AES_256_GCM_SHA384", "TLS_CHACHA20_POLY1305_SHA256"]

def intermediateCiphers : List String :=
  modernCiphers ++
  ["ECDHE-ECDSA-AES128-GCM-SHA256", "ECDHE-RSA-AES128-GCM-SHA256", "ECDHE-ECDSA-AES256-GCM-SHA384",
    "ECDHE-RSA-AES256-GCM-SHA384", "ECDHE-ECDSA-CHACHA20-POLY1305", "ECDHE-RSA-CHACHA20-POLY1305"]

def oldCiphers : List String :=
  intermediateCiphers ++
  ["ECDHE-ECDSA-AES128-SHA256", "ECDHE-RSA-AES128-SHA256", "ECDHE-ECDSA-AES128-SHA",
    "ECDHE-RSA-AES128-SHA", "ECDHE-ECDSA-AES256-SHA", "ECDHE-RSA-AES256-SHA", "AES128-GCM-SHA256",
    "AES256-GCM-SHA384", "AES128-SHA256", "AES128-SHA", "AES256-SHA", "DES-CBC3-SHA"]

def intermediateProfile : TLSProfileSpec := ⟨some intermediateCiphers, .versionTLS12⟩

/-- `configv1.TLSProfiles`. -/
def tlsProfiles : TLSProfileType → Option TLSProfileSpec
  | .old => some ⟨some oldCiphers, .versionTLS10⟩
  | .intermediate => some intermediateProfile
  | .modern => some ⟨some modernCiphers, .versionTLS13⟩
  | _ => none

def errCustomProfileNil : Err := .mk "custom TLS profile specified but Custom field is nil"

def getTLSProfileSpec : Option TLSSecurityProfile → Except Err TLSProfileSpec
  | none => .ok intermediateProfile
  | some profile =>
    match profile.type with
    | .unset => .ok intermediateProfile
    | .custom =>
      match profile.custom with
      | none => .error errCustomProfileNil
      | some spec => .ok spec
    | type => .ok ((tlsProfiles type).getD intermediateProfile)

/-! ## The settings at the start -/

/-- `TLSConfigResult`; the function on `tls.Config` is made from `applied`. -/
structure TLSConfigResult where
  applied : TLSProfileSpec
  tlsAdherencePolicy : TLSAdherencePolicy
  tlsProfileSpec : TLSProfileSpec
  deriving DecidableEq, Repr

/-- `FetchAPIServerTLSAdherencePolicy`, from the reply to its get. -/
def fetchTLSAdherencePolicy (reply : Except Err APIServer) : Except Err TLSAdherencePolicy :=
  match reply with
  | .error e => .error (.wrap "failed to get APIServer \"/cluster\"" e)
  | .ok apiServer => .ok apiServer.tlsAdherence

/-- `FetchAPIServerTLSProfile`, from the reply to its get. -/
def fetchTLSProfile (reply : Except Err APIServer) : Except Err TLSProfileSpec :=
  match reply with
  | .error e => .error (.wrap "failed to get APIServer \"/cluster\"" e)
  | .ok apiServer =>
    match getTLSProfileSpec apiServer.tlsSecurityProfile with
    | .error e => .error (.wrap "failed to get TLS profile from APIServer \"/cluster\"" e)
    | .ok profile => .ok profile

def shouldHonorClusterTLSProfile : TLSAdherencePolicy → Bool
  | .noOpinion | .legacyAdheringComponentsOnly => false
  | _ => true

/-- The profile that the server applies. -/
def appliedProfile (policy : TLSAdherencePolicy) (profile : TLSProfileSpec) : TLSProfileSpec :=
  if shouldHonorClusterTLSProfile policy then profile else intermediateProfile

/-- The object is read twice. The errors are only logged. -/
def resolveTLSConfig (policyReply profileReply : Except Err APIServer) : TLSConfigResult :=
  let policy := match fetchTLSAdherencePolicy policyReply with
    | .error _ => .noOpinion
    | .ok policy => policy
  let profile := match fetchTLSProfile profileReply with
    | .error _ => intermediateProfile
    | .ok profile => profile
  ⟨appliedProfile policy profile, policy, profile⟩

/-! ## The watch -/

/-- `watch.EventType`. -/
inductive EventType where
  | added
  | modified
  | deleted
  | bookmark
  | error
  deriving DecidableEq, Repr

/-- `watch.Event`; the object is none if it is not an `APIServer`. -/
structure WatchEvent where
  type : EventType
  object : Option APIServer
  deriving DecidableEq, Repr

/-- The channel to `main`, which has room for one request, and the number of calls that sent or
tried to send on it. -/
structure ShutdownChannel where
  buffered : Nat := 0
  requests : Nat := 0
  deriving DecidableEq, Repr

/-- A send that does not block. -/
def requestGracefulShutdown (ch : ShutdownChannel) : ShutdownChannel :=
  { buffered := if ch.buffered < 1 then ch.buffered + 1 else ch.buffered
    requests := ch.requests + 1 }

/-- The loop over the events, up to a change or the end of the watch. -/
def watchAndExitOnTLSChange (current : TLSConfigResult) :
    List WatchEvent → ShutdownChannel → ShutdownChannel
  | [], ch => ch
  | event :: events, ch =>
    if event.type ≠ .modified then watchAndExitOnTLSChange current events ch
    else
      match event.object with
      | none => watchAndExitOnTLSChange current events ch
      | some updated =>
        if current.tlsAdherencePolicy ≠ updated.tlsAdherence then requestGracefulShutdown ch
        else
          match getTLSProfileSpec updated.tlsSecurityProfile with
          | .error _ => watchAndExitOnTLSChange current events ch
          | .ok profile =>
            if !current.tlsProfileSpec.deepEqual profile then requestGracefulShutdown ch
            else watchAndExitOnTLSChange current events ch

end TlsConfig

end ImageBasedInstall

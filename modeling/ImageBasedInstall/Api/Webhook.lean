import ImageBasedInstall.Api.Types

/-!
# The validating webhook

`ValidateCreate` and `ValidateUpdate` of `api/v1alpha1/imageclusterinstall_webhook.go`. The parsers
of the Go libraries are parameters that return their errors.
-/

namespace ImageBasedInstall

/-- The library checks the webhook calls, each returning the error it finds. -/
structure Parsers where
  /-- `ssh.ParseAuthorizedKey` of the key trimmed of white space. -/
  parseAuthorizedKey : String → Option String
  /-- `validation.IsDNS1123Subdomain`. -/
  isDNS1123Subdomain : String → List String
  /-- `net.ParseCIDR`. -/
  parseCIDR : String → Option String

variable (P : Parsers)

def isValidSSHPublicKey (pubKeyString : String) : Except Err Unit :=
  if pubKeyString = "" then .ok () else
  match P.parseAuthorizedKey pubKeyString with
  | some e => .error (.wrap "error parsing public key" (.mk e))
  | none => .ok ()

def isValidHostname (hostname : String) : Except Err Unit :=
  if hostname = "" then .ok () else
  match P.isDNS1123Subdomain hostname with
  | [] => .ok ()
  | errs => .error (.mk (";".intercalate errs))

def isValidNetworkCidr (networkCIDR : String) : Except Err Unit :=
  if networkCIDR = "" then .error (.mk "network CIDR is empty") else
  match P.parseCIDR networkCIDR with
  | some e => .error (.wrap "error parsing network, check that it is valid CIDR" (.mk e))
  | none => .ok ()

/-- Both the legacy field and every entry of the list have to be valid. -/
def isValidMachineNetworks (legacyMachineNetwork : String) (machineNetworks : Slice String) :
    Except Err Unit := do
  if legacyMachineNetwork ≠ "" then isValidNetworkCidr P legacyMachineNetwork
  machineNetworks.items.zipIdx.forM fun (network, i) =>
    (isValidNetworkCidr P network).mapError (.wrap s!"machine network {i}")

/-- The list if it has entries, else the legacy field. The webhook, the installer and the host check
each have a copy of this function. -/
def getEffectiveMachineNetworks (legacyMachineNetwork : String) (machineNetworks : Slice String) :
    List String :=
  if machineNetworks.items.length > 0 then machineNetworks.items
  else if legacyMachineNetwork ≠ "" then [legacyMachineNetwork]
  else []

def isValidProxy (proxy : Option Proxy) (machineNetworks : List String) : Except Err Unit :=
  if proxy.isSome ∧ machineNetworks.length = 0 then
    .error (.mk "machine network must be set when proxy is defined")
  else .ok ()

def validate (s : Spec) : Except Err Unit := do
  (isValidSSHPublicKey P s.sshKey).mapError (.wrap "invalid ssh key")
  (isValidHostname P s.hostname).mapError (.wrap "invalid hostname")
  (isValidMachineNetworks P s.machineNetwork s.machineNetworks).mapError
    (.wrap "invalid machine network")
  (isValidProxy s.proxy (getEffectiveMachineNetworks s.machineNetwork s.machineNetworks)).mapError
    (.wrap "invalid proxy")

/-- The spec without its `ClusterMetadata`: what the webhook compares. -/
def Spec.configured (s : Spec) : Spec := { s with clusterMetadata := none }

/-- `isSpecUpdate`: the specs differ in more than `ClusterMetadata`. -/
def isSpecUpdate (old new : ImageClusterInstall) : Bool :=
  decide (old.spec.configured ≠ new.spec.configured)

/-- The installation has started once `Status.BareMetalHostRef` is set. -/
def installationStarted (ici : ImageClusterInstall) : Bool := ici.status.bareMetalHostRef.isSome

def validateCreate (ici : ImageClusterInstall) : Except Err Unit := validate P ici.spec

def validateUpdate (old new : ImageClusterInstall) : Except Err Unit := do
  validate P new.spec
  if isSpecUpdate old new then
    if installationStarted old then
      throw (.mk "cannot update ImageClusterInstall when the configImage is ready")

/-! ## What an accepted update can change -/

theorem Spec.bareMetalHostRef_eq_of_configured {s t : Spec} (h : s.configured = t.configured) :
    s.bareMetalHostRef = t.bareMetalHostRef :=
  show s.configured.bareMetalHostRef = t.configured.bareMetalHostRef from by rw [h]

theorem isSpecUpdate_eq_false {old new : ImageClusterInstall} :
    isSpecUpdate old new = false ↔ old.spec.configured = new.spec.configured := by
  simp [isSpecUpdate]

/-- An accepted update of an object whose installation has started keeps the spec, up to
`ClusterMetadata`. -/
theorem validateUpdate_frozen {old new : ImageClusterInstall}
    (h : validateUpdate P old new = .ok ()) (hs : installationStarted old = true) :
    old.spec.configured = new.spec.configured := by
  rw [← isSpecUpdate_eq_false]
  by_contra hu
  rw [Bool.not_eq_false] at hu
  simp only [validateUpdate, hu, hs, if_true] at h
  cases hv : validate P new.spec with
  | error e => rw [hv] at h; cases h
  | ok u => rw [hv] at h; cases h

end ImageBasedInstall

import ImageBasedInstall.Controllers.Common
import ImageBasedInstall.Installer.Config

/-!
# Host validation

The pure checks of the host validation phase: the provisioning and inspection state of the host, and
that one of its NICs has addresses in the machine networks.
-/

namespace ImageBasedInstall

variable {B : Type} (E : Env B)

/-- `%v` of a string slice. -/
def goList (l : List String) : String := "[" ++ " ".intercalate l ++ "]"

/-- The host check's reading of the machine networks: a legacy field that differs from the first
entry is an error. -/
def getEffectiveMachineNetworksCIDRs (legacyMachineNetwork : String)
    (machineNetworks : Slice String) : Except Err (List String) :=
  match machineNetworks.items with
  | first :: rest =>
    if legacyMachineNetwork ≠ "" ∧ legacyMachineNetwork ≠ first then
      .error (.mk ("MachineNetwork (" ++ legacyMachineNetwork ++
        ") does not match the first MachineNetworks entry (" ++ first ++ ")"))
    else .ok (first :: rest)
  | [] => if legacyMachineNetwork ≠ "" then .ok [legacyMachineNetwork] else .ok []

/-- The scan over the NICs of one MAC address, with the two flags of the loop. -/
def scanNICs (ipv4Networks ipv6Networks : List String) (hasIPv4 hasIPv6 : Bool) : List NIC → Bool
  | [] => false
  | nic :: nics =>
    let hasIPv4 := hasIPv4 || ipv4Networks.any (E.ipInCidr nic.ip)
    let hasIPv6 := hasIPv6 || ipv6Networks.any (E.ipInCidr nic.ip)
    if hasIPv4 && hasIPv6 then true else scanNICs ipv4Networks ipv6Networks hasIPv4 hasIPv6 nics

def validateDualStackMachineNetworks (networks : List String) (nics : List NIC) :
    Except Err Unit :=
  let ipv4Networks := networks.filter E.isIPv4CIDR
  let ipv6Networks := networks.filter fun n => !E.isIPv4CIDR n
  if ipv4Networks.length = 0 ∨ ipv6Networks.length = 0 then
    .error (.mk ("dual-stack configuration requires both IPv4 and IPv6 machine networks, got IPv4: "
      ++ goList ipv4Networks ++ ", IPv6: " ++ goList ipv6Networks))
  else
    let addressed := nics.filter fun nic => nic.mac ≠ "" && nic.ip ≠ ""
    -- `nicsByMAC`: the order in which Go visits the map does not matter for `any`
    if (addressed.map NIC.mac).dedup.any fun mac =>
        scanNICs E ipv4Networks ipv6Networks false false (addressed.filter fun nic => nic.mac = mac)
    then .ok ()
    else
      .error (.mk
        ("bmh host doesn't have a nic with both IPv4 and IPv6 addresses in the provided " ++
          "dual-stack machineNetworks. IPv4 networks: " ++ goList ipv4Networks ++
          ", IPv6 networks: " ++ goList ipv6Networks))

def validateBMHMachineNetworks (legacyMachineNetwork : String) (machineNetworks : Slice String)
    (nics : List NIC) : Except Err Unit := do
  match ← getEffectiveMachineNetworksCIDRs legacyMachineNetwork machineNetworks with
  | [] => .ok ()
  | [network] =>
    if nics.any fun nic => nic.ip ≠ "" && E.ipInCidr nic.ip network then .ok ()
    else
      .error (.mk ("bmh host doesn't have any nic with ip in provided machineNetwork " ++ network))
  | networks => validateDualStackMachineNetworks E networks nics

def isInspectionEnabled (bmh : BareMetalHost) : Bool :=
  bmh.annotations inspectAnnotation != some "disabled"

def ProvisioningState.text : ProvisioningState → String
  | .available => "available"
  | .externallyProvisioned => "externally provisioned"
  | .other name => name

/-- Returns the condition with its reason and message, and a requeue or an error. -/
def validateBMH (s : Spec) (key : NamespacedName) (bmh : BareMetalHost) (cond : Condition) :
    Condition × Except Err Result :=
  if bmh.externallyProvisioned then (cond, .ok {})
  else if !isInspectionEnabled bmh then (cond, .ok {})
  else if bmh.provisioningState ≠ .available then
    ({ cond with
        message := "BareMetalHost (" ++ key.text ++ ") provisioning state is: " ++
          bmh.provisioningState.text ++ ", waiting for available"
        reason := hostValidationPendingReason },
      .ok { requeueAfter := 30 })
  else
    match bmh.hardwareDetails with
    | none =>
      ({ cond with
          message := "hardware details not found for BareMetalHost " ++ key.text
          reason := hostValidationPendingReason },
        .ok { requeueAfter := 30 })
    | some nics =>
      match validateBMHMachineNetworks E s.machineNetwork s.machineNetworks nics with
      | .error e => ({ cond with message := e.text }, .error e)
      | .ok () => (cond, .ok {})

end ImageBasedInstall

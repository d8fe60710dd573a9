import Mathlib.Data.List.Dedup
import ImageBasedInstall.Controllers.HostValidation

/-!
# Host network validation

`validateBMHMachineNetworks` accepts exactly the hosts that have an address in the only machine
network, or, with several networks, one MAC address with addresses of both families in them. The
verdict does not depend on the order of the NICs, on that in which Go visits the map of MAC
addresses, or on that of the networks.
-/

namespace ImageBasedInstall

variable {B : Type} (E : Env B)

/-! ## What is accepted -/

/-- A NIC entry of the MAC address has an address in a network that satisfies `family`. -/
def Addressed (nics : List NIC) (networks : List String) (family : String → Prop) (mac : String) :
    Prop :=
  ∃ nic ∈ nics, nic.mac = mac ∧ nic.ip ≠ "" ∧
    ∃ network ∈ networks, family network ∧ E.ipInCidr nic.ip network = true

/-- The networks are of both families, and some MAC address has addresses in both. -/
structure DualStack (networks : List String) (nics : List NIC) : Prop where
  ipv4 : ∃ network ∈ networks, E.isIPv4CIDR network = true
  ipv6 : ∃ network ∈ networks, E.isIPv4CIDR network = false
  nic : ∃ mac, mac ≠ "" ∧ Addressed E nics networks (fun n => E.isIPv4CIDR n = true) mac ∧
    Addressed E nics networks (fun n => E.isIPv4CIDR n = false) mac

/-- The host has addresses in the networks. -/
def InNetworks (networks : List String) (nics : List NIC) : Prop :=
  networks = [] ∨
  (∃ network, networks = [network] ∧
    ∃ nic ∈ nics, nic.ip ≠ "" ∧ E.ipInCidr nic.ip network = true) ∨
  2 ≤ networks.length ∧ DualStack E networks nics

/-! ## The scan over the NICs of one MAC address -/

/-- The flags of the scan are those it starts with and what the NICs add to them. -/
theorem scanNICs_eq_true (ipv4Networks ipv6Networks : List String) (hasIPv4 hasIPv6 : Bool)
    (nics : List NIC) :
    scanNICs E ipv4Networks ipv6Networks hasIPv4 hasIPv6 nics = true ↔ (∃ nic, nic ∈ nics) ∧
      (hasIPv4 = true ∨ ∃ nic ∈ nics, ∃ n ∈ ipv4Networks, E.ipInCidr nic.ip n = true) ∧
      (hasIPv6 = true ∨ ∃ nic ∈ nics, ∃ n ∈ ipv6Networks, E.ipInCidr nic.ip n = true) := by
  induction nics generalizing hasIPv4 hasIPv6 with
  | nil => simp [scanNICs]
  | cons nic nics ih =>
    simp only [scanNICs]
    by_cases hboth : ((hasIPv4 || ipv4Networks.any (E.ipInCidr nic.ip)) &&
        (hasIPv6 || ipv6Networks.any (E.ipInCidr nic.ip))) = true
    · rw [if_pos hboth]
      simp only [Bool.and_eq_true, Bool.or_eq_true, List.any_eq_true] at hboth
      simp only [List.exists_mem_cons_iff, true_iff]
      exact ⟨⟨nic, List.mem_cons_self ..⟩, hboth.1.imp_right .inl, hboth.2.imp_right .inl⟩
    · rw [if_neg hboth, ih]
      simp only [Bool.and_eq_true, Bool.or_eq_true, List.any_eq_true] at hboth
      simp only [List.exists_mem_cons_iff, Bool.or_eq_true, List.any_eq_true, or_assoc]
      constructor
      · exact fun h => ⟨⟨nic, List.mem_cons_self ..⟩, h.2⟩
      · rintro ⟨-, h₄, h₆⟩
        refine ⟨?_, h₄, h₆⟩
        -- without a further NIC the flags stay as they are, and one is missing
        cases nics with
        | nil => exact absurd ⟨by simpa using h₄, by simpa using h₆⟩ hboth
        | cons nic' _ => exact ⟨nic', List.mem_cons_self ..⟩

/-- The NICs of a MAC address among those that have an address. -/
def nicsByMAC (nics : List NIC) (mac : String) : List NIC :=
  (nics.filter fun nic => nic.mac ≠ "" && nic.ip ≠ "").filter fun nic => nic.mac = mac

/-- The keys of the map, each once. -/
def macKeys (nics : List NIC) : List String :=
  ((nics.filter fun nic => nic.mac ≠ "" && nic.ip ≠ "").map NIC.mac).dedup

theorem mem_nicsByMAC {nics : List NIC} {mac : String} {nic : NIC} :
    nic ∈ nicsByMAC nics mac ↔ nic ∈ nics ∧ nic.mac = mac ∧ mac ≠ "" ∧ nic.ip ≠ "" := by
  simp only [nicsByMAC, List.mem_filter, ne_eq, Bool.and_eq_true, decide_eq_true_eq]
  constructor
  · rintro ⟨⟨hnic, hmac, hip⟩, rfl⟩
    exact ⟨hnic, rfl, hmac, hip⟩
  · rintro ⟨hnic, rfl, hmac, hip⟩
    exact ⟨⟨hnic, hmac, hip⟩, rfl⟩

theorem mem_macKeys {nics : List NIC} {mac : String} :
    mac ∈ macKeys nics ↔ ∃ nic, nic ∈ nicsByMAC nics mac := by
  simp only [macKeys, List.mem_dedup, List.mem_map, mem_nicsByMAC, List.mem_filter, ne_eq,
    Bool.and_eq_true, decide_eq_true_eq]
  constructor
  · rintro ⟨nic, ⟨hnic, hmac, hip⟩, rfl⟩
    exact ⟨nic, hnic, rfl, hmac, hip⟩
  · rintro ⟨nic, hnic, rfl, hmac, hip⟩
    exact ⟨nic, ⟨hnic, hmac, hip⟩, rfl⟩

/-- A round of the loop over the map, in terms of the NIC entries. -/
theorem scanNICs_nicsByMAC (networks : List String) (nics : List NIC) (mac : String) :
    scanNICs E (networks.filter E.isIPv4CIDR) (networks.filter fun n => !E.isIPv4CIDR n) false false
        (nicsByMAC nics mac) = true ↔ mac ≠ "" ∧
      Addressed E nics networks (fun n => E.isIPv4CIDR n = true) mac ∧
      Addressed E nics networks (fun n => E.isIPv4CIDR n = false) mac := by
  simp only [scanNICs_eq_true, mem_nicsByMAC, List.mem_filter, Bool.not_eq_true',
    Bool.false_eq_true, false_or, Addressed]
  constructor
  · rintro ⟨-, ⟨a, ⟨ha, hmac, hne, hip⟩, n, ⟨hn, h₄⟩, hin⟩, b, ⟨hb, hmac', -, hip'⟩, n',
      ⟨hn', h₆⟩, hin'⟩
    exact ⟨hne, ⟨a, ha, hmac, hip, n, hn, h₄, hin⟩, b, hb, hmac', hip', n', hn', h₆, hin'⟩
  · rintro ⟨hne, ⟨a, ha, hmac, hip, n, hn, h₄, hin⟩, b, hb, hmac', hip', n', hn', h₆, hin'⟩
    exact ⟨⟨a, ha, hmac, hne, hip⟩, ⟨a, ⟨ha, hmac, hne, hip⟩, n, ⟨hn, h₄⟩, hin⟩,
      b, ⟨hb, hmac', hne, hip'⟩, n', ⟨hn', h₆⟩, hin'⟩

/-! ## Visiting the map -/

/-- The loop over `nicsByMAC`, its keys visited in the order `macs`. -/
def visitMACs (ipv4Networks ipv6Networks : List String) (nics : List NIC) : List String → Bool
  | [] => false
  | mac :: macs =>
    if scanNICs E ipv4Networks ipv6Networks false false (nicsByMAC nics mac) then true
    else visitMACs ipv4Networks ipv6Networks nics macs

/-- `validateDualStackMachineNetworks` with the order in which Go visits the map. -/
def validateDualStackVisiting (macs : List String) (networks : List String) (nics : List NIC) :
    Except Err Unit :=
  let ipv4Networks := networks.filter E.isIPv4CIDR
  let ipv6Networks := networks.filter fun n => !E.isIPv4CIDR n
  if ipv4Networks.length = 0 ∨ ipv6Networks.length = 0 then
    .error (.mk ("dual-stack configuration requires both IPv4 and IPv6 machine networks, got IPv4: "
      ++ goList ipv4Networks ++ ", IPv6: " ++ goList ipv6Networks))
  else if visitMACs E ipv4Networks ipv6Networks nics macs then .ok ()
  else
    .error (.mk ("bmh host doesn't have a nic with both IPv4 and IPv6 addresses in the provided " ++
      "dual-stack machineNetworks. IPv4 networks: " ++ goList ipv4Networks ++
      ", IPv6 networks: " ++ goList ipv6Networks))

theorem visitMACs_eq_any (ipv4Networks ipv6Networks : List String) (nics : List NIC)
    (macs : List String) :
    visitMACs E ipv4Networks ipv6Networks nics macs = macs.any fun mac =>
      scanNICs E ipv4Networks ipv6Networks false false (nicsByMAC nics mac) := by
  induction macs with
  | nil => rfl
  | cons mac macs ih =>
    simp only [visitMACs, ih, List.any_cons]
    cases scanNICs E ipv4Networks ipv6Networks false false (nicsByMAC nics mac) <;> rfl

/-- Whatever the order of the visit, result and message are those of the model. -/
theorem validateDualStackVisiting_eq {macs : List String} (networks : List String)
    {nics : List NIC} (h : macs.Perm (macKeys nics)) :
    validateDualStackVisiting E macs networks nics =
      validateDualStackMachineNetworks E networks nics := by
  simp only [validateDualStackVisiting, visitMACs_eq_any, List.Perm.any_eq h]
  rfl

/-! ## The verdict -/

theorem validateDualStackMachineNetworks_ok_iff (networks : List String) (nics : List NIC) :
    validateDualStackMachineNetworks E networks nics = .ok () ↔ DualStack E networks nics := by
  rw [← validateDualStackVisiting_eq E networks (.refl _)]
  simp only [validateDualStackVisiting, visitMACs_eq_any]
  by_cases hfamilies : (networks.filter E.isIPv4CIDR).length = 0 ∨
      (networks.filter fun n => !E.isIPv4CIDR n).length = 0
  · rw [if_pos hfamilies]
    refine iff_of_false nofun fun h => ?_
    rcases hfamilies with h₄ | h₆
    · obtain ⟨n, hn, hv⟩ := h.ipv4
      simp [List.filter_eq_nil_iff] at h₄
      exact absurd hv (by simp [h₄ n hn])
    · obtain ⟨n, hn, hv⟩ := h.ipv6
      simp [List.filter_eq_nil_iff] at h₆
      exact absurd hv (by simp [h₆ n hn])
  · rw [if_neg hfamilies]
    have hverdict : (macKeys nics).any (fun mac => scanNICs E (networks.filter E.isIPv4CIDR)
        (networks.filter fun n => !E.isIPv4CIDR n) false false (nicsByMAC nics mac)) = true ↔
        ∃ mac, mac ≠ "" ∧ Addressed E nics networks (fun n => E.isIPv4CIDR n = true) mac ∧
          Addressed E nics networks (fun n => E.isIPv4CIDR n = false) mac := by
      simp only [List.any_eq_true, scanNICs_nicsByMAC]
      refine exists_congr fun mac => and_iff_right_of_imp ?_
      rintro ⟨hne, ⟨nic, hnic, hmac, hip, -⟩, -⟩
      exact mem_macKeys.2 ⟨nic, mem_nicsByMAC.2 ⟨hnic, hmac, hne, hip⟩⟩
    simp only [not_or, List.length_eq_zero_iff, List.filter_eq_nil_iff, not_forall,
      Bool.not_eq_true', Bool.not_eq_false, exists_prop] at hfamilies
    obtain ⟨⟨n₄, hn₄, h₄⟩, n₆, hn₆, h₆⟩ := hfamilies
    split
    · next hv =>
      exact iff_of_true rfl ⟨⟨n₄, hn₄, by simpa using h₄⟩, ⟨n₆, hn₆, by simpa using h₆⟩,
        hverdict.1 hv⟩
    · next hv => exact iff_of_false nofun fun h => hv (hverdict.2 h.nic)

theorem validateBMHMachineNetworks_ok_iff (legacy : String) (networks : Slice String)
    (nics : List NIC) :
    validateBMHMachineNetworks E legacy networks nics = .ok () ↔
      ∃ l, getEffectiveMachineNetworksCIDRs legacy networks = .ok l ∧ InNetworks E l nics := by
  unfold validateBMHMachineNetworks
  cases hl : getEffectiveMachineNetworksCIDRs legacy networks with
  | error e => simp [bind, Except.bind]
  | ok l =>
    simp only [bind, Except.bind, Except.ok.injEq, exists_eq_left', InNetworks]
    match l with
    | [] => simp
    | [network] =>
      simp only [List.any_eq_true, ne_eq, Bool.and_eq_true, decide_eq_true_eq]
      split
      · next h => simpa using h
      · next h => simpa using h
    | first :: second :: rest => simp [validateDualStackMachineNetworks_ok_iff]

/-! ## Order -/

/-- Without the legacy field the host check reads the list as it is. -/
theorem getEffectiveMachineNetworksCIDRs_list (networks : Slice String) :
    getEffectiveMachineNetworksCIDRs "" networks = .ok networks.items := by
  unfold getEffectiveMachineNetworksCIDRs
  cases networks.items <;> simp

variable {E}

theorem Addressed.of_perm {nics nics' : List NIC} {networks networks' : List String}
    {family : String → Prop} {mac : String} (h : Addressed E nics networks family mac)
    (hnics : nics.Perm nics') (hnets : networks.Perm networks') :
    Addressed E nics' networks' family mac := by
  obtain ⟨nic, hnic, hmac, hip, n, hn, hfam, hin⟩ := h
  exact ⟨nic, hnics.mem_iff.1 hnic, hmac, hip, n, hnets.mem_iff.1 hn, hfam, hin⟩

theorem InNetworks.of_perm {nics nics' : List NIC} {networks networks' : List String}
    (h : InNetworks E networks nics) (hnics : nics.Perm nics') (hnets : networks.Perm networks') :
    InNetworks E networks' nics' := by
  rcases h with rfl | ⟨n, rfl, nic, hnic, hip, hin⟩ | ⟨hlen, h⟩
  · exact .inl hnets.nil_eq.symm
  · exact .inr (.inl ⟨n, hnets.singleton_eq.symm, nic, hnics.mem_iff.1 hnic, hip, hin⟩)
  · obtain ⟨⟨n₄, hn₄, h₄⟩, ⟨n₆, hn₆, h₆⟩, mac, hmac, ha₄, ha₆⟩ := h
    refine .inr (.inr ⟨hnets.length_eq ▸ hlen, ⟨n₄, hnets.mem_iff.1 hn₄, h₄⟩,
      ⟨n₆, hnets.mem_iff.1 hn₆, h₆⟩, mac, hmac, ?_, ?_⟩)
    · exact ha₄.of_perm hnics hnets
    · exact ha₆.of_perm hnics hnets

variable (E)

/-- Host network validation is exact and does not depend on any order. -/
theorem validateBMHMachineNetworks_exact (legacy : String) (networks : Slice String)
    (nics : List NIC) :
    (validateBMHMachineNetworks E legacy networks nics = .ok () ↔
      ∃ l, getEffectiveMachineNetworksCIDRs legacy networks = .ok l ∧ InNetworks E l nics) ∧
    (∀ nics' : List NIC, nics'.Perm nics →
      (validateBMHMachineNetworks E legacy networks nics' = .ok () ↔
        validateBMHMachineNetworks E legacy networks nics = .ok ())) ∧
    (∀ (macs : List String) (l : List String), macs.Perm (macKeys nics) →
      validateDualStackVisiting E macs l nics = validateDualStackMachineNetworks E l nics) ∧
    (∀ networks' : Slice String, networks'.items.Perm networks.items →
      (validateBMHMachineNetworks E "" networks' nics = .ok () ↔
        validateBMHMachineNetworks E "" networks nics = .ok ())) := by
  refine ⟨validateBMHMachineNetworks_ok_iff E legacy networks nics, fun nics' h => ?_,
    fun macs l h => validateDualStackVisiting_eq E l h, fun networks' h => ?_⟩
  · simp only [validateBMHMachineNetworks_ok_iff]
    constructor
    · exact fun ⟨l, hl, hin⟩ => ⟨l, hl, hin.of_perm h (.refl _)⟩
    · exact fun ⟨l, hl, hin⟩ => ⟨l, hl, hin.of_perm h.symm (.refl _)⟩
  · simp only [validateBMHMachineNetworks_ok_iff, getEffectiveMachineNetworksCIDRs_list,
      Except.ok.injEq, exists_eq_left']
    exact ⟨fun hin => hin.of_perm (.refl _) h, fun hin => hin.of_perm (.refl _) h.symm⟩

end ImageBasedInstall

import ImageBasedInstall.Text.Pattern
import ImageBasedInstall.Verify.Branches

/-!
# The settings of an image

The image tells the cluster to be what the spec, the cluster deployment, the host and the objects
they name ask for. The way there goes through two YAML files, the seed reconfiguration and, for the
NTP sources, the text of a `chrony.conf`, which chrony reads; the settings are found again in the
image if every NTP source is one word, and only then.
-/

namespace ImageBasedInstall

open Interactive Installer

variable {B : Type}

/-! ## The servers of a chrony configuration -/

def IsWord (source : String) : Prop :=
  source ≠ "" ∧ ∀ c ∈ source.toList, c.isWhitespace = false

/-- What is assumed of chrony, which is not part of the operator: `read` are the servers that it
takes from a configuration, besides its pools. It goes line by line, a server is one word, and the
default configuration has no server. -/
structure ReadsServers (read : String → List String) : Prop where
  lines : ∀ content line, read (content ++ "\n" ++ line) = read content ++ read line
  server : ∀ source, IsWord source → read ("server " ++ source ++ " iburst") = [source]
  words : ∀ conf, ∀ source ∈ read conf, IsWord source
  default : read (chronyConfWithAdditionalNTPSources []) = []
  empty : read "" = []

section Servers

variable {read : String → List String} (h : ReadsServers read)
include h

theorem ReadsServers.foldl (sources : List String) (content : String) :
    read (sources.foldl (fun content source => content ++ "\nserver " ++ source ++ " iburst")
        content) =
      read content ++ sources.flatMap fun source => read ("server " ++ source ++ " iburst") := by
  induction sources generalizing content with
  | nil => simp
  | cons source sources ih =>
    have hline : content ++ "\nserver " ++ source ++ " iburst" =
        content ++ "\n" ++ ("server " ++ source ++ " iburst") := by
      simp only [String.append_assoc]
      rfl
    rw [List.foldl_cons, ih, hline, h.lines, List.flatMap_cons, List.append_assoc]

theorem ReadsServers.chronyConf (sources : List String) :
    read (chronyConfWithAdditionalNTPSources sources) =
      sources.flatMap fun source => read ("server " ++ source ++ " iburst") := by
  unfold chronyConfWithAdditionalNTPSources
  rw [h.foldl]
  exact congrArg (· ++ _) h.default

/-- The sources are read back from the configuration made of them exactly if each is one word. -/
theorem ReadsServers.chronyConf_eq_iff (sources : List String) :
    read (chronyConfWithAdditionalNTPSources sources) = sources ↔
      ∀ source ∈ sources, IsWord source := by
  constructor
  · intro heq source hsource
    rw [← heq] at hsource
    exact h.words _ source hsource
  · intro hwords
    rw [h.chronyConf]
    induction sources with
    | nil => rfl
    | cons source sources ih =>
      rw [List.flatMap_cons, h.server source (hwords source (List.mem_cons_self ..)),
        ih fun s hs => hwords s (List.mem_cons_of_mem _ hs), List.singleton_append]

/-- Without sources there is no configuration, and no server either. -/
theorem ReadsServers.generated (sources : List String) :
    read (if sources.length > 0 then chronyConfWithAdditionalNTPSources sources else "") =
      read (chronyConfWithAdditionalNTPSources sources) := by
  cases sources with
  | nil => exact h.empty.trans h.default.symm
  | cons source sources => simp

end Servers

/-! ## Settings -/

/-- What a cluster is told to be. -/
structure Settings where
  baseDomain : String
  clusterName : String
  clusterID : String
  infraID : String
  hostname : String
  sshKey : String
  pullSecret : String
  caBundle : String
  releaseRegistry : String
  networkConfig : String
  machineNetworks : List String
  proxy : Option Proxy
  ntpSources : List String
  deriving DecidableEq

/-- The settings a cluster finds in its seed reconfiguration, with the servers that chrony reads. -/
def SeedReconfiguration.settings (read : String → List String) (config : SeedReconfiguration) :
    Settings where
  baseDomain := config.baseDomain
  clusterName := config.clusterName
  clusterID := config.clusterID
  infraID := config.infraID
  hostname := config.hostname
  sshKey := config.sshKey
  pullSecret := config.pullSecret
  caBundle := config.userCaBundle
  releaseRegistry := config.releaseRegistry
  networkConfig := config.rawNMStateConfig
  machineNetworks := config.machineNetworks
  proxy := config.proxy
  ntpSources := read config.chronyConfig

def IsoImage.settings (E : Env B) (read : String → List String) (image : IsoImage B) :
    Option Settings :=
  (E.unmarshalSeed image.manifest).map (SeedReconfiguration.settings read)

/-- The settings asked for: those of the spec, the cluster deployment and the host, with the
documents they refer to. -/
def BuildInput.settings (E : Env B) (inp : BuildInput) (src : Sources) : Option Settings := do
  let metadata ← inp.spec.clusterMetadata
  let pullSecret ← src.pullSecret
  let caBundle ← src.caBundle
  let releaseImage ← src.releaseImage
  let releaseRegistry ← (E.imageRegistry releaseImage).toOption
  let nmstate ← src.nmstate
  let machineNetworks ← (parseNetworks E (Installer.getEffectiveMachineNetworks inp.spec)).toOption
  return { baseDomain := inp.cd.baseDomain
           clusterName :=
             if inp.cd.clusterName = "" then "imagebased-sno-cluster" else inp.cd.clusterName
           clusterID := metadata.clusterID
           infraID := metadata.infraID
           hostname := inp.spec.hostname
           sshKey := inp.spec.sshKey
           pullSecret
           caBundle
           releaseRegistry
           networkConfig := E.reloadNetworkConfig nmstate
           machineNetworks
           proxy := inp.spec.proxy.filter fun p => p.httpsProxy ≠ "" ∨ p.httpProxy ≠ ""
           ntpSources := inp.spec.additionalNTPSources.items }

/-- The proxy is asked for if it names a host. -/
theorem proxy_eq_filter (proxy : Option Proxy) :
    Installer.proxy proxy = proxy.filter fun p => p.httpsProxy ≠ "" ∨ p.httpProxy ≠ "" := by
  cases proxy with
  | none => rfl
  | some p =>
    by_cases hnone : p.httpsProxy = "" ∧ p.httpProxy = ""
    · simp [Installer.proxy, hnone, Option.filter]
    · simp [Installer.proxy, hnone, Option.filter, ← not_and_or]

theorem imageBasedConfig_inv {s : Spec} {registry nmstate : String} {config : ImageBasedConfig}
    (h : (Installer.imageBasedConfig s registry nmstate).toOption = some config) :
    ∃ m, s.clusterMetadata = some m ∧ m.clusterID ≠ "" ∧ m.infraID ≠ "" ∧
      config = ⟨s.hostname, registry, s.additionalNTPSources.items, nmstate, m.clusterID,
        m.infraID⟩ := by
  unfold Installer.imageBasedConfig at h
  split at h
  · cases h
  · next m hm =>
    split at h
    · cases h
    · next hids =>
      rw [not_or] at hids
      exact ⟨m, hm, hids.1, hids.2, (Option.some.inj h).symm⟩

/-- The configuration the installer generates has the settings asked for, with the NTP sources as
chrony reads them. -/
theorem Configs.settings {E : Env B} {inp : BuildInput} {src : Sources} {ic : InstallConfig}
    {ibc : ImageBasedConfig} (h : Configs E inp src ic ibc) {read : String → List String}
    (hread : ReadsServers read) (draw : Draw) :
    ∃ settings, inp.settings E src = some settings ∧
      settings.ntpSources = inp.spec.additionalNTPSources.items ∧
      (generateClusterConfiguration E ic ibc draw).settings read =
        { settings with
          ntpSources := read (chronyConfWithAdditionalNTPSources settings.ntpSources) } := by
  obtain ⟨hic, hibc⟩ := h
  simp only [Sources.installConfig, Option.bind_eq_bind, Option.bind_eq_some_iff] at hic
  obtain ⟨psData, hps, caBundle, hca, nets, hnets, hic⟩ := hic
  obtain rfl := Option.some.inj hic
  simp only [Sources.imageBasedConfig, Option.bind_eq_bind, Option.bind_eq_some_iff] at hibc
  obtain ⟨nmstate, hnmstate, releaseImage, hrelease, registry, hregistry, config,
    hconfig, hibc⟩ := hibc
  obtain rfl := Option.some.inj hibc
  obtain ⟨m, hm, hclusterID, hinfraID, rfl⟩ := imageBasedConfig_inv hconfig
  have hsettings : (inp.settings E src).isSome = true := by
    simp [BuildInput.settings, hm, hps, hca, hrelease, hregistry, hnmstate, hnets]
  obtain ⟨settings, hsome⟩ := Option.isSome_iff_exists.1 hsettings
  refine ⟨settings, hsome, ?_⟩
  simp only [BuildInput.settings, hm, hps, hca, hrelease, hregistry, hnmstate, hnets,
    Option.bind_eq_bind, Option.bind_some, Option.pure_def, Option.some.injEq] at hsome
  subst hsome
  simp [SeedReconfiguration.settings, generateClusterConfiguration, InstallConfig.reloaded,
    Installer.installConfig, hread.generated, proxy_eq_filter, hclusterID, hinfraID]

/-! ## The image of a build -/

/-- The settings of an image made from the sources: those asked for, if every NTP source is one
word, and only then. -/
theorem MadeFrom.settings_iff {E : Env B} (hE : E.Lawful) {inp : BuildInput} {w : World B}
    {ic : InstallConfig} {ibc : ImageBasedConfig} {image : IsoImage B}
    (h : MadeFrom E inp w ic ibc image) {read : String → List String} (hread : ReadsServers read) :
    ∃ settings, inp.settings E (inp.sources E w) = some settings ∧
      (image.settings E read = some settings ↔
        ∀ source ∈ inp.spec.additionalNTPSources.items, IsWord source) := by
  have hmanifest : ∃ draw config, E.unmarshalSeed image.manifest = some config ∧
      config.settings read = (generateClusterConfiguration E ic ibc draw).settings read := by
    cases hid : w.identity E inp.cdKey with
    | none =>
      obtain ⟨⟨draw, hmanifest⟩, -⟩ := h.first hid
      refine ⟨draw, generateClusterConfiguration E ic ibc draw, ?_, rfl⟩
      rw [hmanifest, hE.unmarshalSeed_marshalSeed]
    | some idData =>
      -- the stored identity is merged into the hash and the crypto, which are no settings
      obtain ⟨⟨draw, secret, hmanifest⟩, -⟩ := h.reinstall idData hid
      refine ⟨draw, mergeIdentity (generateClusterConfiguration E ic ibc draw) secret, ?_, rfl⟩
      rw [hmanifest, hE.unmarshalSeed_marshalSeed]
  obtain ⟨draw, config, hdecoded, hconfig⟩ := hmanifest
  obtain ⟨settings, hasked, hsources, hgenerated⟩ := h.configs.settings hread draw
  refine ⟨settings, hasked, ?_⟩
  rw [IsoImage.settings, hdecoded, Option.map_some, hconfig, hgenerated, Option.some.injEq,
    ← hsources, ← hread.chronyConf_eq_iff]
  constructor
  · intro heq
    exact congrArg Settings.ntpSources heq
  · intro heq
    rw [heq]

variable [DecidableEq B]

/-- A successful build in an incomplete work directory leaves an image whose settings, with the time
servers as chrony reads them, are those asked for, if every additional NTP source is one word, and
only then. -/
theorem image_carries_settings (E : Env B) (hE : E.Lawful) (read : String → List String)
    (hread : ReadsServers read) (inp : BuildInput) (uid : String) (cs : List (Choice B))
    (w v : World B) (hmissing : Missing (getClusterConfigDir inp.ns uid) w)
    (hclears : TraceOk answer (Clears (getClusterConfigDir inp.ns uid))
      (writeInputData E inp uid).run cs w)
    (hexec : (writeInputData E inp uid).run.exec answer cs w = (v, some (.ok {}))) :
    ∃ image settings, v.fs (isoFile inp.ns uid) = some (.iso image inp.spec) ∧
      inp.settings E (inp.sources E w) = some settings ∧
      (image.settings E read = some settings ↔
        ∀ source ∈ inp.spec.additionalNTPSources.items, IsWord source) := by
  have hbuilt := (writeInputData_image hE hmissing).exec cs hclears (congrArg Prod.snd hexec)
  rw [hexec] at hbuilt
  obtain ⟨image, ic, ibc, hiso, hmade⟩ := hbuilt rfl
  obtain ⟨settings, hasked, hiff⟩ := hmade.settings_iff hE hread
  exact ⟨image, settings, hiso, hasked, hiff⟩

/-! ## A reader -/

/-- A line that adds a server. -/
def serverPattern : List (Pattern.Item Char) :=
  Pattern.literal "server ".toList ++
    (.run (fun c => !c.isWhitespace) :: (Pattern.literal " iburst".toList ++ []))

/-- A reader that knows these lines only. -/
def ntpServers (conf : String) : List String :=
  (conf.toList.splitOn '\n').filterMap fun line =>
    ((Pattern.find serverPattern line).bind List.head?).map String.ofList

theorem mem_captures_serverPattern {line : List Char} {groups : List (List Char)} :
    groups ∈ Pattern.captures serverPattern line ↔
      ∃ source, groups = [source] ∧ line = "server ".toList ++ (source ++ " iburst".toList) ∧
        source ≠ [] ∧ ∀ c ∈ source, (!c.isWhitespace) = true := by
  unfold serverPattern
  simp only [Pattern.mem_captures_literal, Pattern.mem_captures_run, Pattern.mem_captures_nil]
  constructor
  · rintro ⟨_, rfl, source, _, _, rfl, hne, hword, rfl, _, rfl, rfl, rfl⟩
    exact ⟨source, rfl, by simp, hne, hword⟩
  · rintro ⟨source, rfl, rfl, hne, hword⟩
    exact ⟨_, rfl, source, _, _, rfl, hne, hword, rfl, [], by simp, rfl, rfl⟩

theorem isWord_of_mem_ntpServers {conf source : String} (h : source ∈ ntpServers conf) :
    IsWord source := by
  obtain ⟨line, -, hline⟩ := List.mem_filterMap.1 h
  obtain ⟨chars, hchars, rfl⟩ := Option.map_eq_some_iff.1 hline
  obtain ⟨groups, hfind, hhead⟩ := Option.bind_eq_some_iff.1 hchars
  obtain ⟨word, rfl, -, hne, hword⟩ :=
    mem_captures_serverPattern.1 (Pattern.mem_captures_of_find hfind)
  obtain rfl : word = chars := Option.some.inj hhead
  constructor
  · simpa [String.ext_iff] using hne
  · simpa using hword

/-- The line of a source that is one word gives this source. -/
theorem ntpServers_line {source : String} (h : IsWord source) :
    ntpServers ("server " ++ source ++ " iburst") = [source] := by
  obtain ⟨hne, hword⟩ := h
  have htext : ("server " ++ source ++ " iburst").toList =
      "server ".toList ++ (source.toList ++ " iburst".toList) := by simp
  have hbreak : '\n' ∉ "server ".toList ++ (source.toList ++ " iburst".toList) := by
    intro hmem
    rcases List.mem_append.1 hmem with hmem | hmem
    · revert hmem
      decide
    rcases List.mem_append.1 hmem with hmem | hmem
    · cases hword _ hmem
    · revert hmem
      decide
  have hfind : Pattern.find serverPattern
      ("server ".toList ++ (source.toList ++ " iburst".toList)) = some [source.toList] := by
    apply Pattern.find_of_unique
    · exact mem_captures_serverPattern.2
        ⟨source.toList, rfl, rfl, mt String.toList_eq_nil_iff.1 hne, by simpa using hword⟩
    · intro groups hgroups
      obtain ⟨source', rfl, hline, -, -⟩ := mem_captures_serverPattern.1 hgroups
      rw [List.append_cancel_right (List.append_cancel_left hline)]
  unfold ntpServers
  rw [htext, List.splitOn_eq_singleton hbreak, List.filterMap_cons, hfind]
  simp

theorem ntpServers_append (content line : String) :
    ntpServers (content ++ "\n" ++ line) = ntpServers content ++ ntpServers line := by
  have htext : (content ++ "\n" ++ line).toList = content.toList ++ '\n' :: line.toList := by simp
  unfold ntpServers
  rw [htext, List.splitOn_append_cons_self, List.filterMap_append]

theorem ntpServers_reads : ReadsServers ntpServers where
  lines := ntpServers_append
  server _ := ntpServers_line
  words _ _ := isWord_of_mem_ntpServers
  default := by decide +kernel
  empty := by decide +kernel

/-- A build of the first object with the NTP sources given. -/
def timedInput (sources : List String) : BuildInput :=
  { sampleInput none with
    spec := { (sampleInput none).spec with additionalNTPSources := some sources } }

theorem image_carries_settings_sample :
    ∃ image settings,
      (sampleWrite (timedInput ["10.0.0.1", "10.0.0.2"]) sampleWorld).1.fs
        (isoFile "spokes" "8f2c") =
          some (.iso image (timedInput ["10.0.0.1", "10.0.0.2"]).spec) ∧
      (timedInput ["10.0.0.1", "10.0.0.2"]).settings Env.symbolic
        ((timedInput ["10.0.0.1", "10.0.0.2"]).sources Env.symbolic sampleWorld) = some settings ∧
      image.settings Env.symbolic ntpServers = some settings := by
  have hdone : (sampleWrite (timedInput ["10.0.0.1", "10.0.0.2"]) sampleWorld).2 =
      some (.ok {}) := by decide +kernel
  obtain ⟨image, settings, hiso, hasked, hiff⟩ := image_carries_settings Env.symbolic
    Env.symbolic_lawful ntpServers ntpServers_reads (timedInput ["10.0.0.1", "10.0.0.2"]) "8f2c"
    instantly sampleWorld _ ⟨isoPath, by decide, rfl⟩ (instantly_clears _ _ _)
      (sampleWrite_done hdone)
  refine ⟨image, settings, hiso, hasked, hiff.2 ?_⟩
  intro source hsource
  have hsources : source = "10.0.0.1" ∨ source = "10.0.0.2" := by
    simpa [timedInput, Slice.items] using hsource
  rcases hsources with rfl | rfl
  · exact ⟨by simp, by simp [Char.isWhitespace]⟩
  · exact ⟨by simp, by simp [Char.isWhitespace]⟩

end ImageBasedInstall

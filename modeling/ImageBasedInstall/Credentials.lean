import ImageBasedInstall.Installer.Reinstall

/-!
# Identity secrets

`internal/credentials/credentials.go`: the admin kubeconfig, the kubeadmin password and the seed
reconfiguration of a cluster are kept in three secrets named after its `ClusterDeployment`. All
reads go through the manager's cache, which holds only secrets that carry the operator's label.
-/

namespace ImageBasedInstall

open Interactive

variable {B : Type} [DecidableEq B] (E : Env B)

def kubeconfigSecretName (clusterDeploymentName : String) : String :=
  clusterDeploymentName ++ "-admin-kubeconfig"

def kubeadminPasswordSecretName (clusterDeploymentName : String) : String :=
  clusterDeploymentName ++ "-admin-password"

def seedReconfigurationSecretName (clusterDeploymentName : String) : String :=
  clusterDeploymentName ++ "-seed-reconfiguration"

/-- One of the three secrets: its name for a cluster deployment, the key of its payload, its type
label, the text of a read error and the other entries of its data. -/
structure IdentitySecret where
  secretName : String → String
  dataKey : String
  secretType : String
  readError : String := "failed to read kubeadmin file"
  extra : List (String × String) := []
  /-- The other entries do not hide the payload. -/
  dataKey_fresh : ∀ kv ∈ extra, kv.1 ≠ dataKey := by decide

def kubeconfigSecret : IdentitySecret where
  secretName := kubeconfigSecretName
  dataKey := "kubeconfig"
  secretType := "kubeconfig"

def adminPasswordSecret : IdentitySecret where
  secretName := kubeadminPasswordSecretName
  dataKey := "password"
  secretType := "kubeadmincreds"
  extra := [("username", "kubeadmin")]

def seedReconfigurationSecret : IdentitySecret where
  secretName := seedReconfigurationSecretName
  dataKey := seedReconfigurationFileName
  secretType := seedReconfigurationFileName
  readError := "failed to read seedReconfigurationFile file"

/-- The key of an identity secret of the cluster deployment stored under `cd`. -/
def IdentitySecret.key (kind : IdentitySecret) (cd : NamespacedName) : NamespacedName :=
  ⟨cd.ns, kind.secretName cd.name⟩

def Secret.get (s : Secret B) (key : String) : Option B := s.data.lookup key

def IdentitySecret.data (kind : IdentitySecret) (content : B) : List (String × B) :=
  kind.extra.map (fun kv => (kv.1, E.ofString kv.2)) ++ [(kind.dataKey, content)]

/-- The labels `mutateFn` sets. -/
def IdentitySecret.labels (kind : IdentitySecret) (cd : NamespacedName) : List (String × String) :=
  [("hive.openshift.io/cluster-deployment-name", cd.name),
   ("hive.openshift.io/secret-type", kind.secretType),
   (secretResourceLabel, "true"),
   ("siteconfig.open-cluster-management.io/preserve", "cluster-identity"),
   ("cluster.open-cluster-management.io/backup", "true")]

/-- `mutateFn`: data and owners are replaced, labels are added. -/
def IdentitySecret.mutate (kind : IdentitySecret) (cd : NamespacedName) (cdUID : String)
    (content : B) (s : Secret B) : Secret B where
  data := kind.data E content
  labels := (kind.labels cd).foldl (fun m kv => Function.update m kv.1 (some kv.2)) s.labels
  owners := [cdUID]

/-- `CreateOrUpdate` finds nothing to update. -/
def IdentitySecret.unchanged (kind : IdentitySecret) (cd : NamespacedName) (cdUID : String)
    (content : B) (s : Secret B) : Bool :=
  decide (s.data.Perm (kind.data E content)) && decide (s.owners = [cdUID]) &&
    (kind.labels cd).all fun kv => s.labels kv.1 == some kv.2

def secretExistsAndValid (ref : NamespacedName) (key : String) (content : B) : Act B Bool := do
  match ← (getSecret ref).attempt with
  | .error e =>
    if e.isNotFound then return false
    throw (.wrap "failed to get kubeconfig secret" e)
  | .ok secret => return secret.get key == some content

def createOrUpdateClusterCredentialSecret (kind : IdentitySecret) (cd : NamespacedName)
    (cdUID : String) (content : B) : Act B Unit := do
  let ref := kind.key cd
  match ← (getSecret ref).attempt with
  | .error e =>
    if !e.isNotFound then throw (.wrap "failed to create secret" e)
    (createSecret ref (kind.mutate E cd cdUID content {})).wrap "failed to create secret"
  | .ok secret =>
    if kind.unchanged E cd cdUID content secret then return ()
    (updateSecret ref (kind.mutate E cd cdUID content secret)).wrap "failed to create secret"

/-- The common body of the three `Ensure` functions: copy a file into its secret. -/
def ensureSecret (kind : IdentitySecret) (cd : NamespacedName) (cdUID : String) (file : Path) :
    Act B Unit := do
  let content ← (readFile file).wrap kind.readError
  if ← secretExistsAndValid (kind.key cd) kind.dataKey content then return ()
  (createOrUpdateClusterCredentialSecret E kind cd cdUID content).wrap
    "failed to create kubeadmin password secret"

def ensureKubeconfigSecret (cd : NamespacedName) (cdUID : String) (file : Path) : Act B Unit :=
  ensureSecret E kubeconfigSecret cd cdUID file

def ensureAdminPasswordSecret (cd : NamespacedName) (cdUID : String) (file : Path) : Act B Unit :=
  ensureSecret E adminPasswordSecret cd cdUID file

def ensureSeedReconfigurationSecret (cd : NamespacedName) (cdUID : String) (file : Path) :
    Act B Unit :=
  ensureSecret E seedReconfigurationSecret cd cdUID file

/-- The payload of a secret, `none` if the secret, its key or its content is missing. -/
def getSecretContent (ref : NamespacedName) (key : String) : Act B (Option B) := do
  match ← (getSecret ref).attempt with
  | .error e =>
    if e.isNotFound then return none
    throw (.wrap ("failed to get secret " ++ ref.ns ++ "/" ++ ref.name) e)
  | .ok secret => return (secret.get key).filter fun b => !E.isEmpty b

def seedReconfigSecretClusterIDs (cd : NamespacedName) : Act B (String × String) := do
  match ← getSecretContent E (seedReconfigurationSecret.key cd) seedReconfigurationFileName with
  | none => return ("", "")
  | some data =>
    match E.unmarshalSeed data with
    | none => throw (.mk "failed to decode secret seed reconfiguration")
    | some seed => return (seed.clusterID, seed.infraID)

/-- The three payloads, if all are present and non-empty. -/
def clusterIdentitySecrets (cd : NamespacedName) : Act B (Option (IdentityData B)) := do
  match ← getSecretContent E (kubeconfigSecret.key cd) "kubeconfig" with
  | none => return none
  | some kubeconfig =>
    match ← getSecretContent E (adminPasswordSecret.key cd) "password" with
    | none => return none
    | some kubeadminPassword =>
      match ← getSecretContent E (seedReconfigurationSecret.key cd) seedReconfigurationFileName with
      | none => return none
      | some seedReconfig => return some { kubeconfig, kubeadminPassword, seedReconfig }

end ImageBasedInstall

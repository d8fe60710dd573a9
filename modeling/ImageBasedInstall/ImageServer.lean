import ImageBasedInstall.Controllers.Reconciler
import ImageBasedInstall.Text.Paths
import ImageBasedInstall.Text.Pattern

/-!
# The image server

`internal/imageserver/imageserver.go`: the handler of `/images/` takes a namespace and a UID out of
the path of a request and serves the ISO in the work directory of that `ImageClusterInstall`. The
operator writes the ISO and builds the URL in another binary; here are the texts of the paths both
use.
-/

namespace ImageBasedInstall

open Paths

/-! ## The operator's side -/

/-- `configDirs`: the lock directory and the files directory. -/
def configDirTexts (dataDir ns uid : Text) : Text × Text :=
  let lockDir := join [dataDir, "namespaces".toList, ns, uid]
  (lockDir, join [lockDir, filesDir.toList])

/-- The ISO of `writeInputData`. -/
def isoText (dataDir ns uid : Text) : Text :=
  let isoWorkDir := join [(configDirTexts dataDir ns uid).2, clusterConfigDir.toList]
  join [isoWorkDir, isoName.toList]

/-- The text of a path below a data root, as `filepath.Join` gives it. -/
def Path.text (dataDir tempDir : Text) : Path → Text
  | ⟨.data ns uid, rel⟩ =>
    Paths.join
      (Paths.join [dataDir, "namespaces".toList, ns.toList, uid.toList] :: rel.map String.toList)
  | ⟨.temp name, rel⟩ => Paths.join (tempDir :: name.toList :: rel.map String.toList)

/-- `url.JoinPath` on a base URL with a host: the path of the result as it is requested. -/
def joinURLPath (basePath : Text) (elems : List Text) : Text :=
  if isRooted basePath then join (basePath :: elems)
  else '/' :: (join (('/' :: basePath) :: elems)).drop 1

/-- The path of the URL that `createImage` builds on a base URL without a path. -/
def imageURLPath (ns uid : Text) : Text :=
  joinURLPath [] ["images".toList, ns, uid ++ ".iso".toList]

/-! ## The server's side -/

namespace ImageServer

/-- `controllers.GetClusterConfigDir`. -/
def getClusterConfigDir (namespacesDir ns uid : Text) : Text :=
  join [namespacesDir, ns, uid, filesDir.toList, clusterConfigDir.toList]

/-- Any symbol but a line break. -/
def anySymbol (c : Char) : Bool := c != '\n'

/-- The expression `^/images/(.+)/(.+)\.iso$`. -/
def pathRegexp : List (Pattern.Item Char) :=
  Pattern.literal "/images/".toList ++ .run anySymbol :: (Pattern.literal "/".toList ++
    .run anySymbol :: (Pattern.literal ".iso".toList ++ []))

structure Handler where
  configsDir : Text

/-- The handler that `cmd/server` installs. -/
def handlerOf (dataDir : Text) : Handler := ⟨join [dataDir, "namespaces".toList]⟩

/-- The file a request asks for. -/
def Handler.outPath (h : Handler) (urlPath : Text) : Option Text :=
  match Pattern.find pathRegexp urlPath with
  | some [ns, name] => some (join [getClusterConfigDir h.configsDir ns name, isoName.toList])
  | _ => none

/-- `http.ServeFile` refuses a request path with an element `..`, split at slashes of both kinds. -/
def containsDotDot (urlPath : Text) : Bool :=
  (urlPath.splitOnP fun c => c == '/' || c == '\\').any (· = dotdot)

/-- The file that is served, given which files there are. -/
def Handler.serveHTTP (h : Handler) (stat : Text → Bool) (urlPath : Text) : Option Text :=
  match h.outPath urlPath with
  | none => none
  | some outPath => if stat outPath && !containsDotDot urlPath then some outPath else none

end ImageServer

end ImageBasedInstall

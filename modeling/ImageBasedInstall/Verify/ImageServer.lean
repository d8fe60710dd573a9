import ImageBasedInstall.ImageServer
import ImageBasedInstall.Installer.Symbolic

/-!
# The image URL leads to the image

The server's pattern has one match on the path of an image URL, and the two binaries join the same
elements. On any other path in cleaned form, whatever the pattern captures, the captured namespace
has at least one plain element, so a `..` in the captured name does not leave the directory of the
configurations.
-/

namespace ImageBasedInstall

open Paths

/-- The names the API server gives: letters, digits, `-` and `.`, and neither `.` nor `..`. -/
structure ValidName (name : Text) : Prop where
  ne_nil : name ≠ []
  ne_dot : name ≠ dot
  ne_dotdot : name ≠ dotdot
  chars : ∀ c ∈ name, c.isAlphanum = true ∨ c = '-' ∨ c = '.'

section Names

variable {name : Text}

theorem ValidName.not_mem (h : ValidName name) {c : Char} (hc : c.isAlphanum = false)
    (hdash : c ≠ '-') (hdot : c ≠ '.') : c ∉ name := by
  intro hmem
  rcases h.chars c hmem with h | h | h
  · simp [hc] at h
  · exact hdash h
  · exact hdot h

theorem ValidName.plain (h : ValidName name) : Plain name :=
  ⟨h.ne_nil, h.ne_dot, h.ne_dotdot, h.not_mem (by decide) (by decide) (by decide)⟩

/-- The last element of an image URL. -/
theorem ValidName.iso_plain (h : ValidName name) : Plain (name ++ ".iso".toList) where
  ne_nil := by simp
  ne_dot heq := by simpa [dot] using congrArg List.length heq
  ne_dotdot heq := by simpa [dotdot] using congrArg List.length heq
  no_slash := by simpa using h.plain.no_slash

end Names

theorem namespaces_plain : Plain "namespaces".toList := by decide
theorem images_plain : Plain "images".toList := by decide

theorem filesDir_plain : Plain filesDir.toList := by decide
theorem clusterConfigDir_plain : Plain clusterConfigDir.toList := by decide
theorem isoName_plain : Plain isoName.toList := by decide

/-- The end of every path of an image. -/
def imageElems : List Text := [filesDir.toList, clusterConfigDir.toList, isoName.toList]

theorem imageElems_plain : ∀ e ∈ imageElems, Plain e := by
  simp only [imageElems, List.forall_mem_cons]
  exact ⟨filesDir_plain, clusterConfigDir_plain, isoName_plain, nofun⟩

/-- The directory of the configurations. -/
def configsPath (dataDir : Text) : Cleaned :=
  (ofText dataDir).append ["namespaces".toList] (by simpa using namespaces_plain)

theorem configsDir_eq (dataDir : Text) :
    (ImageServer.handlerOf dataDir).configsDir = (configsPath dataDir).render :=
  join_plain dataDir (by simpa using namespaces_plain) (by simp)

/-! ## The two sides -/

section Files

variable {dataDir ns uid : Text}

theorem below_plain (hns : Plain ns) (huid : Plain uid) :
    ∀ e ∈ [ns, uid] ++ imageElems, Plain e := by
  intro e he
  rcases List.mem_append.1 he with he | he
  · rcases List.mem_pair.1 he with rfl | rfl
    · exact hns
    · exact huid
  · exact imageElems_plain e he

/-- The file of the operator. -/
theorem isoText_eq (hns : Plain ns) (huid : Plain uid) :
    isoText dataDir ns uid =
      ((configsPath dataDir).append ([ns, uid] ++ imageElems) (below_plain hns huid)).render := by
  have hlock : ∀ e ∈ ["namespaces".toList, ns, uid], Plain e := by
    simp only [List.forall_mem_cons]
    exact ⟨namespaces_plain, hns, huid, nofun⟩
  have hone : ∀ {e : Text}, Plain e → ∀ e' ∈ [e], Plain e' := by simp
  rw [isoText, configDirTexts, join_plain dataDir hlock (by simp),
    join_render_plain _ (hone filesDir_plain), join_render_plain _ (hone clusterConfigDir_plain),
    join_render_plain _ (hone isoName_plain)]
  simp only [configsPath, Cleaned.append_append]
  rfl

/-- The file of the server, for any captured texts. -/
theorem served_eq (dataDir ns name : Text) :
    join [ImageServer.getClusterConfigDir (ImageServer.handlerOf dataDir).configsDir ns name,
        isoName.toList] =
      (((configsPath dataDir).walk (ns.splitOn '/' ++ name.splitOn '/')).append imageElems
        imageElems_plain).render := by
  have hdirs : ∀ e ∈ [filesDir.toList, clusterConfigDir.toList], Plain e := by
    simp [filesDir_plain, clusterConfigDir_plain]
  have hiso : ∀ e ∈ [isoName.toList], Plain e := by simp [isoName_plain]
  have hsplit : [ns, name, filesDir.toList, clusterConfigDir.toList].flatMap (List.splitOn '/') =
      (ns.splitOn '/' ++ name.splitOn '/') ++ [filesDir.toList, clusterConfigDir.toList] := by
    rw [List.flatMap_cons, List.flatMap_cons, flatMap_splitOn_plain hdirs, List.append_assoc]
  rw [ImageServer.getClusterConfigDir, configsDir_eq, join_render, hsplit, Cleaned.walk_append,
    Cleaned.walk_plain hdirs, join_render_plain _ hiso, Cleaned.append_append]
  rfl

end Files

/-! ## The pattern -/

/-- What the pattern captures. -/
theorem mem_captures_pathRegexp {urlPath : Text} {groups : List Text} :
    groups ∈ Pattern.captures ImageServer.pathRegexp urlPath ↔
      ∃ ns name, groups = [ns, name] ∧
        urlPath = "/images/".toList ++ (ns ++ ("/".toList ++ (name ++ ".iso".toList))) ∧
        (ns ≠ [] ∧ ∀ c ∈ ns, ImageServer.anySymbol c = true) ∧
        (name ≠ [] ∧ ∀ c ∈ name, ImageServer.anySymbol c = true) := by
  unfold ImageServer.pathRegexp
  simp only [Pattern.mem_captures_literal, Pattern.mem_captures_run, Pattern.mem_captures_nil]
  constructor
  · rintro ⟨_, rfl, ns, _, _, rfl, hns, hns', rfl, _, rfl, name, _, _, rfl, hname, hname',
      rfl, _, rfl, rfl, rfl⟩
    exact ⟨ns, name, rfl, by simp, ⟨hns, hns'⟩, hname, hname'⟩
  · rintro ⟨ns, name, rfl, rfl, ⟨hns, hns'⟩, hname, hname'⟩
    exact ⟨_, rfl, ns, _, _, rfl, hns, hns', rfl, _, rfl, name, _, _, rfl, hname, hname', rfl, [],
      by simp, rfl, rfl⟩

section Requests

variable {dataDir : Text}

/-- The path of an image URL. -/
theorem imageURLPath_eq {ns uid : Text} (hns : ValidName ns) (huid : ValidName uid) :
    imageURLPath ns uid = "/images/".toList ++ (ns ++ ("/".toList ++ (uid ++ ".iso".toList))) := by
  have helems : ∀ e ∈ ["images".toList, ns, uid ++ ".iso".toList], Plain e := by
    simp only [List.forall_mem_cons]
    exact ⟨images_plain, hns.plain, huid.iso_plain, nofun⟩
  have hbase : ofText ['/'] = Cleaned.start true := rfl
  have hrender : ((Cleaned.start true).append _ helems).render =
      '/' :: slash.intercalate ["images".toList, ns, uid ++ ".iso".toList] := rfl
  rw [imageURLPath, joinURLPath, if_neg (by decide), join_plain ['/'] helems (by simp),
    hbase, hrender]
  simp [slash, List.intercalate_cons_cons]

theorem find_imageURLPath {ns uid : Text} (hns : ValidName ns) (huid : ValidName uid) :
    Pattern.find ImageServer.pathRegexp (imageURLPath ns uid) = some [ns, uid] := by
  have hany : ∀ {name : Text}, ValidName name → ∀ c ∈ name, ImageServer.anySymbol c = true := by
    intro name hname c hc
    have hbreak : '\n' ∉ name := hname.not_mem (by decide) (by decide) (by decide)
    simp only [ImageServer.anySymbol, bne_iff_ne]
    exact fun h => hbreak (h ▸ hc)
  rw [imageURLPath_eq hns huid]
  apply Pattern.find_of_unique
  · exact mem_captures_pathRegexp.2
      ⟨ns, uid, rfl, rfl, ⟨hns.ne_nil, hany hns⟩, huid.ne_nil, hany huid⟩
  · intro groups hgroups
    obtain ⟨ns', name, rfl, hpath, -, -⟩ := mem_captures_pathRegexp.1 hgroups
    have hrest : ns ++ '/' :: (uid ++ ".iso".toList) = ns' ++ '/' :: (name ++ ".iso".toList) :=
      List.append_cancel_left hpath
    obtain ⟨rfl, hname⟩ := eq_of_append_slash hns.plain.no_slash huid.iso_plain.no_slash hrest
    rw [List.append_cancel_right hname]

theorem outPath_imageURLPath {ns uid : Text} (hns : ValidName ns) (huid : ValidName uid) :
    (ImageServer.handlerOf dataDir).outPath (imageURLPath ns uid) =
      some (isoText dataDir ns uid) := by
  unfold ImageServer.Handler.outPath
  rw [find_imageURLPath hns huid, isoText_eq hns.plain huid.plain]
  dsimp only
  have hnames : ∀ e ∈ [ns, uid], Plain e := by simp [hns.plain, huid.plain]
  rw [served_eq, List.splitOn_eq_singleton hns.plain.no_slash,
    List.splitOn_eq_singleton huid.plain.no_slash, List.singleton_append, Cleaned.walk_plain hnames,
    Cleaned.append_append]

/-- The path of a request as it is handed over: elements, and possibly a slash at the end. -/
def requestPath (elems : List Text) (trailing : Bool) : Text :=
  '/' :: slash.intercalate (elems ++ if trailing then [[]] else [])

/-- The elements of a request path that the pattern matches. -/
theorem elems_of_match {elems : List Text} {trailing : Bool} {ns name : Text}
    (helems : ∀ e ∈ elems, Plain e)
    (h : requestPath elems trailing =
      "/images/".toList ++ (ns ++ ("/".toList ++ (name ++ ".iso".toList)))) :
    (∀ e ∈ ns.splitOn '/', Plain e) ∧
      ∃ init last, name.splitOn '/' = init ++ [last] ∧ ∀ e ∈ init, Plain e := by
  obtain ⟨init, last, hname, hlast⟩ := splitOn_append (by decide : '/' ∉ ".iso".toList) name
  -- the elements of both sides
  have hrest : slash.intercalate (elems ++ if trailing then [[]] else []) =
      "images".toList ++ '/' :: (ns ++ '/' :: (name ++ ".iso".toList)) := (List.cons.inj h).2
  have hslash : ∀ e ∈ elems ++ (if trailing then [[]] else []), '/' ∉ e := by
    intro e he
    rcases List.mem_append.1 he with he | he
    · exact (helems e he).no_slash
    · split at he
      · simp [List.mem_singleton.1 he]
      · cases he
  have hne : elems ++ (if trailing then [[]] else []) ≠ [] := by
    intro hnil
    rw [hnil] at hrest
    cases hrest
  have hsplit := congrArg (List.splitOn '/') hrest
  rw [slash, List.splitOn_intercalate '/' hslash hne, List.splitOn_append_cons_self,
    List.splitOn_append_cons_self, hlast] at hsplit
  cases trailing with
  | true =>
    -- a trailing slash leaves an empty last element
    rw [if_pos rfl, ← List.append_assoc, ← List.append_assoc] at hsplit
    have hempty := (List.append_inj' hsplit rfl).2
    simp at hempty
  | false =>
    rw [if_neg (by decide), List.append_nil] at hsplit
    rw [hsplit] at helems
    refine ⟨fun e he => helems e ?_, init, last, hname, fun e he => helems e ?_⟩
    · exact List.mem_append_right _ (List.mem_append_left _ he)
    · exact List.mem_append_right _ (List.mem_append_right _ (List.mem_append_left _ he))

/-- Whatever the pattern captures from a request path, the file is an image below the directory of
the configurations. -/
theorem outPath_below {elems : List Text} {trailing : Bool} {out : Text}
    (helems : ∀ e ∈ elems, Plain e)
    (h : (ImageServer.handlerOf dataDir).outPath (requestPath elems trailing) = some out) :
    ∃ rest, (∀ e ∈ rest, Plain e) ∧
      out = slash.intercalate ((ImageServer.handlerOf dataDir).configsDir ::
        (rest ++ imageElems)) := by
  unfold ImageServer.Handler.outPath at h
  split at h
  · next ns name hfind =>
    obtain rfl := Option.some.inj h
    obtain ⟨ns', name', hgroups, hpath, -, -⟩ :=
      mem_captures_pathRegexp.1 (Pattern.mem_captures_of_find hfind)
    cases hgroups
    obtain ⟨hns, init, last, hname, hinit⟩ := elems_of_match helems hpath
    have hplain : ∀ e ∈ ns.splitOn '/' ++ init, Plain e := fun e he =>
      (List.mem_append.1 he).elim (hns e) (hinit e)
    have hne : ns.splitOn '/' ++ init ≠ [] := by simp
    -- only the last captured element can go up, and there is one below it to take back
    obtain ⟨rest, hrest, hpush⟩ := Cleaned.push_append (C := configsPath dataDir) hplain hne last
    refine ⟨rest, hrest, ?_⟩
    rw [served_eq, hname, ← List.append_assoc, Cleaned.walk_append, Cleaned.walk_plain hplain,
      Cleaned.walk_cons, hpush, Cleaned.walk_nil, Cleaned.append_append, configsDir_eq,
      Cleaned.render_append (by simp [configsPath, Cleaned.append])]
  · cases h

/-- The path of an image URL has no element `..`. -/
theorem containsDotDot_imageURLPath {ns uid : Text} (hns : ValidName ns) (huid : ValidName uid) :
    ImageServer.containsDotDot (imageURLPath ns uid) = false := by
  have hnone : ∀ {name : Text}, ValidName name → ∀ c ∈ name, (c == '/' || c == '\\') = false := by
    intro name hname c hc
    have hback : '\\' ∉ name := hname.not_mem (by decide) (by decide) (by decide)
    have hslash : c ≠ '/' := fun h => hname.plain.no_slash (h ▸ hc)
    have hbackslash : c ≠ '\\' := fun h => hback (h ▸ hc)
    simp [hslash, hbackslash]
  have hiso : ∀ c ∈ uid ++ ".iso".toList, (c == '/' || c == '\\') = false := by
    intro c hc
    rcases List.mem_append.1 hc with hc | hc
    · exact hnone huid c hc
    · exact (by simp : ∀ c ∈ ".iso".toList, (c == '/' || c == '\\') = false) c hc
  have hpath : imageURLPath ns uid =
      [] ++ '/' :: ("images".toList ++ '/' :: (ns ++ '/' :: (uid ++ ".iso".toList))) :=
    imageURLPath_eq hns huid
  rw [ImageServer.containsDotDot, hpath, List.splitOnP_append_cons_of_forall_mem
    (by simp) '/' (by decide), List.splitOnP_append_cons_of_forall_mem (by simp) '/' (by decide),
    List.splitOnP_append_cons_of_forall_mem (hnone hns) '/' (by decide),
    List.splitOnP_eq_singleton hiso]
  simp only [List.any_cons, List.any_nil, decide_eq_false hns.ne_dotdot,
    decide_eq_false huid.iso_plain.ne_dotdot]
  decide

end Requests

/-- The operator's structured paths have the same texts. -/
theorem iso_text (dataDir tempDir : Text) (ns uid : String) :
    ((getClusterConfigDir ns uid).join isoPath).text dataDir tempDir =
      isoText dataDir ns.toList uid.toList := by
  obtain ⟨P, hP⟩ : ∃ P : Cleaned,
      join [dataDir, "namespaces".toList, ns.toList, uid.toList] = P.render := by
    by_cases hdir : dataDir = []
    · rw [hdir, join_nil_cons]
      exact ⟨_, join_eq namespaces_plain.ne_nil _⟩
    · exact ⟨_, join_eq hdir _⟩
  have hone : ∀ {e : Text}, Plain e → ∀ e' ∈ [e], Plain e' := by simp
  change join (join [dataDir, "namespaces".toList, ns.toList, uid.toList] :: imageElems) = _
  rw [isoText, configDirTexts, hP, join_render_plain _ imageElems_plain,
    join_render_plain _ (hone filesDir_plain), join_render_plain _ (hone clusterConfigDir_plain),
    join_render_plain _ (hone isoName_plain)]
  simp only [Cleaned.append_append]
  rfl

/-- The URL of an image leads to the image, different names to different images, and no request
leads elsewhere. -/
theorem image_url_leads_to_image {B : Type} (E : Env B) (dataDir tempDir : Text) :
    (∀ ns uid : String, ValidName ns.toList → ValidName uid.toList →
      (imageURL E ns uid).toList = E.baseURL.toList ++ imageURLPath ns.toList uid.toList ∧
      isoText dataDir ns.toList uid.toList =
        slash.intercalate ((ImageServer.handlerOf dataDir).configsDir :: ns.toList :: uid.toList ::
          imageElems) ∧
      isoText dataDir ns.toList uid.toList =
        ((getClusterConfigDir ns uid).join isoPath).text dataDir tempDir ∧
      ∀ stat, (ImageServer.handlerOf dataDir).serveHTTP stat (imageURLPath ns.toList uid.toList) =
        if stat (isoText dataDir ns.toList uid.toList) then some (isoText dataDir
          ns.toList uid.toList)
        else none) ∧
    (∀ ns uid ns' uid' : Text, ValidName ns → ValidName uid → ValidName ns' → ValidName uid' →
      isoText dataDir ns uid = isoText dataDir ns' uid' → ns = ns' ∧ uid = uid') ∧
    ∀ stat elems trailing out, (∀ e ∈ elems, Plain e) →
      (ImageServer.handlerOf dataDir).serveHTTP stat (requestPath elems trailing) = some out →
      ∃ rest, (∀ e ∈ rest, Plain e) ∧
        out = slash.intercalate ((ImageServer.handlerOf dataDir).configsDir ::
          (rest ++ imageElems)) := by
  refine ⟨fun ns uid hns huid => ⟨?_, ?_, ?_, fun stat => ?_⟩, ?_, ?_⟩
  · rw [imageURLPath_eq hns huid]
    simp [imageURL]
  · rw [isoText_eq hns.plain huid.plain, configsDir_eq,
      Cleaned.render_append (by simp [configsPath, Cleaned.append])]
    rfl
  · exact (iso_text dataDir tempDir ns uid).symm
  · rw [ImageServer.Handler.serveHTTP, outPath_imageURLPath hns huid]
    simp [containsDotDot_imageURLPath hns huid]
  · intro ns uid ns' uid' hns huid hns' huid' h
    rw [isoText_eq hns.plain huid.plain, isoText_eq hns'.plain huid'.plain] at h
    have helems := congrArg Cleaned.elems (Cleaned.render_injective h)
    simpa [Cleaned.append] using helems
  · intro stat elems trailing out helems hserved
    unfold ImageServer.Handler.serveHTTP at hserved
    split at hserved
    · cases hserved
    · next outPath hout =>
      split at hserved
      · obtain rfl := Option.some.inj hserved
        exact outPath_below helems hout
      · cases hserved

theorem validName_spokes : ValidName "spokes".toList :=
  ⟨by decide, by decide, by decide, by simp⟩

theorem validName_uid : ValidName "8f2c-1d".toList :=
  ⟨by decide, by decide, by decide, by simp⟩

theorem image_url_leads_to_image_sample :
    (ImageServer.handlerOf "/data".toList).serveHTTP (fun _ => true)
      "/images/spokes/8f2c-1d.iso".toList =
    some "/data/namespaces/spokes/8f2c-1d/files/cluster-configuration/imagebasedconfig.iso".toList ∧
    isoText "/data".toList "spokes".toList "8f2c-1d".toList ≠
      isoText "/data".toList "8f2c-1d".toList "spokes".toList ∧
    ∃ out rest, (ImageServer.handlerOf "/data".toList).serveHTTP (fun _ => true)
        "/images/a/b/...iso".toList = some out ∧
      (∀ e ∈ rest, Plain e) ∧
      out = slash.intercalate ("/data/namespaces".toList :: (rest ++ imageElems)) := by
  obtain ⟨hurl, hinj, hbelow⟩ := image_url_leads_to_image Env.symbolic "/data".toList "/tmp".toList
  refine ⟨?_, ?_, ?_⟩
  · obtain ⟨-, htext, -, hserves⟩ := hurl "spokes" "8f2c-1d" validName_spokes validName_uid
    have hpath : imageURLPath "spokes".toList "8f2c-1d".toList =
        "/images/spokes/8f2c-1d.iso".toList := by
      decide
    have hiso : isoText "/data".toList "spokes".toList "8f2c-1d".toList =
        "/data/namespaces/spokes/8f2c-1d/files/cluster-configuration/imagebasedconfig.iso".toList :=
      htext.trans (by decide +kernel)
    have hserved := hserves fun _ => true
    rwa [hpath, hiso, if_pos rfl] at hserved
  · intro h
    have heq := (hinj _ _ _ _ validName_spokes validName_uid validName_uid validName_spokes h).1
    revert heq
    decide
  · have helems : ∀ e ∈ ["images".toList, "a".toList, "b".toList, "...iso".toList], Plain e := by
      decide
    have hserved : (ImageServer.handlerOf "/data".toList).serveHTTP (fun _ => true)
        "/images/a/b/...iso".toList =
        some "/data/namespaces/a/files/cluster-configuration/imagebasedconfig.iso".toList := by
      decide +kernel
    obtain ⟨rest, hrest, hout⟩ := hbelow (fun _ => true) _ false _ helems hserved
    exact ⟨_, rest, hserved, hrest, hout⟩

end ImageBasedInstall

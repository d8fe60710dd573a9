import Mathlib.Data.List.Basic

/-!
# Cleaned paths

Slash-separated paths and Go's `filepath.Clean` and `filepath.Join` on them. Cleaning walks over the
elements of a path: empty elements and `.` are dropped, and `..` takes back the element before it.
The result is a `Cleaned` path: some leading `..` (none if the path is rooted) and plain elements
after them. Rendering a cleaned path and cleaning it again gives it back, so joins nest.
-/

namespace Paths

abbrev Text := List Char

def slash : Text := ['/']
def dot : Text := ['.']
def dotdot : Text := ['.', '.']

/-- An element that cleaning keeps. -/
structure Plain (e : Text) : Prop where
  ne_nil : e ≠ []
  ne_dot : e ≠ dot
  ne_dotdot : e ≠ dotdot
  no_slash : '/' ∉ e

instance (e : Text) : Decidable (Plain e) :=
  decidable_of_iff (e ≠ [] ∧ e ≠ dot ∧ e ≠ dotdot ∧ '/' ∉ e)
    ⟨fun ⟨h₁, h₂, h₃, h₄⟩ => ⟨h₁, h₂, h₃, h₄⟩, fun ⟨h₁, h₂, h₃, h₄⟩ => ⟨h₁, h₂, h₃, h₄⟩⟩

structure Cleaned where
  rooted : Bool
  /-- The number of leading `..` elements. -/
  ups : Nat
  elems : List Text
  plain : ∀ e ∈ elems, Plain e
  ups_rooted : rooted = true → ups = 0

namespace Cleaned

variable (P : Cleaned)

@[ext] theorem ext {P Q : Cleaned} (hrooted : P.rooted = Q.rooted) (hups : P.ups = Q.ups)
    (helems : P.elems = Q.elems) : P = Q := by
  cases P
  cases Q
  cases hrooted
  cases hups
  cases helems
  rfl

def start (rooted : Bool) : Cleaned := ⟨rooted, 0, [], by simp, fun _ => rfl⟩

/-- One level up. -/
def up : Cleaned :=
  if P.elems = [] then
    if hr : P.rooted = true then P
    else { P with ups := P.ups + 1, ups_rooted := fun h => absurd h hr }
  else
    { P with
      elems := P.elems.dropLast
      plain := fun e he => P.plain e (List.dropLast_subset _ he) }

/-- Plain elements at the end. -/
def append (es : List Text) (h : ∀ e ∈ es, Plain e) : Cleaned :=
  { P with
    elems := P.elems ++ es
    plain := fun e he => (List.mem_append.1 he).elim (P.plain e) (h e) }

/-- The next element of a path that is being cleaned. -/
def push (e : Text) : Cleaned :=
  if e = dotdot then P.up
  else if h : Plain e then P.append [e] (by simpa using h)
  else P

def walk (es : List Text) : Cleaned := es.foldl push P

/-- All elements, the leading `..` included. -/
def segments : List Text := List.replicate P.ups dotdot ++ P.elems

def render : Text :=
  if P.rooted then '/' :: slash.intercalate P.segments
  else if P.segments = [] then dot
  else slash.intercalate P.segments

end Cleaned

def isRooted (path : Text) : Bool := path.head? == some '/'

/-- The cleaned path of a text. -/
def ofText (path : Text) : Cleaned := (Cleaned.start (isRooted path)).walk (path.splitOn '/')

/-- `filepath.Clean`. -/
def clean (path : Text) : Text := (ofText path).render

/-- `filepath.Join`: empty elements at the front are ignored. -/
def join (elems : List Text) : Text :=
  match elems.dropWhile (· = []) with
  | [] => []
  | es => clean (slash.intercalate es)

example : clean "a//./b/../../../c/".toList = "../c".toList := by decide
example : join ["".toList, "/data/".toList, "..".toList, "x".toList] = "/x".toList := by decide

/-! ## Walking -/

namespace Cleaned

variable {P Q : Cleaned} {e : Text} {es es' : List Text}

theorem push_plain (h : Plain e) : P.push e = P.append [e] (by simpa using h) := by
  simp [push, h, h.ne_dotdot]

@[simp] theorem push_nil : P.push [] = P := by
  have hplain : ¬Plain [] := fun h => h.ne_nil rfl
  simp [push, hplain, dotdot]

@[simp] theorem push_dot : P.push dot = P := by
  have hplain : ¬Plain dot := fun h => h.ne_dot rfl
  rw [push, if_neg (by decide), dif_neg hplain]

@[simp] theorem push_dotdot : P.push dotdot = P.up := by
  simp [push]

theorem walk_append : P.walk (es ++ es') = (P.walk es).walk es' := List.foldl_append ..

@[simp] theorem walk_nil : P.walk [] = P := rfl

@[simp] theorem walk_cons : P.walk (e :: es) = (P.push e).walk es := rfl

theorem append_append (h : ∀ e ∈ es, Plain e) (h' : ∀ e ∈ es', Plain e) :
    (P.append es h).append es' h' =
      P.append (es ++ es') (fun e he => (List.mem_append.1 he).elim (h e) (h' e)) := by
  ext1
  · rfl
  · rfl
  · exact List.append_assoc ..

/-- Plain elements are kept. -/
theorem walk_plain (h : ∀ e ∈ es, Plain e) : P.walk es = P.append es h := by
  induction es generalizing P with
  | nil =>
    ext1
    · rfl
    · rfl
    · exact (List.append_nil _).symm
  | cons e es ih =>
    have he : Plain e := h e (List.mem_cons_self ..)
    have hes : ∀ e' ∈ es, Plain e' := fun e' he' => h e' (List.mem_cons_of_mem _ he')
    rw [walk_cons, push_plain he, ih hes, append_append]
    rfl

/-- Leading `..` are counted. -/
theorem walk_ups (rooted : Bool) (n : Nat) (h : rooted = true → n = 0) :
    (start rooted).walk (List.replicate n dotdot) = ⟨rooted, n, [], by simp, h⟩ := by
  cases rooted with
  | true => simp [h rfl, start]
  | false =>
    induction n with
    | zero => rfl
    | succ n ih =>
      rw [List.replicate_succ', walk_append, ih nofun]
      simp [up]

/-! ## Rendering -/

theorem segments_no_slash : ∀ e ∈ P.segments, '/' ∉ e := by
  intro e he
  rcases List.mem_append.1 he with he | he
  · obtain rfl := List.eq_of_mem_replicate he
    decide
  · exact (P.plain e he).no_slash

theorem segments_ne_nil_of_mem : ∀ e ∈ P.segments, e ≠ [] := by
  intro e he
  rcases List.mem_append.1 he with he | he
  · obtain rfl := List.eq_of_mem_replicate he
    decide
  · exact (P.plain e he).ne_nil

theorem walk_segments : (start P.rooted).walk P.segments = P := by
  rw [segments, walk_append, walk_ups P.rooted P.ups P.ups_rooted, walk_plain P.plain]
  ext1
  · rfl
  · rfl
  · exact List.nil_append _

theorem intercalate_append_left (x y : Text) (ts : List Text) :
    slash.intercalate ((x ++ y) :: ts) = x ++ slash.intercalate (y :: ts) := by
  cases ts with
  | nil => simp
  | cons t ts => simp [List.intercalate_cons_cons]

theorem intercalate_append {ss : List Text} (h : ss ≠ []) (ts : List Text) :
    slash.intercalate (ss ++ ts) = slash.intercalate (slash.intercalate ss :: ts) := by
  induction ss with
  | nil => exact absurd rfl h
  | cons s ss ih =>
    cases ss with
    | nil => simp
    | cons s' ss =>
      rw [List.cons_append, List.cons_append, List.intercalate_cons_cons,
        List.intercalate_cons_cons, intercalate_append_left, ← ih (List.cons_ne_nil _ _),
        List.cons_append]

theorem splitOn_segments (h : P.segments ≠ []) :
    (slash.intercalate P.segments).splitOn '/' = P.segments :=
  List.splitOn_intercalate '/' segments_no_slash h

/-- A cleaned path is found again in its text. -/
theorem walk_splitOn_render : (start P.rooted).walk (P.render.splitOn '/') = P := by
  by_cases hnil : P.segments = []
  · have hstart : start P.rooted = P := by
      have hwalk : (start P.rooted).walk P.segments = P := walk_segments
      rwa [hnil] at hwalk
    cases hr : P.rooted with
    | true =>
      have hsplit : P.render.splitOn '/' = [[], []] := by
        rw [render, hr, hnil]
        rfl
      rw [hsplit, walk_cons, walk_cons, push_nil, push_nil, ← hr]
      exact hstart
    | false =>
      have hsplit : P.render.splitOn '/' = [dot] := by
        rw [render, hr, hnil]
        rfl
      rw [hsplit, walk_cons, push_dot, ← hr]
      exact hstart
  · have hwalk : (start P.rooted).walk ((slash.intercalate P.segments).splitOn '/') = P := by
      rw [splitOn_segments hnil, walk_segments]
    cases hr : P.rooted with
    | true =>
      have hsplit : P.render.splitOn '/' = [] :: (slash.intercalate P.segments).splitOn '/' := by
        simp [render, hr, List.splitOn_cons_eq_if_modifyHead]
      rw [hsplit, walk_cons, push_nil, ← hr, hwalk]
    | false =>
      have hrender : P.render = slash.intercalate P.segments := by simp [render, hr, hnil]
      rw [hrender, ← hr, hwalk]

/-- The text of a relative path does not start with a slash. -/
theorem render_relative (hr : P.rooted = false) : ∃ c rest, P.render = c :: rest ∧ c ≠ '/' := by
  by_cases hnil : P.segments = []
  · exact ⟨'.', [], by simp [render, hr, hnil, dot], by decide⟩
  · -- the first element is not empty and has no slash
    obtain ⟨e, es, hsegments⟩ := List.exists_cons_of_ne_nil hnil
    have he : e ∈ P.segments := hsegments ▸ List.mem_cons_self ..
    obtain ⟨c, e', rfl⟩ := List.exists_cons_of_ne_nil (segments_ne_nil_of_mem e he)
    refine ⟨c, slash.intercalate (e' :: es), ?_, fun h => ?_⟩
    · simp [render, hr, hsegments, List.intercalate_cons_cons_left]
    · exact segments_no_slash _ he (h ▸ List.mem_cons_self ..)

theorem render_ne_nil : P.render ≠ [] := by
  cases hr : P.rooted with
  | true => simp [render, hr]
  | false =>
    obtain ⟨c, rest, hrender, -⟩ := render_relative hr
    simp [hrender]

theorem isRooted_render : isRooted P.render = P.rooted := by
  cases hr : P.rooted with
  | true => simp [render, hr, isRooted]
  | false =>
    obtain ⟨c, rest, hrender, hc⟩ := render_relative hr
    simp [hrender, isRooted, hc]

theorem render_injective (h : P.render = Q.render) : P = Q := by
  have hrooted : P.rooted = Q.rooted := by rw [← isRooted_render, h, isRooted_render]
  have hwalk : (start P.rooted).walk (P.render.splitOn '/') = P := walk_splitOn_render
  rw [h, hrooted, walk_splitOn_render] at hwalk
  exact hwalk.symm

/-- Elements appended to a path with at least one element are appended to its text. -/
theorem render_append (hne : P.elems ≠ []) (h : ∀ e ∈ es, Plain e) :
    (P.append es h).render = slash.intercalate (P.render :: es) := by
  have hsegments : (P.append es h).segments = P.segments ++ es := by
    simp [segments, append]
  have hnil : P.segments ≠ [] := by simp [segments, hne]
  have hrooted : (P.append es h).rooted = P.rooted := rfl
  cases hr : P.rooted with
  | true =>
    have hrender : P.render = slash ++ slash.intercalate P.segments := by simp [render, hr, slash]
    rw [hrender, intercalate_append_left, ← intercalate_append hnil, ← hsegments]
    simp [render, hrooted, hr, slash]
  | false =>
    have hrender : P.render = slash.intercalate P.segments := by simp [render, hr, hnil]
    rw [hrender, ← intercalate_append hnil, ← hsegments]
    simp [render, hrooted, hr, hsegments, hnil]

end Cleaned

/-! ## Joining -/

theorem splitOn_intercalate (s : Text) (ss : List Text) :
    (slash.intercalate (s :: ss)).splitOn '/' = (s :: ss).flatMap (List.splitOn '/') := by
  induction ss generalizing s with
  | nil => simp
  | cons t ss ih =>
    have hcons : slash.intercalate (s :: t :: ss) = s ++ '/' :: slash.intercalate (t :: ss) := by
      simp [List.intercalate_cons_cons, slash]
    rw [hcons, List.splitOn_append_cons_self, ih]
    rfl

theorem join_nil_cons (ss : List Text) : join ([] :: ss) = join ss := by
  simp [join]

theorem join_of_ne_nil {s : Text} (hs : s ≠ []) (ss : List Text) :
    join (s :: ss) = clean (slash.intercalate (s :: ss)) := by
  simp [join, hs]

theorem isRooted_intercalate {s : Text} (hs : s ≠ []) (ss : List Text) :
    isRooted (slash.intercalate (s :: ss)) = isRooted s := by
  obtain ⟨c, s', rfl⟩ := List.exists_cons_of_ne_nil hs
  simp [isRooted, List.intercalate_cons_cons_left]

/-- A join walks over the elements of all its arguments. -/
theorem join_eq {s : Text} (hs : s ≠ []) (ss : List Text) :
    join (s :: ss) = ((ofText s).walk (ss.flatMap (List.splitOn '/'))).render := by
  rw [join_of_ne_nil hs, clean, ofText, isRooted_intercalate hs, splitOn_intercalate,
    List.flatMap_cons, Cleaned.walk_append]
  rfl

theorem ofText_render (P : Cleaned) : ofText P.render = P := by
  rw [ofText, Cleaned.isRooted_render, Cleaned.walk_splitOn_render]

/-- Joins nest. -/
theorem join_render (P : Cleaned) (ss : List Text) :
    join (P.render :: ss) = (P.walk (ss.flatMap (List.splitOn '/'))).render := by
  rw [join_eq Cleaned.render_ne_nil, ofText_render]

theorem flatMap_splitOn_plain {es : List Text} (h : ∀ e ∈ es, Plain e) :
    es.flatMap (List.splitOn '/') = es := by
  induction es with
  | nil => rfl
  | cons e es ih =>
    rw [List.flatMap_cons, List.splitOn_eq_singleton (h e (List.mem_cons_self ..)).no_slash,
      ih fun e' he' => h e' (List.mem_cons_of_mem _ he')]
    rfl

theorem ofText_plain {e : Text} (h : Plain e) : ofText e = (Cleaned.start false).push e := by
  obtain ⟨c, e', rfl⟩ := List.exists_cons_of_ne_nil h.ne_nil
  have hc : c ≠ '/' := fun hc => h.no_slash (hc ▸ List.mem_cons_self ..)
  have hrooted : isRooted (c :: e') = false := by simp [isRooted, hc]
  rw [ofText, hrooted, List.splitOn_eq_singleton h.no_slash]
  rfl

/-- A directory, whatever its text, and plain elements below it. -/
theorem join_plain (dir : Text) {es : List Text} (h : ∀ e ∈ es, Plain e) (hne : es ≠ []) :
    join (dir :: es) = ((ofText dir).append es h).render := by
  rw [← Cleaned.walk_plain h]
  by_cases hdir : dir = []
  · obtain ⟨e, es, rfl⟩ := List.exists_cons_of_ne_nil hne
    have he : Plain e := h e (List.mem_cons_self ..)
    rw [hdir, join_nil_cons, join_eq he.ne_nil, ofText_plain he,
      flatMap_splitOn_plain fun e' he' => h e' (List.mem_cons_of_mem _ he')]
    rfl
  · rw [join_eq hdir, flatMap_splitOn_plain h]

theorem eq_of_splitOn_singleton {s e : Text} (h : s.splitOn '/' = [e]) : s = e := by
  have hs : ['/'].intercalate (s.splitOn '/') = s := List.intercalate_splitOn '/'
  rw [h, List.intercalate_singleton] at hs
  exact hs.symm

/-- A path of two elements splits at one slash only. -/
theorem eq_of_append_slash {s t s' t' : Text} (hs : '/' ∉ s) (ht : '/' ∉ t)
    (h : s ++ '/' :: t = s' ++ '/' :: t') : s' = s ∧ t' = t := by
  have hsplit := congrArg (List.splitOn '/') h
  rw [List.splitOn_append_cons_self, List.splitOn_append_cons_self, List.splitOn_eq_singleton hs,
    List.splitOn_eq_singleton ht] at hsplit
  obtain ⟨e, es, hs'⟩ := List.exists_cons_of_ne_nil (List.splitOn_ne_nil '/' s')
  rw [hs', List.singleton_append, List.cons_append, List.cons.injEq] at hsplit
  obtain ⟨rfl, hrest⟩ := hsplit
  cases es with
  | nil => exact ⟨eq_of_splitOn_singleton hs', eq_of_splitOn_singleton hrest.symm⟩
  | cons e' es =>
    rw [List.cons_append, List.cons.injEq] at hrest
    exact absurd (List.append_eq_nil_iff.1 hrest.2.symm).2 (List.splitOn_ne_nil '/' t')

/-- Text without a slash goes to the last element. -/
theorem splitOn_append {t : Text} (ht : '/' ∉ t) (s : Text) :
    ∃ init last, s.splitOn '/' = init ++ [last] ∧ (s ++ t).splitOn '/' = init ++ [last ++ t] := by
  induction s with
  | nil => exact ⟨[], [], by simp, by simp [List.splitOn_eq_singleton ht]⟩
  | cons c s ih =>
    obtain ⟨init, last, hs, hst⟩ := ih
    rw [List.cons_append, List.splitOn_cons_eq_if_modifyHead, List.splitOn_cons_eq_if_modifyHead,
      hs, hst]
    by_cases hc : c = '/'
    · exact ⟨[] :: init, last, by simp [hc], by simp [hc]⟩
    · cases init with
      | nil => exact ⟨[], c :: last, by simp [hc], by simp [hc]⟩
      | cons e init => exact ⟨(c :: e) :: init, last, by simp [hc], by simp [hc]⟩

/-- Plain elements joined to a cleaned path. -/
theorem join_render_plain (P : Cleaned) {es : List Text} (h : ∀ e ∈ es, Plain e) :
    join (P.render :: es) = (P.append es h).render := by
  rw [join_render, flatMap_splitOn_plain h, Cleaned.walk_plain h]

/-! ## Staying below a directory -/

namespace Cleaned

/-- One more element, from strictly below a directory, does not leave it. -/
theorem push_append {C : Cleaned} {rest : List Text} (h : ∀ e ∈ rest, Plain e) (hne : rest ≠ [])
    (e : Text) : ∃ rest' h', (C.append rest h).push e = C.append rest' h' := by
  by_cases hup : e = dotdot
  · subst hup
    refine ⟨rest.dropLast, fun e he => h e (List.dropLast_subset _ he), ?_⟩
    have hnil : ¬(C.append rest h).elems = [] := by simp [append, hne]
    rw [push_dotdot, up, if_neg hnil]
    ext1
    · rfl
    · rfl
    · exact List.dropLast_append_of_ne_nil hne
  · by_cases hplain : Plain e
    · exact ⟨rest ++ [e], _, (push_plain hplain).trans (append_append h (by simpa using hplain))⟩
    · exact ⟨rest, h, by rw [push, if_neg hup, dif_neg hplain]⟩

end Cleaned

end Paths

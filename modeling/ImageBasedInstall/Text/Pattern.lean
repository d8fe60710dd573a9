import Mathlib.Data.List.Basic

/-!
# Patterns with captures

Anchored patterns made of literal symbols and of captured runs: one or more symbols of a kind. The
matches of a word are listed in the order of preference of a backtracking matcher with greedy runs,
so the match it reports is the first of them.
-/

namespace Pattern

variable {α : Type} [DecidableEq α]

inductive Item (α : Type) where
  | symbol (a : α)
  /-- A captured run of symbols, as long as possible. -/
  | run (kind : α → Bool)

/-- The literal pattern of a word. -/
def literal (word : List α) : List (Item α) := word.map .symbol

/-- The captures of all matches of the whole word, preferred ones first. -/
def captures : List (Item α) → List α → List (List (List α))
  | [], [] => [[]]
  | [], _ :: _ => []
  | .symbol _ :: _, [] => []
  | .symbol a :: items, b :: word => if a = b then captures items word else []
  | .run kind :: items, word =>
    (List.range word.length).reverse.flatMap fun n =>
      if (word.take (n + 1)).all kind then
        (captures items (word.drop (n + 1))).map (word.take (n + 1) :: ·)
      else []

/-- The reported match. -/
def find (items : List (Item α)) (word : List α) : Option (List (List α)) :=
  (captures items word).head?

variable {items : List (Item α)} {word : List α} {groups : List (List α)}

theorem mem_captures_nil : groups ∈ captures ([] : List (Item α)) word ↔
    word = [] ∧ groups = [] := by
  cases word with
  | nil => simp [captures]
  | cons a word => simp [captures]

theorem mem_captures_literal {lit : List α} :
    groups ∈ captures (literal lit ++ items) word ↔
      ∃ rest, word = lit ++ rest ∧ groups ∈ captures items rest := by
  induction lit generalizing word with
  | nil => simp [literal]
  | cons a lit ih =>
    cases word with
    | nil => simp [literal, captures]
    | cons b word =>
      by_cases hab : a = b
      · subst hab
        have hcaptures : captures (literal (a :: lit) ++ items) (a :: word) =
            captures (literal lit ++ items) word := if_pos rfl
        simp [hcaptures, ih]
      · have hcaptures : captures (literal (a :: lit) ++ items) (b :: word) = [] := if_neg hab
        simp [hcaptures, Ne.symm hab]

theorem mem_captures_run {kind : α → Bool} :
    groups ∈ captures (.run kind :: items) word ↔
      ∃ group rest groups', word = group ++ rest ∧ group ≠ [] ∧ (∀ a ∈ group, kind a = true) ∧
        groups = group :: groups' ∧ groups' ∈ captures items rest := by
  simp only [captures, List.mem_flatMap, List.mem_reverse, List.mem_range]
  constructor
  · rintro ⟨n, hn, hmem⟩
    split at hmem
    · next hkind =>
      obtain ⟨groups', hgroups', rfl⟩ := List.mem_map.1 hmem
      refine ⟨word.take (n + 1), word.drop (n + 1), groups', (List.take_append_drop ..).symm, ?_,
        List.all_eq_true.1 hkind, rfl, hgroups'⟩
      intro hnil
      have hlength := congrArg List.length hnil
      rw [List.length_take, List.length_nil] at hlength
      omega
    · cases hmem
  · rintro ⟨group, rest, groups', rfl, hne, hkind, rfl, hgroups'⟩
    have hlength : 0 < group.length := List.length_pos_iff.2 hne
    refine ⟨group.length - 1, by simp; omega, ?_⟩
    have htake : (group ++ rest).take (group.length - 1 + 1) = group := by
      rw [Nat.sub_add_cancel hlength, List.take_left]
    have hdrop : (group ++ rest).drop (group.length - 1 + 1) = rest := by
      rw [Nat.sub_add_cancel hlength, List.drop_left]
    rw [htake, hdrop, if_pos (List.all_eq_true.2 hkind)]
    exact List.mem_map.2 ⟨groups', hgroups', rfl⟩

theorem mem_captures_of_find (h : find items word = some groups) : groups ∈ captures items word :=
  List.mem_of_head? h

/-- A word with one match reports it. -/
theorem find_of_unique (h : groups ∈ captures items word)
    (huniq : ∀ groups' ∈ captures items word, groups' = groups) :
    find items word = some groups := by
  unfold find
  cases hcaptures : captures items word with
  | nil => simp [hcaptures] at h
  | cons first others =>
    rw [hcaptures] at huniq
    simp [huniq first (List.mem_cons_self ..)]

end Pattern

import Mathlib

/-!
# Rewriting of byte strings

A byte string need not be UTF-8. It is read as a sequence of runes, where each byte that does not
start a valid encoding counts as one rune, `runeError`. `replaceRunes` replaces the runes of a kind,
and `squeeze` makes one separator of each run of separators.
-/

namespace Rewrite

/-! ## Runes -/

/-- What stands for a byte that is not UTF-8. -/
def runeError : Nat := 0xFFFD

/-- The continuation bytes that a first byte announces, and the range of the first of them. -/
def lead (b : UInt8) : Option (Nat × UInt8 × UInt8) :=
  if b < 0xC2 then none
  else if b < 0xE0 then some (1, 0x80, 0xBF)
  else if b = 0xE0 then some (2, 0xA0, 0xBF)
  else if b = 0xED then some (2, 0x80, 0x9F)
  else if b < 0xF0 then some (2, 0x80, 0xBF)
  else if b = 0xF0 then some (3, 0x90, 0xBF)
  else if b < 0xF4 then some (3, 0x80, 0xBF)
  else if b = 0xF4 then some (3, 0x80, 0x8F)
  else none

/-- Add the bits of `n` continuation bytes, of which the first lies between `lo` and `hi`. -/
def continuation : (n acc : Nat) → (lo hi : UInt8) → List UInt8 → Option Nat
  | 0, acc, _, _, _ => some acc
  | _ + 1, _, _, _, [] => none
  | n + 1, acc, lo, hi, b :: bs =>
    if lo ≤ b ∧ b ≤ hi then continuation n (acc * 64 + b.toNat % 64) 0x80 0xBF bs else none

/-- The first rune of a byte string and the number of its bytes. -/
def decodeRune : List UInt8 → Nat × Nat
  | [] => (runeError, 0)
  | b :: bs =>
    if b < 0x80 then (b.toNat, 1)
    else
      match lead b with
      | none => (runeError, 1)
      | some (n, lo, hi) =>
        match continuation n (b.toNat % 2 ^ (6 - n)) lo hi bs with
        | none => (runeError, 1)
        | some rune => (rune, n + 1)

/-- Replace each rune of a kind. The first `skip` bytes belong to a rune that is done. -/
def replaceFrom (kind : Nat → Bool) (new : List UInt8) : (skip : Nat) → List UInt8 → List UInt8
  | _, [] => []
  | skip + 1, _ :: bs => replaceFrom kind new skip bs
  | 0, b :: bs =>
    let (rune, width) := decodeRune (b :: bs)
    (if kind rune then new else (b :: bs).take width) ++ replaceFrom kind new (width - 1) bs

def replaceRunes (kind : Nat → Bool) (new : List UInt8) (bs : List UInt8) : List UInt8 :=
  replaceFrom kind new 0 bs

section Runes

variable {kind : Nat → Bool} {new bs : List UInt8} {b : UInt8}

theorem decodeRune_ascii (hb : b < 0x80) (bs : List UInt8) : decodeRune (b :: bs) = (b.toNat, 1) :=
  if_pos hb

/-- The bits before the continuation bytes are the high bits of the rune. -/
theorem le_continuation {n acc rune : Nat} {lo hi : UInt8}
    (h : continuation n acc lo hi bs = some rune) : acc * 64 ^ n ≤ rune := by
  induction n generalizing acc lo hi bs with
  | zero =>
    obtain rfl : acc = rune := by simpa [continuation] using h
    simp
  | succ n ih =>
    cases bs with
    | nil => cases h
    | cons b bs =>
      rw [continuation] at h
      split at h
      · calc acc * 64 ^ (n + 1) = (acc * 64) * 64 ^ n := by rw [Nat.pow_succ', Nat.mul_assoc]
          _ ≤ (acc * 64 + b.toNat % 64) * 64 ^ n := Nat.mul_le_mul_right _ (Nat.le_add_right ..)
          _ ≤ rune := ih h
      · cases h

/-- The first two bytes alone make a rune beyond ASCII: no encoding is longer than needed. -/
theorem lead_table : ∀ k < 256, (lead (UInt8.ofNat k)).all fun t =>
    1 ≤ t.1 ∧ 0x80 ≤ t.2.1.toNat ∧ t.2.2.toNat ≤ 0xBF ∧
    0x80 ≤ (k % 2 ^ (6 - t.1) * 64 + t.2.1.toNat % 64) * 64 ^ (t.1 - 1) := by
  decide +kernel

theorem le_of_lead {n rune : Nat} {lo hi : UInt8} (hlead : lead b = some (n, lo, hi))
    (h : continuation n (b.toNat % 2 ^ (6 - n)) lo hi bs = some rune) : 0x80 ≤ rune := by
  have htable := lead_table b.toNat b.toNat_lt
  rw [UInt8.ofNat_toNat, hlead] at htable
  obtain ⟨hn, hlo, hhi, hfirst⟩ := of_decide_eq_true htable
  dsimp only at hn hlo hhi
  obtain ⟨n, rfl⟩ := Nat.exists_eq_add_of_le' hn
  cases bs with
  | nil => cases h
  | cons c bs =>
    rw [continuation] at h
    split at h
    · next hc =>
      rw [UInt8.le_iff_toNat_le, UInt8.le_iff_toNat_le] at hc
      have hlow : lo.toNat % 64 ≤ c.toNat % 64 := by omega
      calc 0x80 ≤ (b.toNat % 2 ^ (6 - (n + 1)) * 64 + lo.toNat % 64) * 64 ^ n := hfirst
        _ ≤ (b.toNat % 2 ^ (6 - (n + 1)) * 64 + c.toNat % 64) * 64 ^ n :=
          Nat.mul_le_mul_right _ (Nat.add_le_add_left hlow _)
        _ ≤ rune := le_continuation h
    · cases h

/-- Only an ASCII byte is read as an ASCII rune. -/
theorem le_decodeRune (hb : ¬b < 0x80) (bs : List UInt8) : 0x80 ≤ (decodeRune (b :: bs)).1 := by
  rw [decodeRune, if_neg hb]
  split
  · decide
  · next n lo hi hlead =>
    split
    · decide
    · next rune hrune => exact le_of_lead hlead hrune

@[simp] theorem replaceFrom_nil (skip : Nat) : replaceFrom kind new skip [] = [] := by
  cases skip <;> rfl

/-- A byte of the result comes from the replacement, or is an ASCII byte that is not of the kind. -/
theorem mem_replaceFrom (hkind : ∀ rune, 0x80 ≤ rune → kind rune = true) {skip : Nat} {c : UInt8}
    (hc : c ∈ replaceFrom kind new skip bs) : c ∈ new ∨ c < 0x80 ∧ kind c.toNat = false := by
  induction bs generalizing skip with
  | nil => simp at hc
  | cons b bs ih =>
    cases skip with
    | succ skip => exact ih hc
    | zero =>
      rw [replaceFrom, List.mem_append] at hc
      rcases hc with hc | hc
      · by_cases hb : b < 0x80
        · rw [decodeRune_ascii hb] at hc
          cases hk : kind b.toNat with
          | true => exact .inl (by simpa [hk] using hc)
          | false =>
            obtain rfl : c = b := by simpa [hk] using hc
            exact .inr ⟨hb, hk⟩
        · rw [if_pos (hkind _ (le_decodeRune hb bs))] at hc
          exact .inl hc
      · exact ih hc

/-- Nothing is replaced in a string of ASCII bytes that are not of the kind. -/
theorem replaceRunes_eq_self (h : ∀ b ∈ bs, b < 0x80 ∧ kind b.toNat = false) :
    replaceRunes kind new bs = bs := by
  unfold replaceRunes
  induction bs with
  | nil => rfl
  | cons b bs ih =>
    obtain ⟨hb, hk⟩ := h b (List.mem_cons_self ..)
    rw [replaceFrom, decodeRune_ascii hb]
    simp [hk, ih fun c hc => h c (List.mem_cons_of_mem _ hc)]

end Runes

/-! ## UTF-8 -/

/-- The UTF-8 encoding of a text. -/
def utf8 (cs : List Char) : List UInt8 := cs.flatMap String.utf8EncodeChar

/-- The character of an ASCII byte. -/
def ascii (b : UInt8) : Char := Char.ofNat b.toNat

section Utf8

variable {kind : Nat → Bool}

theorem lead_two : ∀ k < 32, 2 ≤ k → lead (UInt8.ofNat (k + 192)) = some (1, 0x80, 0xBF) := by
  decide

theorem lead_three : ∀ k < 16, lead (UInt8.ofNat (k + 224)) =
    some (2, if k = 0 then 0xA0 else 0x80, if k = 13 then 0x9F else 0xBF) := by
  decide

theorem lead_four : ∀ k < 5, lead (UInt8.ofNat (k + 240)) =
    some (3, if k = 0 then 0x90 else 0x80, if k = 4 then 0x8F else 0xBF) := by
  decide

theorem continuation_cons {n acc k : Nat} {lo hi : UInt8} (bs : List UInt8) (hk : k < 64)
    (hlo : lo.toNat ≤ k + 128) (hhi : k + 128 ≤ hi.toNat) :
    continuation (n + 1) acc lo hi (UInt8.ofNat (k + 128) :: bs) =
      continuation n (acc * 64 + k) 0x80 0xBF bs := by
  have hb : (UInt8.ofNat (k + 128)).toNat = k + 128 := by
    rw [UInt8.toNat_ofNat']
    omega
  have hmod : (k + 128) % 64 = k := by omega
  rw [continuation, if_pos, hb, hmod]
  rw [UInt8.le_iff_toNat_le, UInt8.le_iff_toNat_le, hb]
  exact ⟨hlo, hhi⟩

theorem decodeRune_lead {n k rune : Nat} {lo hi : UInt8} {bs : List UInt8} (hk : k < 256)
    (hhigh : 128 ≤ k) (hlead : lead (UInt8.ofNat k) = some (n, lo, hi))
    (h : continuation n (k % 2 ^ (6 - n)) lo hi bs = some rune) :
    decodeRune (UInt8.ofNat k :: bs) = (rune, n + 1) := by
  have hb : (UInt8.ofNat k).toNat = k := by
    rw [UInt8.toNat_ofNat']
    omega
  have hnot : ¬UInt8.ofNat k < 0x80 := by
    rw [UInt8.lt_iff_toNat_lt, hb]
    exact Nat.not_lt.2 hhigh
  simp only [decodeRune, if_neg hnot, hlead, hb, h]

/-- The encoding of a character is read back. -/
theorem decodeRune_utf8EncodeChar (c : Char) (bs : List UInt8) :
    decodeRune (String.utf8EncodeChar c ++ bs) = (c.toNat, (String.utf8EncodeChar c).length) := by
  have hvalid : c.val.toNat < 0xd800 ∨ 0xdfff < c.val.toNat ∧ c.val.toNat < 0x110000 := c.valid
  rw [Char.toNat]
  unfold String.utf8EncodeChar
  dsimp only
  generalize c.val.toNat = v at hvalid ⊢
  split
  · next hone =>
    have hb : (UInt8.ofNat v).toNat = v := by
      rw [UInt8.toNat_ofNat']
      omega
    rw [List.singleton_append, decodeRune_ascii, hb, List.length_singleton]
    rw [UInt8.lt_iff_toNat_lt, hb]
    exact Nat.lt_succ_of_le hone
  split
  · have hk : v / 64 % 32 = v / 64 := by omega
    have hacc : (v / 64 + 192) % 2 ^ (6 - 1) = v / 64 := by omega
    simp only [List.cons_append, List.nil_append, List.length_cons, List.length_nil, hk]
    refine decodeRune_lead (by omega) (by omega) (lead_two _ (by omega) (by omega)) ?_
    rw [hacc, continuation_cons bs (by omega) (by simp) (by simp; omega), continuation]
    congr 1
    omega
  split
  · have hk : v / 4096 % 16 = v / 4096 := by omega
    have hacc : (v / 4096 + 224) % 2 ^ (6 - 2) = v / 4096 := by omega
    simp only [List.cons_append, List.nil_append, List.length_cons, List.length_nil, hk]
    refine decodeRune_lead (by omega) (by omega) (lead_three _ (by omega)) ?_
    have hlo : (if v / 4096 = 0 then (0xA0 : UInt8) else 0x80).toNat ≤ v / 64 % 64 + 128 := by
      split
      · exact (by omega : 0xA0 ≤ v / 64 % 64 + 128)
      · exact Nat.le_add_left ..
    -- the surrogates are missing
    have hhi : v / 64 % 64 + 128 ≤ (if v / 4096 = 13 then (0x9F : UInt8) else 0xBF).toNat := by
      split
      · exact (by omega : v / 64 % 64 + 128 ≤ 0x9F)
      · exact (by omega : v / 64 % 64 + 128 ≤ 0xBF)
    rw [hacc, continuation_cons _ (by omega) hlo hhi,
      continuation_cons bs (by omega) (by simp) (by simp; omega), continuation]
    congr 1
    omega
  · have hk : v / 262144 % 8 = v / 262144 := by omega
    have hacc : (v / 262144 + 240) % 2 ^ (6 - 3) = v / 262144 := by omega
    simp only [List.cons_append, List.nil_append, List.length_cons, List.length_nil, hk]
    refine decodeRune_lead (by omega) (by omega) (lead_four _ (by omega)) ?_
    have hlo : (if v / 262144 = 0 then (0x90 : UInt8) else 0x80).toNat ≤ v / 4096 % 64 + 128 := by
      split
      · exact (by omega : 0x90 ≤ v / 4096 % 64 + 128)
      · exact Nat.le_add_left ..
    have hhi : v / 4096 % 64 + 128 ≤ (if v / 262144 = 4 then (0x8F : UInt8) else 0xBF).toNat := by
      split
      · exact (by omega : v / 4096 % 64 + 128 ≤ 0x8F)
      · exact (by omega : v / 4096 % 64 + 128 ≤ 0xBF)
    rw [hacc, continuation_cons _ (by omega) hlo hhi,
      continuation_cons _ (by omega) (by simp) (by simp; omega),
      continuation_cons bs (by omega) (by simp) (by simp; omega), continuation]
    congr 1
    omega

theorem replaceFrom_append {new : List UInt8} (done bs : List UInt8) :
    replaceFrom kind new done.length (done ++ bs) = replaceFrom kind new 0 bs := by
  induction done with
  | nil => rfl
  | cons b done ih => exact ih

/-- In valid UTF-8 the characters of the kind are replaced. -/
theorem replaceRunes_utf8 (d : Char) (cs : List Char) :
    replaceRunes kind (String.utf8EncodeChar d) (utf8 cs) =
      utf8 (cs.map fun c => if kind c.toNat then d else c) := by
  unfold replaceRunes
  induction cs with
  | nil => rfl
  | cons c cs ih =>
    have hdecode := decodeRune_utf8EncodeChar c (utf8 cs)
    simp only [utf8, List.map_cons, List.flatMap_cons] at hdecode ih ⊢
    cases hc : String.utf8EncodeChar c with
    | nil =>
      have hlength := congrArg List.length hc
      rw [String.length_utf8EncodeChar] at hlength
      exact absurd hlength (Nat.ne_of_gt c.utf8Size_pos)
    | cons b done =>
      rw [hc] at hdecode
      simp only [List.cons_append, List.length_cons] at hdecode ⊢
      rw [replaceFrom, hdecode]
      dsimp only
      rw [Nat.add_sub_cancel, replaceFrom_append, ih]
      congr 1
      split
      · rfl
      · rw [hc, List.take_succ_cons, List.take_left]

theorem utf8EncodeChar_ascii {c : Char} (hc : c.toNat < 0x80) :
    String.utf8EncodeChar c = [UInt8.ofNat c.toNat] :=
  if_pos (Nat.le_of_lt_succ hc)

theorem toNat_ascii (b : UInt8) : (ascii b).toNat = b.toNat := by
  have hb := b.toNat_lt
  have hvalid : b.toNat.isValidChar := .inl (by omega)
  simp [ascii, Char.ofNat, Char.toNat, Char.ofNatAux, hvalid]

/-- ASCII characters are their bytes. -/
theorem map_ascii_utf8 {cs : List Char} (h : ∀ c ∈ cs, c.toNat < 0x80) :
    (utf8 cs).map ascii = cs := by
  induction cs with
  | nil => rfl
  | cons c cs ih =>
    have hc := h c (List.mem_cons_self ..)
    have hbyte : (UInt8.ofNat c.toNat).toNat = c.toNat := by
      rw [UInt8.toNat_ofNat']
      omega
    have htail := ih fun d hd => h d (List.mem_cons_of_mem _ hd)
    rw [utf8] at htail
    rw [utf8, List.flatMap_cons, utf8EncodeChar_ascii hc, List.map_append, htail]
    simp [ascii, hbyte, Char.ofNat_toNat]

theorem utf8_map_ascii {bs : List UInt8} (h : ∀ b ∈ bs, b < 0x80) : utf8 (bs.map ascii) = bs := by
  induction bs with
  | nil => rfl
  | cons b bs ih =>
    have hb : (ascii b).toNat < 0x80 := by
      rw [toNat_ascii]
      exact UInt8.lt_iff_toNat_lt.1 (h b (List.mem_cons_self ..))
    have htail := ih fun c hc => h c (List.mem_cons_of_mem _ hc)
    rw [utf8] at htail
    rw [utf8, List.map_cons, List.flatMap_cons, utf8EncodeChar_ascii hb, htail, toNat_ascii,
      UInt8.ofNat_toNat, List.singleton_append]

end Utf8

/-! ## Runs of separators -/

section Squeeze

variable {α β : Type} [DecidableEq α] [DecidableEq β] {sep : α} {l : List α}

/-- Make one separator of each run of separators. -/
def squeeze (sep : α) : List α → List α
  | [] => []
  | a :: l => if a = sep ∧ l.head? = some sep then squeeze sep l else a :: squeeze sep l

/-- No two separators stand side by side. -/
def Single (sep : α) (l : List α) : Prop := l.IsChain fun a b => ¬(a = sep ∧ b = sep)

theorem head?_squeeze (sep : α) (l : List α) : (squeeze sep l).head? = l.head? := by
  induction l with
  | nil => rfl
  | cons a l ih =>
    unfold squeeze
    split
    · next h => rw [ih, h.2, h.1, List.head?_cons]
    · rfl

theorem single_squeeze (sep : α) (l : List α) : Single sep (squeeze sep l) := by
  induction l with
  | nil => exact .nil
  | cons a l ih =>
    unfold squeeze
    split
    · exact ih
    · next h =>
      refine List.isChain_cons.2 ⟨fun b hb hab => h ⟨hab.1, ?_⟩, ih⟩
      rw [head?_squeeze] at hb
      rw [← hab.2]
      exact hb

omit [DecidableEq α] in
theorem single_of_not_mem (h : sep ∉ l) : Single sep l := by
  induction l with
  | nil => exact .nil
  | cons a l ih =>
    rw [List.mem_cons, not_or] at h
    exact List.isChain_cons.2 ⟨fun b _ hab => h.1 hab.1.symm, ih h.2⟩

theorem squeeze_eq_self (h : Single sep l) : squeeze sep l = l := by
  induction l with
  | nil => rfl
  | cons a l ih =>
    obtain ⟨hhead, htail⟩ := List.isChain_cons.1 h
    rw [squeeze, if_neg fun hrun => hhead sep hrun.2 ⟨hrun.1, rfl⟩, ih htail]

theorem mem_of_mem_squeeze {a : α} (h : a ∈ squeeze sep l) : a ∈ l := by
  induction l with
  | nil => exact h
  | cons b l ih =>
    rw [squeeze] at h
    split at h
    · exact List.mem_cons_of_mem _ (ih h)
    · exact List.mem_cons.2 ((List.mem_cons.1 h).imp_right ih)

theorem map_squeeze {f : α → β} {sep' : β} (hf : ∀ a, f a = sep' ↔ a = sep) (l : List α) :
    (squeeze sep l).map f = squeeze sep' (l.map f) := by
  induction l with
  | nil => rfl
  | cons a l ih =>
    have hhead : (l.map f).head? = some sep' ↔ l.head? = some sep := by
      rw [List.head?_map]
      cases l.head? with
      | none => simp
      | some b => simp [hf]
    simp only [squeeze, List.map_cons, hf, hhead]
    split
    · exact ih
    · rw [List.map_cons, ih]

end Squeeze

end Rewrite

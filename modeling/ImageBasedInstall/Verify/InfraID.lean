import ImageBasedInstall.Controllers.InfraID
import ImageBasedInstall.Controllers.Reconciler

/-!
# Infra IDs are well formed

The prefix of an infra ID has a normal form, for every byte string it is made from: at most 21
bytes, letters, digits and single dashes, no dash at the end. Strings in that form are left as they
are. On valid UTF-8 the byte strings are those of the reconciler's texts.
-/

namespace ImageBasedInstall

namespace Raw

open Rewrite

/-- The form of the prefix of an infra ID. -/
structure WellFormed (name : List UInt8) : Prop where
  length : name.length ≤ maxBaseLen
  bytes : ∀ b ∈ name, isNameRune b.toNat = true
  single : Single dash name
  trimmed : name.getLast? ≠ some dash

theorem isNameRune_ascii {rune : Nat} (h : isNameRune rune = true) : rune < 0x80 := by
  simp [isNameRune, isAlphanum, dash] at h
  omega

theorem take_maxBaseLen (base : List UInt8) :
    (if base.length > maxBaseLen then base.take maxBaseLen else base) = base.take maxBaseLen := by
  split
  · rfl
  · next h => rw [List.take_of_length_le (Nat.le_of_not_lt h)]

/-- What is trimmed is what is left of the squeezed name. -/
theorem infraIDPrefix_initial (base : List UInt8) : infraIDPrefix base <+:
    (squeeze dash (replaceRunes (fun rune => !isNameRune rune) [dash] base)).take maxBaseLen := by
  rw [infraIDPrefix, take_maxBaseLen]
  exact List.rdropWhile_prefix ..

theorem infraIDPrefix_wellFormed (base : List UInt8) : WellFormed (infraIDPrefix base) := by
  have hpre := infraIDPrefix_initial base
  constructor
  · exact hpre.length_le.trans (List.length_take_le ..)
  · intro b hb
    have hmem := mem_of_mem_squeeze (List.mem_of_mem_take (hpre.subset hb))
    have hkind : ∀ rune, 0x80 ≤ rune → (!isNameRune rune) = true := by
      intro rune hrune
      rw [Bool.not_eq_true', Bool.eq_false_iff]
      exact fun h => absurd (isNameRune_ascii h) (Nat.not_lt.2 hrune)
    rcases mem_replaceFrom hkind hmem with hnew | ⟨-, hname⟩
    · obtain rfl : b = dash := by simpa using hnew
      decide
    · simpa using hname
  · exact List.IsChain.prefix (List.IsChain.take (single_squeeze dash _) _) hpre
  · by_cases hne : infraIDPrefix base = []
    · simp [hne]
    · rw [List.getLast?_eq_some_getLast hne]
      exact fun hlast => List.rdropWhile_last_not _ _ hne (beq_iff_eq.2 (Option.some.inj hlast))

/-- A name in the form is kept. -/
theorem infraIDPrefix_eq_self {base : List UInt8} (h : WellFormed base) :
    infraIDPrefix base = base := by
  have hreplace : replaceRunes (fun rune => !isNameRune rune) [dash] base = base :=
    replaceRunes_eq_self fun b hb => by
      have hname := h.bytes b hb
      exact ⟨UInt8.lt_iff_toNat_lt.2 (isNameRune_ascii hname), by simp [hname]⟩
  rw [infraIDPrefix, take_maxBaseLen, hreplace, squeeze_eq_self h.single,
    List.take_of_length_le h.length, List.rdropWhile_eq_self_iff]
  intro hne hdash
  refine h.trimmed ?_
  rw [List.getLast?_eq_some_getLast hne, beq_iff_eq.1 hdash]

/-- The suffix starts with no dash, and the prefix does not end in one. -/
theorem generateInfraID_single (base : List UInt8) {suffix : List UInt8}
    (hsuffix : ∀ b ∈ suffix, isAlphanum b.toNat = true) :
    Single dash (generateInfraID base suffix) := by
  have hnot : dash ∉ suffix := fun hmem => absurd (hsuffix dash hmem) (by decide)
  have hwf := infraIDPrefix_wellFormed base
  have htail : Single dash (dash :: suffix) := by
    refine List.isChain_cons.2 ⟨fun b hb hdash => hnot ?_, single_of_not_mem hnot⟩
    rw [← hdash.2]
    exact List.mem_of_mem_head? hb
  rw [generateInfraID, List.append_assoc, List.singleton_append]
  refine List.isChain_append.2 ⟨hwf.single, htail, fun a ha b _ hdash => hwf.trimmed ?_⟩
  rw [← hdash.1]
  exact ha

/-- For every base and every suffix of five letters and digits, the infra ID is the base in its
normal form, a dash and the suffix. -/
theorem infraID_wellFormed (base suffix : List UInt8) (hlength : suffix.length = 5)
    (hsuffix : ∀ b ∈ suffix, isAlphanum b.toNat = true) :
    generateInfraID base suffix = infraIDPrefix base ++ [dash] ++ suffix ∧
    WellFormed (infraIDPrefix base) ∧
    (generateInfraID base suffix).length ≤ 27 ∧
    Single dash (generateInfraID base suffix) ∧
    (WellFormed base → infraIDPrefix base = base) ∧
    infraIDPrefix (infraIDPrefix base) = infraIDPrefix base := by
  have hwf := infraIDPrefix_wellFormed base
  refine ⟨rfl, hwf, ?_, generateInfraID_single base hsuffix, infraIDPrefix_eq_self,
    infraIDPrefix_eq_self hwf⟩
  have hshort : (infraIDPrefix base).length ≤ 21 := hwf.length
  simp only [generateInfraID, List.length_append, List.length_singleton]
  omega

/-- A name that is too long, with a byte that is not UTF-8: the cut falls into a run of dashes. -/
theorem infraID_wellFormed_sample :
    let base := utf8 "cluster_with.a--long---name".toList ++ [0xFF]
    let suffix := utf8 "x7k2p".toList
    Single dash (generateInfraID base suffix) ∧ (generateInfraID base suffix).length ≤ 27 := by
  intro base suffix
  obtain ⟨-, -, hlength, hsingle, -⟩ :=
    infraID_wellFormed base suffix (by decide +kernel) (by decide +kernel)
  exact ⟨hsingle, hlength⟩

end Raw

/-! ## The reconciler's texts -/

open Rewrite

theorem squeezeDashes_eq (cs : List Char) : squeezeDashes cs = squeeze '-' cs := by
  fun_induction squeezeDashes cs with
  | case1 cs ih => rw [squeeze, if_pos ⟨rfl, rfl⟩, ih]
  | case2 c cs hnot ih =>
    have hsingle : ¬(c = '-' ∧ cs.head? = some '-') := by
      rintro ⟨rfl, hhead⟩
      obtain ⟨cs', rfl⟩ := List.head?_eq_some_iff.1 hhead
      exact hnot cs' rfl rfl
    rw [squeeze, if_neg hsingle, ih]
  | case3 => rfl

theorem toNat_eq_dash (c : Char) : c.toNat = Raw.dash.toNat ↔ c = '-' :=
  ⟨fun h => Char.toNat_inj.1 h, fun h => h ▸ rfl⟩

/-- The two readings of a character agree. -/
theorem isNameRune_toNat (c : Char) : Raw.isNameRune c.toNat = (c.isAlphanum || c == '-') := by
  have hdash : (c.toNat == Raw.dash.toNat) = (c == '-') := by
    rw [Bool.eq_iff_iff, beq_iff_eq, beq_iff_eq, toNat_eq_dash]
  have halnum : Raw.isAlphanum c.toNat = c.isAlphanum := by
    simp [Raw.isAlphanum, Char.isAlphanum, Char.isAlpha, Char.isUpper, Char.isLower, Char.isDigit,
      UInt32.le_iff_toNat_le]
  rw [Raw.isNameRune, hdash, halnum]

theorem rdropWhile_map {α β : Type} (f : α → β) (p : β → Bool) (l : List α) :
    (l.map f).rdropWhile p = (l.rdropWhile fun a => p (f a)).map f := by
  simp [List.rdropWhile, ← List.map_reverse, List.dropWhile_map, Function.comp_def]

theorem ascii_eq_dash (b : UInt8) : ascii b = '-' ↔ b = Raw.dash := by
  rw [← toNat_eq_dash, toNat_ascii, UInt8.toNat_inj]

theorem toList_infraIDPrefix (base : String) :
    (infraIDPrefix base).toList = (Raw.infraIDPrefix (utf8 base.toList)).map ascii := by
  let cs := base.toList.map fun c => if c.isAlphanum || c == '-' then c else '-'
  have hreplace : replaceRunes (fun rune => !Raw.isNameRune rune) [Raw.dash] (utf8 base.toList) =
      utf8 cs := by
    refine (replaceRunes_utf8 '-' base.toList).trans ?_
    simp only [isNameRune_toNat, cs]
    congr 2
    funext c
    cases c.isAlphanum || c == '-' <;> rfl
  have hascii : ∀ c ∈ cs, c.toNat < 0x80 := by
    intro c hc
    obtain ⟨d, -, rfl⟩ := List.mem_map.1 hc
    split
    · next hd => exact Raw.isNameRune_ascii ((isNameRune_toNat d).trans hd)
    · decide
  have hdash : ∀ b, (ascii b == '-') = (b == Raw.dash) := fun b => by
    rw [Bool.eq_iff_iff, beq_iff_eq, beq_iff_eq, ascii_eq_dash]
  rw [Raw.infraIDPrefix, Raw.take_maxBaseLen, hreplace]
  calc (infraIDPrefix base).toList
      = ((squeeze '-' cs).take 21).rdropWhile (· == '-') := by
        rw [← squeezeDashes_eq, infraIDPrefix, String.toList_ofList, List.rdropWhile]
    _ = (((squeeze Raw.dash (utf8 cs)).take 21).map ascii).rdropWhile (· == '-') := by
        rw [List.map_take, map_squeeze ascii_eq_dash, map_ascii_utf8 hascii]
    _ = (((squeeze Raw.dash (utf8 cs)).take 21).rdropWhile (· == Raw.dash)).map ascii := by
        rw [rdropWhile_map]
        simp only [hdash]

/-- The reconciler's texts are the byte strings of the source. -/
theorem utf8_infraIDPrefix (base : String) :
    utf8 (infraIDPrefix base).toList = Raw.infraIDPrefix (utf8 base.toList) := by
  have hwf := Raw.infraIDPrefix_wellFormed (utf8 base.toList)
  rw [toList_infraIDPrefix, utf8_map_ascii fun b hb =>
    UInt8.lt_iff_toNat_lt.2 (Raw.isNameRune_ascii (hwf.bytes b hb))]

/-- The ID the reconciler draws. -/
theorem generateInfraID_exec {B : Type} (base : String) (c : Choice B) (w : World B) :
    ∃ id, (generateInfraID base).exec answer [c] w = (w, some id) ∧
      utf8 id.toList = Raw.generateInfraID (utf8 base.toList) (utf8 c.suffix.toList) := by
  refine ⟨infraIDPrefix base ++ "-" ++ c.suffix, rfl, ?_⟩
  have hdash : utf8 "-".toList = [Raw.dash] := by decide
  rw [Raw.generateInfraID, ← utf8_infraIDPrefix, ← hdash]
  simp only [utf8, String.toList_append, List.flatMap_append]

end ImageBasedInstall

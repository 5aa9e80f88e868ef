/-
  Boot options — the text of a GUID.

  The text shows the bytes of a GUID in another order than memory has them: its
  first three groups are numbers, and their low byte comes first in memory.  Read
  back as what they are, the groups give all bytes again.

  * `Hex.zeroPadded w n`: the digits of `n`, with zeros in front up to `w` of them;
    `Hex.fixed_lower_eq`: the low digits of a number that has no others are these.
  * `octet_number`: the bytes of a number are those it was made of; hence
    `ofFields_data`, a GUID is that of its fields.
  * `ofGroups?`: a GUID read from groups of digits; `ofGroups?_groups`.
  * `text_faithful`: the text of a GUID tells it from all others.
-/
import Mathlib.Data.List.Induction
import BootOptions.Proofs.Digits

namespace BootOptions

namespace Hex

/-! ## Digits in lower case -/

/-- The digits that are written in lower case. -/
def lowerDigits : List Char := "0123456789abcdef".toList

/-- The digits of a number, with zeros in front if there are fewer than `w`. -/
def zeroPadded (w n : Nat) : List Char := (Nat.toDigits 16 n).leftpad w '0'

theorem digit_lower_eq : ∀ d < 16, digit .lower d = d.digitChar := by decide

theorem digit_lower_mem : ∀ d < 16, digit .lower d ∈ lowerDigits := by decide

theorem fixed_lower_zero (w : Nat) : fixed .lower w 0 = List.replicate w '0' := by
  induction w with
  | zero => rfl
  | succ w ih => rw [fixed, Nat.zero_div, ih, List.replicate_succ']; rfl

/-- The low digits of a number without others are all its digits. -/
theorem fixed_lower_eq {w n : Nat} (h : n < 16 ^ (w + 1)) :
    fixed .lower (w + 1) n = zeroPadded (w + 1) n := by
  induction w generalizing n with
  | zero =>
    have hn : n < 16 := h
    rw [fixed, zeroPadded, Nat.toDigits_of_lt_base hn, Nat.mod_eq_of_lt hn, digit_lower_eq n hn]
    rfl
  | succ w ih =>
    have hd := digit_lower_eq (n % 16) (Nat.mod_lt n (by decide))
    rw [fixed, hd]
    by_cases hn : n < 16
    · rw [Nat.div_eq_of_lt hn, fixed_lower_zero, zeroPadded, Nat.toDigits_of_lt_base hn,
        Nat.mod_eq_of_lt hn]
      rfl
    · have hrest : n / 16 < 16 ^ (w + 1) := Nat.div_lt_of_lt_mul (by rwa [Nat.pow_succ'] at h)
      rw [ih hrest, zeroPadded, zeroPadded, Nat.toDigits_of_base_le (by decide) (Nat.le_of_not_lt hn),
        List.leftpad, List.leftpad, List.length_append, List.length_singleton,
        Nat.add_sub_add_right, List.append_assoc]

theorem mem_fixed_lower {c : Char} {w n : Nat} (h : c ∈ fixed .lower w n) : c ∈ lowerDigits := by
  induction w generalizing n with
  | zero => exact absurd h List.not_mem_nil
  | succ w ih =>
    rcases List.mem_append.1 h with h | h
    · exact ih h
    · rw [List.mem_singleton.1 h]
      exact digit_lower_mem _ (Nat.mod_lt n (by decide))

end Hex

namespace Guid

/-! ## Bytes of numbers -/

theorem number_concat (bytes : List UInt8) (b : UInt8) :
    number (bytes ++ [b]) = 256 * number bytes + b.toNat := by
  simp [number]

theorem number_lt (bytes : List UInt8) : number bytes < 256 ^ bytes.length := by
  induction bytes using List.reverseRecOn with
  | nil => decide
  | append_singleton bytes b ih =>
    have := b.toNat_lt
    rw [number_concat, List.length_append, List.length_singleton, Nat.pow_succ]
    omega

theorem toNat_octet (n i : Nat) : (octet n i).toNat = n / 256 ^ i % 256 := by
  rw [octet, UInt8.toNat_ofNat', Nat.shiftRight_eq_div_pow, Nat.pow_mul]

/-- The bytes of a number, the low one first, are those it is made of. -/
theorem octet_number {bytes : List UInt8} {b : UInt8} {i : Nat} (h : bytes.reverse[i]? = some b) :
    octet (number bytes) i = b := by
  induction bytes using List.reverseRecOn generalizing i with
  | nil => exact nomatch h
  | append_singleton bytes x ih =>
    have := x.toNat_lt
    rw [List.reverse_append, List.reverse_singleton, List.singleton_append] at h
    rw [← UInt8.toNat_inj, toNat_octet, number_concat]
    cases i with
    | zero =>
      cases h
      omega
    | succ i =>
      rw [← ih h, toNat_octet, Nat.pow_succ', ← Nat.div_div_eq_div_mul]
      congr 2
      omega

theorem octet_succ (n i : Nat) : octet n (i + 1) = octet (n / 256) i := by
  rw [← UInt8.toNat_inj, toNat_octet, toNat_octet, Nat.pow_succ', Nat.div_div_eq_div_mul]

/-- The low bytes of a number make it up. -/
theorem number_octets (k n : Nat) : number ((List.range k).reverse.map (octet n)) = n % 256 ^ k := by
  induction k generalizing n with
  | zero => rw [Nat.pow_zero, Nat.mod_one]; rfl
  | succ k ih =>
    have hmap : ((List.range k).map Nat.succ).reverse.map (octet n) =
        (List.range k).reverse.map (octet (n / 256)) := by
      rw [← List.map_reverse, List.map_map]
      exact List.map_congr_left fun i _ => octet_succ n i
    rw [List.range_succ_eq_map, List.reverse_cons, List.map_append, List.map_singleton, hmap,
      number_concat, ih, toNat_octet, Nat.pow_zero, Nat.div_one, Nat.pow_succ', Nat.mod_mul]
    omega

/-! ## Fields -/

theorem data1_lt (g : Guid) : g.data1 < 16 ^ 8 := by
  have h : g.data1 < 256 ^ 4 := number_lt _
  omega

theorem data2_lt (g : Guid) : g.data2 < 16 ^ 4 := by
  have h : g.data2 < 256 ^ 2 := number_lt _
  omega

theorem data3_lt (g : Guid) : g.data3 < 16 ^ 4 := by
  have h : g.data3 < 256 ^ 2 := number_lt _
  omega

/-- **A GUID is that of its fields.** -/
theorem ofFields_data (g : Guid) :
    ofFields (.ofNat g.data1) (.ofNat g.data2) (.ofNat g.data3) g.rest = g := by
  have h₁ : (UInt32.ofNat g.data1).toNat = g.data1 :=
    UInt32.toNat_ofNat_of_lt' (by simpa using g.data1_lt)
  have h₂ : (UInt16.ofNat g.data2).toNat = g.data2 :=
    UInt16.toNat_ofNat_of_lt' (by simpa using g.data2_lt)
  have h₃ : (UInt16.ofNat g.data3).toNat = g.data3 :=
    UInt16.toNat_ofNat_of_lt' (by simpa using g.data3_lt)
  have h : ∀ i (hi : i < 16),
      (ofFields (.ofNat g.data1) (.ofNat g.data2) (.ofNat g.data3) g.rest).bytes[i] = g.bytes[i] := by
    intro i hi
    match i with
    | 0 | 1 | 2 | 3 => exact (congrArg (octet · _) h₁).trans (octet_number rfl)
    | 4 | 5 => exact (congrArg (octet · _) h₂).trans (octet_number rfl)
    | 6 | 7 => exact (congrArg (octet · _) h₃).trans (octet_number rfl)
    | 8 | 9 | 10 | 11 | 12 | 13 | 14 | 15 => rfl
    | i + 16 => omega
  exact congrArg Guid.mk (Vector.ext h)

section

variable (d₁ : UInt32) (d₂ d₃ : UInt16) (r : Vector UInt8 8)

theorem data1_ofFields : (ofFields d₁ d₂ d₃ r).data1 = d₁.toNat := by
  have h : d₁.toNat < 256 ^ 4 := d₁.toNat_lt
  exact (number_octets 4 d₁.toNat).trans (Nat.mod_eq_of_lt h)

theorem data2_ofFields : (ofFields d₁ d₂ d₃ r).data2 = d₂.toNat := by
  have h : d₂.toNat < 256 ^ 2 := d₂.toNat_lt
  exact (number_octets 2 d₂.toNat).trans (Nat.mod_eq_of_lt h)

theorem data3_ofFields : (ofFields d₁ d₂ d₃ r).data3 = d₃.toNat := by
  have h : d₃.toNat < 256 ^ 2 := d₃.toNat_lt
  exact (number_octets 2 d₃.toNat).trans (Nat.mod_eq_of_lt h)

theorem rest_ofFields : (ofFields d₁ d₂ d₃ r).rest = r := by
  refine Vector.ext fun i hi => ?_
  match i with
  | 0 | 1 | 2 | 3 | 4 | 5 | 6 | 7 => rfl
  | i + 8 => omega

end

/-! ## Groups of digits -/

theorem hexBytes_append (bs cs : List UInt8) : hexBytes (bs ++ cs) = hexBytes bs ++ hexBytes cs :=
  List.flatMap_append

/-- Byte by byte, from the high one on, a number is written as a whole. -/
theorem hexBytes_eq_fixed (bytes : List UInt8) :
    hexBytes bytes = Hex.fixed .lower (2 * bytes.length) (number bytes) := by
  induction bytes using List.reverseRecOn with
  | nil => rfl
  | append_singleton bytes b ih =>
    have := b.toNat_lt
    have hrest : number (bytes ++ [b]) / 16 / 16 = number bytes := by rw [number_concat]; omega
    have hhigh : number (bytes ++ [b]) / 16 % 16 = b.toNat / 16 % 16 := by rw [number_concat]; omega
    have hlow : number (bytes ++ [b]) % 16 = b.toNat % 16 := by rw [number_concat]; omega
    rw [hexBytes_append, ih, List.length_append, List.length_singleton, Nat.mul_add]
    simp only [Hex.fixed, hrest, hhigh, hlow, hexBytes, List.flatMap_cons,
      List.flatMap_nil, List.append_assoc, List.nil_append, List.append_nil]

theorem hexBytes_eq_zeroPadded (bytes : List UInt8) :
    hexBytes bytes = bytes.flatMap fun b => Hex.zeroPadded 2 b.toNat := by
  unfold hexBytes
  congr 1
  funext b
  exact Hex.fixed_lower_eq b.toNat_lt

theorem groups_eq_shown (g : Guid) : g.groups = g.shown.map hexBytes := by
  simp only [shown, List.map_cons, List.map_nil, hexBytes_eq_fixed [g.bytes[3], _, _, _],
    hexBytes_eq_fixed [g.bytes[5], _], hexBytes_eq_fixed [g.bytes[7], _]]
  rfl

theorem mem_groups {g : Guid} {ds : List Char} {d : Char} (hs : ds ∈ g.groups) (hd : d ∈ ds) :
    d ∈ Hex.lowerDigits := by
  rw [groups_eq_shown] at hs
  obtain ⟨bytes, -, rfl⟩ := List.mem_map.1 hs
  obtain ⟨b, -, hb⟩ := List.mem_flatMap.1 hd
  exact Hex.mem_fixed_lower hb

theorem map_length_groups (g : Guid) : g.groups.map List.length = [8, 4, 4, 4, 12] := by
  simp [groups]

/-! ## Reading -/

/-- The bytes of pairs of digits. -/
def bytesOf? : List Char → Option (List UInt8)
  | [] => some []
  | [_] => none
  | c :: d :: cs => do
    let n ← Hex.read? [c.toNat, d.toNat]
    let bytes ← bytesOf? cs
    return .ofNat n :: bytes

/-- The GUID of five groups of digits: three numbers, and eight bytes in memory
    order. -/
def ofGroups? : List (List Char) → Option Guid
  | [a, b, c, d, e] => do
    let data1 ← Hex.read? (a.map Char.toNat)
    let data2 ← Hex.read? (b.map Char.toNat)
    let data3 ← Hex.read? (c.map Char.toNat)
    let rest ← bytesOf? (d ++ e)
    if h : rest.length = 8 then
      some (ofFields (.ofNat data1) (.ofNat data2) (.ofNat data3) ⟨rest.toArray, by simpa using h⟩)
    else none
  | _ => none

theorem bytesOf?_hexBytes (bytes : List UInt8) : bytesOf? (hexBytes bytes) = some bytes := by
  induction bytes with
  | nil => rfl
  | cons b bytes ih =>
    obtain ⟨c, d, hcd⟩ : ∃ c d, Hex.fixed .lower 2 b.toNat = [c, d] := ⟨_, _, rfl⟩
    have hb : Hex.read? [c.toNat, d.toNat] = some b.toNat := by
      have h := Hex.read?_fixed .lower (w := 2) b.toNat_lt
      rwa [hcd] at h
    have hs : hexBytes (b :: bytes) = c :: d :: hexBytes bytes := by
      rw [hexBytes, List.flatMap_cons, hcd]
      rfl
    rw [hs, bytesOf?, hb, Option.bind_eq_bind, Option.bind_some, ih, Option.bind_eq_bind,
      Option.bind_some, UInt8.ofNat_toNat]
    rfl

/-- **The groups of a GUID are read as that GUID.** -/
theorem ofGroups?_groups (g : Guid) : ofGroups? g.groups = some g := by
  simp only [groups, ofGroups?, Hex.read?_fixed _ g.data1_lt, Hex.read?_fixed _ g.data2_lt,
    Hex.read?_fixed _ g.data3_lt, ← hexBytes_append, bytesOf?_hexBytes]
  exact congrArg some g.ofFields_data

/-! ## The text -/

variable {g h : Guid}

theorem toList_text (hg : g ≠ global) : g.text.toList = List.intercalate ['-'] g.groups := by
  rw [text, if_neg hg, String.toList_ofList]

theorem length_text (hg : g ≠ global) : g.text.length = 36 := by
  rw [← String.length_toList, toList_text hg]
  simp [groups, List.intercalate]

/-- The dashes of the text are those between its groups. -/
theorem splitOn_text (hg : g ≠ global) : g.text.toList.splitOn '-' = g.groups := by
  rw [toList_text hg]
  refine List.splitOn_intercalate '-' ?_ (by simp [groups])
  intro ds hs hd
  exact absurd (mem_groups hs hd) (by decide)

theorem text_eq_global_iff : g.text = "EFI_GLOBAL_VARIABLE" ↔ g = global := by
  constructor
  · intro ht
    by_contra hg
    have hl := length_text hg
    rw [ht] at hl
    exact absurd hl (by decide)
  · intro hg
    rw [text, if_pos hg]

/-- Two GUIDs have the same text only if they are the same. -/
theorem text_inj : g.text = h.text ↔ g = h := by
  refine ⟨fun ht => ?_, congrArg text⟩
  by_cases hg : g = global
  · exact hg.trans (text_eq_global_iff.1 (ht ▸ text_eq_global_iff.2 hg)).symm
  · have hh : h ≠ global := fun hh => hg (text_eq_global_iff.1 (ht ▸ text_eq_global_iff.2 hh))
    have hr : ofGroups? g.groups = ofGroups? h.groups := by
      rw [← splitOn_text hg, ← splitOn_text hh, ht]
    rwa [ofGroups?_groups, ofGroups?_groups, Option.some.injEq] at hr

/-- The groups of the GUID with the given fields. -/
theorem groups_ofFields (d₁ : UInt32) (d₂ d₃ : UInt16) (r : Vector UInt8 8) :
    (ofFields d₁ d₂ d₃ r).groups =
      [Hex.zeroPadded 8 d₁.toNat, Hex.zeroPadded 4 d₂.toNat, Hex.zeroPadded 4 d₃.toNat,
        (r.toList.take 2).flatMap fun b => Hex.zeroPadded 2 b.toNat,
        (r.toList.drop 2).flatMap fun b => Hex.zeroPadded 2 b.toNat] := by
  have hlast : ∀ g : Guid, g.groups = [Hex.fixed .lower 8 g.data1, Hex.fixed .lower 4 g.data2,
      Hex.fixed .lower 4 g.data3, hexBytes (g.rest.toList.take 2), hexBytes (g.rest.toList.drop 2)] :=
    fun _ => rfl
  rw [hlast, data1_ofFields, data2_ofFields, data3_ofFields, rest_ofFields,
    Hex.fixed_lower_eq d₁.toNat_lt, Hex.fixed_lower_eq d₂.toNat_lt, Hex.fixed_lower_eq d₃.toNat_lt,
    hexBytes_eq_zeroPadded, hexBytes_eq_zeroPadded]

/-- **The text of a GUID is faithful.**  But for the global namespace, which has a name,
    it consists of 36 characters, the digits of the bytes in the order shown; between its
    dashes stand the usual five groups, which are read as the GUID again and are the
    digits of its fields.  No two GUIDs share a text. -/
theorem text_faithful :
    (∀ g, g ≠ global → g.text.length = 36 ∧
      g.text.toList = List.intercalate ['-'] (g.shown.map hexBytes) ∧
      (g.text.toList.splitOn '-').map List.length = [8, 4, 4, 4, 12] ∧
      (∀ ds ∈ g.text.toList.splitOn '-', ∀ d ∈ ds, d ∈ Hex.lowerDigits) ∧
      ofGroups? (g.text.toList.splitOn '-') = some g) ∧
    (∀ d₁ d₂ d₃ r, ofFields d₁ d₂ d₃ r ≠ global →
      (ofFields d₁ d₂ d₃ r).text.toList = List.intercalate ['-']
        [Hex.zeroPadded 8 d₁.toNat, Hex.zeroPadded 4 d₂.toNat, Hex.zeroPadded 4 d₃.toNat,
          (r.toList.take 2).flatMap fun b => Hex.zeroPadded 2 b.toNat,
          (r.toList.drop 2).flatMap fun b => Hex.zeroPadded 2 b.toNat]) ∧
    (∀ g, g.text = "EFI_GLOBAL_VARIABLE" ↔ g = global) ∧
    ∀ g h : Guid, g.text = h.text ↔ g = h := by
  refine ⟨?_, ?_, fun _ => text_eq_global_iff, fun _ _ => text_inj⟩
  · intro g hg
    rw [splitOn_text hg, ← groups_eq_shown]
    exact ⟨length_text hg, toList_text hg, g.map_length_groups, fun _ hs _ hd => mem_groups hs hd,
      ofGroups?_groups g⟩
  · intro d₁ d₂ d₃ r hg
    rw [toList_text hg, groups_ofFields]

/-- A GUID with zeros in front of its numbers and of its bytes. -/
def sparse : Guid := ofFields 0x00B2CB 0x03 0x4596 #v[0xA3, 0x0C, 0x0A, 0, 0x0E, 0x67, 0x65, 0x6F]

theorem text_faithful_sparse :
    sparse ≠ global ∧ sparse.text = "0000b2cb-0003-4596-a30c-0a000e67656f" ∧
    ofGroups? (sparse.text.toList.splitOn '-') = some sparse := by
  have hg : sparse ≠ global := by decide
  obtain ⟨hshape, hfields, -, -⟩ := text_faithful
  refine ⟨hg, ?_, (hshape sparse hg).2.2.2.2⟩
  rw [← String.toList_inj]
  exact (hfields _ _ _ _ hg).trans (by decide)

end Guid

end BootOptions

import Mathlib.Data.List.Basic
import WarehouseLoader.Http.Percent

/-!
# Encoding is seen through by decoding

A segment of a path is percent-encoded where it has to be, and a percent sign
is left alone. So decoding what was encoded gives what decoding the text itself
gives (`percentDecode_percentEncode`): the text's own bytes, unless there is a
complete percent form in the text from the start.

A percent form is three characters for one byte, so decoding makes a text
shorter or leaves it as it is (`percentDecode_literal_or_shorter`). A text that
is not longer than what it decodes to is that text (`eq_of_percentDecode`).
-/

namespace WarehouseLoader.Http

/-- There is a percent sign with two hexadecimal digits behind it. -/
def HoldsForm (cs : List Char) : Prop :=
  ∃ a b before after, cs = before ++ '%' :: a :: b :: after ∧
    hexValue? a ≠ none ∧ hexValue? b ≠ none

/-- The character does not start a percent form in front of the rest. -/
def NoForm (c : Char) (rest : List Char) : Prop :=
  ∀ a b more, c = '%' → rest = a :: b :: more → hexValue? a = none ∨ hexValue? b = none

/-- How many bytes a text has. -/
def byteLength (cs : List Char) : Nat := (Text.utf8 (String.ofList cs)).length

/-- A character as it is sent, its bytes one after the other. -/
def encodeChar (reserved : Char → Bool) (c : Char) : List Char :=
  (String.utf8EncodeChar c).flatMap (encodeByte reserved)

variable {cs cs' : List Char} {reserved : Char → Bool}

/-! ### The bytes of a text -/

theorem utf8_ofList (cs : List Char) :
    Text.utf8 (String.ofList cs) = cs.flatMap String.utf8EncodeChar := by
  rw [Text.utf8, String.toList_ofList]

theorem utf8_append (cs cs' : List Char) :
    Text.utf8 (String.ofList (cs ++ cs')) =
      Text.utf8 (String.ofList cs) ++ Text.utf8 (String.ofList cs') := by
  simp only [utf8_ofList, List.flatMap_append]

theorem utf8_injective {s t : String} (h : Text.utf8 s = Text.utf8 t) : s = t := by
  have hbytes (s : String) : s.toByteArray = (Text.utf8 s).toByteArray := by
    rw [Text.utf8, ← String.ofList_toList (s := s), String.toByteArray_ofList,
      String.toList_ofList]
    rfl
  rw [← String.toByteArray_inj, hbytes, hbytes, h]

theorem length_utf8EncodeChar_pos (c : Char) : 0 < (String.utf8EncodeChar c).length := by
  rw [String.length_utf8EncodeChar]
  exact c.utf8Size_pos

theorem byteLength_cons (c : Char) (cs : List Char) :
    byteLength (c :: cs) = (String.utf8EncodeChar c).length + byteLength cs := by
  rw [byteLength, byteLength, utf8_ofList, utf8_ofList, List.flatMap_cons,
    List.length_append]

theorem byteLength_append (cs cs' : List Char) :
    byteLength (cs ++ cs') = byteLength cs + byteLength cs' := by
  rw [byteLength, utf8_append, List.length_append, byteLength, byteLength]

theorem byteLength_le (h : cs.Sublist cs') : byteLength cs ≤ byteLength cs' := by
  induction h with
  | slnil => exact Nat.le_refl _
  | cons c _ ih =>
      rw [byteLength_cons]
      omega
  | cons_cons c _ ih =>
      rw [byteLength_cons, byteLength_cons]
      omega

theorem byteLength_toList (s : String) : byteLength s.toList = (Text.utf8 s).length := by
  rw [byteLength, String.ofList_toList]

theorem utf8EncodeChar_cases (c : Char) :
    (c.toNat ≤ 127 ∧ String.utf8EncodeChar c = [UInt8.ofNat c.toNat]) ∨
      127 < c.toNat ∧ ∀ b ∈ String.utf8EncodeChar c, 127 < b.toNat := by
  have hbyte {n : Nat} (hlow : 127 < n) (hhigh : n < 256) : 127 <
      (UInt8.ofNat n).toNat := by
    rw [UInt8.toNat_ofNat', Nat.mod_eq_of_lt hhigh]
    exact hlow
  have hval : c.val.toNat = c.toNat := rfl
  rw [String.utf8EncodeChar, hval]
  by_cases hascii : c.toNat ≤ 127
  · exact .inl ⟨hascii, if_pos hascii⟩
  · refine .inr ⟨by omega, ?_⟩
    simp only [if_neg hascii]
    intro b hb
    split at hb
    · simp only [List.mem_cons, List.not_mem_nil, or_false] at hb
      rcases hb with rfl | rfl <;> exact hbyte (by omega) (by omega)
    · split at hb
      · simp only [List.mem_cons, List.not_mem_nil, or_false] at hb
        rcases hb with rfl | rfl | rfl <;> exact hbyte (by omega) (by omega)
      · simp only [List.mem_cons, List.not_mem_nil, or_false] at hb
        rcases hb with rfl | rfl | rfl | rfl <;> exact hbyte (by omega) (by omega)

/-! ### One character -/

theorem hexValue?_hexDigit {n : Nat} (h : n < 16) : hexValue? (hexDigit n) = some n := by
  have hall : ∀ n : Fin 16, hexValue? (hexDigit n) = some n.val := by decide
  exact hall ⟨n, h⟩

theorem percentDecode_form {a b : Char} {x y : Nat} (ha : hexValue? a = some x)
    (hb : hexValue? b = some y) (rest : List Char) :
    percentDecode ('%' :: a :: b :: rest) =
      UInt8.ofNat (16 * x + y) :: percentDecode rest := by
  rw [percentDecode]
  simp only [ha, hb]

theorem percentDecode_percentByte (b : UInt8) (rest : List Char) :
    percentDecode (percentByte b ++ rest) = b :: percentDecode rest := by
  have hb : b.toNat < 256 := b.toNat_lt
  have hhigh := hexValue?_hexDigit (show b.toNat / 16 < 16 by omega)
  have hlow := hexValue?_hexDigit (show b.toNat % 16 < 16 by omega)
  rw [percentByte, List.cons_append, List.cons_append, List.cons_append, List.nil_append,
    percentDecode_form hhigh hlow, Nat.div_add_mod, UInt8.ofNat_toNat]

theorem percentDecode_cons {c : Char} {rest : List Char} (h : NoForm c rest) :
    percentDecode (c :: rest) = Text.utf8 (String.ofList [c]) ++ percentDecode rest := by
  rw [percentDecode.eq_def]
  split
  · next heq => cases heq
  · next a b more heq =>
      cases heq
      rcases h a b more rfl rfl with ha | hb
      · simp only [ha]
      · cases hexValue? a <;> simp only [hb]
  · next heq =>
      cases heq
      rfl

/-- A text goes on by a percent form or by a character that starts none. -/
theorem form_induction {motive : List Char → Prop} (nil : motive [])
    (form : ∀ a b rest, hexValue? a ≠ none → hexValue? b ≠ none → motive rest →
      motive ('%' :: a :: b :: rest))
    (char : ∀ c rest, NoForm c rest → motive rest → motive (c :: rest)) (cs : List Char) :
    motive cs := by
  induction cs using percentDecode.induct with
  | case1 => exact nil
  | case2 a b rest x y hb ha ih => exact form a b rest (by simp [ha]) (by simp [hb]) ih
  | case3 a b rest hnone ih =>
      refine char _ _ ?_ ih
      rintro a' b' rest' - heq
      cases heq
      cases ha : hexValue? a with
      | none => exact .inl rfl
      | some x => exact .inr (Option.eq_none_iff_forall_ne_some.mpr fun y => hnone x y ha)
  | case4 c rest hother ih =>
      exact char _ _ (fun a b more hc hrest => absurd hrest (hother a b more hc)) ih

theorem percentDecode_percentBytes (bs : List UInt8) (rest : List Char) :
    percentDecode (bs.flatMap percentByte ++ rest) = bs ++ percentDecode rest := by
  induction bs with
  | nil => rfl
  | cons b bs ih =>
      rw [List.flatMap_cons, List.append_assoc, percentDecode_percentByte,
        ih, List.cons_append]

theorem encodeChar_of_kept {c : Char} (hlow : 0x20 ≤ c.toNat) (hhigh : c.toNat ≤ 0x7E)
    (hkept : reserved c = false) : encodeChar reserved c = [c] := by
  have hone : String.utf8EncodeChar c = [UInt8.ofNat c.toNat] := by
    rcases utf8EncodeChar_cases c with ⟨-, hone⟩ | ⟨hfar, -⟩
    · exact hone
    · omega
  have hbyte : (UInt8.ofNat c.toNat).toNat = c.toNat := by
    rw [UInt8.toNat_ofNat', Nat.mod_eq_of_lt (by omega)]
  rw [encodeChar, hone, List.flatMap_singleton, encodeByte]
  simp only [hbyte, Char.ofNat_toNat, hkept]
  rw [if_neg (by simp; omega)]

/-- A character is left as it is, or all of its bytes are encoded. -/
theorem encodeChar_cases (reserved : Char → Bool) (c : Char) :
    encodeChar reserved c = [c] ∨
      encodeChar reserved c = (String.utf8EncodeChar c).flatMap percentByte := by
  rcases utf8EncodeChar_cases c with ⟨hascii, hone⟩ | ⟨-, hfar⟩
  · have hbyte : (UInt8.ofNat c.toNat).toNat = c.toNat := by
      rw [UInt8.toNat_ofNat', Nat.mod_eq_of_lt (by omega)]
    rw [encodeChar, hone, List.flatMap_singleton, List.flatMap_singleton, encodeByte]
    simp only [hbyte, Char.ofNat_toNat]
    split
    · exact .inr rfl
    · exact .inl rfl
  · refine .inr (List.flatMap_congr fun b hb => ?_)
    have hb := hfar b hb
    rw [encodeByte]
    exact if_pos (by simp; omega)

theorem exists_encodeChar (reserved : Char → Bool) (c : Char) :
    encodeChar reserved c = [c] ∨ ∃ more, encodeChar reserved c = '%' :: more := by
  refine (encodeChar_cases reserved c).imp_right fun hall => ?_
  rw [hall]
  cases hbytes : String.utf8EncodeChar c with
  | nil => exact absurd (length_utf8EncodeChar_pos c) (by rw [hbytes]; simp)
  | cons b bs => exact ⟨_, rfl⟩

theorem hexValue?_percent : hexValue? '%' = none := by decide

/-- A hexadecimal digit is in front of the encoded text only if it is in front
of the text. -/
theorem exists_of_encoded_cons {c : Char} {rest : List Char} (hc : hexValue? c ≠ none)
    (h : cs.flatMap (encodeChar reserved) = c :: rest) :
    ∃ more, cs = c :: more ∧ rest = more.flatMap (encodeChar reserved) := by
  cases cs with
  | nil => cases h
  | cons first more =>
      rw [List.flatMap_cons] at h
      rcases exists_encodeChar reserved first with hfirst | ⟨tail, hfirst⟩
      · rw [hfirst] at h
        cases h
        exact ⟨more, rfl, rfl⟩
      · rw [hfirst] at h
        cases h
        exact absurd hexValue?_percent hc

theorem noForm_encoded {c : Char} (h : NoForm c cs) :
    NoForm c (cs.flatMap (encodeChar reserved)) := by
  intro a b rest hc hfront
  by_cases ha : hexValue? a = none
  · exact .inl ha
  · by_cases hb : hexValue? b = none
    · exact .inr hb
    · obtain ⟨more, hcs, hmore⟩ := exists_of_encoded_cons ha hfront
      obtain ⟨more', hmore', -⟩ := exists_of_encoded_cons hb hmore.symm
      exact h a b more' hc (by rw [hcs, hmore'])

theorem isHex_bounds {c : Char} (h : hexValue? c ≠ none) :
    0x30 ≤ c.toNat ∧ c.toNat ≤ 0x66 := by
  rw [hexValue?] at h
  split at h
  · next hdigit => exact ⟨hdigit.1, Nat.le_trans hdigit.2 (by decide)⟩
  · split at h
    · next hletter => exact ⟨Nat.le_trans (by decide) hletter.1, hletter.2⟩
    · split at h
      · next hletter =>
          exact ⟨Nat.le_trans (by decide) hletter.1, Nat.le_trans hletter.2 (by decide)⟩
      · exact absurd rfl h

/-! ### A whole text -/

theorem percentDecode_encoded (hpercent : reserved '%' = false)
    (hhex : ∀ c, hexValue? c ≠ none → reserved c = false) (cs : List Char) :
    percentDecode (cs.flatMap (encodeChar reserved)) = percentDecode cs := by
  have hdigit {c : Char} (h : hexValue? c ≠ none) : encodeChar reserved c = [c] := by
    obtain ⟨hlow, hhigh⟩ := isHex_bounds h
    exact encodeChar_of_kept (by omega) (by omega) (hhex c h)
  have hmark : encodeChar reserved '%' = ['%'] :=
    encodeChar_of_kept (by decide) (by decide) hpercent
  induction cs using form_induction with
  | nil => rfl
  | form a b rest ha hb ih =>
      obtain ⟨x, hx⟩ := Option.ne_none_iff_exists'.mp ha
      obtain ⟨y, hy⟩ := Option.ne_none_iff_exists'.mp hb
      rw [List.flatMap_cons, List.flatMap_cons, List.flatMap_cons, hmark,
        hdigit ha, hdigit hb, List.singleton_append, List.singleton_append,
        List.singleton_append, percentDecode_form hx hy, percentDecode_form hx hy, ih]
  | char c rest hnoForm ih =>
      rw [List.flatMap_cons, percentDecode_cons hnoForm]
      by_cases hc : c = '%'
      · -- What starts no form in the text starts none when the rest of it is encoded.
        subst hc
        rw [hmark, List.singleton_append, percentDecode_cons (noForm_encoded hnoForm), ih]
      · rcases encodeChar_cases reserved c with hone | hall
        · rw [hone, List.singleton_append, percentDecode_cons (noForm_encoded hnoForm), ih]
        · rw [hall, percentDecode_percentBytes, ih, utf8_ofList, List.flatMap_singleton]

theorem kept_of_isHex {c : Char} (h : hexValue? c ≠ none) : reservedInPath c = false := by
  rw [Bool.eq_false_iff]
  intro hreserved
  apply h
  simp only [reservedInPath, reservedInFragment, Bool.or_eq_true, beq_iff_eq] at hreserved
  rcases hreserved with ((((((((rfl | rfl) | rfl) | rfl) | hgrave) | rfl) | rfl) |
    rfl) | rfl)
  all_goals first | decide | skip
  rw [← Char.ofNat_toNat c, hgrave]
  decide

theorem percentDecode_percentEncode (cs : List Char) :
    percentDecode (percentEncode reservedInPath (String.ofList cs)).toList =
      percentDecode cs := by
  rw [percentEncode, String.toList_ofList, utf8_ofList, List.flatMap_assoc]
  exact percentDecode_encoded (by decide) (fun c hc => kept_of_isHex hc) cs

theorem holdsForm_cons {c : Char} {rest : List Char} (h : NoForm c rest) :
    HoldsForm (c :: rest) ↔ HoldsForm rest := by
  constructor
  · rintro ⟨a, b, before, after, hsplit, ha, hb⟩
    cases before with
    | nil =>
        cases hsplit
        rcases h a b after rfl rfl with hnone | hnone
        · exact absurd hnone ha
        · exact absurd hnone hb
    | cons first before =>
        cases hsplit
        exact ⟨a, b, before, after, rfl, ha, hb⟩
  · rintro ⟨a, b, before, after, rfl, ha, hb⟩
    exact ⟨a, b, c :: before, after, rfl, ha, hb⟩

theorem HoldsForm.append (h : HoldsForm cs) (back : List Char) :
    HoldsForm (cs ++ back) := by
  obtain ⟨a, b, before, after, rfl, ha, hb⟩ := h
  exact ⟨a, b, before, after ++ back, by simp, ha, hb⟩

/-- Each percent form makes a text shorter, and nothing else changes it. -/
theorem percentDecode_literal_or_shorter (cs : List Char) :
    (percentDecode cs = Text.utf8 (String.ofList cs) ∧ ¬HoldsForm cs) ∨
      ((percentDecode cs).length < byteLength cs ∧ HoldsForm cs) := by
  induction cs using form_induction with
  | nil => exact .inl ⟨rfl, by rintro ⟨a, b, before, after, hsplit, -⟩; simp at hsplit⟩
  | form a b rest ha hb ih =>
      refine .inr ⟨?_, a, b, [], rest, rfl, ha, hb⟩
      obtain ⟨x, hx⟩ := Option.ne_none_iff_exists'.mp ha
      obtain ⟨y, hy⟩ := Option.ne_none_iff_exists'.mp hb
      have hrest : (percentDecode rest).length ≤ byteLength rest := by
        rcases ih with ⟨heq, -⟩ | ⟨hlt, -⟩
        · exact Nat.le_of_eq (congrArg List.length heq)
        · exact Nat.le_of_lt hlt
      have hfirst := length_utf8EncodeChar_pos a
      have hsecond := length_utf8EncodeChar_pos b
      rw [byteLength_cons, byteLength_cons, byteLength_cons, percentDecode_form hx hy,
        List.length_cons]
      omega
  | char c rest hnoForm ih =>
      have hbytes := utf8_append [c] rest
      rw [List.singleton_append] at hbytes
      rw [percentDecode_cons hnoForm, holdsForm_cons hnoForm, byteLength, hbytes,
        List.append_cancel_left_eq, List.length_append, List.length_append,
        Nat.add_lt_add_iff_left]
      exact ih

theorem percentDecode_of_noForm (h : ¬HoldsForm cs) :
    percentDecode cs = Text.utf8 (String.ofList cs) := by
  rcases percentDecode_literal_or_shorter cs with ⟨heq, -⟩ | ⟨-, hform⟩
  · exact heq
  · exact absurd hform h

/-- A text that is no longer than what it decodes to is what it decodes to. -/
theorem eq_of_percentDecode {s : String} (h : percentDecode cs = Text.utf8 s)
    (hle : byteLength cs ≤ byteLength s.toList) :
    cs = s.toList ∧ ¬HoldsForm cs := by
  rcases percentDecode_literal_or_shorter cs with ⟨heq, hnoForm⟩ | ⟨hlt, -⟩
  · refine ⟨?_, hnoForm⟩
    rw [← utf8_injective (heq.symm.trans h), String.toList_ofList]
  · rw [h, ← byteLength_toList] at hlt
    omega

end WarehouseLoader.Http

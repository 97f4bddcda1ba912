import WarehouseLoader.Number.Numeral
import WarehouseLoader.Proofs.Text.Pieces

/-!
# A printed number reads back

Positions and counts travel as decimal text: they are printed by one side of
a connection and read by the other. What is printed has digits only, no sign
and no blanks, so of the reader's liberties none comes into play, and the one
thing that can keep a printed number from being read is the bound of the
place it goes to.

The liberties do not go far: but for a plus sign, no character is in what is
read that is not a digit (`notMem_of_readBelow`).
-/

namespace WarehouseLoader.Numeral

theorem range_of_isDigit {c : Char} (h : c.isDigit = true) :
    48 ≤ c.toNat ∧ c.toNat ≤ 57 := by
  simp only [Char.isDigit, Bool.and_eq_true, decide_eq_true_eq] at h
  exact h

theorem digit?_of_isDigit {c : Char} (h : c.isDigit = true) :
    digit? c = some (c.toNat - '0'.toNat) := by
  simp only [Char.isDigit, Bool.and_eq_true, decide_eq_true_eq] at h
  rw [digit?, if_pos]
  exact h

theorem digitsFrom_of_isDigit {cs : List Char}
    (h : ∀ c ∈ cs, c.isDigit = true) (value : Nat) :
    digitsFrom value cs = some (Nat.ofDigitChars 10 cs value) := by
  induction cs generalizing value with
  | nil => rw [digitsFrom, Nat.ofDigitChars_nil]
  | cons c rest ih =>
      rw [digitsFrom, digit?_of_isDigit (h c (by simp)), Nat.ofDigitChars_cons]
      exact ih (fun c hc => h c (by simp [hc])) _

theorem isDigit_of_mem_printed {n : Nat} {c : Char}
    (h : c ∈ Nat.toDigits 10 n) : c.isDigit = true :=
  Nat.isDigit_of_mem_toDigits (by decide) (by decide) h

theorem digits?_printed (n : Nat) : digits? (Nat.toDigits 10 n) = some n := by
  have hread := digitsFrom_of_isDigit (fun _ hc => isDigit_of_mem_printed (n := n) hc) 0
  rw [Nat.ofDigitChars_ten_toDigits] at hread
  cases hd : Nat.toDigits 10 n with
  | nil => exact absurd hd Nat.toDigits_ne_nil
  | cons c rest => rw [digits?, ← hd]; exact hread

theorem dropPlus_printed (n : Nat) :
    dropPlus (Nat.toDigits 10 n) = Nat.toDigits 10 n := by
  cases hd : Nat.toDigits 10 n with
  | nil => rfl
  | cons c rest =>
      have hc : c.isDigit = true := isDigit_of_mem_printed (n := n) (by rw [hd]; simp)
      rw [dropPlus]
      intro rest' hplus
      injection hplus with hplus
      subst hplus
      exact absurd hc (by decide)

/-- A printed number is read where it fits, and refused where it does not. -/
theorem readBelow_printed (bound n : Nat) :
    readBelow bound (Nat.toDigits 10 n) = if n < bound then some n else none := by
  rw [readBelow, dropPlus_printed, digits?_printed, Option.filter_some]
  simp only [decide_eq_true_eq]

/-! ### What is not in a numeral -/

theorem notMem_of_digitsFrom {b : Char} (hb : digit? b = none) {value n : Nat}
    {cs : List Char} (h : digitsFrom value cs = some n) : b ∉ cs := by
  induction cs generalizing value with
  | nil => exact List.not_mem_nil
  | cons c rest ih =>
      rw [digitsFrom] at h
      split at h
      · next d hd =>
          rw [List.mem_cons, not_or]
          refine ⟨fun heq => ?_, ih h⟩
          rw [← heq, hb] at hd
          cases hd
      · cases h

theorem notMem_of_digits? {b : Char} (hb : digit? b = none) {n : Nat} {cs : List Char}
    (h : digits? cs = some n) : b ∉ cs := by
  cases cs with
  | nil => exact List.not_mem_nil
  | cons c rest => exact notMem_of_digitsFrom hb h

/-- What is read has at most a plus sign in front of its digits. -/
theorem readBelow_eq_some_iff {bound n : Nat} {cs : List Char} :
    readBelow bound cs = some n ↔ n < bound ∧ ∃ sign digits, (sign = [] ∨ sign = ['+']) ∧
      cs = sign ++ digits ∧ digits? digits = some n := by
  rw [readBelow, Option.filter_eq_some_iff, decide_eq_true_eq, and_comm]
  refine and_congr_right fun _ => ?_
  constructor
  · intro h
    rw [dropPlus.eq_def] at h
    split at h
    · next rest => exact ⟨['+'], rest, .inr rfl, rfl, h⟩
    · exact ⟨[], cs, .inl rfl, rfl, h⟩
  · rintro ⟨sign, digits, rfl | rfl, rfl, h⟩
    · rw [dropPlus]
      · exact h
      · rintro rest rfl
        exact notMem_of_digits? rfl h List.mem_cons_self
    · exact h

theorem notMem_of_readBelow {b : Char} (hb : digit? b = none) (hplus : b ≠ '+')
    {bound n : Nat} {cs : List Char} (h : readBelow bound cs = some n) : b ∉ cs := by
  obtain ⟨-, sign, digits, hsign, rfl, hdigits⟩ := readBelow_eq_some_iff.mp h
  rw [List.mem_append, not_or]
  refine ⟨?_, notMem_of_digits? hb hdigits⟩
  rcases hsign with rfl | rfl
  · exact List.not_mem_nil
  · exact fun hmem => hplus (List.mem_singleton.mp hmem)

end WarehouseLoader.Numeral

namespace WarehouseLoader.Text

theorem isBlank_of_isDigit {c : Char} (h : c.isDigit = true) :
    isBlank c = false := by
  obtain ⟨hlow, hhigh⟩ := Numeral.range_of_isDigit h
  simp only [isBlank, blankRanges, List.any_cons, List.any_nil, Bool.or_false,
    Bool.or_eq_false_iff, Bool.and_eq_false_iff, decide_eq_false_iff_not]
  omega

theorem trimBlanks_printed (n : Nat) :
    trimBlanks (Nat.toDigits 10 n) = Nat.toDigits 10 n :=
  trimBlanks_of_none fun _ hc => isBlank_of_isDigit (Numeral.isDigit_of_mem_printed hc)

theorem isBlank_of_mem_digits {c : Char} {n : Nat} {cs : List Char}
    (h : Numeral.digits? cs = some n) (hc : c ∈ cs) : isBlank c = false := by
  refine Bool.eq_false_iff.mpr fun hblank => Numeral.notMem_of_digits? ?_ h hc
  rw [Numeral.digit?, if_neg]
  rintro ⟨hlow, hhigh⟩
  have hdigit : isBlank c = false := isBlank_of_isDigit (by
    rw [Char.isDigit, Bool.and_eq_true, decide_eq_true_eq, decide_eq_true_eq]
    exact ⟨hlow, hhigh⟩)
  rw [hdigit] at hblank
  cases hblank

end WarehouseLoader.Text

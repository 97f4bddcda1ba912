import Mathlib.Data.List.TakeWhile
import WarehouseLoader.Proofs.Template.Rendering
import WarehouseLoader.Proofs.Text.Pieces

/-!
# The shape of an expression

An expression is two opening braces, blanks, a dotted name, blanks and two
closing braces, and a text starts with an expression exactly if that shape is a
prefix of it (`expressionAt?_eq_some_iff`). What stands behind it has no say.

The only opening braces in it are the two at its front
(`WellFormed.chars_eq`). So expressions never overlap: behind the first
character of one, no other begins. That is why a replacement of one expression
steps over every other as a whole (`replaceFrom_other`), and it is what
all arguments about neighbours rest on.
-/

namespace WarehouseLoader.Template

variable {e x : Expression} {cs rest value : List Char}

/-- The characters are those of an expression with this name. -/
def Expression.WellFormed (e : Expression) : Prop :=
  ∃ leading trailing : List Char, (∀ c ∈ leading, Text.isBlank c = true) ∧
    (∀ c ∈ trailing, Text.isBlank c = true) ∧ isDotted e.name = true ∧
    e.chars = openMark ++ leading ++ e.name ++ trailing ++ closeMark

/-! ### Classes of characters -/

theorem isBlank_of_inName {c : Char} (h : inName c = true) : Text.isBlank c = false := by
  have hrange : 45 ≤ c.toNat ∧ c.toNat ≤ 122 := by
    simp only [inName, continuesName, startsName, Bool.or_eq_true, Bool.and_eq_true,
      decide_eq_true_eq, beq_iff_eq, Char.le_def, UInt32.le_iff_toNat_le] at h
    rcases h with ((((⟨hlow, hhigh⟩ | ⟨hlow, hhigh⟩) | rfl) | ⟨hlow, hhigh⟩) | rfl) | rfl
    · exact ⟨Nat.le_trans (by decide) hlow, hhigh⟩
    · exact ⟨Nat.le_trans (by decide) hlow, Nat.le_trans hhigh (by decide)⟩
    · decide
    · exact ⟨Nat.le_trans (by decide) hlow, Nat.le_trans hhigh (by decide)⟩
    · decide
    · decide
  simp only [Text.isBlank, Text.blankRanges, List.any_cons, List.any_nil, Bool.or_false,
    Bool.or_eq_false_iff, Bool.and_eq_false_iff, decide_eq_false_iff_not]
  omega

theorem inName_of_startsName {c : Char} (h : startsName c = true) : inName c = true := by
  simp [inName, continuesName, h]

theorem inName_of_isDottedFrom {starting : Bool} {name : List Char}
    (h : isDottedFrom starting name = true) : ∀ c ∈ name, inName c = true := by
  induction name generalizing starting with
  | nil => exact fun c hc => absurd hc List.not_mem_nil
  | cons c rest ih =>
      rw [isDottedFrom] at h
      have hfirst : inName c = true ∧ ∃ starting, isDottedFrom starting rest = true := by
        split at h
        · obtain ⟨hc, hrest⟩ := Bool.and_eq_true_iff.mp h
          exact ⟨inName_of_startsName hc, _, hrest⟩
        · split at h
          · next hdot => exact ⟨by simp [inName, hdot], _, h⟩
          · obtain ⟨hc, hrest⟩ := Bool.and_eq_true_iff.mp h
            exact ⟨by simp [inName, hc], _, hrest⟩
      obtain ⟨hc, starting', hrest⟩ := hfirst
      intro c' hc'
      rcases List.mem_cons.mp hc' with rfl | hc'
      · exact hc
      · exact ih hrest c' hc'

theorem exists_cons_of_isDotted {name : List Char} (h : isDotted name = true) :
    ∃ c rest, name = c :: rest ∧ Text.isBlank c = false := by
  cases name with
  | nil => cases h
  | cons c rest =>
      refine ⟨c, rest, rfl, isBlank_of_inName
        (inName_of_isDottedFrom h c List.mem_cons_self)⟩

/-! ### Recognition -/

theorem wellFormed_of_expressionAt? (h : expressionAt? cs = some e) : e.WellFormed := by
  rw [expressionAt?] at h
  split at h
  · simp only [] at h
    split at h
    · next hname =>
        injection h with h
        subst h
        exact ⟨_, _, fun c hc => List.mem_takeWhile_imp hc,
          fun c hc => List.mem_takeWhile_imp hc, (Bool.and_eq_true_iff.mp hname).1, rfl⟩
    · cases h
  · cases h

theorem expressionAt?_append (h : e.WellFormed) (rest : List Char) :
    expressionAt? (e.chars ++ rest) = some e := by
  obtain ⟨leading, trailing, hleading, htrailing, hname, hchars⟩ := h
  obtain ⟨first, more, hcons, hfirst⟩ := exists_cons_of_isDotted hname
  have hinner : e.chars ++ rest =
      openMark ++ (leading ++ (e.name ++ (trailing ++ (closeMark ++ rest)))) := by
    simp only [hchars, List.append_assoc]
  have hlead := Text.takeWhile_append_of_stops (p := Text.isBlank)
    (e.name ++ (trailing ++ (closeMark ++ rest))) hleading (by
      intro c hc
      rw [hcons] at hc
      cases hc
      exact hfirst)
  have hword := Text.takeWhile_append_of_stops (p := inName)
    (trailing ++ (closeMark ++ rest)) (inName_of_isDottedFrom hname) (by
      intro c hc
      cases trailing with
      | nil =>
          cases hc
          decide
      | cons blank others =>
          rw [List.cons_append, List.head?_cons, Option.mem_some_iff] at hc
          subst hc
          have hblank := htrailing blank List.mem_cons_self
          cases hin : inName blank with
          | false => rfl
          | true =>
              rw [isBlank_of_inName hin] at hblank
              cases hblank)
  have htrail := Text.takeWhile_append_of_stops (p := Text.isBlank)
    (closeMark ++ rest) htrailing (by
      intro c hc
      cases hc
      decide)
  have hopen : openMark.isPrefixOf (e.chars ++ rest) = true :=
    List.isPrefixOf_iff_prefix.mpr ⟨_, hinner.symm⟩
  have hdrop : (e.chars ++ rest).drop 2 =
      leading ++ (e.name ++ (trailing ++ (closeMark ++ rest))) := by
    rw [hinner]
    rfl
  have hclose : closeMark.isPrefixOf (closeMark ++ rest) = true :=
    List.isPrefixOf_iff_prefix.mpr ⟨rest, rfl⟩
  rw [expressionAt?, if_pos hopen]
  simp only [hdrop, hlead, hword, htrail, hname, hclose, Bool.and_self, if_true, ← hchars]

/-- A text starts with an expression if the expression is a prefix of it. -/
theorem expressionAt?_eq_some_iff :
    expressionAt? cs = some e ↔ e.WellFormed ∧ e.chars <+: cs := by
  constructor
  · intro h
    exact ⟨wellFormed_of_expressionAt? h, (chars_isPrefix_of_expressionAt? h).1⟩
  · rintro ⟨hformed, rest, rfl⟩
    exact expressionAt?_append hformed rest

/-- At most one expression is a prefix of a text. -/
theorem Expression.WellFormed.eq_of_prefix (he : e.WellFormed) (hx : x.WellFormed)
    (he' : e.chars <+: cs) (hx' : x.chars <+: cs) : e = x := by
  have hboth : some e = some x :=
    (expressionAt?_eq_some_iff.mpr ⟨he, he'⟩).symm.trans
      (expressionAt?_eq_some_iff.mpr ⟨hx, hx'⟩)
  exact Option.some.inj hboth

/-! ### Braces -/

/-- Behind the two opening braces there is no other. -/
theorem Expression.WellFormed.chars_eq (h : e.WellFormed) :
    ∃ c tail, e.chars = '{' :: '{' :: c :: tail ∧ '{' ∉ c :: tail := by
  obtain ⟨leading, trailing, hleading, htrailing, hname, hchars⟩ := h
  have hrest : '{' ∉ leading ++ e.name ++ trailing ++ closeMark := by
    simp only [List.mem_append, not_or]
    refine ⟨⟨⟨fun hmem => ?_, fun hmem => ?_⟩, fun hmem => ?_⟩, by decide⟩
    · exact absurd (hleading _ hmem) (by decide)
    · exact absurd (inName_of_isDottedFrom hname _ hmem) (by decide)
    · exact absurd (htrailing _ hmem) (by decide)
  have hsplit : e.chars = '{' :: '{' :: (leading ++ e.name ++ trailing ++ closeMark) := by
    rw [hchars]
    simp [openMark]
  cases hcons : leading ++ e.name ++ trailing ++ closeMark with
  | nil => simp [closeMark] at hcons
  | cons c tail =>
      rw [hcons] at hsplit hrest
      exact ⟨c, tail, hsplit, hrest⟩

theorem Expression.WellFormed.ne_nil (h : e.WellFormed) : e.chars ≠ [] := by
  obtain ⟨c, tail, hchars, -⟩ := h.chars_eq
  rw [hchars]
  exact List.cons_ne_nil _ _

/-- Nothing that an expression is made of is outside of the four classes. -/
theorem Expression.WellFormed.notMem_chars (h : e.WellFormed) {c : Char}
    (hopen : c ∉ openMark) (hclose : c ∉ closeMark) (hblank : Text.isBlank c = false)
    (hname : inName c = false) : c ∉ e.chars := by
  obtain ⟨leading, trailing, hleading, htrailing, hdotted, hchars⟩ := h
  rw [hchars]
  simp only [List.mem_append, not_or]
  refine ⟨⟨⟨⟨hopen, fun hmem => ?_⟩, fun hmem => ?_⟩, fun hmem => ?_⟩, hclose⟩
  · simp [hleading _ hmem] at hblank
  · simp [inName_of_isDottedFrom hdotted _ hmem] at hname
  · simp [htrailing _ hmem] at hblank

/-! ### Replacing one expression -/

theorem replaceFrom_drop (part value : List Char) (skip : Nat) (cs : List Char) :
    replaceFrom part value skip cs = replaceFrom part value 0 (cs.drop skip) := by
  induction cs generalizing skip with
  | nil => cases skip <;> rfl
  | cons c rest ih =>
      cases skip with
      | zero => rfl
      | succ skip =>
          rw [replaceFrom, ih]
          rfl

theorem replaceFrom_own {part : List Char} (h : part ≠ []) (value rest : List Char) :
    replaceFrom part value 0 (part ++ rest) = value ++ replaceFrom part value 0 rest := by
  cases part with
  | nil => exact absurd rfl h
  | cons c more =>
      have hprefix : (c :: more).isPrefixOf (c :: (more ++ rest)) = true :=
        List.isPrefixOf_iff_prefix.mpr ⟨rest, rfl⟩
      rw [List.cons_append, replaceFrom, if_pos hprefix, replaceFrom_drop, List.length_cons,
        Nat.add_sub_cancel, List.drop_left]

theorem replaceFrom_cons {part : List Char} {c : Char} (h : ¬ part <+: c :: rest)
    (value : List Char) :
    replaceFrom part value 0 (c :: rest) = c :: replaceFrom part value 0 rest := by
  rw [replaceFrom, if_neg (fun hprefix => h (List.isPrefixOf_iff_prefix.mp hprefix))]

theorem replaceFrom_notMem {front : List Char} (he : e.WellFormed) (hfront : '{' ∉ front)
    (value rest : List Char) :
    replaceFrom e.chars value 0 (front ++ rest) =
      front ++ replaceFrom e.chars value 0 rest := by
  obtain ⟨d, tail, hchars, -⟩ := he.chars_eq
  induction front with
  | nil => rfl
  | cons c more ih =>
      obtain ⟨hc, hmore⟩ := not_or.mp (mt List.mem_cons.mpr hfront)
      have hnot : ¬ e.chars <+: c :: (more ++ rest) := by
        rw [hchars]
        intro hprefix
        exact hc (List.cons_prefix_cons.mp hprefix).1
      rw [List.cons_append, replaceFrom_cons hnot, ih hmore, List.cons_append]

/-- Another expression is left alone, for none begins inside it. -/
theorem replaceFrom_other (he : e.WellFormed) (hx : x.WellFormed) (hne : x ≠ e)
    (value rest : List Char) :
    replaceFrom e.chars value 0 (x.chars ++ rest) =
      x.chars ++ replaceFrom e.chars value 0 rest := by
  obtain ⟨c, tail, hchars, -⟩ := he.chars_eq
  obtain ⟨d, tail', hchars', hopen⟩ := hx.chars_eq
  have hfirst : ¬ e.chars <+: x.chars ++ rest := fun hprefix =>
    hne (hx.eq_of_prefix he (List.prefix_append _ _) hprefix)
  have hsecond : ¬ e.chars <+: '{' :: (d :: tail' ++ rest) := by
    rw [hchars]
    intro hprefix
    have hd := (List.cons_prefix_cons.mp (List.cons_prefix_cons.mp hprefix).2).1
    exact hopen (hd ▸ List.mem_cons_self)
  rw [hchars', List.cons_append, List.cons_append] at hfirst ⊢
  rw [replaceFrom_cons hfirst, replaceFrom_cons hsecond, replaceFrom_notMem he hopen]
  rfl

end WarehouseLoader.Template

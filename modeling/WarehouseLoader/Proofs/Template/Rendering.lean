import Mathlib.Data.List.Basic
import WarehouseLoader.Template

/-!
# What rendering reads

Rendering looks at its context through the names that the template asks for,
and through nothing else, so two contexts that agree on these render it to the
same text or refuse it for the same names (`render_congr`). The replacements
are made in a text that changes on the way, but which replacements are made is
settled by the scan of the template alone, and that is all the argument needs.

A template that is one expression and nothing else renders to the value of its
name. That rests on the scan losing nothing: the expression is the whole text,
and the first replacement replaces all of it.
-/

namespace WarehouseLoader.Template

/-- The characters that a segment was cut from. -/
def Segment.chars : Segment → List Char
  | .literal c => [c]
  | .expression e => e.chars

theorem openMark_append_drop {cs : List Char} (h : openMark.isPrefixOf cs = true) :
    openMark ++ cs.drop 2 = cs := by
  obtain ⟨rest, rfl⟩ := List.isPrefixOf_iff_prefix.mp h
  rfl

theorem chars_isPrefix_of_expressionAt? {cs : List Char} {e : Expression}
    (h : expressionAt? cs = some e) : e.chars <+: cs ∧ e.chars ≠ [] := by
  rw [expressionAt?] at h
  split at h
  · next hopen =>
      simp only [] at h
      split at h
      · next hname =>
          injection h with h
          subst h
          obtain ⟨-, hclose⟩ := Bool.and_eq_true_iff.mp hname
          obtain ⟨rest, hrest⟩ := List.isPrefixOf_iff_prefix.mp hclose
          refine ⟨⟨rest, ?_⟩, by simp [openMark]⟩
          simp only [List.append_assoc]
          rw [hrest, List.takeWhile_append_dropWhile, List.takeWhile_append_dropWhile,
            List.takeWhile_append_dropWhile, openMark_append_drop hopen]
      · cases h
  · cases h

/-- The scan cuts the text up and loses nothing of it. -/
theorem joined_scanFrom (skip : Nat) (cs : List Char) :
    (scanFrom skip cs).flatMap Segment.chars = cs.drop skip := by
  induction cs generalizing skip with
  | nil => cases skip <;> rfl
  | cons c rest ih =>
      cases skip with
      | succ skip =>
          rw [scanFrom, ih]
          rfl
      | zero =>
          rw [scanFrom]
          cases he : expressionAt? (c :: rest) with
          | none =>
              rw [List.flatMap_cons, ih]
              rfl
          | some e =>
              obtain ⟨⟨tail, htail⟩, hne⟩ := chars_isPrefix_of_expressionAt? he
              rw [List.flatMap_cons, ih, List.drop_zero, Segment.chars, ← htail]
              congr 1
              cases hchars : e.chars with
              | nil => exact absurd hchars hne
              | cons c' cs' =>
                  rw [hchars, List.cons_append] at htail
                  injection htail with _ hrest
                  rw [← hrest, List.length_cons, Nat.add_sub_cancel, List.drop_left]

theorem joined_scan (template : String) :
    (scan template).flatMap Segment.chars = template.toList :=
  joined_scanFrom 0 template.toList

theorem name_mem_names {template : String} {e : Expression} (h : e ∈ expressions template) :
    String.ofList e.name ∈ names template :=
  List.mem_map_of_mem h

theorem undefinedNames_eq_nil_iff {template : String} {context : Context} :
    undefinedNames template context = [] ↔
      ∀ e ∈ expressions template, ∃ value, context.get? (String.ofList e.name) =
        some value := by
  rw [undefinedNames, names, List.filter_eq_nil_iff, List.forall_mem_map]
  refine forall₂_congr fun e _ => ?_
  rw [Option.isNone_iff_eq_none, ← ne_eq, Option.ne_none_iff_exists']

theorem render_congr {template : String} {context context' : Context}
    (h : ∀ name ∈ names template, context.get? name = context'.get? name) :
    render template context = render template context' := by
  have hundefined : undefinedNames template context = undefinedNames template context' := by
    rw [undefinedNames, undefinedNames]
    exact List.filter_congr fun name hname => by rw [h name hname]
  have hreplaced : (expressions template).foldl
      (replaceExpression context) template.toList =
        (expressions template).foldl (replaceExpression context') template.toList := by
    refine List.foldl_ext _ _ _ fun text e he => ?_
    rw [replaceExpression, replaceExpression, h _ (name_mem_names he)]
  rw [render, render, hundefined, hreplaced]

/-- Rendering fails for names without a value, and for nothing else. -/
theorem render_eq_error_iff {template : String} {context : Context} {e : LoadError} :
    render template context = .error e ↔ undefinedNames template context ≠ [] ∧
      e = .undefinedVariable (", ".intercalate (undefinedNames template context)) := by
  rw [render]
  cases undefinedNames template context with
  | nil => exact ⟨fun h => (by cases h), fun h => absurd rfl h.1⟩
  | cons name rest =>
      simp only [Except.error.injEq]
      exact ⟨fun h => ⟨List.cons_ne_nil _ _, h.symm⟩, fun h => h.2.symm⟩

/-! ### One expression -/

theorem replaceFrom_of_length_le {part value : List Char} {skip : Nat} {cs : List Char}
    (h : cs.length ≤ skip) : replaceFrom part value skip cs = [] := by
  induction cs generalizing skip with
  | nil => rw [replaceFrom]
  | cons c rest ih =>
      cases skip with
      | zero => cases h
      | succ skip =>
          rw [replaceFrom]
          exact ih (Nat.le_of_succ_le_succ h)

theorem replaceFrom_self {part : List Char} (value : List Char) (h : part ≠ []) :
    replaceFrom part value 0 part = value := by
  cases hpart : part with
  | nil => exact absurd hpart h
  | cons c rest =>
      have hself : (c :: rest).isPrefixOf (c :: rest) = true :=
        List.isPrefixOf_iff_prefix.mpr (List.prefix_refl _)
      rw [replaceFrom, if_pos hself, replaceFrom_of_length_le (by simp), List.append_nil]

theorem expression_ne_nil {template : String} {e : Expression}
    (h : scan template = [.expression e]) : e.chars ≠ [] := by
  intro hnil
  have hjoined := joined_scan template
  rw [h, List.flatMap_singleton, Segment.chars, hnil] at hjoined
  rw [scan, ← hjoined, scanFrom] at h
  cases h

theorem render_eq_ok_iff_of_scan {template : String} {context : Context} {e : Expression}
    {text : String} (h : scan template = [.expression e]) :
    render template context = .ok text ↔
      context.get? (String.ofList e.name) = some text := by
  have hchars : template.toList = e.chars := by
    have hjoined := joined_scan template
    rw [h, List.flatMap_singleton] at hjoined
    exact hjoined.symm
  have hexpressions : expressions template = [e] := by rw [expressions, h]; rfl
  have hnames : names template = [String.ofList e.name] := by rw [names, hexpressions]; rfl
  rw [render, undefinedNames, hnames]
  cases hget : context.get? (String.ofList e.name) with
  | none =>
      rw [List.filter_cons_of_pos (by rw [hget]; rfl)]
      exact ⟨fun hrender => (by cases hrender), fun hvalue => (by cases hvalue)⟩
  | some value =>
      rw [List.filter_cons_of_neg (by rw [hget]; simp), List.filter_nil]
      have hreplaced : replaceExpression context template.toList e = value.toList := by
        rw [replaceExpression, hget, hchars]
        exact replaceFrom_self _ (expression_ne_nil h)
      simp only [hexpressions, List.foldl_cons, List.foldl_nil, hreplaced,
        String.ofList_toList, Except.ok.injEq, Option.some.injEq]

end WarehouseLoader.Template

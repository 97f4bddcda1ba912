import WarehouseLoader.Proofs.Template.Cutting
import WarehouseLoader.Proofs.Template.Simultaneous

/-!
# What the check of a template is good for

The check takes the expressions out and looks for doubled braces in what is
left (`check_eq_ok_iff`). It sees no value, and yet it answers for the rendered
text: a value without braces can only bring two braces together by being empty,
and then they were next to each other when the expression was taken out. The
argument is one about either brace, and rendering comes into it once, to say
that under these conditions it replaces all expressions at once
(`render_eq_substituted_of_noMark`).

A text that no expression is cut from has to pass as it stands
(`check_eq_ok_iff_of_noExpressions`).
-/

namespace WarehouseLoader.Template

variable {template : String} {context : Context} {segs : List Segment}

theorem not_infix_iff {part cs : List Char} : ¬ part <:+: cs ↔ holds part cs = false := by
  rw [← holds_iff_infix, Bool.not_eq_true]

/-- The check looks for doubled braces where no expression is. -/
theorem check_eq_ok_iff :
    check template = .ok () ↔
      ¬ openMark <:+: literalsOf (scan template) ∧
        ¬ closeMark <:+: literalsOf (scan template) := by
  rw [not_infix_iff, not_infix_iff, ← Bool.or_eq_false_iff, check]
  split
  · next hheld =>
      exact ⟨fun h => (by cases h), fun h => absurd (hheld.symm.trans h) (by decide)⟩
  · next hfree => exact ⟨fun _ => Bool.eq_false_iff.mpr hfree, fun _ => rfl⟩

theorem literalsOf_of_noExpressions (h : ∀ e, .expression e ∉ segs) :
    literalsOf segs = joined segs := by
  induction segs with
  | nil => rfl
  | cons seg rest ih =>
      have hrest := ih fun e he => h e (List.mem_cons_of_mem _ he)
      cases seg with
      | literal c => exact congrArg (c :: ·) hrest
      | expression e => exact absurd List.mem_cons_self (h e)

theorem check_eq_ok_iff_of_noExpressions (h : hasExpressions template = false) :
    check template = .ok () ↔
      ¬ openMark <:+: template.toList ∧ ¬ closeMark <:+: template.toList := by
  have hnone := hasExpressions_eq_false_iff.mp h
  have hliterals : literalsOf (scan template) = template.toList := by
    rw [literalsOf_of_noExpressions fun e he => ?_, joined, joined_scan]
    have hmem := mem_expressions_iff.mpr he
    rw [hnone] at hmem
    exact List.not_mem_nil hmem
  rw [check_eq_ok_iff, hliterals]

/-! ### Values without braces -/

theorem not_infix_of_notMem {b : Char} {cs : List Char} (h : b ∉ cs) : ¬ [b, b] <:+: cs :=
  fun hpair => h (hpair.subset List.mem_cons_self)

/-- Values without a brace bring two of it together only where the literals do. -/
theorem not_infix_substituted {b : Char}
    (hvalues : ∀ e, .expression e ∈ scan template → b ∉ valueIn context e)
    (h : ¬ [b, b] <:+: literalsOf (scan template)) :
    ¬ [b, b] <:+: (substituted template context).toList := by
  rw [substituted, String.toList_ofList, not_infix_iff]
  exact (noPair_flatMap (fun c => rfl) hvalues (not_infix_iff.mp h)).1

/-- A template that passes the check renders to a text without doubled braces
wherever its names stand for texts without braces, and one without braces around
its expressions passes. -/
theorem check_guards_output (template : String) :
    ∃ segs, (∀ segs', Cut template.toList segs' ↔ segs' = segs) ∧
      (check template = .ok () →
        ∀ context, (∀ e, .expression e ∈ segs → ∃ value,
            context.get? (String.ofList e.name) = some value ∧
            '{' ∉ value.toList ∧ '}' ∉ value.toList) →
          ∃ text, render template context = .ok text ∧
            ¬ openMark <:+: text.toList ∧ ¬ closeMark <:+: text.toList) ∧
      ('{' ∉ literalsOf segs → '}' ∉ literalsOf segs → check template = .ok ()) := by
  refine ⟨scan template, fun segs' => cut_iff, fun hcheck context hvalues => ?_,
    fun hopen hclose => ?_⟩
  · obtain ⟨hopen, hclose⟩ := check_eq_ok_iff.mp hcheck
    have hplain : ∀ e, .expression e ∈ scan template →
        '{' ∉ valueIn context e ∧ '}' ∉ valueIn context e := by
      intro e he
      obtain ⟨value, hget, hbraces⟩ := hvalues e he
      rw [valueIn, hget]
      exact hbraces
    have hdefined : undefinedNames template context = [] :=
      undefinedNames_eq_nil_iff.mpr fun e he => by
        obtain ⟨value, hget, -⟩ := hvalues e (mem_expressions_iff.mp he)
        exact ⟨value, hget⟩
    exact ⟨_, render_eq_substituted_of_noMark hdefined (not_infix_iff.mp hopen)
        fun e he => (hplain e (mem_expressions_iff.mp he)).1,
      not_infix_substituted (fun e he => (hplain e he).1) hopen,
      not_infix_substituted (fun e he => (hplain e he).2) hclose⟩
  · exact check_eq_ok_iff.mpr ⟨not_infix_of_notMem hopen, not_infix_of_notMem hclose⟩

/-- A brace on either side of an expression that stands for the empty text. -/
theorem check_guards_output_of_empty :
    check "\x7b\x7b\x7b a \x7d\x7d\x7d\x7b\x7ba\x7d\x7d\x7b" = .ok () ∧
      ∃ text, render "\x7b\x7b\x7b a \x7d\x7d\x7d\x7b\x7ba\x7d\x7d\x7b"
          ⟨some (NameMap.ofList [("a", "")]), .null⟩ = .ok text ∧
        ¬ openMark <:+: text.toList ∧ ¬ closeMark <:+: text.toList := by
  have hcheck : check "\x7b\x7b\x7b a \x7d\x7d\x7d\x7b\x7ba\x7d\x7d\x7b" = .ok () := by
    decide +kernel
  obtain ⟨segs, hcut, hguard, -⟩ :=
    check_guards_output "\x7b\x7b\x7b a \x7d\x7d\x7d\x7b\x7ba\x7d\x7d\x7b"
  refine ⟨hcheck, hguard hcheck _ fun e he => ⟨"", ?_, by decide, by decide⟩⟩
  rw [← (hcut _).mp (cut_iff.mpr rfl), ← mem_expressionsOf_iff] at he
  revert e
  decide +kernel

end WarehouseLoader.Template

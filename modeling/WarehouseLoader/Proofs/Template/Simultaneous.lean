import WarehouseLoader.Proofs.Template.Substitution

/-!
# When rendering is one simultaneous substitution

A template whose names all have values is rendered, and the question is whether
the outcome is `substituted`, in which no value is looked into.

Two things make sure of it. A template with at most one expression is rendered
in at most one step, so there is no text for a later step to look into
(`render_eq_substituted_of_single`). And where neither a value nor the literals
of the template can open an expression, the steps do not meet
(`render_eq_substituted_of_noMark`). Of the template alone no more can be said:
with two expressions there are values for which the outcome is another
(`exists_render_ne_substituted`).
-/

namespace WarehouseLoader.Template

variable {template : String} {context : Context}

/-- Both outcomes in terms of the characters that the expressions stand for. -/
theorem outcomes_of_values (values : Expression → List Char)
    (h : ∀ e ∈ expressions template,
      context.get? (String.ofList e.name) = some (String.ofList (values e))) :
    undefinedNames template context = [] ∧
      render template context =
        .ok (String.ofList
          (replaceEach values (expressions template) (joined (scan template)))) ∧
      substituted template context =
        String.ofList
          ((scan template).flatMap (Segment.settled values (expressions template))) := by
  have hundefined : undefinedNames template context = [] :=
    undefinedNames_eq_nil_iff.mpr fun e he => ⟨_, h e he⟩
  refine ⟨hundefined, ?_, ?_⟩
  · have hsteps : (expressions template).foldl (replaceExpression context) template.toList =
        replaceEach values (expressions template) (joined (scan template)) := by
      rw [joined, joined_scan]
      refine List.foldl_ext _ _ _ fun text e he => ?_
      rw [replaceExpression, h e he]
      simp only [String.toList_ofList]
    rw [render, hundefined]
    exact congrArg (fun cs => Except.ok (String.ofList cs)) hsteps
  · rw [substituted]
    congr 1
    refine List.flatMap_congr fun seg hseg => ?_
    cases seg with
    | literal c => rfl
    | expression e =>
        have he := mem_expressions_iff.mpr hseg
        rw [Segment.substituted, Segment.settled, h e he, if_pos he, Option.getD_some,
          String.toList_ofList]

/-- The characters that the context gives for an expression. -/
def valueIn (context : Context) (e : Expression) : List Char :=
  ((context.get? (String.ofList e.name)).getD "").toList

theorem get?_eq_valueIn (h : undefinedNames template context = []) :
    ∀ e ∈ expressions template,
      context.get? (String.ofList e.name) = some (String.ofList (valueIn context e)) := by
  intro e he
  obtain ⟨value, hget⟩ := undefinedNames_eq_nil_iff.mp h e he
  rw [valueIn, hget, Option.getD_some, String.ofList_toList]

theorem render_eq_substituted_of_single (hdefined : undefinedNames template context = [])
    (h : (expressions template).length ≤ 1) :
    render template context = .ok (substituted template context) := by
  obtain ⟨-, hrender, hsubstituted⟩ := outcomes_of_values _ (get?_eq_valueIn hdefined)
  rw [hrender, hsubstituted]
  congr 2
  cases hes : expressions template with
  | nil => exact joined_eq_settled _ _
  | cons e rest =>
      rw [hes] at h
      obtain rfl : rest = [] :=
        List.length_eq_zero_iff.mp (Nat.le_zero.mp (Nat.le_of_succ_le_succ h))
      have he : e ∈ expressions template := hes ▸ List.mem_cons_self
      have he := wellFormed_of_mem_expressions he
      exact replaceEach_of_single he (clean_scanFrom 0 template.toList)

theorem render_eq_substituted_of_noMark (hdefined : undefinedNames template context = [])
    (hliterals : holds openMark (literals template) = false)
    (hvalues : ∀ e ∈ expressions template, '{' ∉ valueIn context e) :
    render template context = .ok (substituted template context) := by
  obtain ⟨-, hrender, hsubstituted⟩ := outcomes_of_values _ (get?_eq_valueIn hdefined)
  rw [hrender, hsubstituted]
  congr 2
  refine replaceEach_of_noMark (fun e he =>
    ⟨wellFormed_of_mem_expressions he, hvalues e he⟩)
    (clean_scanFrom 0 template.toList).wellFormed hliterals

/-! ### Two expressions -/

/-- Every name of the template stands for one value. -/
def constantContext (template value : String) : Context :=
  ⟨some (NameMap.ofList ((names template).map (·, value))), .null⟩

theorem get?_insertAll_constant {value name : String} {given : List String} {m : Attributes}
    (h : name ∈ given ∨ m.get? name = some value) :
    (m.insertAll (given.map (·, value))).get? name = some value := by
  induction given generalizing m with
  | nil => exact h.resolve_left List.not_mem_nil
  | cons first rest ih =>
      refine ih (m := m.insert first value) ?_
      rw [NameMap.get?_insert]
      rcases h with h | h
      · rcases List.mem_cons.mp h with rfl | h
        · exact .inr (if_pos rfl)
        · exact .inl h
      · exact .inr (by rw [h, ite_self])

theorem get?_constantContext {value name : String} (h : name ∈ names template) :
    (constantContext template value).get? name = some value := by
  have hget : (NameMap.ofList ((names template).map (·, value))).get? name = some value :=
    get?_insertAll_constant (.inl h)
  rw [Context.get?, constantContext, Option.bind_some, hget]

theorem count_mark_settled {last : Expression} {segs : List Segment} {es : List Expression}
    (hlast : last.WellFormed) (h : Clean segs) (hall : ∀ x ∈ expressionsOf segs, x ∈ es) :
    (segs.flatMap (Segment.settled (fun _ => joined (marked last)) es)).count '!' =
      (joined segs).count '!' + (expressionsOf segs).length := by
  induction segs with
  | nil => rfl
  | cons seg rest ih =>
      rw [List.flatMap_cons, List.count_append]
      cases seg with
      | literal c =>
          rw [ih h.tail hall, joined_cons, List.count_append, Nat.add_assoc]
          rfl
      | expression x =>
          have hx := List.count_eq_zero_of_not_mem (notMem_chars_mark h.1)
          have hrest := ih h.tail fun y hy => hall y (List.mem_cons_of_mem _ hy)
          have hlength : (expressionsOf (.expression x :: rest)).length =
              (expressionsOf rest).length + 1 := rfl
          rw [hrest, joined_cons, List.count_append, Segment.chars, hx,
            hlength, Segment.settled, if_pos (hall x List.mem_cons_self),
            count_mark_marked hlast]
          omega

/-- The first step leaves a mark for its expression, and the last one a mark for
each. -/
theorem exists_render_ne_substituted (h : 2 ≤ (expressions template).length) :
    ∃ context, undefinedNames template context = [] ∧
      render template context ≠ .ok (substituted template context) := by
  obtain ⟨first, rest, hes⟩ := List.exists_cons_of_length_pos (Nat.lt_of_succ_lt h)
  rw [hes, List.length_cons, Nat.succ_le_succ_iff] at h
  obtain ⟨front, last, rfl⟩ :=
    (List.eq_nil_or_concat' rest).resolve_left (List.ne_nil_of_length_pos h)
  have hwell : ∀ e ∈ first :: (front ++ [last]), e.WellFormed := fun e he =>
    wellFormed_of_mem_expressions (hes ▸ he)
  have hfirst := hwell first List.mem_cons_self
  have hlast := hwell last (by simp)
  have hclean : Clean (scan template) := clean_scanFrom 0 template.toList
  have hall : ∀ x ∈ expressionsOf (scan template), x ∈ first :: (front ++ [last]) :=
    fun x hx => hes ▸ hx
  obtain ⟨hdefined, hrender, hsubstituted⟩ := outcomes_of_values
    (fun _ => joined (marked last)) fun e he =>
      get?_constantContext (name_mem_names he)
  refine ⟨_, hdefined, fun heq => ?_⟩
  rw [hrender, hsubstituted, Except.ok.injEq, String.ofList_inj, hes] at heq
  have hcounts := congrArg (List.count '!') heq
  rw [count_mark_settled hlast hclean hall] at hcounts
  have hstep := replaceFrom_joined hfirst hclean (marked last)
  have hrun := count_mark_le
    (fun e he => hwell e (List.mem_cons_of_mem _ (List.mem_append_left _ he))) hlast
    (clean_put_marked (e := first) hlast hclean) (mem_of_mem_put_marked (by simp) hall)
  rw [expressionsOf_put_marked, List.length_map,
    count_mark_put hlast hclean, ← hstep] at hrun
  have hmem : first ∈ expressions template := hes ▸ List.mem_cons_self
  have hmark : 0 < (expressionsOf (scan template)).count first :=
    List.count_pos_iff.mpr hmem
  have hsteps : replaceEach (fun _ => joined (marked last)) (first :: (front ++ [last]))
      (joined (scan template)) =
        replaceEach (fun _ => joined (marked last)) (front ++ [last])
        (replaceFrom first.chars (joined (marked last)) 0 (joined (scan template))) := rfl
  rw [hsteps] at hcounts
  omega

/-- Rendering replaces all expressions at once for every context that defines
the names of the template exactly if the template has at most one expression.
For a context by itself it is enough that no expression can begin in a literal
or a value. -/
theorem render_eq_substituted_iff (template : String) :
    ((∀ context, undefinedNames template context = [] →
        render template context = .ok (substituted template context)) ↔
      (expressions template).length ≤ 1) ∧
    ∀ context, undefinedNames template context = [] →
      holds openMark (literals template) = false →
      (∀ name ∈ names template, ∀ value,
        context.get? name = some value → '{' ∉ value.toList) →
      render template context = .ok (substituted template context) := by
  refine ⟨⟨fun hall => ?_, fun hle context hdefined => ?_⟩,
    fun context hdefined hliterals hvalues => ?_⟩
  · refine Nat.le_of_not_lt fun hlt => ?_
    obtain ⟨context, hdefined, hne⟩ := exists_render_ne_substituted hlt
    exact hne (hall context hdefined)
  · exact render_eq_substituted_of_single hdefined hle
  · refine render_eq_substituted_of_noMark hdefined hliterals fun e he => ?_
    have hvalue := hvalues _ (name_mem_names he) _ (get?_eq_valueIn hdefined e he)
    rwa [String.toList_ofList] at hvalue

/-- Two names with plain values: both parts at work on one template. -/
theorem render_eq_substituted_iff_of_two :
    let template := "\x7b\x7b a \x7d\x7d-\x7b\x7b b \x7d\x7d"
    let context : Context := ⟨some (NameMap.ofList [("a", "1"), ("b", "2")]), .null⟩
    render template context = .ok (substituted template context) ∧
      ¬ ∀ context, undefinedNames template context = [] →
        render template context = .ok (substituted template context) := by
  intro template context
  obtain ⟨hall, hplain⟩ := render_eq_substituted_iff template
  have hnames : names template = ["a", "b"] := by decide +kernel
  refine ⟨hplain context (by decide +kernel) (by decide +kernel) ?_,
    fun hevery => absurd (hall.mp hevery) (by decide +kernel)⟩
  intro name hname value hvalue
  rw [hnames] at hname
  rcases List.mem_cons.mp hname with rfl | hname
  · have hone : context.get? "a" = some "1" := by decide +kernel
    obtain rfl := Option.some.inj (hone.symm.trans hvalue)
    decide
  · obtain rfl := List.mem_singleton.mp hname
    have htwo : context.get? "b" = some "2" := by decide +kernel
    obtain rfl := Option.some.inj (htwo.symm.trans hvalue)
    decide

/-- The value of the first name is an expression, and the step for the second
replaces it. -/
theorem render_looks_into_value :
    let template := "\x7b\x7b a \x7d\x7d\x7b\x7b b \x7d\x7d"
    let context : Context :=
      ⟨some (NameMap.ofList [("a", "\x7b\x7b b \x7d\x7d"), ("b", "x")]), .null⟩
    undefinedNames template context = [] ∧ render template context = .ok "xx" ∧
      substituted template context = "\x7b\x7b b \x7d\x7dx" := by
  decide +kernel

end WarehouseLoader.Template

import WarehouseLoader.Proofs.Template.Cutting

/-!
# When rendering fails

A template is refused for the names that the context has no value for, and for
nothing else. Which names these are can be read off the cut of the template
(`unresolvedIn`): they are listed as they occur, one that occurs twice is
listed twice, and the values of the others are not looked at. The error holds
the list and not only a text of it, for no name has a comma in it
(`intercalate_injective`).

What a template without an expression renders to is itself, in every context.
One with an expression is refused by the context that has no value at all, so
the two kinds can be told apart by rendering, too.
-/

namespace WarehouseLoader.Template

variable {template : String} {context : Context} {segs : List Segment}

/-- The context that gives no name a value. -/
def Context.empty : Context := ⟨none, .null⟩

/-- The names that the expressions among the segments ask for, in order. -/
def namesIn (segs : List Segment) : List String :=
  (expressionsOf segs).map fun e => String.ofList e.name

/-- Those of them that the context has no value for, as often as they occur. -/
def unresolvedIn (context : Context) (segs : List Segment) : List String :=
  (namesIn segs).filter fun name => (context.get? name).isNone

theorem Context.get?_empty (name : String) : Context.empty.get? name = none := by
  show Context.empty.variableText? name = none
  rw [variableText?]
  cases variablePath name with
  | nil => rfl
  | cons first rest => rfl

theorem unresolvedIn_ne_nil_iff :
    unresolvedIn context (scan template) ≠ [] ↔
      ∃ e, .expression e ∈ scan template ∧ context.get? (String.ofList e.name) = none := by
  have hnil : unresolvedIn context (scan template) = [] ↔ _ := undefinedNames_eq_nil_iff
  rw [ne_eq, hnil]
  simp only [mem_expressions_iff, not_forall, exists_prop, not_exists,
    Option.eq_none_iff_forall_ne_some, ne_eq]

/-! ### The list in the error -/

theorem intercalate_cons (first : List Char) (others : List (List Char)) :
    [',', ' '].intercalate (first :: others) =
      [','].intercalate (first :: others.map (' ' :: ·)) := by
  induction others generalizing first with
  | nil => rw [List.map_nil, List.intercalate_singleton, List.intercalate_singleton]
  | cons second others ih =>
      rw [List.intercalate_cons_cons, List.map_cons, List.intercalate_cons_cons, ih]
      cases others with
      | nil => simp
      | cons third others => simp

/-- Behind every comma a name without one begins, with a blank in front. -/
theorem splitOn_intercalate {first : String} {others : List String}
    (hplain : ∀ name ∈ first :: others, ',' ∉ name.toList) :
    (", ".intercalate (first :: others)).toList.splitOn ',' =
      first.toList :: others.map fun name => ' ' :: name.toList := by
  have htext : (", ".intercalate (first :: others)).toList =
      [','].intercalate (first.toList :: others.map fun name => ' ' :: name.toList) := by
    rw [String.toList_intercalate, List.map_cons]
    exact (intercalate_cons _ _).trans (by rw [List.map_map]; rfl)
  rw [htext, List.splitOn_intercalate ',' ?_ (List.cons_ne_nil _ _)]
  intro part hpart
  rcases List.mem_cons.mp hpart with rfl | hpart
  · exact hplain first List.mem_cons_self
  · obtain ⟨name, hname, rfl⟩ := List.mem_map.mp hpart
    rw [List.mem_cons, not_or]
    exact ⟨by decide, hplain name (List.mem_cons_of_mem _ hname)⟩

/-- Texts without commas can be read back from their list. -/
theorem intercalate_injective {names names' : List String}
    (hplain : ∀ name ∈ names, ',' ∉ name.toList)
    (hplain' : ∀ name ∈ names', ',' ∉ name.toList) (hsome : names ≠ [])
    (hsome' : names' ≠ []) (h : ", ".intercalate names = ", ".intercalate names') :
    names = names' := by
  obtain ⟨first, others, rfl⟩ := List.exists_cons_of_ne_nil hsome
  obtain ⟨first', others', rfl⟩ := List.exists_cons_of_ne_nil hsome'
  have hsplit := splitOn_intercalate hplain
  rw [h, splitOn_intercalate hplain'] at hsplit
  obtain ⟨hfirst, hothers⟩ := List.cons.inj hsplit
  have hinjective : Function.Injective fun name : String => ' ' :: name.toList :=
    fun a b hab => String.toList_inj.mp (List.cons.inj hab).2
  rw [String.toList_inj.mp hfirst, List.map_injective_iff.mpr hinjective hothers]

theorem notMem_comma {name : String} (h : name ∈ unresolvedIn context (scan template)) :
    ',' ∉ name.toList := by
  obtain ⟨e, he, rfl⟩ := List.mem_map.mp (List.mem_filter.mp h).1
  obtain ⟨leading, trailing, -, -, hname, -⟩ := wellFormed_of_mem_expressions he
  rw [String.toList_ofList]
  intro hcomma
  exact absurd (inName_of_isDottedFrom hname ',' hcomma) (by decide)

theorem render_eq_error_iff_unresolvedIn {err : LoadError} :
    render template context = .error err ↔ unresolvedIn context (scan template) ≠ [] ∧
      err = .undefinedVariable (", ".intercalate (unresolvedIn context (scan template))) :=
  render_eq_error_iff

/-- The names are in the error, whatever template and context it comes from. -/
theorem unresolvedIn_eq_of_error {template' : String} {context' : Context} {err : LoadError}
    (h : render template context = .error err)
    (h' : render template' context' = .error err) :
    unresolvedIn context (scan template) = unresolvedIn context' (scan template') := by
  obtain ⟨hsome, rfl⟩ := render_eq_error_iff_unresolvedIn.mp h
  obtain ⟨hsome', hsame⟩ := render_eq_error_iff_unresolvedIn.mp h'
  exact intercalate_injective (fun _ => notMem_comma) (fun _ => notMem_comma) hsome hsome'
    (LoadError.undefinedVariable.inj hsame)

/-- Only whether there are values counts, and not what they are. -/
theorem unresolvedIn_congr {context' : Context}
    (h : ∀ e, .expression e ∈ segs → (context.get? (String.ofList e.name) = none ↔
      context'.get? (String.ofList e.name) = none)) :
    unresolvedIn context segs = unresolvedIn context' segs := by
  refine List.filter_congr fun name hname => ?_
  obtain ⟨e, he, rfl⟩ := List.mem_map.mp hname
  rw [Bool.eq_iff_iff, Option.isNone_iff_eq_none, Option.isNone_iff_eq_none]
  exact h e (mem_expressionsOf_iff.mp he)

/-! ### Templates without expressions -/

theorem render_of_noExpressions (h : hasExpressions template = false) (context : Context) :
    render template context = .ok template := by
  have hnone := hasExpressions_eq_false_iff.mp h
  rw [render, undefinedNames, names, hnone]
  exact congrArg Except.ok String.ofList_toList

theorem unresolvedIn_empty (segs : List Segment) :
    unresolvedIn .empty segs = namesIn segs := by
  refine List.filter_eq_self.mpr fun name _ => ?_
  rw [Context.get?_empty]
  rfl

theorem noExpressions_of_render_empty (h : render template .empty = .ok template) :
    hasExpressions template = false := by
  rw [hasExpressions_eq_false_iff]
  refine Classical.byContradiction fun hsome => ?_
  have hnames : unresolvedIn .empty (scan template) ≠ [] := by
    rw [unresolvedIn_empty]
    exact mt List.map_eq_nil_iff.mp hsome
  rw [render_eq_error_iff_unresolvedIn.mpr ⟨hnames, rfl⟩] at h
  cases h

/-! ### The failures of rendering -/

/-- Over the cut of the template, rendering fails exactly for an expression
whose name the context has no value for, with the list of all such names, which
the error gives back and in which the other values have no part. The templates
without an expression are those that no context, and those that the empty
context, renders to anything else. -/
theorem render_fails_iff (template : String) :
    ∃ segs, (∀ segs', Cut template.toList segs' ↔ segs' = segs) ∧
      (∀ context, (∃ err, render template context = .error err) ↔
        ∃ e, .expression e ∈ segs ∧ context.get? (String.ofList e.name) = none) ∧
      (∀ context err, render template context = .error err →
        err = .undefinedVariable (", ".intercalate (unresolvedIn context segs))) ∧
      (∀ context template' context' segs' err, Cut template'.toList segs' →
        render template context = .error err → render template' context' = .error err →
        unresolvedIn context segs = unresolvedIn context' segs') ∧
      (∀ context context', (∀ e, .expression e ∈ segs →
          (context.get? (String.ofList e.name) = none ↔
            context'.get? (String.ofList e.name) = none)) →
        ∀ err, render template context = .error err ↔
          render template context' = .error err) ∧
      (hasExpressions template = true ↔
        ∃ e : Expression, e.Matches ∧ e.chars <:+: template.toList) ∧
      (hasExpressions template = false ↔ render template .empty = .ok template) ∧
      (hasExpressions template = false ↔ ∀ context,
        render template context = .ok template) := by
  refine ⟨scan template, fun segs' => cut_iff, fun context => ?_,
    fun context err herror =>
      ?_, fun context template' context' segs' err hcut herror herror' => ?_,
    fun context context' hsame err =>
      ?_, hasExpressions_iff, ⟨fun hnone => ?_, fun hempty => ?_⟩,
    ⟨render_of_noExpressions, fun hall => ?_⟩⟩
  · rw [← unresolvedIn_ne_nil_iff]
    constructor
    · rintro ⟨err, herror⟩
      exact (render_eq_error_iff_unresolvedIn.mp herror).1
    · exact fun hsome => ⟨_, render_eq_error_iff_unresolvedIn.mpr ⟨hsome, rfl⟩⟩
  · exact (render_eq_error_iff_unresolvedIn.mp herror).2
  · rw [cut_iff.mp hcut]
    exact unresolvedIn_eq_of_error herror herror'
  · rw [render_eq_error_iff_unresolvedIn, render_eq_error_iff_unresolvedIn,
      unresolvedIn_congr hsame]
  · exact render_of_noExpressions hnone .empty
  · exact noExpressions_of_render_empty hempty
  · exact noExpressions_of_render_empty (hall .empty)

/-- A name that is asked for twice, and another value for a name that has one. -/
theorem render_fails_iff_of_repeated :
    let template := "\x7b\x7b a \x7d\x7d-\x7b\x7bb\x7d\x7d\x7b\x7ba\x7d\x7d"
    let other := "\x7b\x7ba\x7d\x7d\x7b\x7ba\x7d\x7d"
    let context (value : String) : Context := ⟨some (NameMap.ofList [("b", value)]), .null⟩
    render template (context "1") = .error (.undefinedVariable "a, a") ∧
      render template (context "2") = .error (.undefinedVariable "a, a") ∧
      unresolvedIn (context "2") (scan template) =
        unresolvedIn (context "1") (scan other) := by
  intro template other context
  obtain ⟨segs, hcut, hfails, herror, hread, hvalues, -⟩ := render_fails_iff template
  obtain rfl : scan template = segs := (hcut _).mp (cut_iff.mpr rfl)
  obtain ⟨err, hone⟩ := (hfails (context "1")).mpr
    ⟨⟨"\x7b\x7b a \x7d\x7d".toList, ['a']⟩, by decide +kernel, by decide +kernel⟩
  have hlisted : unresolvedIn (context "1") (scan template) = ["a", "a"] := by
    decide +kernel
  have htext := herror _ _ hone
  rw [hlisted] at htext
  subst htext
  have hsame : ∀ e ∈ expressionsOf (scan template),
      ((context "1").get? (String.ofList e.name) = none ↔
        (context "2").get? (String.ofList e.name) = none) := by
    decide +kernel
  have htwo := (hvalues _ _ (fun e he => hsame e (mem_expressionsOf_iff.mpr he)) _).mp hone
  exact ⟨hone, htwo, hread _ _ (context "1") _ _ (cut_iff.mpr rfl) htwo (by decide +kernel)⟩

end WarehouseLoader.Template

import WarehouseLoader.Proofs.Template.Substitution

/-!
# How a template is cut up

What the expressions of a template are is said here without the scan. An
expression is two opening braces, blanks, a name, blanks and two closing
braces, where a name is one part or several with dots between them
(`Expression.Matches`). A template is cut up from the left: where an expression
begins it is taken whole, and where none begins one character is passed over
(`Cut`). That leaves no choice, and the scan is what comes of it
(`cut_iff`).

So rendering, the test for templates and the check of their form, all of which
go by the scan, go by one and the same cut. The test asks less than the others,
since an expression anywhere is enough for it, even one that the cut would not
find where another overlaps it; it is the same all the same
(`hasExpressions_iff`).
-/

namespace WarehouseLoader.Template

variable {e : Expression} {cs rest : List Char} {segs segs' : List Segment}
  {template : String}

/-- What stands between the dots of a name. -/
def IsPart (part : List Char) : Prop :=
  ∃ c more, part = c :: more ∧ startsName c = true ∧ ∀ d ∈ more, continuesName d = true

/-- One part, and then any number of parts with a dot in front of each. -/
def IsName (name : List Char) : Prop :=
  ∃ (first : List Char) (others : List (List Char)), IsPart first ∧
    (∀ part ∈ others, IsPart part) ∧ name = first ++ others.flatMap ('.' :: ·)

/-- The characters are those of an expression with this name. -/
def Expression.Matches (e : Expression) : Prop :=
  ∃ leading trailing : List Char, (∀ c ∈ leading, Text.isBlank c = true) ∧
    (∀ c ∈ trailing, Text.isBlank c = true) ∧ IsName e.name ∧
    e.chars = openMark ++ leading ++ e.name ++ trailing ++ closeMark

/-- A text is cut up into the expressions that begin in it, one behind the
other, and the characters between them. -/
inductive Cut : List Char → List Segment → Prop
  | nil : Cut [] []
  | literal {c : Char} {rest : List Char} {segs : List Segment}
      (hnone : ∀ e : Expression, e.Matches → ¬ e.chars <+: c :: rest) (h : Cut rest segs) :
      Cut (c :: rest) (.literal c :: segs)
  | expression {e : Expression} {rest : List Char} {segs : List Segment} (he : e.Matches)
      (h : Cut rest segs) : Cut (e.chars ++ rest) (.expression e :: segs)

/-! ### Names -/

theorem continuesName_dot : continuesName '.' = false := by decide

/-- In front of the next dot a part goes on, and behind it one begins. -/
theorem isDottedFrom_iff (cs : List Char) :
    (isDottedFrom true cs = true ↔ IsName cs) ∧
      (isDottedFrom false cs = true ↔ ∃ (more : List Char) (others : List (List Char)),
        (∀ d ∈ more, continuesName d = true) ∧ (∀ part ∈ others, IsPart part) ∧
        cs = more ++ others.flatMap ('.' :: ·)) := by
  induction cs with
  | nil =>
      constructor
      · constructor
        · intro h
          cases h
        · rintro ⟨first, others, ⟨c, more, rfl, -⟩, -, hcs⟩
          cases hcs
      · exact ⟨fun _ => ⟨[], [], fun d hd => absurd hd List.not_mem_nil,
          fun part hpart => absurd hpart List.not_mem_nil, rfl⟩, fun _ => rfl⟩
  | cons c rest ih =>
      obtain ⟨hbegins, hgoes⟩ := ih
      constructor
      · rw [isDottedFrom, if_pos rfl, Bool.and_eq_true, hgoes]
        constructor
        · rintro ⟨hc, more, others, hmore, hothers, rfl⟩
          exact ⟨c :: more, others, ⟨c, more, rfl, hc, hmore⟩, hothers, rfl⟩
        · rintro ⟨first, others, ⟨c', more, rfl, hc, hmore⟩, hothers, hcs⟩
          obtain ⟨rfl, rfl⟩ := List.cons.inj hcs
          exact ⟨hc, more, others, hmore, hothers, rfl⟩
      · rw [isDottedFrom, if_neg Bool.false_ne_true]
        by_cases hdot : c = '.'
        · subst hdot
          rw [if_pos rfl, hbegins]
          constructor
          · rintro ⟨first, others, hfirst, hothers, rfl⟩
            exact ⟨[], first :: others, fun d hd => absurd hd List.not_mem_nil,
              List.forall_mem_cons.mpr ⟨hfirst, hothers⟩, by simp⟩
          · rintro ⟨more, others, hmore, hothers, hcs⟩
            cases more with
            | cons d more =>
                obtain ⟨rfl, -⟩ := List.cons.inj hcs
                have hcontinues := hmore '.' List.mem_cons_self
                rw [continuesName_dot] at hcontinues
                cases hcontinues
            | nil =>
                cases others with
                | nil => cases hcs
                | cons first others =>
                    obtain ⟨hfirst, hothers⟩ := List.forall_mem_cons.mp hothers
                    exact ⟨first, others, hfirst, hothers, (List.cons.inj hcs).2⟩
        · rw [if_neg hdot, Bool.and_eq_true, hgoes]
          constructor
          · rintro ⟨hc, more, others, hmore, hothers, rfl⟩
            exact ⟨c :: more, others, List.forall_mem_cons.mpr ⟨hc, hmore⟩, hothers, rfl⟩
          · rintro ⟨more, others, hmore, hothers, hcs⟩
            cases more with
            | cons d more =>
                obtain ⟨rfl, rfl⟩ := List.cons.inj hcs
                obtain ⟨hc, hmore⟩ := List.forall_mem_cons.mp hmore
                exact ⟨hc, more, others, hmore, hothers, rfl⟩
            | nil =>
                cases others with
                | nil => cases hcs
                | cons first others => exact absurd (List.cons.inj hcs).1 hdot

theorem Expression.matches_iff : e.Matches ↔ e.WellFormed := by
  have hname : IsName e.name ↔ isDotted e.name = true := (isDottedFrom_iff e.name).1.symm
  simp only [Matches, WellFormed, hname]

theorem Expression.Matches.ne_nil (h : e.Matches) : e.chars ≠ [] :=
  (matches_iff.mp h).ne_nil

/-! ### The cut -/

theorem cut_scanFrom (skip : Nat) (cs : List Char) :
    Cut (cs.drop skip) (scanFrom skip cs) := by
  induction cs generalizing skip with
  | nil =>
      rw [List.drop_nil, scanFrom]
      exact .nil
  | cons c rest ih =>
      cases skip with
      | succ skip => exact ih skip
      | zero =>
          rw [scanFrom, List.drop_zero]
          cases hfound : expressionAt? (c :: rest) with
          | none =>
              refine .literal (fun e he hprefix => ?_) (ih 0)
              have hfound' :=
                expressionAt?_eq_some_iff.mpr ⟨Expression.matches_iff.mp he, hprefix⟩
              exact absurd (hfound'.symm.trans hfound) (Option.some_ne_none e)
          | some e =>
              obtain ⟨he, behind, hbehind⟩ := expressionAt?_eq_some_iff.mp hfound
              obtain ⟨d, tail, hchars, -⟩ := he.chars_eq
              have hrest : rest.drop (e.chars.length - 1) = behind := by
                rw [hchars] at hbehind ⊢
                rw [← (List.cons.inj hbehind).2]
                exact List.drop_left
              have hcut := ih (e.chars.length - 1)
              rw [hrest] at hcut
              rw [← hbehind]
              exact .expression (Expression.matches_iff.mpr he) hcut

theorem Cut.unique (h : Cut cs segs) (h' : Cut cs segs') : segs = segs' := by
  induction h generalizing segs' with
  | nil =>
      generalize hcs : ([] : List Char) = cs at h'
      cases h' with
      | nil => rfl
      | literal hnone h => cases hcs
      | @expression e rest segs he h =>
          have hnil := (List.append_eq_nil_iff.mp hcs.symm).1
          exact absurd hnil he.ne_nil
  | @literal c rest segs hnone h ih =>
      generalize hcs : c :: rest = cs at h'
      cases h' with
      | nil => cases hcs
      | literal hnone' h' =>
          obtain ⟨rfl, rfl⟩ := List.cons.inj hcs
          rw [ih h']
      | @expression e rest' segs' he h' => exact absurd ⟨rest', hcs.symm⟩ (hnone e he)
  | @expression e rest segs he h ih =>
      generalize hcs : e.chars ++ rest = cs at h'
      cases h' with
      | nil =>
          have hnil := (List.append_eq_nil_iff.mp hcs).1
          exact absurd hnil he.ne_nil
      | literal hnone h' => exact absurd ⟨rest, hcs⟩ (hnone e he)
      | @expression e' rest' segs' he' h' =>
          have heq : e = e' :=
            Expression.WellFormed.eq_of_prefix (Expression.matches_iff.mp he)
            (Expression.matches_iff.mp he') ⟨rest, hcs⟩ ⟨rest', rfl⟩
          subst heq
          rw [List.append_cancel_left hcs] at ih
          rw [ih h']

/-- The scan of a template is its cut. -/
theorem cut_iff : Cut template.toList segs ↔ segs = scan template := by
  have hscan : Cut template.toList (scan template) := cut_scanFrom 0 template.toList
  exact ⟨fun h => h.unique hscan, fun h => h ▸ hscan⟩

/-- Where the cut finds no expression there is none. -/
theorem Cut.not_infix (h : Cut cs segs) (hnone : ∀ x, .expression x ∉ segs)
    (he : e.Matches) : ¬ e.chars <:+: cs := by
  induction h with
  | nil =>
      intro hinfix
      exact he.ne_nil (List.infix_nil.mp hinfix)
  | literal hfree h ih =>
      intro hinfix
      rcases List.infix_cons_iff.mp hinfix with hprefix | hinfix
      · exact hfree e he hprefix
      · exact ih (fun x hx => hnone x (List.mem_cons_of_mem _ hx)) hinfix
  | expression hx h ih => exact absurd List.mem_cons_self (hnone _)

theorem hasExpressions_eq_false_iff :
    hasExpressions template = false ↔ expressions template = [] := by
  rw [hasExpressions, Bool.not_eq_false', List.isEmpty_iff]

/-- A template has expressions if one stands in it anywhere. -/
theorem hasExpressions_iff :
    hasExpressions template = true ↔
      ∃ e : Expression, e.Matches ∧ e.chars <:+: template.toList := by
  have hcut : Cut template.toList (scan template) := cut_iff.mpr rfl
  constructor
  · intro h
    have hsome : expressions template ≠ [] := fun hnil => by
      rw [hasExpressions_eq_false_iff.mpr hnil] at h
      cases h
    obtain ⟨e, he⟩ := List.exists_mem_of_ne_nil _ hsome
    obtain ⟨front, back, hscan⟩ := List.append_of_mem (mem_expressions_iff.mp he)
    have hjoined : joined (scan template) = template.toList := joined_scan template
    rw [hscan, joined_append, joined_cons, ← List.append_assoc] at hjoined
    exact ⟨e, Expression.matches_iff.mpr (wellFormed_of_mem_expressions he), joined front,
      joined back, hjoined⟩
  · rintro ⟨e, he, hinfix⟩
    rw [← Bool.not_eq_false, hasExpressions_eq_false_iff]
    intro hnone
    refine hcut.not_infix (fun x hx => ?_) he hinfix
    have hmem := mem_expressions_iff.mpr hx
    rw [hnone] at hmem
    exact absurd hmem List.not_mem_nil

end WarehouseLoader.Template

import WarehouseLoader.Proofs.Template.Expression

/-!
# One replacement after the other

Rendering replaces the expressions of a template in the order of the scan, each
in the text as it then is. This file compares that with `substituted`, where
all are replaced at once.

The text is kept as a list of segments that it is the join of. Replacing an
expression in the text is replacing it among the segments (`replaceFrom_joined`)
as long as the list is `Clean`: no expression begins at one of its literals.
A scan is clean, and what a step puts in decides whether the next list is.

Values without an opening brace keep it clean if the template has no doubled
opening brace to spare, and then both outcomes are the same
(`replaceEach_of_noMark`). Nothing like that can be had for all values. As soon as
there are two expressions, give every name the last of them and a mark behind
it as value: the text stays clean, but the last step replaces what the steps in
front of it put in, and the marks that this leaves are too many
(`count_mark_le`).
-/

namespace WarehouseLoader.Template

variable {e x : Expression} {segs part : List Segment} {cs value : List Char}

/-- The text that segments are cut from. -/
def joined (segs : List Segment) : List Char := segs.flatMap Segment.chars

/-- Expressions are well-formed, and none begins at a literal. -/
def Clean : List Segment → Prop
  | [] => True
  | .literal c :: rest => expressionAt? (c :: joined rest) = none ∧ Clean rest
  | .expression e :: rest => e.WellFormed ∧ Clean rest

theorem joined_cons (seg : Segment) (segs : List Segment) :
    joined (seg :: segs) = seg.chars ++ joined segs :=
  List.flatMap_cons

theorem joined_append (segs segs' : List Segment) :
    joined (segs ++ segs') = joined segs ++ joined segs' :=
  List.flatMap_append

theorem joined_literals (cs : List Char) : joined (cs.map Segment.literal) = cs := by
  induction cs with
  | nil => rfl
  | cons c rest ih => exact congrArg (c :: ·) ih

theorem Clean.tail {seg : Segment} (h : Clean (seg :: segs)) : Clean segs := by
  cases seg <;> exact h.2

theorem Clean.wellFormed (h : Clean segs) : ∀ x, .expression x ∈ segs → x.WellFormed := by
  induction segs with
  | nil => exact fun x hx => absurd hx List.not_mem_nil
  | cons seg rest ih =>
      intro x hx
      cases seg with
      | literal c =>
          rcases List.mem_cons.mp hx with hx | hx
          · cases hx
          · exact ih h.tail x hx
      | expression y =>
          rcases List.mem_cons.mp hx with hx | hx
          · obtain rfl : x = y := Segment.expression.inj hx
            exact h.1
          · exact ih h.tail x hx

theorem clean_scanFrom (skip : Nat) (cs : List Char) : Clean (scanFrom skip cs) := by
  induction cs generalizing skip with
  | nil => cases skip <;> exact trivial
  | cons c rest ih =>
      cases skip with
      | succ skip =>
          rw [scanFrom]
          exact ih skip
      | zero =>
          rw [scanFrom]
          cases he : expressionAt? (c :: rest) with
          | none =>
              refine ⟨?_, ih 0⟩
              rw [joined, joined_scanFrom]
              exact he
          | some e => exact ⟨wellFormed_of_expressionAt? he, ih _⟩

/-- The expressions among the segments. -/
def expressionsOf (segs : List Segment) : List Expression :=
  segs.filterMap Segment.expression?

theorem mem_expressionsOf_iff : e ∈ expressionsOf segs ↔ .expression e ∈ segs := by
  constructor
  · intro h
    obtain ⟨seg, hseg, he⟩ := List.mem_filterMap.mp h
    cases seg with
    | literal c => cases he
    | expression x =>
        obtain rfl : x = e := Option.some.inj he
        exact hseg
  · exact fun h => List.mem_filterMap.mpr ⟨_, h, rfl⟩

theorem mem_expressions_iff {template : String} :
    e ∈ expressions template ↔ .expression e ∈ scan template :=
  mem_expressionsOf_iff

theorem wellFormed_of_mem_expressions {template : String} (h : e ∈ expressions template) :
    e.WellFormed :=
  (clean_scanFrom 0 template.toList).wellFormed e (mem_expressions_iff.mp h)

/-- Where an expression begins at a literal, its second brace is a literal too. -/
theorem pair_of_expressionAt? {c : Char}
    (hformed : ∀ x, .expression x ∈ segs → x.WellFormed)
    (h : expressionAt? (c :: joined segs) = some x) :
    c = '{' ∧ ∃ rest tail, segs = .literal '{' :: rest ∧ x.chars = '{' :: '{' :: tail ∧
      '{' ∉ tail ∧ tail <+: joined rest := by
  obtain ⟨hx, hprefix⟩ := expressionAt?_eq_some_iff.mp h
  obtain ⟨d, tail, hchars, hopen⟩ := hx.chars_eq
  rw [hchars] at hprefix
  obtain ⟨rfl, hbehind⟩ := List.cons_prefix_cons.mp hprefix
  refine ⟨rfl, ?_⟩
  cases segs with
  | nil => cases List.prefix_nil.mp hbehind
  | cons seg rest =>
      cases seg with
      | literal c' =>
          obtain ⟨rfl, htail⟩ := List.cons_prefix_cons.mp hbehind
          exact ⟨rest, _, rfl, hchars, hopen, htail⟩
      | expression y =>
          obtain ⟨d', tail', hchars', -⟩ := (hformed y List.mem_cons_self).chars_eq
          have hjoined : joined (.expression y :: rest) =
              '{' :: '{' :: d' :: (tail' ++ joined rest) := by
            rw [joined_cons, Segment.chars, hchars']
            rfl
          rw [hjoined] at hbehind
          obtain ⟨rfl, -⟩ := List.cons_prefix_cons.mp (List.cons_prefix_cons.mp hbehind).2
          exact absurd List.mem_cons_self hopen

/-! ### One step -/

/-- The segments with an expression replaced. -/
def put (e : Expression) (part : List Segment) : Segment → List Segment
  | .literal c => [.literal c]
  | .expression x => if x = e then part else [.expression x]

theorem replaceFrom_joined (he : e.WellFormed) (h : Clean segs) (part : List Segment) :
    replaceFrom e.chars (joined part) 0 (joined segs) =
      joined (segs.flatMap (put e part)) := by
  induction segs with
  | nil => rfl
  | cons seg rest ih =>
      rw [List.flatMap_cons, joined_append]
      cases seg with
      | literal c =>
          obtain ⟨hc, hrest⟩ := h
          have hnot : ¬ e.chars <+: c :: joined rest := by
            intro hprefix
            rw [expressionAt?_eq_some_iff.mpr ⟨he, hprefix⟩] at hc
            cases hc
          exact (replaceFrom_cons hnot _).trans (congrArg (c :: ·) (ih hrest))
      | expression x =>
          obtain ⟨hx, hrest⟩ := h
          rw [put]
          split
          · next heq =>
              subst heq
              rw [← ih hrest]
              exact replaceFrom_own hx.ne_nil _ _
          · next hne =>
              have hown : joined [.expression x] = x.chars := List.flatMap_singleton _ _
              rw [hown, ← ih hrest]
              exact replaceFrom_other he hx hne _ _

/-! ### Values without an opening brace -/

/-- The literals among the segments. -/
def literalsOf (segs : List Segment) : List Char := segs.filterMap Segment.literal?

theorem holds_iff_infix {part : List Char} : holds part cs = true ↔ part <:+: cs := by
  induction cs with
  | nil => rw [holds, List.isEmpty_iff, List.infix_nil]
  | cons c rest ih =>
      rw [holds, Bool.or_eq_true, List.isPrefixOf_iff_prefix, ih, List.infix_cons_iff]

/-- A doubled character stands at the front or further behind. -/
theorem holds_pair_cons (b c : Char) (cs : List Char) :
    holds [b, b] (c :: cs) = false ↔
      ¬ (c = b ∧ cs.head? = some b) ∧ holds [b, b] cs = false := by
  rw [holds, Bool.or_eq_false_iff, ← Bool.not_eq_true, List.isPrefixOf_iff_prefix]
  refine and_congr_left fun _ => not_congr ?_
  rw [List.cons_prefix_cons]
  cases cs with
  | nil => simp
  | cons c' rest => simp [List.cons_prefix_cons, eq_comm]

theorem holds_pair_append {b : Char} {front : List Char} (hfront : b ∉ front)
    (cs : List Char) : holds [b, b] (front ++ cs) = holds [b, b] cs := by
  induction front with
  | nil => rfl
  | cons c more ih =>
      obtain ⟨hc, hmore⟩ := not_or.mp (mt List.mem_cons.mpr hfront)
      rw [List.cons_append, holds, ih hmore]
      have hnot : [b, b].isPrefixOf (c :: (more ++ cs)) = false := by
        rw [← Bool.not_eq_true, List.isPrefixOf_iff_prefix, List.cons_prefix_cons]
        exact fun h => hc h.1
      rw [hnot, Bool.false_or]

/-- Where the expressions bring no `b`, two of them come together only if they
do among the literals: what stands between two that meet is empty. -/
theorem noPair_flatMap {b : Char} {chars : Segment → List Char}
    (hliteral : ∀ c, chars (.literal c) = [c])
    (hexpression : ∀ x, .expression x ∈ segs → b ∉ chars (.expression x))
    (h : holds [b, b] (literalsOf segs) = false) :
    holds [b, b] (segs.flatMap chars) = false ∧
      ((segs.flatMap chars).head? = some b → (literalsOf segs).head? = some b) := by
  induction segs with
  | nil => exact ⟨h, id⟩
  | cons seg rest ih =>
      have hrest := ih fun x hx => hexpression x (List.mem_cons_of_mem _ hx)
      rw [List.flatMap_cons]
      cases seg with
      | literal c =>
          obtain ⟨hpair, hbehind⟩ := (holds_pair_cons b c (literalsOf rest)).mp h
          obtain ⟨hheld, hhead⟩ := hrest hbehind
          rw [hliteral]
          exact ⟨(holds_pair_cons b c _).mpr
            ⟨fun hnew => hpair ⟨hnew.1, hhead hnew.2⟩, hheld⟩, id⟩
      | expression x =>
          obtain ⟨hheld, hhead⟩ := hrest h
          have hx := hexpression x List.mem_cons_self
          rw [holds_pair_append hx]
          refine ⟨hheld, fun hnew => ?_⟩
          cases hchars : chars (.expression x) with
          | nil =>
              rw [hchars] at hnew
              exact hhead hnew
          | cons c more =>
              rw [hchars] at hnew hx
              cases hnew
              exact absurd List.mem_cons_self hx

/-- No expression begins at a single brace, even with an expression behind it. -/
theorem clean_of_noMark (hformed : ∀ x, .expression x ∈ segs → x.WellFormed)
    (h : holds openMark (literalsOf segs) = false) : Clean segs := by
  induction segs with
  | nil => exact trivial
  | cons seg rest ih =>
      have hformed' := fun x hx => hformed x (List.mem_cons_of_mem _ hx)
      cases seg with
      | expression x => exact ⟨hformed x List.mem_cons_self, ih hformed' h⟩
      | literal c =>
          obtain ⟨hpair, hrest⟩ := (holds_pair_cons '{' c (literalsOf rest)).mp h
          refine ⟨?_, ih hformed' hrest⟩
          cases hfound : expressionAt? (c :: joined rest) with
          | none => rfl
          | some x =>
              obtain ⟨rfl, others, _, rfl, -⟩ := pair_of_expressionAt? hformed' hfound
              exact absurd ⟨rfl, rfl⟩ hpair

theorem literalsOf_literals (cs : List Char) :
    literalsOf (cs.map Segment.literal) = cs := by
  induction cs with
  | nil => rfl
  | cons c rest ih => exact congrArg (c :: ·) ih

/-- A value without an opening brace does not bring two of them together. -/
theorem noMark_put (hvalue : '{' ∉ value) (h : holds openMark (literalsOf segs) = false) :
    holds openMark (literalsOf (segs.flatMap (put e (value.map .literal)))) = false := by
  have hparts : literalsOf (segs.flatMap (put e (value.map .literal))) =
      segs.flatMap fun seg => literalsOf (put e (value.map .literal) seg) :=
    List.filterMap_flatMap
  rw [hparts]
  refine (noPair_flatMap (fun c => rfl) (fun x _ => ?_) h).1
  rw [put]
  split
  · rw [literalsOf_literals]
    exact hvalue
  · exact List.not_mem_nil

theorem wellFormed_put (hformed : ∀ x, .expression x ∈ segs → x.WellFormed)
    (hpart : ∀ x, .expression x ∈ part → x.WellFormed) :
    ∀ x, .expression x ∈ segs.flatMap (put e part) → x.WellFormed := by
  intro x hx
  obtain ⟨seg, hseg, hx⟩ := List.mem_flatMap.mp hx
  cases seg with
  | literal c => cases List.mem_singleton.mp hx
  | expression y =>
      rw [put] at hx
      split at hx
      · exact hpart x hx
      · obtain rfl : x = y := Segment.expression.inj (List.mem_singleton.mp hx)
        exact hformed x hseg

/-- The characters of a segment once the expressions `es` are replaced. -/
def Segment.settled (values : Expression → List Char) (es : List Expression) :
    Segment → List Char
  | .literal c => [c]
  | .expression x => if x ∈ es then values x else x.chars

theorem joined_eq_settled (values : Expression → List Char) (segs : List Segment) :
    joined segs = segs.flatMap (Segment.settled values []) := by
  refine List.flatMap_congr fun seg _ => ?_
  cases seg <;> rfl

theorem settled_put (values : Expression → List Char) (es : List Expression)
    (segs : List Segment) :
    (segs.flatMap (put e ((values e).map .literal))).flatMap (Segment.settled values es) =
      segs.flatMap (Segment.settled values (e :: es)) := by
  have hliterals (cs : List Char) :
      (cs.map Segment.literal).flatMap (Segment.settled values es) = cs := by
    induction cs with
    | nil => rfl
    | cons c rest ih => exact congrArg (c :: ·) ih
  rw [List.flatMap_assoc]
  refine List.flatMap_congr fun seg _ => ?_
  cases seg with
  | literal c => rfl
  | expression x =>
      rw [put, Segment.settled]
      split
      · next heq =>
          subst heq
          rw [hliterals, if_pos List.mem_cons_self]
      · next hne =>
          rw [List.flatMap_singleton, Segment.settled]
          simp only [List.mem_cons, hne, false_or]

/-- One after the other, each in the text that the ones before it left. -/
def replaceEach (values : Expression → List Char) (es : List Expression)
    (text : List Char) : List Char :=
  es.foldl (fun text e => replaceFrom e.chars (values e) 0 text) text

theorem replaceEach_of_noMark {values : Expression → List Char} {es : List Expression}
    (hes : ∀ e ∈ es, e.WellFormed ∧ '{' ∉ values e)
    (hformed : ∀ x, .expression x ∈ segs → x.WellFormed)
    (h : holds openMark (literalsOf segs) = false) :
    replaceEach values es (joined segs) = segs.flatMap (Segment.settled values es) := by
  induction es generalizing segs with
  | nil => exact joined_eq_settled values segs
  | cons e rest ih =>
      obtain ⟨he, hvalue⟩ := hes e List.mem_cons_self
      have hstep :=
        replaceFrom_joined he (clean_of_noMark hformed h) ((values e).map .literal)
      rw [joined_literals] at hstep
      have hliteral : ∀ x, .expression x ∈ (values e).map Segment.literal →
          x.WellFormed := by
        intro x hx
        obtain ⟨c, -, hc⟩ := List.mem_map.mp hx
        cases hc
      have hrest := ih (fun e he => hes e (List.mem_cons_of_mem _ he))
        (wellFormed_put (e := e) hformed hliteral) (noMark_put hvalue h)
      rw [settled_put, ← hstep] at hrest
      exact hrest

theorem replaceEach_of_single {values : Expression → List Char} (he : e.WellFormed)
    (h : Clean segs) :
    replaceEach values [e] (joined segs) = segs.flatMap (Segment.settled values [e]) := by
  have hstep := replaceFrom_joined he h ((values e).map .literal)
  rw [joined_literals, joined_eq_settled values (segs.flatMap _), settled_put] at hstep
  exact hstep

/-! ### A value that is looked into -/

/-- An expression and a mark that no expression holds. -/
def marked (last : Expression) : List Segment := [.expression last, .literal '!']

variable {last : Expression}

theorem notMem_chars_mark (h : e.WellFormed) : '!' ∉ e.chars :=
  h.notMem_chars (by decide) (by decide) (by decide) (by decide)

theorem count_mark_marked (hlast : last.WellFormed) :
    (joined (marked last)).count '!' = 1 := by
  have hnone := List.count_eq_zero_of_not_mem (notMem_chars_mark hlast)
  rw [marked, joined_cons, List.count_append, Segment.chars, hnone]
  rfl

theorem prefix_of_prefix_put_marked (hlast : last.WellFormed)
    (hformed : ∀ x, .expression x ∈ segs → x.WellFormed) (hcs : '{' ∉ cs)
    (h : cs <+: joined (segs.flatMap (put e (marked last)))) : cs <+: joined segs := by
  induction segs generalizing cs with
  | nil => exact h
  | cons seg rest ih =>
      have hformed' := fun x hx => hformed x (List.mem_cons_of_mem _ hx)
      cases cs with
      | nil => exact List.nil_prefix
      | cons c more =>
          rw [List.flatMap_cons, joined_append] at h
          cases seg with
          | literal c' =>
              obtain ⟨rfl, hmore⟩ := List.cons_prefix_cons.mp h
              refine List.cons_prefix_cons.mpr ⟨rfl, ih hformed' (fun hmem => ?_) hmore⟩
              exact hcs (List.mem_cons_of_mem _ hmem)
          | expression x =>
              have hopens : ∃ behind, joined (put e (marked last) (.expression x)) =
                  '{' :: behind := by
                rw [put]
                split
                · obtain ⟨d, tail, hchars, -⟩ := hlast.chars_eq
                  exact ⟨_, by rw [marked, joined_cons, Segment.chars, hchars]; rfl⟩
                · obtain ⟨d, tail, hchars, -⟩ := (hformed x List.mem_cons_self).chars_eq
                  exact ⟨_, by rw [joined_cons, Segment.chars, hchars]; rfl⟩
              obtain ⟨behind, hbehind⟩ := hopens
              rw [hbehind] at h
              obtain ⟨rfl, -⟩ := List.cons_prefix_cons.mp h
              exact absurd List.mem_cons_self hcs

theorem literal_cons_of_put_marked {c : Char} {rest : List Segment}
    (h : segs.flatMap (put e (marked last)) = .literal c :: rest) :
    ∃ rest', segs = .literal c :: rest' ∧ rest = rest'.flatMap (put e (marked last)) := by
  cases segs with
  | nil => cases h
  | cons seg rest' =>
      rw [List.flatMap_cons] at h
      cases seg with
      | literal c' =>
          cases h
          exact ⟨rest', rfl, rfl⟩
      | expression x =>
          rw [put] at h
          split at h <;> cases h

theorem clean_put_marked (hlast : last.WellFormed) (h : Clean segs) :
    Clean (segs.flatMap (put e (marked last))) := by
  induction segs with
  | nil => exact trivial
  | cons seg rest ih =>
      cases seg with
      | literal c =>
          obtain ⟨hc, hrest⟩ := h
          have hcons : (Segment.literal c :: rest).flatMap (put e (marked last)) =
              .literal c :: rest.flatMap (put e (marked last)) := rfl
          rw [hcons]
          refine ⟨?_, ih hrest⟩
          cases hfound : expressionAt?
            (c :: joined (rest.flatMap (put e (marked last)))) with
          | none => rfl
          | some x =>
              -- the two braces and what is behind them stood there before the step
              obtain ⟨rfl, others, tail, hothers, hchars, hopen, htail⟩ :=
                pair_of_expressionAt? (ih hrest).wellFormed hfound
              obtain ⟨others', rfl, rfl⟩ := literal_cons_of_put_marked hothers
              have hbefore : x.chars <+: '{' :: '{' :: joined others' := by
                rw [hchars, List.prefix_cons_inj, List.prefix_cons_inj]
                exact prefix_of_prefix_put_marked hlast hrest.tail.wellFormed hopen htail
              have hx := wellFormed_of_expressionAt? hfound
              have hfound' := expressionAt?_eq_some_iff.mpr ⟨hx, hbefore⟩
              exact absurd (hfound'.symm.trans hc) (Option.some_ne_none x)
      | expression x =>
          obtain ⟨hx, hrest⟩ := h
          rw [List.flatMap_cons, put]
          split
          · exact ⟨hlast, rfl, ih hrest⟩
          · exact ⟨hx, ih hrest⟩

theorem expressionsOf_put_marked (segs : List Segment) :
    expressionsOf (segs.flatMap (put e (marked last))) =
      (expressionsOf segs).map fun x => if x = e then last else x := by
  induction segs with
  | nil => rfl
  | cons seg rest ih =>
      rw [List.flatMap_cons, expressionsOf, List.filterMap_append]
      cases seg with
      | literal c => exact ih
      | expression x =>
          have hcons : expressionsOf (.expression x :: rest) = x :: expressionsOf rest :=
            rfl
          rw [hcons, List.map_cons, ← ih, put]
          split <;> rfl

/-- Behind its step an expression is gone, unless it is the one that is put in. -/
theorem mem_of_mem_put_marked {es : List Expression} (hlast : last ∈ es)
    (hall : ∀ x ∈ expressionsOf segs, x ∈ e :: es) :
    ∀ x ∈ expressionsOf (segs.flatMap (put e (marked last))), x ∈ es := by
  intro x hx
  rw [expressionsOf_put_marked] at hx
  obtain ⟨y, hy, rfl⟩ := List.mem_map.mp hx
  split
  · exact hlast
  · next hne => exact (List.mem_cons.mp (hall y hy)).resolve_left hne

theorem count_mark_put (hlast : last.WellFormed) (h : Clean segs) :
    (joined (segs.flatMap (put e (marked last)))).count '!' =
      (joined segs).count '!' + (expressionsOf segs).count e := by
  induction segs with
  | nil => rfl
  | cons seg rest ih =>
      rw [List.flatMap_cons, joined_append, List.count_append, ih h.tail]
      cases seg with
      | literal c =>
          rw [joined_cons, List.count_append, Nat.add_assoc]
          rfl
      | expression x =>
          have hlist : expressionsOf (.expression x :: rest) = x :: expressionsOf rest :=
            rfl
          have hx := List.count_eq_zero_of_not_mem (notMem_chars_mark h.1)
          rw [joined_cons, hlist, List.count_append, Segment.chars, hx,
            List.count_cons, put]
          by_cases heq : x = e
          · rw [if_pos heq, count_mark_marked hlast, if_pos (beq_iff_eq.mpr heq)]
            omega
          · have hown : joined [.expression x] = x.chars := List.flatMap_singleton _ _
            rw [if_neg heq, hown, hx, if_neg (mt beq_iff_eq.mp heq)]
            omega

/-- The last step adds a mark for every expression there is, for all are `last`
by then. -/
theorem count_mark_le {front : List Expression} (hfront : ∀ e ∈ front, e.WellFormed)
    (hlast : last.WellFormed) (h : Clean segs)
    (hall : ∀ x ∈ expressionsOf segs, x ∈ front ++ [last]) :
    (joined segs).count '!' + (expressionsOf segs).length ≤
      (replaceEach (fun _ => joined (marked last)) (front ++ [last])
        (joined segs)).count '!' := by
  induction front generalizing segs with
  | nil =>
      have hcount : (expressionsOf segs).count last = (expressionsOf segs).length :=
        List.count_eq_length.mpr fun x hx => (List.mem_singleton.mp (hall x hx)).symm
      have hstep := replaceFrom_joined hlast h (marked last)
      rw [← hcount, ← count_mark_put hlast h, ← hstep]
      exact Nat.le_refl _
  | cons e rest ih =>
      have hrun := ih (fun e he => hfront e (List.mem_cons_of_mem _ he))
        (clean_put_marked (e := e) hlast h) (mem_of_mem_put_marked (by simp) hall)
      have hstep := replaceFrom_joined (hfront e List.mem_cons_self) h (marked last)
      rw [expressionsOf_put_marked, List.length_map,
        count_mark_put hlast h, ← hstep] at hrun
      exact Nat.le_trans (by omega) hrun

end WarehouseLoader.Template

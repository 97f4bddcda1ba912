import WarehouseLoader.Http.Client
import WarehouseLoader.Proofs.Http.Percent
import WarehouseLoader.Proofs.Text.Pieces

/-!
# The segments of a path

A path is cut at its slashes, and the pieces are resolved one after the other:
a piece moves within what there is so far, or becomes a segment behind it
(`step`). Nothing else makes segments, so each that is new is empty or comes from
one of the pieces (`mem_drop_route`).

What follows a slash after the host is resolved behind whatever the path was in
front of it. So of two URLs that are alike up to such a slash, the second is the
first with another end (`parse_append`): the scheme and the host are read from
the part they share, unless a question or a number sign there has ended the path
before, and then the ends make no difference to the segments at all.
-/

namespace WarehouseLoader.Http.Url

variable {p : Char → Bool} {cs part front back s : List Char} {done : List String}
  {pieces : List (List Char)}

/-! ### Splitting -/

theorem splitBy_ne_nil (p : Char → Bool) (cs : List Char) : splitBy p cs ≠ [] := by
  cases cs with
  | nil => simp [splitBy]
  | cons c rest =>
      rw [splitBy]
      split
      · simp
      · split <;> simp

theorem splitBy_of_none (h : ∀ c ∈ cs, p c = false) : splitBy p cs = [cs] := by
  induction cs with
  | nil => rfl
  | cons c rest ih =>
      have hrest := ih fun c hc => h c (List.mem_cons_of_mem _ hc)
      rw [splitBy, hrest]
      simp [h c List.mem_cons_self]

theorem splitBy_append_cons {c : Char} (hc : p c = true) (front back : List Char) :
    splitBy p (front ++ c :: back) = splitBy p front ++ splitBy p back := by
  induction front with
  | nil => simp [splitBy, hc]
  | cons first front ih =>
      rw [List.cons_append, splitBy, splitBy, ih]
      cases hparts : splitBy p front with
      | nil => exact absurd hparts (splitBy_ne_nil p front)
      | cons part parts => split <;> rfl

theorem mem_splitBy (h : part ∈ splitBy p cs) :
    (∀ c ∈ part, p c = false) ∧ part.Sublist cs := by
  induction cs generalizing part with
  | nil =>
      obtain rfl : part = [] := by simpa [splitBy] using h
      exact ⟨by simp, List.Sublist.refl _⟩
  | cons c rest ih =>
      rw [splitBy] at h
      split at h
      · rcases List.mem_cons.mp h with rfl | h
        · exact ⟨by simp, List.nil_sublist _⟩
        · exact ⟨(ih h).1, (ih h).2.cons c⟩
      · next hc =>
          cases hparts : splitBy p rest with
          | nil => exact absurd hparts (splitBy_ne_nil p rest)
          | cons first parts =>
              rw [hparts] at h ih
              rcases List.mem_cons.mp h with rfl | h
              · obtain ⟨hfirst, hsub⟩ := ih List.mem_cons_self
                refine ⟨fun d hd => ?_, hsub.cons_cons c⟩
                rcases List.mem_cons.mp hd with rfl | hd
                · exact Bool.eq_false_iff.mpr hc
                · exact hfirst d hd
              · obtain ⟨hpart, hsub⟩ := ih (List.mem_cons_of_mem _ h)
                exact ⟨hpart, hsub.cons c⟩

/-! ### Resolving -/

/-- A segment as it is sent. -/
def segment (s : List Char) : String := percentEncode reservedInPath (String.ofList s)

def step (done : List String) (s : List Char) : List String :=
  if isDoubleDot s then done.dropLast
  else if isSingleDot s then done
  else done ++ [segment s]

theorem resolve_cons (done : List String) (s : List Char) (h : pieces ≠ []) :
    resolve done (s :: pieces) = resolve (step done s) pieces := by
  cases pieces with
  | nil => exact absurd rfl h
  | cons first more =>
      rw [resolve, step]
      · split
        · rfl
        · split <;> rfl
      · exact h

theorem resolve_append (done : List String) (front : List (List Char)) (h : pieces ≠ []) :
    resolve done (front ++ pieces) = resolve (front.foldl step done) pieces := by
  induction front generalizing done with
  | nil => rfl
  | cons s front ih =>
      have hmore : front ++ pieces ≠ [] := List.append_ne_nil_of_right_ne_nil _ h
      rw [List.cons_append, resolve_cons done s hmore, ih, List.foldl_cons]

/-- A text that stands for itself among the segments. -/
structure Proper (s : List Char) : Prop where
  noSlash : ∀ c ∈ s, isSlash .web c = false
  noEnd : ∀ c ∈ s, endsPath c = false
  notHere : isSingleDot s = false
  notUp : isDoubleDot s = false

theorem proper_of_all (hchars : s.all (fun c => !isSlash .web c && !endsPath c) = true)
    (hdots : isSingleDot s = false ∧ isDoubleDot s = false) : Proper s where
  noSlash c hc := by
    have hall := List.all_eq_true.mp hchars c hc
    simp only [Bool.and_eq_true, Bool.not_eq_true'] at hall
    exact hall.1
  noEnd c hc := by
    have hall := List.all_eq_true.mp hchars c hc
    simp only [Bool.and_eq_true, Bool.not_eq_true'] at hall
    exact hall.2
  notHere := hdots.1
  notUp := hdots.2

theorem step_of_proper (h : Proper s) : step done s = done ++ [segment s] := by
  rw [step, if_neg (by simp [h.notUp]), if_neg (by simp [h.notHere])]

theorem resolve_singleton (h : Proper s) : resolve done [s] = done ++ [segment s] := by
  rw [resolve, if_neg (by simp [h.notUp]), if_neg (by simp [h.notHere])]
  rfl

theorem mem_drop_concat {k : Nat} {x y : String} (h : x ∈ (done ++ [y]).drop k) :
    x ∈ done.drop k ∨ x = y := by
  rw [List.drop_append] at h
  exact (List.mem_append.mp h).imp_right fun h =>
    List.mem_singleton.mp (List.mem_of_mem_drop h)

theorem mem_drop_dropLast {k : Nat} {x : String} (h : x ∈ done.dropLast.drop k) :
    x ∈ done.drop k := by
  rw [List.dropLast_eq_take, List.drop_take] at h
  exact List.mem_of_mem_take h

theorem mem_drop_step {k : Nat} {x : String} (h : x ∈ (step done s).drop k) :
    x ∈ done.drop k ∨ isSingleDot s = false ∧ isDoubleDot s = false ∧ x = segment s := by
  rw [step] at h
  split at h
  · exact .inl (mem_drop_dropLast h)
  · next hup =>
      split at h
      · exact .inl h
      · next hhere =>
          refine (mem_drop_concat h).imp_right fun hx => ⟨?_, ?_, hx⟩
          · exact Bool.eq_false_iff.mpr hhere
          · exact Bool.eq_false_iff.mpr hup

/-- What stands behind the first `k` segments was there before, is empty, or
came from one of the pieces. -/
theorem mem_drop_resolve {k : Nat} {x : String} (h : x ∈ (resolve done pieces).drop k) :
    x ∈ done.drop k ∨ x = "" ∨
      ∃ s ∈ pieces, isSingleDot s = false ∧ isDoubleDot s = false ∧ x = segment s := by
  induction pieces generalizing done with
  | nil => exact .inl h
  | cons s rest ih =>
      cases rest with
      | nil =>
          rw [resolve] at h
          split at h
          · rcases mem_drop_concat h with h | hx
            · exact .inl (mem_drop_dropLast h)
            · exact .inr (.inl hx)
          · next hup =>
              split at h
              · exact (mem_drop_concat h).imp_right .inl
              · next hhere =>
                  refine (mem_drop_concat h).imp_right fun hx =>
                    .inr ⟨s, by simp, ?_, ?_, hx⟩
                  · exact Bool.eq_false_iff.mpr hhere
                  · exact Bool.eq_false_iff.mpr hup
      | cons first more =>
          rw [resolve_cons done s (List.cons_ne_nil first more)] at h
          rcases ih h with h | hx | ⟨t, ht, hfacts⟩
          · rcases mem_drop_step h with h | hfacts
            · exact .inl h
            · exact .inr (.inr ⟨s, List.mem_cons_self, hfacts⟩)
          · exact .inr (.inl hx)
          · exact .inr (.inr ⟨t, List.mem_cons_of_mem _ ht, hfacts⟩)

/-! ### Dots -/

theorem lowerAscii_cases (c : Char) : lowerAscii c = c ∨
    97 ≤ (lowerAscii c).toNat ∧ (hexValue? (lowerAscii c) ≠ none → hexValue? c ≠ none) := by
  have hall : ∀ k : Fin 26, 97 ≤ (Char.ofNat (k.val + 65 + 32)).toNat ∧
      (hexValue? (Char.ofNat (k.val + 65 + 32)) ≠ none →
        hexValue? (Char.ofNat (k.val + 65)) ≠ none) := by decide
  rw [lowerAscii]
  split
  · next hupper =>
      have hlow : 65 ≤ c.toNat := hupper.1
      have hhigh : c.toNat ≤ 90 := hupper.2
      have hc := hall ⟨c.toNat - 65, by omega⟩
      simp only [Nat.sub_add_cancel hlow, Char.ofNat_toNat] at hc
      exact .inr hc
  · exact .inl rfl

theorem eq_of_lowerAscii {c d : Char} (h : lowerAscii c = d) (hd : d.toNat < 97) :
    c = d := by
  rcases lowerAscii_cases c with hsame | ⟨hletter, -⟩
  · rw [← hsame, h]
  · rw [h] at hletter
    omega

theorem hexValue?_of_lowerAscii {c : Char} (h : hexValue? (lowerAscii c) ≠ none) :
    hexValue? c ≠ none := by
  rcases lowerAscii_cases c with hsame | ⟨-, hhex⟩
  · rwa [hsame] at h
  · exact hhex h

theorem holdsForm_of_lower (h : HoldsForm (s.map lowerAscii)) : HoldsForm s := by
  obtain ⟨a, b, before, after, hsplit, ha, hb⟩ := h
  obtain ⟨front, tail, rfl, -, htail⟩ := List.map_eq_append_iff.mp hsplit
  obtain ⟨c, more, rfl, hc, hmore⟩ := List.map_eq_cons_iff.mp htail
  obtain ⟨a', rest, rfl, rfl, hrest⟩ := List.map_eq_cons_iff.mp hmore
  obtain ⟨b', behind, rfl, rfl, -⟩ := List.map_eq_cons_iff.mp hrest
  obtain rfl := eq_of_lowerAscii hc (by decide)
  exact ⟨a', b', front, behind, rfl, hexValue?_of_lowerAscii ha, hexValue?_of_lowerAscii hb⟩

/-- Without percent forms only the dots themselves mean "here" and "one up". -/
theorem isSingleDot_of_noForm (h : ¬HoldsForm s) : isSingleDot s = true ↔ s = ['.'] := by
  rw [isSingleDot, Bool.or_eq_true, beq_iff_eq, beq_iff_eq, or_iff_left]
  intro hform
  refine h (holdsForm_of_lower ?_)
  rw [hform]
  exact ⟨'2', 'e', [], [], rfl, by decide, by decide⟩

theorem isDoubleDot_of_noForm (h : ¬HoldsForm s) :
    isDoubleDot s = true ↔ s = ['.', '.'] := by
  have hnot {before after : List Char} : s.map lowerAscii ≠
      before ++ '%' :: '2' :: 'e' :: after :=
    fun hform => h
      (holdsForm_of_lower ⟨'2', 'e', before, after, hform, by decide, by decide⟩)
  simp only [isDoubleDot, Bool.or_eq_true, beq_iff_eq]
  constructor
  · rintro (((hdots | hform) | hform) | hform)
    · obtain ⟨c, more, rfl, hc, hmore⟩ := List.map_eq_cons_iff.mp hdots
      obtain ⟨d, rest, rfl, hd, hrest⟩ := List.map_eq_cons_iff.mp hmore
      rw [List.map_eq_nil_iff.mp hrest, eq_of_lowerAscii hc (by decide),
        eq_of_lowerAscii hd (by decide)]
    · exact absurd hform (@hnot ['.'] [])
    · exact absurd hform (@hnot [] ['.'])
    · exact absurd hform (@hnot [] ['%', '2', 'e'])
  · rintro rfl
    exact .inl (.inl (.inl rfl))

/-! ### A path behind a slash -/

/-- The pieces of a path that goes on with `cs`. -/
def piecesOf (cs : List Char) : List (List Char) :=
  splitBy (isSlash .web) (cs.takeWhile (!endsPath ·))

theorem piecesOf_ne_nil (cs : List Char) : piecesOf cs ≠ [] := splitBy_ne_nil _ _

/-- The segments of a path that goes on with `cs` behind those that are done. -/
def route (done : List String) (cs : List Char) : List String := resolve done (piecesOf cs)

theorem takeWhile_of_noEnd (h : ∀ c ∈ cs, endsPath c = false) :
    cs.takeWhile (!endsPath ·) = cs := by
  rw [← List.append_nil cs, List.takeWhile_append_of_pos fun c hc => by simp [h c hc]]
  rfl

theorem takeWhile_of_end {c : Char} (hc : c ∈ front) (hend : endsPath c = true)
    (back : List Char) :
    (front ++ back).takeWhile (!endsPath ·) = front.takeWhile (!endsPath ·) := by
  obtain ⟨before, after, rfl⟩ := List.append_of_mem hc
  have hstop : (!endsPath c) = false := by simp [hend]
  rw [List.append_assoc, List.cons_append]
  exact (Text.takeWhile_append_cons hstop before (after ++ back)).1.trans
    (Text.takeWhile_append_cons hstop before after).1.symm

theorem piecesOf_cons (hnoSlash : ∀ c ∈ front, isSlash .web c = false)
    (hnoEnd : ∀ c ∈ front, endsPath c = false) (back : List Char) :
    piecesOf (front ++ '/' :: back) = front :: piecesOf back := by
  have hfront : (front ++ '/' :: back).takeWhile (!endsPath ·) =
      front ++ '/' :: back.takeWhile (!endsPath ·) := by
    rw [List.takeWhile_append_of_pos fun c hc => by simp [hnoEnd c hc],
      List.takeWhile_cons_of_pos (by decide)]
  rw [piecesOf, hfront, splitBy_append_cons (by decide), splitBy_of_none hnoSlash]
  rfl

theorem piecesOf_of_none (hnoSlash : ∀ c ∈ s, isSlash .web c = false)
    (hnoEnd : ∀ c ∈ s, endsPath c = false) : piecesOf s = [s] := by
  rw [piecesOf, takeWhile_of_noEnd hnoEnd, splitBy_of_none hnoSlash]

theorem route_cons (h : Proper s) (back : List Char) :
    route done (s ++ '/' :: back) = route (done ++ [segment s]) back := by
  rw [route, piecesOf_cons h.noSlash h.noEnd, resolve_cons done s (piecesOf_ne_nil back),
    step_of_proper h, route]

theorem route_of_proper (h : Proper s) : route done s = done ++ [segment s] := by
  rw [route, piecesOf_of_none h.noSlash h.noEnd, resolve_singleton h]

theorem mem_piecesOf (h : s ∈ piecesOf cs) :
    (∀ c ∈ s, isSlash .web c = false) ∧ (∀ c ∈ s, endsPath c = false) ∧ s.Sublist cs := by
  obtain ⟨hnoSlash, hsub⟩ := mem_splitBy h
  refine ⟨hnoSlash, fun c hc => ?_, hsub.trans (List.takeWhile_sublist _)⟩
  simpa using Text.passes_takeWhile _ _ c (hsub.subset hc)

theorem mem_piecesOf_append (h : s ∈ piecesOf (front ++ '/' :: back)) :
    s ∈ piecesOf front ∨ s ∈ piecesOf back := by
  by_cases hend : ∃ c ∈ front, endsPath c = true
  · obtain ⟨c, hc, hstop⟩ := hend
    rw [piecesOf, takeWhile_of_end hc hstop] at h
    exact .inl h
  · have hnoEnd : ∀ c ∈ front, endsPath c = false := by simpa using hend
    rw [piecesOf, List.takeWhile_append_of_pos fun c hc => by simp [hnoEnd c hc],
      List.takeWhile_cons_of_pos (by decide), splitBy_append_cons (by decide)] at h
    rw [piecesOf, takeWhile_of_noEnd hnoEnd]
    exact List.mem_append.mp h

/-- Where a segment that the path has behind the first `k` comes from. -/
theorem mem_drop_route {k : Nat} {x : String} (h : x ∈ (route done cs).drop k) :
    x ∈ done.drop k ∨ ∃ s, (s = [] ∨ s ∈ piecesOf cs) ∧ Proper s ∧ x = segment s := by
  rcases mem_drop_resolve h with hdone | rfl | ⟨s, hs, hhere, hup, rfl⟩
  · exact .inl hdone
  · exact .inr ⟨[], .inl rfl, ⟨by simp, by simp, rfl, rfl⟩, rfl⟩
  · obtain ⟨hnoSlash, hnoEnd, -⟩ := mem_piecesOf hs
    exact .inr ⟨s, .inr hs, ⟨hnoSlash, hnoEnd, hhere, hup⟩, rfl⟩

/-! ### Cleaning -/

def trimEnd (p : Char → Bool) (cs : List Char) : List Char :=
  (cs.reverse.dropWhile p).reverse

/-- What is left of a text that stands behind a slash. -/
def tidied (cs : List Char) : List Char := (trimEnd isEdge cs).filter (!isIgnored ·)

theorem trimEnd_append {c : Char} (hc : p c = false) (front back : List Char) :
    trimEnd p (front ++ c :: back) = front ++ c :: trimEnd p back := by
  have hreverse : (front ++ c :: back).reverse = back.reverse ++ c :: front.reverse := by
    simp
  rw [trimEnd, trimEnd, hreverse, List.dropWhile_append]
  split
  · next hempty =>
      rw [List.dropWhile_cons_of_neg (by simp [hc]), List.isEmpty_iff.mp hempty]
      simp
  · simp

theorem cleaned_eq (cs : List Char) :
    cleaned cs = (trimEnd isEdge (cs.dropWhile isEdge)).filter (!isIgnored ·) := rfl

theorem cleaned_append (left back : List Char) :
    cleaned (left ++ '/' :: back) =
      (left.dropWhile isEdge).filter (!isIgnored ·) ++ '/' :: tidied back := by
  rw [cleaned_eq, (Text.takeWhile_append_cons
      (show isEdge '/' = false by decide) left back).2, trimEnd_append (by decide),
    List.filter_append, List.filter_cons_of_pos (by decide), tidied]

/-! ### Reading -/

def inScheme (c : Char) : Bool := isAlpha c || isDigit c || c == '+' || c == '-' || c == '.'

theorem scheme?_eq_some_iff {scheme : String} {rest : List Char} :
    scheme? cs = some (scheme, rest) ↔
      ∃ first more, cs.takeWhile inScheme = first :: more ∧ isAlpha first = true ∧
        cs.dropWhile inScheme = ':' :: rest ∧
        scheme = String.ofList ((first :: more).map lowerAscii) := by
  have hin : (fun c => isAlpha c || isDigit c || c == '+' || c == '-' || c == '.') =
      inScheme :=
    rfl
  simp only [scheme?]
  rw [hin]
  constructor
  · intro h
    split at h
    · next first more rest' htake hdrop =>
        split at h
        · next halpha =>
            cases h
            exact ⟨first, more, htake, halpha, hdrop, rfl⟩
        · cases h
    · cases h
  · rintro ⟨first, more, htake, halpha, hdrop, rfl⟩
    rw [htake, hdrop]
    exact if_pos halpha

/-- A slash ends the scheme, so what follows it has no say in that. -/
theorem scheme?_append {scheme : String} {rest : List Char} (front back : List Char) :
    scheme? (front ++ '/' :: back) = some (scheme, rest) ↔
      ∃ behind, scheme? front = some (scheme, behind) ∧ rest = behind ++ '/' :: back := by
  have hfront := Text.takeWhile_append_cons (show inScheme '/' = false by decide) front back
  simp only [scheme?_eq_some_iff, hfront.1, hfront.2]
  constructor
  · rintro ⟨first, more, htake, halpha, hdrop, hscheme⟩
    cases hbehind : front.dropWhile inScheme with
    | nil =>
        rw [hbehind] at hdrop
        exact absurd (List.head_eq_of_cons_eq hdrop) (by decide)
    | cons c behind =>
        rw [hbehind] at hdrop
        cases hdrop
        exact ⟨behind, ⟨first, more, htake, halpha, rfl, hscheme⟩, rfl⟩
  · rintro ⟨behind, ⟨first, more, htake, halpha, hdrop, hscheme⟩, rfl⟩
    exact ⟨first, more, htake, halpha, by rw [hdrop]; rfl, hscheme⟩

theorem scheme_of_parse {u : Url} (h : parse (String.ofList cs) = .ok u) :
    ∃ rest, scheme? (cleaned cs) = some (u.scheme, rest) := by
  rw [parse, String.toList_ofList] at h
  cases hscheme : scheme? (cleaned cs) with
  | none =>
      rw [hscheme] at h
      cases h
  | some found =>
      obtain ⟨scheme, rest⟩ := found
      rw [hscheme] at h
      simp only [] at h
      refine ⟨rest, ?_⟩
      cases hkind : schemeKind scheme with
      | web =>
          rw [hkind] at h
          obtain ⟨located, -, h⟩ := bind_eq_ok_iff.mp h
          cases h
          rfl
      | file | other =>
          rw [hkind] at h
          simp only [] at h
          split at h
          · obtain ⟨located, -, h⟩ := bind_eq_ok_iff.mp h
            cases h
            rfl
          · cases h
            rfl

/-- The host and what follows it, of a URL of the web. -/
theorem parse_of_scheme? {scheme : String} {rest : List Char} {u : Url}
    (hscheme : scheme? (cleaned cs) = some (scheme, rest)) (hweb : schemeKind scheme = .web)
    (h : parse (String.ofList cs) = .ok u) :
    ∃ located, readAuthority .web scheme
        ((rest.dropWhile (isSlash .web)).takeWhile (!endsAuthority .web ·)) = .ok located ∧
      u = ⟨scheme, if located.1.isEmpty then none else some located.1, located.2,
        (tail .web ((rest.dropWhile (isSlash .web)).dropWhile (!endsAuthority .web ·))).1,
        (tail .web ((rest.dropWhile (isSlash .web)).dropWhile (!endsAuthority .web ·))).2⟩ := by
  rw [parse, String.toList_ofList, hscheme] at h
  simp only [] at h
  rw [hweb] at h
  obtain ⟨located, hlocated, h⟩ := bind_eq_ok_iff.mp h
  cases h
  exact ⟨located, hlocated, rfl⟩

/-- The path of a base and the path behind it are split apart by the slash. -/
theorem exists_tail_append {front : List Char}
    (hslash : ∀ c ∈ front.head?, isSlash .web c = true)
    (hnoEnd : ∀ c ∈ front, endsPath c = false) :
    ∃ own, ∀ back, tail .web (front ++ '/' :: back) =
      (route own back, (tail .web back).2) := by
  have hpath (back : List Char) : (front ++ '/' :: back).takeWhile (!endsPath ·) =
      front ++ '/' :: back.takeWhile (!endsPath ·) := by
    rw [List.takeWhile_append_of_pos fun c hc => by simp [hnoEnd c hc],
      List.takeWhile_cons_of_pos (by decide)]
  have hquery (back : List Char) : (front ++ '/' :: back).dropWhile (!endsPath ·) =
      back.dropWhile (!endsPath ·) := by
    rw [List.dropWhile_append_of_pos fun c hc => by simp [hnoEnd c hc],
      List.dropWhile_cons_of_pos (by decide)]
  cases front with
  | nil =>
      refine ⟨[], fun back => ?_⟩
      rw [tail, hpath, hquery]
      rfl
  | cons c inner =>
      refine ⟨(splitBy (isSlash .web) inner).foldl step [], fun back => ?_⟩
      have hbody : pathSegments .web (c :: inner ++ '/' :: back.takeWhile (!endsPath ·)) =
          resolve [] (splitBy (isSlash .web)
            (inner ++ '/' :: back.takeWhile (!endsPath ·))) :=
        congrArg (fun body => resolve [] (splitBy (isSlash .web) body))
          (if_pos (hslash c rfl))
      rw [tail, hpath, hquery, hbody, splitBy_append_cons (by decide),
        resolve_append [] _ (splitBy_ne_nil _ _)]
      rfl

theorem tail_append_of_end {front : List Char} {c : Char} (hc : c ∈ front)
    (hend : endsPath c = true) (back : List Char) :
    (tail .web (front ++ '/' :: back)).1 = (tail .web (front ++ ['/'])).1 := by
  simp only [tail, takeWhile_of_end hc hend]

/-- All of a base but the scheme, the slashes behind it and the host. -/
def basePath (behind : List Char) : List Char :=
  (behind.dropWhile (isSlash .web)).dropWhile (!endsAuthority .web ·)

theorem located_append {behind : List Char} (hhost : behind.dropWhile (isSlash .web) ≠ [])
    (back : List Char) :
    ((behind ++ '/' :: back).dropWhile (isSlash .web)).takeWhile (!endsAuthority .web ·) =
        (behind.dropWhile (isSlash .web)).takeWhile (!endsAuthority .web ·) ∧
      ((behind ++ '/' :: back).dropWhile (isSlash .web)).dropWhile (!endsAuthority .web ·) =
        basePath behind ++ '/' :: back := by
  have hdrop : (behind ++ '/' :: back).dropWhile (isSlash .web) =
      behind.dropWhile (isSlash .web) ++ '/' :: back := by
    rw [List.dropWhile_append, if_neg (by simpa using hhost)]
  rw [hdrop]
  exact Text.takeWhile_append_cons (by decide) _ _

theorem slash_of_basePath {behind : List Char}
    (hnoEnd : ∀ c ∈ basePath behind, endsPath c = false) :
    ∀ c ∈ (basePath behind).head?, isSlash .web c = true := by
  intro c hc
  have hstop := Text.stops_dropWhile _ _ c hc
  have hpath := hnoEnd c (List.mem_of_mem_head? hc)
  simp only [Bool.not_eq_false', endsAuthority, Bool.or_eq_true, beq_iff_eq] at hstop
  simp only [endsPath, Bool.or_eq_false_iff, beq_eq_false_iff_ne] at hpath
  rcases hstop with ((rfl | hquery) | hfragment) | hback
  · rfl
  · exact absurd hquery hpath.1
  · exact absurd hfragment hpath.2
  · rw [isSlash, hback, Bool.or_true]

/-- The path of the base begins behind the host, so a character that ends a path
stays in it. -/
theorem mem_basePath_iff {left behind : List Char} {scheme : String} {c : Char}
    (hscheme : scheme? ((left.dropWhile isEdge).filter (!isIgnored ·)) =
      some (scheme, behind))
    (hend : endsPath c = true) : c ∈ basePath behind ↔ c ∈ left := by
  obtain ⟨first, more, -, -, hbehind, -⟩ := scheme?_eq_some_iff.mp hscheme
  have hc : c = '?' ∨ c = '#' := by simpa [endsPath] using hend
  constructor
  · intro h
    have h : c ∈ behind :=
      (List.dropWhile_sublist _).subset ((List.dropWhile_sublist _).subset h)
    have h : c ∈ ((left.dropWhile isEdge).filter (!isIgnored ·)) :=
      (List.dropWhile_sublist _).subset (by rw [hbehind]; exact List.mem_cons_of_mem _ h)
    exact (List.dropWhile_sublist _).subset (List.mem_of_mem_filter h)
  · intro h
    have h : c ∈ (left.dropWhile isEdge).filter (!isIgnored ·) := by
      refine List.mem_filter.mpr ⟨Text.mem_dropWhile ?_ h, ?_⟩ <;>
        rcases hc with rfl | rfl <;> decide
    have h : c ∈ ':' :: behind := by
      rw [← hbehind]
      refine Text.mem_dropWhile ?_ h
      rcases hc with rfl | rfl <;> decide
    have h : c ∈ behind := by
      refine (List.mem_cons.mp h).resolve_left ?_
      rcases hc with rfl | rfl <;> decide
    refine Text.mem_dropWhile ?_ (Text.mem_dropWhile ?_ h) <;>
      rcases hc with rfl | rfl <;> decide

/-- What stands behind the slash at the end of a base is the path behind the
base's own, unless the base has a query or a fragment, which takes it all. -/
theorem parse_append {left back : List Char} {root u : Url}
    (hroot : parse (String.ofList (left ++ ['/'])) = .ok root)
    (hu : parse (String.ofList (left ++ '/' :: back)) = .ok u)
    (hweb : schemeKind u.scheme = .web) :
    ((∀ c ∈ left, endsPath c = false) → u =
      { root with
        segments := route root.segments.dropLast (tidied back)
        query := (tail .web (tidied back)).2 }) ∧
    ((∃ c ∈ left, endsPath c = true) → u.segments = root.segments) := by
  obtain ⟨rest, hcleaned⟩ := scheme_of_parse hu
  have hboth := hcleaned
  rw [cleaned_append, scheme?_append] at hboth
  obtain ⟨behind, hscheme, rfl⟩ := hboth
  have hcleanedRoot : scheme? (cleaned (left ++ ['/'])) =
      some (u.scheme, behind ++ ['/']) := by
    rw [cleaned_append, scheme?_append]
    exact ⟨behind, hscheme, rfl⟩
  obtain ⟨located, hlocated, hroot⟩ := parse_of_scheme? hcleanedRoot hweb hroot
  obtain ⟨located', hlocated', hu⟩ := parse_of_scheme? hcleaned hweb hu
  -- There is a host, so the slash behind the base is none of those before a host.
  have hhost : behind.dropWhile (isSlash .web) ≠ [] := by
    intro hempty
    rw [List.dropWhile_append, if_pos (by rw [hempty]; rfl)] at hlocated
    cases hlocated
  rw [(located_append hhost []).1] at hlocated
  rw [(located_append hhost _).1] at hlocated'
  cases hlocated.symm.trans hlocated'
  rw [(located_append hhost []).2] at hroot
  rw [(located_append hhost _).2] at hu
  constructor
  · intro hnoEnd
    have hpath : ∀ c ∈ basePath behind, endsPath c = false := by
      intro c hc
      refine Bool.eq_false_iff.mpr fun hend => ?_
      rw [hnoEnd c ((mem_basePath_iff hscheme hend).mp hc)] at hend
      cases hend
    obtain ⟨own, htail⟩ := exists_tail_append (slash_of_basePath hpath) hpath
    have hsegments : root.segments = own ++ [""] := by
      rw [hroot, htail]
      rfl
    rw [hsegments, List.dropLast_concat, hu, htail, hroot]
  · rintro ⟨c, hc, hend⟩
    rw [hu, hroot]
    exact tail_append_of_end ((mem_basePath_iff hscheme hend).mpr hc) hend _

end WarehouseLoader.Http.Url

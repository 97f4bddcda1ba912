import WarehouseLoader.Proofs.Http.Segments

/-!
# Texts that are whole in a path

A text may be put into a path as it is. It is one segment there, and decodes to
itself, if it is `Whole`: it holds no character that ends a segment or is
dropped from a URL, is none of the two names that mean a move, and holds no
complete percent form.

There is no other way to have it. A segment of a path comes from one of the
pieces between the slashes, and decoding never makes a piece longer, so a piece
that is no longer than the text and decodes to it is the text, and it is whole
(`Source.whole`).

What stands behind the slash at the end of a base goes on with the base's path
(`Rooted.behind`), as long as the base has nothing behind its path
(`Behind.rooted`). Control characters and spaces are dropped at the end of a URL
and so at the end of the text that stands last in it.
-/

namespace WarehouseLoader.Http.Url

/-- A text that is one segment of a path and means nothing but itself there. -/
structure Whole (s : String) : Prop where
  noBreak : ∀ c ∈ s.toList, c ∉ ['/', '\\', '?', '#', '\t', '\n', '\r']
  noForm : ¬HoldsForm s.toList
  notHere : s ≠ "."
  notUp : s ≠ ".."

/-- The bytes of the text are what the segment stands for. -/
def Decodes (segment text : String) : Prop := percentDecode segment.toList = Text.utf8 text

/-- There is a base to stand behind: a URL without a query and a fragment. -/
def Rooted (base : String) : Prop :=
  (∃ root, parse (joinUrl (some base) "") = .ok root) ∧ ∀ c ∈ base.toList, c ≠ '?' ∧ c ≠ '#'

/-- The URL is the base with these segments behind its path and this query. -/
def Behind (base : String) (names : List String) (query : Option String) (u : Url) : Prop :=
  ∃ root, parse (joinUrl (some base) "") = .ok root ∧
    u = { root with segments := root.segments.dropLast ++ names, query := query }

variable {s front back cs : List Char} {text base : String}

/-! ### Whole texts -/

theorem breaks_iff (c : Char) : c ∉ ['/', '\\', '?', '#', '\t', '\n', '\r'] ↔
    isSlash .web c = false ∧ endsPath c = false ∧ isIgnored c = false := by
  simp [isSlash, endsPath, isIgnored, and_assoc]

theorem whole_iff : Whole text ↔
    Proper text.toList ∧ (∀ c ∈ text.toList, isIgnored c = false) ∧
      ¬HoldsForm text.toList := by
  constructor
  · intro h
    have hbreaks := fun c hc => (breaks_iff c).mp (h.noBreak c hc)
    refine ⟨⟨fun c hc => (hbreaks c hc).1, fun c hc => (hbreaks c hc).2.1, ?_, ?_⟩,
      fun c hc => (hbreaks c hc).2.2, h.noForm⟩
    · refine Bool.eq_false_iff.mpr fun hdot => h.notHere ?_
      exact String.toList_inj.mp ((isSingleDot_of_noForm h.noForm).mp hdot)
    · refine Bool.eq_false_iff.mpr fun hdots => h.notUp ?_
      exact String.toList_inj.mp ((isDoubleDot_of_noForm h.noForm).mp hdots)
  · rintro ⟨hproper, hclean, hform⟩
    refine ⟨fun c hc => (breaks_iff c).mpr
      ⟨hproper.noSlash c hc, hproper.noEnd c hc, hclean c hc⟩, hform, ?_, ?_⟩
    · rintro rfl
      exact absurd hproper.notHere (by decide)
    · rintro rfl
      exact absurd hproper.notUp (by decide)

/-- The text of a segment, as it stands in the path. -/
structure Source (s : List Char) (text : String) : Prop where
  proper : Proper s
  clean : ∀ c ∈ s, isIgnored c = false
  decodes : percentDecode s = Text.utf8 text

/-- A segment for a text comes from the text itself or from something longer. -/
theorem Source.whole (h : Source s text) (hle : byteLength s ≤ byteLength text.toList) :
    s = text.toList ∧ Whole text := by
  obtain ⟨rfl, hform⟩ := eq_of_percentDecode h.decodes hle
  exact ⟨rfl, whole_iff.mpr ⟨h.proper, h.clean, hform⟩⟩

theorem decodes_of_whole (h : Whole text) : Decodes (segment text.toList) text := by
  rw [Decodes, segment, percentDecode_percentEncode, percentDecode_of_noForm h.noForm,
    String.ofList_toList]

theorem noEnd_of_whole (h : Whole text) : ∀ c ∈ text.toList, endsPath c = false :=
  (whole_iff.mp h).1.noEnd

/-- Without percent signs there are no percent forms either. -/
theorem whole_of_all (hchars : text.toList.all
      (· ∉ ['/', '\\', '?', '#', '\t', '\n', '\r', '%']) = true)
    (hhere : text ≠ ".") (hup : text ≠ "..") : Whole text := by
  have hnone (c : Char) (hc : c ∈ text.toList) :
      c ∉ ['/', '\\', '?', '#', '\t', '\n', '\r', '%'] :=
    of_decide_eq_true (List.all_eq_true.mp hchars c hc)
  refine ⟨fun c hc hbreak => hnone c hc (List.mem_append_left ['%'] hbreak), ?_, hhere, hup⟩
  rintro ⟨a, b, before, after, hsplit, -⟩
  exact hnone '%' (by simp [hsplit]) (by simp)

/-! ### What is left of a text -/

theorem clean_tidied : ∀ c ∈ tidied cs, isIgnored c = false := by
  intro c hc
  simpa using (List.mem_filter.mp hc).2

theorem trimEnd_front (p : Char → Bool) (cs : List Char) : trimEnd p cs <+: cs := by
  rw [← List.reverse_suffix, trimEnd, List.reverse_reverse]
  exact List.dropWhile_suffix p

theorem tidied_sublist (cs : List Char) : (tidied cs).Sublist cs :=
  List.filter_sublist.trans (trimEnd_front isEdge cs).sublist

theorem tidied_cons (front back : List Char) :
    tidied (front ++ '/' :: back) = front.filter (!isIgnored ·) ++ '/' :: tidied back := by
  rw [tidied, trimEnd_append (by decide), List.filter_append,
    List.filter_cons_of_pos (by decide), tidied]

theorem trimEnd_of_last {p : Char → Bool} (h : ∀ c ∈ cs.getLast?, p c = false) :
    trimEnd p cs = cs := by
  rw [← List.head?_reverse] at h
  rw [trimEnd, Text.dropWhile_of_stops h, List.reverse_reverse]

theorem tidied_of_last (h : Whole text)
    (hlast : ∀ c ∈ text.toList.getLast?, isEdge c = false) :
    tidied text.toList = text.toList := by
  obtain ⟨-, hclean, -⟩ := whole_iff.mp h
  rw [tidied, trimEnd_of_last hlast,
    List.filter_eq_self.mpr fun c hc => by simp [hclean c hc]]

/-- Of a text that ends in a space, less is left. -/
theorem last_of_le (h : byteLength cs ≤ byteLength (tidied cs)) :
    ∀ c ∈ cs.getLast?, isEdge c = false := by
  intro c hc
  obtain ⟨front, rfl⟩ := List.getLast?_eq_some_iff.mp hc
  refine Bool.eq_false_iff.mpr fun hedge => ?_
  have htrim : tidied (front ++ [c]) = tidied front := by
    rw [tidied, tidied, trimEnd, List.reverse_append, List.reverse_singleton,
      List.singleton_append, List.dropWhile_cons_of_pos hedge]
    rfl
  have hfront := byteLength_le (tidied_sublist front)
  have hone := length_utf8EncodeChar_pos c
  rw [htrim, byteLength_append, byteLength_cons] at h
  omega

/-- A whole text is one piece, and it stays without percent forms if its end is
dropped. -/
theorem piece_of_whole (h : Whole text) (hs : s ∈ piecesOf (tidied text.toList)) :
    s = tidied text.toList ∧ ¬HoldsForm s := by
  obtain ⟨hproper, hclean, hform⟩ := whole_iff.mp h
  have hsub := (tidied_sublist text.toList).subset
  rw [piecesOf_of_none (fun c hc => hproper.noSlash c (hsub hc))
    (fun c hc => hproper.noEnd c (hsub hc))] at hs
  obtain rfl := List.mem_singleton.mp hs
  refine ⟨rfl, fun hheld => hform ?_⟩
  obtain ⟨dropped, hdropped⟩ := trimEnd_front isEdge text.toList
  have hkept : tidied text.toList = trimEnd isEdge text.toList := by
    refine List.filter_eq_self.mpr fun c hc => ?_
    simp [hclean c ((trimEnd_front isEdge text.toList).subset hc)]
  rw [← hdropped, ← hkept]
  exact hheld.append dropped

/-! ### Where a segment comes from -/

theorem exists_source {own : List String} {x : String}
    (h : x ∈ (route own (tidied cs)).drop own.length) (hdecodes : Decodes x text) :
    ∃ s, (s = [] ∨ s ∈ piecesOf (tidied cs)) ∧ Source s text := by
  rcases mem_drop_route h with hdone | ⟨s, hs, hproper, rfl⟩
  · rw [List.drop_length] at hdone
    cases hdone
  · refine ⟨s, hs, hproper, fun c hc => ?_,
      (percentDecode_percentEncode s).symm.trans hdecodes⟩
    rcases hs with rfl | hs
    · cases hc
    · exact clean_tidied c ((mem_piecesOf hs).2.2.subset hc)

theorem byteLength_le_of_piece (h : s ∈ piecesOf (tidied cs)) :
    byteLength s ≤ byteLength cs :=
  byteLength_le ((mem_piecesOf h).2.2.trans (tidied_sublist cs))

theorem piece_cases (h : s ∈ piecesOf (tidied (front ++ '/' :: back))) :
    byteLength s ≤ byteLength front ∨ s ∈ piecesOf (tidied back) := by
  rw [tidied_cons] at h
  rcases mem_piecesOf_append h with hfront | hback
  · exact .inl (byteLength_le ((mem_piecesOf hfront).2.2.trans List.filter_sublist))
  · exact .inr hback

theorem route_of_whole (h : Whole text) (own : List String) :
    route own (tidied (text.toList ++ '/' :: back)) =
      route (own ++ [segment text.toList]) (tidied back) := by
  obtain ⟨hproper, hclean, -⟩ := whole_iff.mp h
  rw [tidied_cons, List.filter_eq_self.mpr fun c hc => by simp [hclean c hc],
    route_cons hproper]

/-! ### Names in front -/

/-- Names with slashes behind them, and what follows. -/
def pathOf (names : List String) (back : List Char) : List Char :=
  names.foldr (fun name rest => name.toList ++ '/' :: rest) back

/-- The name stands for itself in a path. -/
structure Fixed (name : String) : Prop where
  proper : Proper name.toList
  clean : name.toList.filter (!isIgnored ·) = name.toList
  kept : segment name.toList = name

theorem tidied_pathOf {names : List String} (h : ∀ name ∈ names, Fixed name)
    (back : List Char) : tidied (pathOf names back) = pathOf names (tidied back) := by
  induction names with
  | nil => rfl
  | cons name names ih =>
      rw [pathOf, List.foldr_cons, tidied_cons, (h name List.mem_cons_self).clean]
      exact congrArg (name.toList ++ '/' :: ·)
        (ih fun name hname => h name (List.mem_cons_of_mem _ hname))

theorem route_pathOf {names : List String} (h : ∀ name ∈ names, Fixed name)
    (done : List String) (back : List Char) :
    route done (pathOf names back) = route (done ++ names) back := by
  induction names generalizing done with
  | nil => rw [List.append_nil]; rfl
  | cons name names ih =>
      have hname := h name List.mem_cons_self
      rw [pathOf, List.foldr_cons, route_cons hname.proper, hname.kept]
      exact (ih (fun name hname => h name (List.mem_cons_of_mem _ hname)) _).trans (by simp)

theorem noEnd_cons (hfront : ∀ c ∈ front, endsPath c = false)
    (hback : ∀ c ∈ back, endsPath c = false) :
    ∀ c ∈ front ++ '/' :: back, endsPath c = false := by
  intro c hc
  rcases List.mem_append.mp hc with hc | hc
  · exact hfront c hc
  · rcases List.mem_cons.mp hc with rfl | hc
    · decide
    · exact hback c hc

theorem noEnd_pathOf {names : List String} (h : ∀ name ∈ names, Fixed name)
    (hback : ∀ c ∈ back, endsPath c = false) :
    ∀ c ∈ pathOf names back, endsPath c = false := by
  induction names with
  | nil => exact hback
  | cons name names ih =>
      exact noEnd_cons (h name List.mem_cons_self).proper.noEnd
        (ih fun name hname => h name (List.mem_cons_of_mem _ hname))

theorem noEnd_tidied {names : List String} (h : ∀ name ∈ names, Fixed name)
    (hback : ∀ c ∈ back, endsPath c = false) :
    ∀ c ∈ tidied (pathOf names back), endsPath c = false := by
  rw [tidied_pathOf h]
  exact noEnd_pathOf h fun c hc => hback c ((tidied_sublist back).subset hc)

/-! ### Behind a base -/

/-- A base without the slashes at its end. -/
def leftOf (base : String) : List Char := trimEnd isSlashChar base.toList

/-- The query of a URL that had none. -/
def queried (fields : List (String × String)) : Option String :=
  if fields.isEmpty then none else some (form fields)

theorem joinUrl_nil (base : String) :
    joinUrl (some base) "" = String.ofList (leftOf base ++ ['/']) := rfl

theorem joinUrl_path {path : String} {rest : List Char} (hpath : path.toList = '/' :: rest)
    (hrest : ∀ c ∈ rest.head?, isSlashChar c = false) (base : String) :
    joinUrl (some base) path = String.ofList (leftOf base ++ '/' :: rest) := by
  have hrelative : isAbsolute path = false := by
    rw [isAbsolute, hpath]
    rfl
  have hbehind : path.toList.dropWhile isSlashChar = rest := by
    rw [hpath, List.dropWhile_cons_of_pos rfl]
    exact Text.dropWhile_of_stops hrest
  rw [joinUrl, hrelative, hbehind]
  rfl

theorem noEnd_leftOf_iff : (∀ c ∈ leftOf base, endsPath c = false) ↔
    ∀ c ∈ base.toList, c ≠ '?' ∧ c ≠ '#' := by
  have hends (c : Char) : endsPath c = false ↔ c ≠ '?' ∧ c ≠ '#' := by simp [endsPath]
  simp only [hends]
  constructor
  · intro h c hc
    by_cases hslash : isSlashChar c = true
    · rw [isSlashChar, beq_iff_eq] at hslash
      subst hslash
      decide
    · refine h c (List.mem_reverse.mpr
        (Text.mem_dropWhile (Bool.eq_false_iff.mpr hslash) ?_))
      exact List.mem_reverse.mpr hc
  · intro h c hc
    have hc := (List.dropWhile_sublist _).subset (List.mem_reverse.mp hc)
    exact h c (List.mem_reverse.mp hc)

theorem web_of_isWeb {u : Url} (h : u.isWeb = true) : schemeKind u.scheme = .web := by
  rw [isWeb, Bool.and_eq_true, Bool.or_eq_true, beq_iff_eq, beq_iff_eq] at h
  rcases h.1 with hscheme | hscheme <;> rw [hscheme] <;> rfl

theorem segments_withQuery (u : Url) (fields : List (String × String)) :
    (u.withQuery fields).segments = u.segments := by
  rw [withQuery]
  split <;> rfl

section Base

variable {rest : List Char} {u : Url} {names : List String} {query : Option String}
  {fields : List (String × String)}

/-- What stands behind a base in its path says that the base has a path to stand
behind. -/
theorem Behind.rooted (hu : parse (String.ofList (leftOf base ++ '/' :: rest)) = .ok u)
    (hweb : u.isWeb = true) (hnames : 1 < names.length)
    (h : Behind base names query (u.withQuery fields)) :
    Rooted base ∧ ∃ own, route own (tidied rest) = own ++ names := by
  obtain ⟨root, hroot, heq⟩ := h
  rw [joinUrl_nil] at hroot
  have hsegments : u.segments = root.segments.dropLast ++ names := by
    rw [← segments_withQuery u fields, heq]
  obtain ⟨hpath, hended⟩ := parse_append hroot hu (web_of_isWeb hweb)
  have hnoEnd : ∀ c ∈ leftOf base, endsPath c = false := by
    -- Otherwise the path would be the base's own, and that is shorter.
    by_contra hend
    have hsame : u.segments = root.segments := hended (by simpa using hend)
    have hlength := congrArg List.length (hsegments.symm.trans hsame)
    rw [List.length_append, List.length_dropLast] at hlength
    omega
  refine ⟨⟨⟨root, by rw [joinUrl_nil, hroot]⟩, noEnd_leftOf_iff.mp hnoEnd⟩,
    root.segments.dropLast, ?_⟩
  rw [← hsegments, hpath hnoEnd]

theorem Rooted.behind (h : Rooted base)
    (hu : parse (String.ofList (leftOf base ++ '/' :: rest)) = .ok u)
    (hweb : u.isWeb = true) (hroute : ∀ own, route own (tidied rest) = own ++ names)
    (hnoEnd : ∀ c ∈ tidied rest, endsPath c = false) :
    Behind base names (queried fields) (u.withQuery fields) := by
  obtain ⟨⟨root, hroot⟩, hbase⟩ := h
  rw [joinUrl_nil] at hroot
  have hu := (parse_append hroot hu (web_of_isWeb hweb)).1 (noEnd_leftOf_iff.mpr hbase)
  have hquery : (tail .web (tidied rest)).2 = none := by
    have hdrop : (tidied rest).dropWhile (!endsPath ·) = [] := by
      rw [← List.append_nil (tidied rest),
        List.dropWhile_append_of_pos fun c hc => by simp [hnoEnd c hc]]
      rfl
    rw [tail, hdrop]
  refine ⟨root, by rw [joinUrl_nil, hroot], ?_⟩
  rw [hu, hroute, hquery, withQuery, queried]
  split <;> rfl

end Base

end WarehouseLoader.Http.Url

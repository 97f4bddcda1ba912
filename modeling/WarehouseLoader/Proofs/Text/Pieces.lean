import WarehouseLoader.Text.Blank

/-!
# Where a piece of a text ends

A reader takes from a text what it has a use for and stops at the first
character that is something else. So a front that passes in front of a back
that stops comes back as it was (`takeWhile_append_of_stops`), and a text has
only one such front (`eq_of_append_of_stops`).

Blanks at the ends of a word are dropped and nothing else is
(`trimBlanks_around`, `exists_trimBlanks`).
-/

namespace WarehouseLoader.Text

variable {p : Char → Bool} {before word after cs : List Char}

theorem takeWhile_append_of_stops {front : List Char} (back : List Char)
    (hfront : ∀ c ∈ front, p c = true) (hback : ∀ c ∈ back.head?, p c = false) :
    (front ++ back).takeWhile p = front ∧ (front ++ back).dropWhile p = back := by
  rw [List.takeWhile_append_of_pos hfront, List.dropWhile_append_of_pos hfront]
  cases back with
  | nil => exact ⟨List.append_nil _, rfl⟩
  | cons c more =>
      have hc : p c = false := hback c rfl
      simp [hc]

theorem dropWhile_of_stops (h : ∀ c ∈ cs.head?, p c = false) : cs.dropWhile p = cs :=
  (@takeWhile_append_of_stops p [] cs (by simp) h).2

theorem passes_takeWhile (p : Char → Bool) (cs : List Char) :
    ∀ c ∈ cs.takeWhile p, p c = true :=
  List.all_eq_true.mp List.all_takeWhile

theorem stops_dropWhile (p : Char → Bool) (cs : List Char) :
    ∀ c ∈ (cs.dropWhile p).head?, p c = false := by
  intro c hc
  have hstop := List.head?_dropWhile_not p cs
  rw [Option.mem_def] at hc
  rw [hc] at hstop
  exact hstop

theorem eq_of_append_of_stops {front back front' back' : List Char}
    (hfront : ∀ c ∈ front, p c = true) (hback : ∀ c ∈ back.head?, p c = false)
    (hfront' : ∀ c ∈ front', p c = true) (hback' : ∀ c ∈ back'.head?, p c = false)
    (h : front ++ back = front' ++ back') : front = front' ∧ back = back' := by
  obtain ⟨htake, hdrop⟩ := takeWhile_append_of_stops back hfront hback
  obtain ⟨htake', hdrop'⟩ := takeWhile_append_of_stops back' hfront' hback'
  rw [h] at htake hdrop
  exact ⟨htake.symm.trans htake', hdrop.symm.trans hdrop'⟩

/-- Where a reader stops, what follows has no say. -/
theorem takeWhile_append_cons {c : Char} (hc : p c = false) (front back : List Char) :
    (front ++ c :: back).takeWhile p = front.takeWhile p ∧
      (front ++ c :: back).dropWhile p = front.dropWhile p ++ c :: back := by
  induction front with
  | nil => simp [hc]
  | cons first front ih =>
      rw [List.cons_append]
      cases hfirst : p first with
      | false => simp [hfirst]
      | true => simpa [hfirst] using ih

theorem mem_dropWhile {c : Char} (hc : p c = false) (hmem : c ∈ cs) :
    c ∈ cs.dropWhile p := by
  rw [← List.takeWhile_append_dropWhile (p := p) (l := cs)] at hmem
  refine (List.mem_append.mp hmem).resolve_left fun hfront => ?_
  rw [passes_takeWhile p cs c hfront] at hc
  cases hc

/-! ### Blanks around a word -/

theorem dropWhile_blank_of_none (h : ∀ c ∈ cs, isBlank c = false) :
    cs.dropWhile isBlank = cs := by
  exact dropWhile_of_stops fun c hc => h c (List.mem_of_mem_head? hc)

theorem trimBlanks_around (hbefore : ∀ c ∈ before, isBlank c = true)
    (hword : ∀ c ∈ word, isBlank c = false) (hafter : ∀ c ∈ after, isBlank c = true) :
    trimBlanks (before ++ (word ++ after)) = word := by
  rw [trimBlanks, List.dropWhile_append_of_pos hbefore]
  cases word with
  | nil =>
      rw [List.nil_append, ← List.append_nil after, List.dropWhile_append_of_pos hafter]
      rfl
  | cons c rest =>
      rw [List.cons_append, List.dropWhile_cons_of_neg
        (by simp [hword c List.mem_cons_self]), ← List.cons_append, List.reverse_append,
        List.dropWhile_append_of_pos fun c hc => hafter c (List.mem_reverse.mp hc),
        dropWhile_blank_of_none fun c hc =>
          hword c (List.mem_reverse.mp hc), List.reverse_reverse]

theorem trimBlanks_of_none (h : ∀ c ∈ cs, isBlank c = false) : trimBlanks cs = cs := by
  have haround := @trimBlanks_around [] cs [] (by simp) h (by simp)
  rwa [List.append_nil] at haround

theorem exists_trimBlanks (cs : List Char) :
    ∃ before after, (∀ c ∈ before, isBlank c = true) ∧ (∀ c ∈ after, isBlank c = true) ∧
      cs = before ++ (trimBlanks cs ++ after) := by
  refine ⟨cs.takeWhile isBlank, ((cs.dropWhile isBlank).reverse.takeWhile isBlank).reverse,
    passes_takeWhile _ _, fun c hc => passes_takeWhile _ _ c (List.mem_reverse.mp hc), ?_⟩
  rw [trimBlanks, ← List.reverse_append, List.takeWhile_append_dropWhile,
    List.reverse_reverse, List.takeWhile_append_dropWhile]

end WarehouseLoader.Text

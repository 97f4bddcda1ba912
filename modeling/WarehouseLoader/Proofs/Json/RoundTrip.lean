import Mathlib.Data.List.Basic
import WarehouseLoader.Json.Document
import WarehouseLoader.Json.Writer

/-!
# What is written is read again

A value that is made of texts alone, in arrays and objects of any form, is read
back from what the writer makes of it: by the lexer as `tokens`, by the builder
as `document` (`documentOfText?_render`), and by the untyped reading, as long as
the brackets go no deeper than it allows, as the value with its members in order
(`ofText?_render`). Numbers and words are left out, because nothing of a schema
is written with them.

The lexer and the builder are machines that take one character or one token at a
time. So what they make of a written value is said for every state in which a
value may begin and for everything that may come behind it.
-/

namespace WarehouseLoader.Json

inductive Textual : Json → Prop
  | text {s} : Textual (.text s)
  | array {items} (hitems : ∀ item ∈ items, Textual item) : Textual (.array items)
  | object {members} (hmembers : ∀ m ∈ members, Textual m.2) : Textual (.object members)

/-- The brackets of the value go no deeper than this. -/
inductive Within : Nat → Json → Prop
  | null {depth} : Within depth .null
  | bool {depth b} : Within depth (.bool b)
  | number {depth n} : Within depth (.number n)
  | text {depth s} : Within depth (.text s)
  | array {depth items} (hitems : ∀ item ∈ items, Within depth item) :
      Within (depth + 1) (.array items)
  | object {depth members} (hmembers : ∀ m ∈ members, Within depth m.2) :
      Within (depth + 1) (.object members)

mutual

def tokens : Json → List Token
  | .null => [.null]
  | .bool b => [.bool b]
  | .number n => [.number (some n)]
  | .text s => [.text (some s)]
  | .array items => .openBracket :: (itemTokens items ++ [.closeBracket])
  | .object members => .openBrace :: (memberTokens members ++ [.closeBrace])

def itemTokens : List Json → List Token
  | [] => []
  | [item] => tokens item
  | item :: rest => tokens item ++ .comma :: itemTokens rest

def memberTokens : List (String × Json) → List Token
  | [] => []
  | [(name, value)] => .text (some name) :: .colon :: tokens value
  | (name, value) :: rest =>
    .text (some name) :: .colon :: (tokens value ++ .comma :: memberTokens rest)

end

mutual

def document : Json → Document
  | .null => .null
  | .bool b => .bool b
  | .number n => .number (some n)
  | .text s => .text (some s)
  | .array items => .array (itemDocuments items)
  | .object members => .object (memberDocuments members)

def itemDocuments : List Json → List Document
  | [] => []
  | item :: rest => document item :: itemDocuments rest

def memberDocuments : List (String × Json) → List (Option String × Document)
  | [] => []
  | (name, value) :: rest => (some name, document value) :: memberDocuments rest

end

theorem itemChars_comma (item second : Json) (rest : List Json) :
    itemChars (item :: second :: rest) = item.chars ++ ',' :: itemChars (second :: rest) :=
  rfl

theorem memberChars_comma (name : String) (value : Json) (second : String × Json)
    (rest : List (String × Json)) :
    memberChars ((name, value) :: second :: rest) =
      quoteChars name ++ ':' :: (value.chars ++ ',' :: memberChars (second :: rest)) :=
  rfl

theorem itemTokens_comma (item second : Json) (rest : List Json) :
    itemTokens (item :: second :: rest) =
      item.tokens ++ .comma :: itemTokens (second :: rest) :=
  rfl

theorem memberTokens_comma (name : String) (value : Json) (second : String × Json)
    (rest : List (String × Json)) :
    memberTokens ((name, value) :: second :: rest) =
      .text (some name) :: .colon ::
        (value.tokens ++ .comma :: memberTokens (second :: rest)) :=
  rfl

/-! ### From characters to tokens -/

section Lexer

variable {seen : List Token} {rest : List Char} {read : List Char}

theorem run_mark {c : Char} {t : Token} (h : LexState.start c = some (.between, [t])) :
    LexState.between.run seen (c :: rest) = LexState.between.run (t :: seen) rest := by
  rw [LexState.run, LexState.step, h]
  rfl

theorem hexDigit?_hexChar {n : Nat} (h : n < 16) :
    LexState.hexDigit? (hexChar n) = some n := by
  revert n
  decide

theorem run_control {c : Char} (h : c.toNat < 0x20) :
    (LexState.inText ⟨read, none, true⟩).run seen
        ('\\' :: 'u' :: '0' :: '0' :: hexChar (c.toNat / 16) ::
          hexChar (c.toNat % 16) :: rest) =
      (LexState.inText ⟨c :: read, none, true⟩).run seen rest := by
  have hzero : LexState.hexDigit? '0' = some 0 := by decide
  have hhigh : LexState.hexDigit? (hexChar (c.toNat / 16)) = some (c.toNat / 16) :=
    hexDigit?_hexChar (by omega)
  have hlow : LexState.hexDigit? (hexChar (c.toNat % 16)) = some (c.toNat % 16) :=
    hexDigit?_hexChar (by omega)
  have hunit : 16 * (c.toNat / 16) + c.toNat % 16 = c.toNat := by omega
  have hpush : PartialText.pushUnit ⟨read, none, true⟩ c.toNat =
      ⟨c :: read, none, true⟩ := by
    rw [PartialText.pushUnit, if_neg (by omega), if_neg (by omega), PartialText.push,
      Char.ofNat_toNat]
    rfl
  simp [LexState.run, LexState.step, hzero, hhigh, hlow, hunit, hpush]

/-- What the writer puts for a character is read as that character. -/
theorem run_escapeChar (c : Char) :
    (LexState.inText ⟨read, none, true⟩).run seen (escapeChar c ++ rest) =
      (LexState.inText ⟨c :: read, none, true⟩).run seen rest := by
  rw [escapeChar.eq_def]
  split
  case h_8 hquote hslash _ _ _ _ _ =>
      split
      · next h => exact run_control h
      · next h =>
          have hstep : LexState.step (.inText ⟨read, none, true⟩) c =
              some (.inText ⟨c :: read, none, true⟩, []) := by
            rw [LexState.step, if_neg hquote, if_neg hslash, if_neg h]
            rfl
          rw [List.singleton_append, LexState.run, hstep]
          rfl
  all_goals rfl

theorem run_escaped (cs : List Char) :
    (LexState.inText ⟨read, none, true⟩).run seen (cs.flatMap escapeChar ++ '"' :: rest) =
      LexState.between.run
        (.text (some (String.ofList (read.reverse ++ cs))) :: seen) rest := by
  induction cs generalizing read with
  | nil =>
      rw [List.append_nil]
      rfl
  | cons c cs ih =>
      rw [List.flatMap_cons, List.append_assoc, run_escapeChar, ih, List.reverse_cons,
        List.append_assoc, List.singleton_append]

theorem run_quoteChars (s : String) :
    LexState.between.run seen (quoteChars s ++ rest) =
      LexState.between.run (.text (some s) :: seen) rest := by
  have hread : LexState.between.run seen (quoteChars s ++ rest) =
      LexState.between.run (.text (some (String.ofList ([].reverse ++ s.toList))) :: seen)
        rest := by
    rw [← run_escaped, quoteChars, List.cons_append, List.append_assoc,
      List.singleton_append]
    rfl
  rw [hread, List.reverse_nil, List.nil_append, String.ofList_toList]

/-- The value is read wherever one may begin, whatever comes behind it. -/
def Lexed (v : Json) : Prop :=
  ∀ seen rest, LexState.between.run seen (v.chars ++ rest) =
    LexState.between.run (v.tokens.reverse ++ seen) rest

theorem run_itemChars {items : List Json} (h : ∀ item ∈ items, Lexed item) :
    LexState.between.run seen (itemChars items ++ rest) =
      LexState.between.run ((itemTokens items).reverse ++ seen) rest := by
  induction items generalizing seen with
  | nil => rfl
  | cons item items ih =>
      have hitem : Lexed item := h item List.mem_cons_self
      have hitems : ∀ other ∈ items, Lexed other := fun other hother =>
        h other (List.mem_cons_of_mem _ hother)
      cases items with
      | nil => exact hitem seen rest
      | cons second more =>
          rw [itemChars_comma, itemTokens_comma, List.append_assoc, List.cons_append, hitem,
            run_mark (c := ',') rfl, ih hitems]
          simp only [List.reverse_append, List.reverse_cons,
            List.append_assoc, List.cons_append, List.nil_append]

theorem run_memberChars {members : List (String × Json)} (h : ∀ m ∈ members, Lexed m.2) :
    LexState.between.run seen (memberChars members ++ rest) =
      LexState.between.run ((memberTokens members).reverse ++ seen) rest := by
  induction members generalizing seen with
  | nil => rfl
  | cons m members ih =>
      obtain ⟨name, value⟩ := m
      have hvalue : Lexed value := h (name, value) List.mem_cons_self
      have hmembers : ∀ other ∈ members, Lexed other.2 := fun other hother =>
        h other (List.mem_cons_of_mem _ hother)
      have hcolon : ∀ more, LexState.between.run seen (quoteChars name ++ ':' :: more) =
          LexState.between.run (.colon :: .text (some name) :: seen) more := fun more => by
        rw [run_quoteChars, run_mark (c := ':') rfl]
      cases members with
      | nil =>
          rw [memberChars, memberTokens, List.append_assoc,
            List.cons_append, hcolon, hvalue]
          simp only [List.reverse_cons, List.append_assoc,
            List.cons_append, List.nil_append]
      | cons second more =>
          rw [memberChars_comma, memberTokens_comma, List.append_assoc,
            List.cons_append, hcolon, List.append_assoc, List.cons_append, hvalue,
            run_mark (c := ',') rfl, ih hmembers]
          simp only [List.reverse_cons, List.reverse_append,
            List.append_assoc, List.cons_append, List.nil_append]

theorem Textual.lexed {v : Json} (h : v.Textual) : v.Lexed := by
  induction h with
  | @text s => exact fun seen rest => run_quoteChars s
  | @array items hitems ih =>
      intro seen rest
      rw [chars, tokens, List.cons_append, List.append_assoc, run_mark (c := '[') rfl,
        run_itemChars ih, List.singleton_append, run_mark (c := ']') rfl]
      simp only [List.reverse_cons, List.reverse_append, List.reverse_nil,
        List.append_assoc, List.cons_append, List.nil_append]
  | @object members hmembers ih =>
      intro seen rest
      rw [chars, tokens, List.cons_append, List.append_assoc, run_mark (c := '\x7b') rfl,
        run_memberChars ih, List.singleton_append, run_mark (c := '\x7d') rfl]
      simp only [List.reverse_cons, List.reverse_append, List.reverse_nil,
        List.append_assoc, List.cons_append, List.nil_append]

theorem tokens?_render {v : Json} (h : v.Textual) : tokens? v.render = some v.tokens := by
  have hchars : v.render.toList = v.chars ++ [] := by
    rw [render, String.toList_ofList, List.append_nil]
  rw [tokens?, hchars, h.lexed, List.append_nil]
  exact congrArg some v.tokens.reverse_reverse

end Lexer

/-! ### From tokens to documents -/

section Builder

variable {frames : List Frame} {rest : List Token}

/-- The value is built wherever one is awaited, whatever comes behind it. -/
def Built (v : Json) : Prop :=
  ∀ frames rest, Builder.run ⟨frames, .value⟩ (v.tokens ++ rest) =
    (Builder.complete v.document frames).run rest

/-- No value begins with a closing bracket. -/
theorem run_firstItem {items : List Json} (hsome : items ≠ []) :
    Builder.run ⟨frames, .itemOrClose⟩ (itemTokens items ++ rest) =
      Builder.run ⟨.items [] :: frames, .value⟩ (itemTokens items ++ rest) := by
  match items with
  | [] => exact absurd rfl hsome
  | [item] => cases item <;> rfl
  | item :: second :: more => cases item <;> rfl

theorem run_firstMember {members : List (String × Json)} (hsome : members ≠ []) :
    Builder.run ⟨frames, .nameOrClose⟩ (memberTokens members ++ rest) =
      Builder.run ⟨frames, .name []⟩ (memberTokens members ++ rest) := by
  match members with
  | [] => exact absurd rfl hsome
  | [(name, value)] => rfl
  | (name, value) :: second :: more => rfl

theorem run_itemTokens {items : List Json} (h : ∀ item ∈ items, Built item)
    (hsome : items ≠ []) (held : List Document) :
    Builder.run ⟨.items held :: frames, .value⟩
      (itemTokens items ++ .closeBracket :: rest) =
      (Builder.complete (.array (held.reverse ++ itemDocuments items))
        frames).run rest := by
  induction items generalizing held with
  | nil => exact absurd rfl hsome
  | cons item items ih =>
      have hitem : Built item := h item List.mem_cons_self
      have hitems : ∀ other ∈ items, Built other := fun other hother =>
        h other (List.mem_cons_of_mem _ hother)
      cases items with
      | nil =>
          rw [itemTokens, hitem, itemDocuments, itemDocuments, ← List.reverse_cons]
          rfl
      | cons second more =>
          have hmore := ih hitems (by simp) (item.document :: held)
          rw [List.reverse_cons, List.append_assoc] at hmore
          rw [itemTokens_comma, List.append_assoc, hitem]
          exact hmore

theorem run_memberTokens {members : List (String × Json)} (h : ∀ m ∈ members, Built m.2)
    (hsome : members ≠ []) (held : List (Option String × Document)) :
    Builder.run ⟨frames, .name held⟩ (memberTokens members ++ .closeBrace :: rest) =
      (Builder.complete (.object (held.reverse ++ memberDocuments members))
        frames).run rest := by
  induction members generalizing held with
  | nil => exact absurd rfl hsome
  | cons m members ih =>
      obtain ⟨name, value⟩ := m
      have hvalue : Built value := h (name, value) List.mem_cons_self
      have hmembers : ∀ other ∈ members, Built other.2 := fun other hother =>
        h other (List.mem_cons_of_mem _ hother)
      have hcolon : ∀ more, Builder.run ⟨frames, .name held⟩
          (.text (some name) :: .colon :: (value.tokens ++ more)) =
            Builder.run ⟨frames, .memberEnd
              ((some name, value.document) :: held)⟩ more := by
        intro more
        exact hvalue (.members held (some name) :: frames) more
      cases members with
      | nil =>
          rw [memberTokens, List.cons_append, List.cons_append, hcolon, memberDocuments,
            memberDocuments, ← List.reverse_cons]
          rfl
      | cons second more =>
          have hmore := ih hmembers (by simp) ((some name, value.document) :: held)
          rw [List.reverse_cons, List.append_assoc] at hmore
          rw [memberTokens_comma, List.cons_append, List.cons_append,
            List.append_assoc, hcolon]
          exact hmore

theorem Textual.built {v : Json} (h : v.Textual) : v.Built := by
  induction h with
  | text => exact fun frames rest => rfl
  | @array items hitems ih =>
      intro frames rest
      by_cases hsome : items = []
      · subst hsome
        rfl
      · have hopen : ∀ more, Builder.run ⟨frames, .value⟩ (.openBracket :: more) =
            Builder.run ⟨frames, .itemOrClose⟩ more := fun _ => rfl
        rw [tokens, List.cons_append, List.append_assoc, List.singleton_append, hopen,
          run_firstItem hsome, run_itemTokens ih hsome]
        rfl
  | @object members hmembers ih =>
      intro frames rest
      by_cases hsome : members = []
      · subst hsome
        rfl
      · have hopen : ∀ more, Builder.run ⟨frames, .value⟩ (.openBrace :: more) =
            Builder.run ⟨frames, .nameOrClose⟩ more := fun _ => rfl
        rw [tokens, List.cons_append, List.append_assoc, List.singleton_append, hopen,
          run_firstMember hsome, run_memberTokens ih hsome]
        rfl

theorem documentOfText?_render {v : Json} (h : v.Textual) :
    Document.ofText? v.render = some v.document := by
  have hbuilt : Builder.run .initial (v.tokens ++ []) = some ⟨[], .nothing v.document⟩ :=
    h.built [] []
  rw [List.append_nil] at hbuilt
  rw [Document.ofText?, tokens?_render h, Option.bind_some, Document.ofTokens?, hbuilt]
  rfl

end Builder

/-! ### From documents to values -/

section Values

variable {depth : Nat}

theorem values?_itemDocuments {items : List Json}
    (h : ∀ item ∈ items, item.document.value? depth = some item.sorted) :
    Document.values? depth (itemDocuments items) = some (sortedItems items) := by
  induction items with
  | nil => rfl
  | cons item items ih =>
      have hitems := ih fun other hother => h other (List.mem_cons_of_mem _ hother)
      rw [itemDocuments, Document.values?, h item List.mem_cons_self, hitems]
      rfl

theorem members?_memberDocuments {members before : List (String × Json)}
    (h : ∀ m ∈ members, m.2.document.value? depth = some m.2.sorted) :
    Document.members? depth before (memberDocuments members) =
      some (sortedMembers before members) := by
  induction members generalizing before with
  | nil => rfl
  | cons m members ih =>
      obtain ⟨name, value⟩ := m
      have hvalue : value.document.value? depth = some value.sorted :=
        h (name, value) List.mem_cons_self
      rw [memberDocuments, Document.members?, hvalue]
      exact ih fun other hother => h other (List.mem_cons_of_mem _ hother)

theorem value?_document {v : Json} (h : v.Within depth) :
    v.document.value? depth = some v.sorted := by
  induction h with
  | null | bool | number | text => rfl
  | array hitems ih =>
      rw [document, Document.value?, if_neg (Nat.succ_ne_zero _), Nat.add_sub_cancel,
        values?_itemDocuments ih]
      rfl
  | object hmembers ih =>
      rw [document, Document.value?, if_neg (Nat.succ_ne_zero _), Nat.add_sub_cancel,
        members?_memberDocuments ih]
      rfl

theorem exists_of_values? {items : List Document} {values : List Json}
    (h : Document.values? depth items = some values) {v : Json} (hv : v ∈ values) :
    ∃ item : Document, item.value? depth = some v := by
  induction items generalizing values with
  | nil =>
      rw [Document.values?] at h
      cases h
      cases hv
  | cons item items ih =>
      rw [Document.values?] at h
      split at h
      · next first hfirst =>
          obtain ⟨others, hothers, rfl⟩ := Option.map_eq_some_iff.mp h
          rcases List.mem_cons.mp hv with rfl | hv
          · exact ⟨item, hfirst⟩
          · exact ih hothers hv
      · cases h

theorem exists_of_members? {members : List (Option String × Document)}
    {before values : List (String × Json)}
    (h : Document.members? depth before members = some values)
    {m : String × Json} (hm : m ∈ values) :
    m ∈ before ∨ ∃ item : Document, item.value? depth = some m.2 := by
  induction members generalizing before with
  | nil =>
      rw [Document.members?] at h
      cases h
      exact .inl hm
  | cons first members ih =>
      obtain ⟨name, item⟩ := first
      cases name with
      | none =>
          rw [Document.members?] at h
          cases h
      | some name =>
          rw [Document.members?] at h
          split at h
          · next value hvalue =>
              rcases ih h with hbefore | hlater
              · rcases mem_insertEntry hbefore with rfl | hbefore
                · exact .inr ⟨item, hvalue⟩
                · exact .inl hbefore
              · exact .inr hlater
          · cases h

theorem within_of_value? {d : Document} {v : Json} (h : d.value? depth = some v) :
    v.Within depth := by
  induction depth using Nat.strongRecOn generalizing d v with
  | ind depth ih =>
      cases d with
      | null | bool =>
          rw [Document.value?] at h
          cases h
          constructor
      | number | text =>
          rw [Document.value?] at h
          obtain ⟨_, -, rfl⟩ := Option.map_eq_some_iff.mp h
          constructor
      | array items =>
          rw [Document.value?] at h
          split at h
          · cases h
          · next hopen =>
              obtain ⟨inner, rfl⟩ := Nat.exists_eq_succ_of_ne_zero hopen
              obtain ⟨values, hvalues, rfl⟩ := Option.map_eq_some_iff.mp h
              refine .array fun item hitem => ?_
              obtain ⟨_, hvalue⟩ := exists_of_values? hvalues hitem
              exact ih inner (Nat.lt_succ_self inner) hvalue
      | object members =>
          rw [Document.value?] at h
          split at h
          · cases h
          · next hopen =>
              obtain ⟨inner, rfl⟩ := Nat.exists_eq_succ_of_ne_zero hopen
              obtain ⟨values, hvalues, rfl⟩ := Option.map_eq_some_iff.mp h
              refine .object fun m hm => ?_
              rcases exists_of_members? hvalues hm with hbefore | ⟨_, hvalue⟩
              · cases hbefore
              · exact ih inner (Nat.lt_succ_self inner) hvalue

end Values

theorem ofText?_render {v : Json} (htextual : v.Textual) (hwithin : v.Within maxDepth) :
    ofText? v.render = some v.sorted := by
  rw [ofText?, documentOfText?_render htextual, Option.bind_some, value?_document hwithin]

theorem within_of_ofText? {t : String} {v : Json} (h : ofText? t = some v) :
    v.Within maxDepth := by
  obtain ⟨d, -, hvalue⟩ := Option.bind_eq_some_iff.mp h
  exact within_of_value? hvalue

end WarehouseLoader.Json

import WarehouseLoader.Proofs.Upload.Overclaim
import WarehouseLoader.Proofs.Upload.Recovery

/-!
# What counts as an acknowledgement

A server says that it holds the bytes up to `N` by the range `bytes=0-N`, with
blanks around the number. A channel looks for a number behind the first dash
and for little else (`Reads`). In front of the dash there may be any text, the
number may have a plus sign, and behind another dash there may be anything.

So every claim is credited in full, and the one number that is read and not
credited is the last of 64 bits, over which the program breaks off. But a range
that begins elsewhere is credited as if it began with the first byte. A channel
credits what is claimed and nothing else exactly if no such range comes with the
answer (`creditsClaims_iff`).
-/

namespace WarehouseLoader.Upload

open Auth Http

/-- A number with a sign in front and blanks around both. -/
def Written (part sign : List Char) (n : Nat) : Prop :=
  ∃ before digits after, (∀ c ∈ before, Text.isBlank c = true) ∧
    (∀ c ∈ after, Text.isBlank c = true) ∧ Numeral.digits? digits = some n ∧
    part = before ++ ((sign ++ digits) ++ after)

/-- The range is `bytes=0-N`. -/
def Claims (value : String) (last : Nat) : Prop :=
  ∃ part, Written part [] last ∧ value.toList = "bytes=0-".toList ++ part

/-- What is in front of the first dash, the number behind it with its sign, and
what is left over. -/
structure Reads (value : String) (first sign rest : List Char) (last : Nat) : Prop where
  noDash : '-' ∉ first
  plus : sign = [] ∨ sign = ['+']
  ends : ∀ c ∈ rest.head?, c = '-'
  written : ∃ part, Written part sign last ∧
    value.toList = "bytes=".toList ++ (first ++ '-' :: (part ++ rest))

/-- A number is read from the range that the range does not claim. -/
def Loose (value : String) : Prop :=
  ∃ first sign rest last, Reads value first sign rest last ∧ last + 1 < UInt64.size ∧
    ¬(first = ['0'] ∧ sign = [] ∧ rest = [])

/-- The answer is one that the bytes up to `last` are credited for. -/
def Credited (r : Response) (last : Nat) : Prop :=
  last + 1 < UInt64.size ∧
    ∃ value first sign rest, r.header? "range" = some value ∧
      Reads value first sign rest last

/-- The answer is credited for what it claims and for nothing else. -/
def CreditsClaims (r : Response) : Prop :=
  ∀ last, Channel.heldBy r = last + 1 ↔
    last + 1 < UInt64.size ∧ ∃ value, r.header? "range" = some value ∧ Claims value last

variable {value : String} {part first sign rest sign' : List Char}
  {last n : Nat} {r : Response}

/-! ### The number -/

theorem Written.trimmed (h : Written part sign n) (hsign : sign = [] ∨ sign = ['+']) :
    ∃ digits, Text.trimBlanks part = sign ++ digits ∧ Numeral.digits? digits = some n := by
  obtain ⟨before, digits, after, hbefore, hafter, hdigits, rfl⟩ := h
  refine ⟨digits, Text.trimBlanks_around hbefore ?_ hafter, hdigits⟩
  intro c hc
  rcases List.mem_append.mp hc with hc | hc
  · rcases hsign with rfl | rfl
    · cases hc
    · rw [List.mem_singleton.mp hc]
      decide
  · exact Text.isBlank_of_mem_digits hdigits hc

theorem readBelow_trimBlanks_iff {bound : Nat} :
    Numeral.readBelow bound (Text.trimBlanks part) = some n ↔
      n < bound ∧ ∃ sign, (sign = [] ∨ sign = ['+']) ∧ Written part sign n := by
  rw [Numeral.readBelow_eq_some_iff]
  refine and_congr_right fun _ => ⟨?_, ?_⟩
  · rintro ⟨sign, digits, hsign, hword, hdigits⟩
    obtain ⟨before, after, hbefore, hafter, hpart⟩ := Text.exists_trimBlanks part
    rw [hword] at hpart
    exact ⟨sign, hsign, before, digits, after, hbefore, hafter, hdigits, hpart⟩
  · rintro ⟨sign, hsign, hwritten⟩
    obtain ⟨digits, hword, hdigits⟩ := hwritten.trimmed hsign
    exact ⟨sign, digits, hsign, hword, hdigits⟩

theorem Written.noDash (h : Written part sign n) (hsign : sign = [] ∨ sign = ['+']) :
    '-' ∉ part := by
  obtain ⟨before, digits, after, hbefore, hafter, hdigits, rfl⟩ := h
  have hblank {cs : List Char} (h : ∀ c ∈ cs, Text.isBlank c = true) : '-' ∉ cs :=
    fun hmem => absurd (h _ hmem) (by decide)
  simp only [List.mem_append, not_or]
  refine ⟨hblank hbefore, ⟨?_, Numeral.notMem_of_digits? rfl hdigits⟩, hblank hafter⟩
  rcases hsign with rfl | rfl <;> simp

/-- A number with a plus sign in front is not one without. -/
theorem Written.sign_eq (h : Written part sign n) (hsign : sign = [] ∨ sign = ['+'])
    (h' : Written part [] last) : sign = [] := by
  obtain ⟨digits, hword, -⟩ := h.trimmed hsign
  obtain ⟨digits', hword', hdigits'⟩ := h'.trimmed (.inl rfl)
  refine hsign.resolve_right fun hplus =>
    Numeral.notMem_of_digits? (b := '+') rfl hdigits' ?_
  rw [← List.nil_append digits', ← hword', hword, hplus]
  exact List.mem_cons_self

/-! ### The parts of a range -/

theorem passes_of_noDash {cs : List Char} (h : '-' ∉ cs) : ∀ c ∈ cs, (c != '-') = true :=
  fun _ hc => bne_iff_ne.mpr fun heq => h (heq ▸ hc)

theorem noDash_takeWhile (cs : List Char) : '-' ∉ cs.takeWhile (· != '-') :=
  fun hmem => absurd (Text.passes_takeWhile _ cs _ hmem) (by decide)

theorem stops_of_dash {cs : List Char} (h : ∀ c ∈ cs.head?, c = '-') :
    ∀ c ∈ cs.head?, (c != '-') = false := by
  intro c hc
  rw [h c hc]
  decide

theorem dash_dropWhile (cs : List Char) : ∀ c ∈ (cs.dropWhile (· != '-')).head?, c = '-' :=
  fun c hc => by simpa using Text.stops_dropWhile _ _ c hc

theorem secondPart?_eq_some_iff {cs : List Char} :
    secondPart? cs = some part ↔ '-' ∉ part ∧ ∃ first rest, '-' ∉ first ∧
      (∀ c ∈ rest.head?, c = '-') ∧ cs = first ++ '-' :: (part ++ rest) := by
  rw [secondPart?]
  constructor
  · intro h
    split at h
    · cases h
    · next c behind hdrop =>
        cases h
        obtain rfl : c = '-' := dash_dropWhile cs c (by rw [hdrop]; rfl)
        refine ⟨noDash_takeWhile behind, cs.takeWhile (· != '-'),
          behind.dropWhile (· != '-'), noDash_takeWhile cs, dash_dropWhile behind, ?_⟩
        rw [List.takeWhile_append_dropWhile, ← hdrop, List.takeWhile_append_dropWhile]
  · rintro ⟨hpart, first, rest, hfirst, hrest, rfl⟩
    have hdrop := (Text.takeWhile_append_of_stops (p := (· != '-')) ('-' :: (part ++ rest))
      (passes_of_noDash hfirst) (stops_of_dash (by simp))).2
    have htake :=
      (Text.takeWhile_append_of_stops (p := (· != '-')) rest (passes_of_noDash hpart)
      (stops_of_dash hrest)).1
    rw [hdrop]
    exact congrArg some htake

theorem lastByte?_eq_some_iff :
    lastByte? value = some last ↔ last < UInt64.size ∧
      ∃ first sign rest, Reads value first sign rest last := by
  rw [lastByte?]
  constructor
  · intro h
    split at h
    · next hunit =>
        obtain ⟨behind, hbehind⟩ := List.isPrefixOf_iff_prefix.mp hunit
        rw [← hbehind, Option.bind_eq_some_iff] at h
        obtain ⟨part, hpart, hlast⟩ := h
        obtain ⟨hbound, sign, hsign, hwritten⟩ := readBelow_trimBlanks_iff.mp hlast
        obtain ⟨-, first, rest, hfirst, hrest, hsplit⟩ := secondPart?_eq_some_iff.mp hpart
        refine ⟨hbound, first, sign, rest, hfirst, hsign, hrest, part, hwritten, ?_⟩
        rw [← hsplit, ← hbehind]
        rfl
    · cases h
  · rintro ⟨hlast, first, sign, rest, hfirst, hsign, hrest, part, hwritten, hvalue⟩
    have hpart : secondPart? (value.toList.drop 6) = some part := by
      rw [hvalue]
      exact secondPart?_eq_some_iff.mpr
        ⟨hwritten.noDash hsign, first, rest, hfirst, hrest, rfl⟩
    rw [if_pos (List.isPrefixOf_iff_prefix.mpr ⟨_, hvalue.symm⟩), hpart, Option.bind_some]
    exact readBelow_trimBlanks_iff.mpr ⟨hlast, sign, hsign, hwritten⟩

/-! ### What is credited -/

theorem reads_of_claims (h : Claims value last) : Reads value ['0'] [] [] last := by
  obtain ⟨part, hwritten, hvalue⟩ := h
  refine ⟨by decide, .inl rfl, by simp, part, hwritten, ?_⟩
  rw [hvalue, List.append_nil]
  rfl

theorem claims_of_reads (h : Reads value ['0'] [] [] last) : Claims value last := by
  obtain ⟨-, -, -, part, hwritten, hvalue⟩ := h
  refine ⟨part, hwritten, ?_⟩
  rw [hvalue, List.append_nil]
  rfl

/-- A range that claims something is read in one way. -/
theorem Reads.eq_of_claims (h : Reads value first sign rest last)
    (hclaims : Claims value n) : first = ['0'] ∧ sign = [] ∧ rest = [] := by
  obtain ⟨hfirst, hsign, hrest, part, hwritten, hvalue⟩ := h
  obtain ⟨part', hwritten', hvalue'⟩ := hclaims
  have hsplit : first ++ '-' :: (part ++ rest) = ['0'] ++ '-' :: part' :=
    List.append_cancel_left (hvalue.symm.trans hvalue')
  obtain ⟨rfl, hbehind⟩ :=
    Text.eq_of_append_of_stops (p := (· != '-')) (passes_of_noDash hfirst)
    (stops_of_dash (by simp)) (passes_of_noDash (by decide))
      (stops_of_dash (by simp)) hsplit
  have hnumber : part ++ rest = part' ++ [] := by
    rw [List.append_nil]
    exact List.tail_eq_of_cons_eq hbehind
  obtain ⟨rfl, rfl⟩ := Text.eq_of_append_of_stops (p := (· != '-'))
    (passes_of_noDash (hwritten.noDash hsign)) (stops_of_dash hrest)
    (passes_of_noDash (hwritten'.noDash (.inl rfl))) (by simp) hnumber
  exact ⟨rfl, hwritten.sign_eq hsign hwritten', rfl⟩

theorem heldBy_eq_succ_iff : Channel.heldBy r = last + 1 ↔ Credited r last := by
  rw [Channel.heldBy, Credited]
  constructor
  · intro h
    obtain ⟨n, hheld, hn⟩ : ∃ n, (r.header? "range").bind heldBytes? = some n ∧
        n = last + 1 := by
      cases hheld : (r.header? "range").bind heldBytes? with
      | none =>
          rw [hheld] at h
          cases h
      | some n =>
          rw [hheld] at h
          exact ⟨n, rfl, h⟩
    obtain ⟨value, hvalue, hheld⟩ := Option.bind_eq_some_iff.mp hheld
    obtain ⟨last', hlast', hcount, rfl⟩ := heldBytes?_eq_some_iff.mp hheld
    obtain ⟨-, first, sign, rest, hreads⟩ := lastByte?_eq_some_iff.mp hlast'
    obtain rfl : last' = last := Nat.succ.inj hn
    exact ⟨hcount, value, first, sign, rest, hvalue, hreads⟩
  · rintro ⟨hcount, value, first, sign, rest, hvalue, hreads⟩
    have hlast : lastByte? value = some last :=
      lastByte?_eq_some_iff.mpr ⟨Nat.lt_of_succ_lt hcount, first, sign, rest, hreads⟩
    rw [hvalue, Option.bind_some, heldBytes?_eq_some_iff.mpr ⟨last, hlast, hcount, rfl⟩]
    rfl

/-- The answer names the last position there is. -/
theorem namesLast_iff :
    Channel.NamesLast r ↔ ∃ value first sign rest,
      r.header? "range" = some value ∧ Reads value first sign rest (UInt64.size - 1) := by
  have hlast : UInt64.size - 1 < UInt64.size := by decide
  simp only [Channel.NamesLast, Option.bind_eq_some_iff,
    lastByte?_eq_some_iff, hlast, true_and]
  constructor
  · rintro ⟨value, hvalue, first, sign, rest, hreads⟩
    exact ⟨value, first, sign, rest, hvalue, hreads⟩
  · rintro ⟨value, first, sign, rest, hvalue, hreads⟩
    exact ⟨value, hvalue, first, sign, rest, hreads⟩

theorem creditsClaims_iff_notLoose :
    CreditsClaims r ↔ ¬∃ value, r.header? "range" = some value ∧ Loose value := by
  constructor
  · rintro hall ⟨value, hvalue, first, sign, rest, last, hreads, hlast, hother⟩
    have hcredited : Credited r last := ⟨hlast, value, first, sign, rest, hvalue, hreads⟩
    obtain ⟨-, value', hvalue', hclaims⟩ :=
      (hall last).mp (heldBy_eq_succ_iff.mpr hcredited)
    cases hvalue.symm.trans hvalue'
    exact hother (hreads.eq_of_claims hclaims)
  · intro htight last
    rw [heldBy_eq_succ_iff, Credited]
    refine and_congr_right fun hlast => exists_congr fun value => ?_
    constructor
    · rintro ⟨first, sign, rest, hvalue, hreads⟩
      have hclaim : first = ['0'] ∧ sign = [] ∧ rest = [] :=
        not_not.mp fun hother =>
          htight ⟨value, hvalue, first, sign, rest, last, hreads, hlast, hother⟩
      obtain ⟨rfl, rfl, rfl⟩ := hclaim
      exact ⟨hvalue, claims_of_reads hreads⟩
    · rintro ⟨hvalue, hclaims⟩
      exact ⟨['0'], [], [], hvalue, reads_of_claims hclaims⟩

theorem heldBy_eq_iff : Channel.heldBy r = n ↔ ∀ last, n = last + 1 ↔ Credited r last := by
  constructor
  · rintro rfl last
    exact heldBy_eq_succ_iff
  · intro h
    cases hheld : Channel.heldBy r with
    | succ last => exact ((h last).mpr (heldBy_eq_succ_iff.mp hheld)).symm
    | zero =>
        cases n with
        | zero => rfl
        | succ last =>
            have hcredited : Credited r last := (h last).mp rfl
            rw [heldBy_eq_succ_iff.mpr hcredited] at hheld
            cases hheld

theorem held_eq_iff {σ : Type} {c : HttpClient} {T : Transport σ} {ch : Channel}
    {s : Connection σ} (purpose : Purpose) :
    (ask c T purpose ch s).held = .ok n ↔
      ∃ r, (c.request T (purpose.request ch) (purpose.poised T ch s)).1 = .ok r ∧
        r.status = incomplete ∧ ∀ last, n = last + 1 ↔ Credited r last := by
  simp only [Ask.held_eq_ok_iff, heldBy_eq_iff]
  rfl

theorem after_eq {σ : Type} {c : HttpClient} {T : Transport σ} {ch : Channel}
    {s s₁ : Connection σ} (purpose : Purpose)
    (h : c.request T (purpose.request ch) (purpose.poised T ch s) = (.ok r, s₁)) :
    (ask c T purpose ch s).after =
      if r.status = incomplete ∧ Channel.NamesLast r then s₁.mapWorld T.halt else s₁ := by
  simp only [ask, h, heeded, Channel.heed]
  by_cases hstatus : r.status = incomplete
  · simp [hstatus]
  · simp [hstatus]

/-- A channel acts on the number behind the first dash, after a chunk and after
a question alike. Every claim is credited, and what is not claimed is credited
exactly if there is a number in such a range all the same. The number of the
last position there is has no successor, and the program breaks off exactly over
an answer that names it. -/
theorem creditsClaims_iff (r : Response) :
    (∀ value last, r.header? "range" = some value → Claims value last →
      last + 1 < UInt64.size → Channel.heldBy r = last + 1) ∧
    (CreditsClaims r ↔ ¬∃ value, r.header? "range" = some value ∧ Loose value) ∧
    (∀ {σ : Type} (c : HttpClient) (T : Transport σ) (ch : Channel)
      (s : Connection σ) (n : Nat), ((ch.putChunk c T s).1 = .ok n ↔
        ∃ r, (c.request T ch.chunkRequest (ch.poised T s)).1 = .ok r ∧
          r.status = incomplete ∧
          ∀ last, n = last + 1 ↔ Credited r last) ∧
      ((ch.queryHeld c T s).1 = .ok n ↔
        ∃ r, (c.request T ch.queryRequest s).1 = .ok r ∧ r.status = incomplete ∧
          ∀ last, n = last + 1 ↔ Credited r last)) ∧
    (Channel.NamesLast r ↔ ∃ value first sign rest,
      r.header? "range" = some value ∧ Reads value first sign rest (UInt64.size - 1)) ∧
    ∀ {σ : Type} (c : HttpClient) (T : Transport σ) (ch : Channel) (s s₁ : Connection σ),
      let after :=
        if r.status = incomplete ∧ Channel.NamesLast r then s₁.mapWorld T.halt else s₁
      (c.request T ch.chunkRequest (ch.poised T s) = (.ok r, s₁) →
        (ch.putChunk c T s).2 = after) ∧
      (c.request T ch.queryRequest s = (.ok r, s₁) → (ch.queryHeld c T s).2 = after) := by
  refine ⟨?_, creditsClaims_iff_notLoose, fun c T ch s n => ⟨?_, ?_⟩, namesLast_iff,
    fun c T ch s s₁ => ⟨?_, ?_⟩⟩
  · intro value last hvalue hclaims hlast
    exact heldBy_eq_succ_iff.mpr
      ⟨hlast, value, ['0'], [], [], hvalue, reads_of_claims hclaims⟩
  · rw [Channel.putChunk_eq]
    exact held_eq_iff .chunk
  · rw [Channel.queryHeld_eq]
    exact held_eq_iff .question
  · rw [Channel.putChunk_eq]
    exact after_eq .chunk
  · rw [Channel.queryHeld_eq]
    exact after_eq .question

/-- The server that answers everything alike. -/
def saying (r : Response) : Transport Unit :=
  { claiming 0 with exchange := fun _ _ _ => (.answered r, ()) }

def ranged (value : String) : Response := ⟨incomplete, [("range", value)], some []⟩

theorem creditsClaims_iff_of_blanks :
    Claims "bytes=0- 3 " 3 ∧ Channel.heldBy (ranged "bytes=0- 3 ") = 4 := by
  have hblank : ∀ c ∈ [' '], Text.isBlank c = true := by
    intro c hc
    rw [List.mem_singleton.mp hc]
    decide
  have hclaims : Claims "bytes=0- 3 " 3 :=
    ⟨[' ', '3', ' '], ⟨[' '], ['3'], [' '], hblank, hblank, rfl, rfl⟩, rfl⟩
  exact ⟨hclaims, (creditsClaims_iff (ranged "bytes=0- 3 ")).1 _ 3 rfl hclaims (by decide)⟩

/-- A server that holds the third and the fourth byte is credited with the first
two as well. -/
theorem range_from_two_credited :
    (∀ last, ¬Claims "bytes=2-3" last) ∧ Channel.heldBy (ranged "bytes=2-3") = 4 ∧
    ¬CreditsClaims (ranged "bytes=2-3") ∧
    ((⟨session, 4, [97, 98, 99, 100, 101, 102, 103, 104], 0⟩ : Channel).putChunk plain
      (saying (ranged "bytes=2-3")) ⟨(), none⟩).1 = .ok 4 := by
  have hnone : ∀ last, ¬Claims "bytes=2-3" last := by
    rintro last ⟨part, -, hvalue⟩
    simp at hvalue
  have hheld : Channel.heldBy (ranged "bytes=2-3") = 4 := by
    refine heldBy_eq_succ_iff.mpr
      ⟨by decide, _, ['2'], [], [], rfl, by decide, .inl rfl, by simp, ?_⟩
    exact ⟨['3'], ⟨[], ['3'], [], by simp, by simp, rfl, rfl⟩, rfl⟩
  refine ⟨hnone, hheld, fun hall => ?_, ?_⟩
  · obtain ⟨-, value, hvalue, hclaims⟩ := (hall 3).mp hheld
    cases hvalue
    exact hnone 3 hclaims
  · let ch : Channel := ⟨session, 4, [97, 98, 99, 100, 101, 102, 103, 104], 0⟩
    obtain ⟨wire, hwire⟩ := wire?_chunk ch
    have hrequest : plain.request (saying (ranged "bytes=2-3"))
        ch.chunkRequest ⟨(), none⟩ = _ :=
      HttpClient.request_of_accepted rfl hwire rfl rfl
    have hstill : ∀ w, (saying (ranged "bytes=2-3")).halt w = w := fun _ => rfl
    rw [Channel.putChunk, Channel.poised_eq_self hstill, Channel.askHeld, hrequest]
    exact congrArg Except.ok hheld

end WarehouseLoader.Upload

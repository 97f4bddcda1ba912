import Mathlib.Data.List.TakeWhile
import WarehouseLoader.Proofs.Http.Attempts
import WarehouseLoader.Proofs.Number.Numeral
import WarehouseLoader.Upload.Channel

/-!
# Content ranges, read by the other side

A channel prints where the bytes of a request belong; a server reads it. This
file is the server's side: a content range says at which position of the
payload a body begins, if there is a body, and how long the payload is, if
that is known. The three requests of a channel read back as what they mean
(`sends_chunk`, `sends_query`, `sends_final`), and the server's own
acknowledgement reads back on the channel's side as the number of bytes it
stands for (`heldBy_of_acknowledged`).

The last position of a body is printed too, and must be a number, but nothing
is taken from it: where the body ends is seen from its length.
-/

namespace WarehouseLoader.Upload

open Http

/-- Where a body belongs. -/
structure ContentRange where
  /-- The position of the body's first byte; nothing if no body is announced. -/
  first : Option Nat
  /-- The length of the payload; nothing as long as it is not told. -/
  total : Option Nat
  deriving DecidableEq, Repr

/-- The text in front of the first `separator`, and the text behind it. -/
def cut? (separator : Char) (cs : List Char) : Option (List Char × List Char) :=
  match cs.dropWhile (· != separator) with
  | [] => none
  | _ :: rest => some (cs.takeWhile (· != separator), rest)

/-- A star for something that is not told, or something that `read` reads. -/
def starOr (read : List Char → Option Nat) (cs : List Char) : Option (Option Nat) :=
  if cs = ['*'] then some none else (read cs).map some

/-- The first of two positions with a dash between them. -/
def firstOfSpan? (cs : List Char) : Option Nat :=
  (cut? '-' cs).bind fun ends =>
    if (Numeral.digits? ends.2).isSome then Numeral.digits? ends.1 else none

namespace ContentRange

def unit : List Char := "bytes ".toList

def read? (range : String) : Option ContentRange :=
  if unit.isPrefixOf range.toList then
    (cut? '/' (range.toList.drop unit.length)).bind fun parts =>
      (starOr firstOfSpan? parts.1).bind fun first =>
        (starOr Numeral.digits? parts.2).map fun total => ⟨first, total⟩
  else
    none

/-- What a request says of its body, if it is part of an upload. -/
def ofWire? (wire : WireRequest) : Option ContentRange :=
  if wire.method = "PUT" then (wire.lastHeader? "content-range").bind read? else none

end ContentRange

/-! ### Reading what was printed -/

theorem cut?_of_notMem {separator : Char} {cs rest : List Char}
    (h : ∀ c ∈ cs, c ≠ separator) :
    cut? separator (cs ++ separator :: rest) = some (cs, rest) := by
  have hall : ∀ c ∈ cs, (c != separator) = true := fun c hc => by simpa using h c hc
  have hdrop : (cs ++ separator :: rest).dropWhile (· != separator) =
      separator :: rest := by
    rw [List.dropWhile_append_of_pos hall, List.dropWhile_cons_of_neg (by simp)]
  have htake : (cs ++ separator :: rest).takeWhile (· != separator) = cs := by
    rw [List.takeWhile_append_of_pos hall, List.takeWhile_cons_of_neg (by simp),
      List.append_nil]
  rw [cut?, hdrop, htake]

theorem ne_of_mem_printed {n : Nat} {c separator : Char} (h : c ∈ Nat.toDigits 10 n)
    (hno : separator.isDigit = false) : c ≠ separator := by
  rintro rfl
  rw [Numeral.isDigit_of_mem_printed h] at hno
  cases hno

theorem starOr_printed (n : Nat) :
    starOr Numeral.digits? (Nat.toDigits 10 n) = some (some n) := by
  rw [starOr, if_neg, Numeral.digits?_printed]
  · rfl
  · intro hstar
    have hmem : '*' ∈ Nat.toDigits 10 n := by rw [hstar]; simp
    exact ne_of_mem_printed hmem rfl rfl

theorem starOr_span (first last : Nat) :
    starOr firstOfSpan? (Nat.toDigits 10 first ++ '-' :: Nat.toDigits 10 last) =
      some (some first) := by
  have hread : firstOfSpan? (Nat.toDigits 10 first ++ '-' :: Nat.toDigits 10 last) =
      some first := by
    rw [firstOfSpan?, cut?_of_notMem fun c hc => ne_of_mem_printed hc rfl,
      Option.bind_some, Numeral.digits?_printed, Numeral.digits?_printed]
    rfl
  rw [starOr, if_neg, hread]
  · rfl
  · intro hstar
    have hlen := congrArg List.length hstar
    have hpos : 0 < (Nat.toDigits 10 first).length := Nat.length_toDigits_pos
    simp only [List.length_append, List.length_cons, List.length_nil] at hlen
    omega

theorem slash_notMem_span {first last : Nat} :
    ∀ c ∈ Nat.toDigits 10 first ++ '-' :: Nat.toDigits 10 last, c ≠ '/' := by
  intro c h
  rcases List.mem_append.mp h with h | h
  · exact ne_of_mem_printed h rfl
  · rcases List.mem_cons.mp h with rfl | h
    · decide
    · exact ne_of_mem_printed h rfl

namespace ContentRange

theorem read?_of_parts {span size : List Char} {first total : Option Nat}
    (hspan : ∀ c ∈ span, c ≠ '/') (hfirst : starOr firstOfSpan? span = some first)
    (htotal : starOr Numeral.digits? size = some total) :
    read? (String.ofList (unit ++ (span ++ '/' :: size))) = some ⟨first, total⟩ := by
  rw [read?, String.toList_ofList, if_pos (by simp), List.drop_left, cut?_of_notMem hspan,
    Option.bind_some, hfirst, Option.bind_some, htotal]
  rfl

theorem read?_chunk (first last : Nat) :
    read? s!"bytes {first}-{last}/*" = some ⟨some first, none⟩ := by
  have htext : s!"bytes {first}-{last}/*" = String.ofList (unit ++
      ((Nat.toDigits 10 first ++ '-' :: Nat.toDigits 10 last) ++ '/' :: ['*'])) := by
    rw [← String.toList_inj, String.toList_ofList]
    simp only [toString, String.toList_append, Nat.toList_repr, List.append_assoc]
    rfl
  rw [htext]
  exact read?_of_parts slash_notMem_span (starOr_span _ _) rfl

theorem read?_rest (first last total : Nat) :
    read? s!"bytes {first}-{last}/{total}" = some ⟨some first, some total⟩ := by
  have htext : s!"bytes {first}-{last}/{total}" = String.ofList (unit ++
      ((Nat.toDigits 10 first ++ '-' :: Nat.toDigits 10 last) ++
        '/' :: Nat.toDigits 10 total)) := by
    rw [← String.toList_inj, String.toList_ofList]
    simp only [toString, String.toList_append, Nat.toList_repr, List.append_assoc]
    rfl
  rw [htext]
  exact read?_of_parts slash_notMem_span (starOr_span _ _) (starOr_printed _)

theorem read?_nothing (total : Nat) :
    read? s!"bytes */{total}" = some ⟨none, some total⟩ := by
  have htext : s!"bytes */{total}" =
      String.ofList (unit ++ (['*'] ++ '/' :: Nat.toDigits 10 total)) := by
    rw [← String.toList_inj, String.toList_ofList]
    simp only [toString, String.toList_append, Nat.toList_repr]
    rfl
  rw [htext]
  exact read?_of_parts (List.forall_mem_singleton.mpr (by decide)) rfl (starOr_printed _)

theorem read?_chunkRange (start length : Nat) :
    read? (chunkRange start length) = some ⟨some start, none⟩ :=
  read?_chunk start _

theorem read?_queryRange : read? queryRange = some ⟨none, none⟩ := by decide

theorem read?_finalRange (start length : Nat) :
    read? (finalRange start length) =
      some ⟨if length = 0 then none else some start, some (start + length)⟩ := by
  rw [finalRange]
  split
  · exact read?_nothing _
  · exact read?_rest start _ _

end ContentRange

/-! ### The three requests of a channel -/

/-- A request of the upload is on the wire with its method, its body and its
range. -/
theorem wire_of_sends {c : HttpClient} {r : Request} {url text : String}
    {wire : WireRequest} (h : c.SendsTo r url wire)
    (hheaders : r.headers = [("Content-Range", text)]) :
    wire.method = r.method ∧ wire.body = r.content ∧
      wire.lastHeader? "content-range" = some text := by
  obtain ⟨authorization, hwire⟩ := h
  obtain ⟨hm, hbody, -⟩ := Request.of_wire? hwire
  exact ⟨hm, hbody, Request.lastHeader?_of_wire? hwire
    (hheaders.trans (List.nil_append _).symm) (by decide) (by decide)⟩

/-- A request of the upload reads, on the wire, as its range says. -/
theorem ofWire?_of_sends {c : HttpClient} {r : Request} {url text : String}
    {wire : WireRequest} (h : c.SendsTo r url wire) (hmethod : r.method = "PUT")
    (hheaders : r.headers = [("Content-Range", text)]) :
    ContentRange.ofWire? wire = ContentRange.read? text ∧ wire.body = r.content := by
  obtain ⟨hm, hbody, hlast⟩ := wire_of_sends h hheaders
  rw [ContentRange.ofWire?, hm, hmethod, if_pos rfl, hlast]
  exact ⟨rfl, hbody⟩

theorem ofWire?_of_tokenRequest {wire : WireRequest} (h : Auth.TokenRequest wire) :
    ContentRange.ofWire? wire = none :=
  if_neg (method_ne_put_of_tokenRequest h)

namespace Channel

variable {c : HttpClient} {ch : Channel} {url : String} {wire : WireRequest}

theorem sends_chunk (h : c.SendsTo ch.chunkRequest url wire) :
    ContentRange.ofWire? wire = some ⟨some ch.offset, none⟩ ∧
      wire.body = ch.buffer.take ch.chunkSize := by
  obtain ⟨hrange, hbody⟩ := ofWire?_of_sends h rfl rfl
  rw [hrange, ContentRange.read?_chunkRange]
  exact ⟨rfl, hbody⟩

theorem sends_query (h : c.SendsTo ch.queryRequest url wire) :
    ContentRange.ofWire? wire = some ⟨none, none⟩ ∧ wire.body = [] := by
  obtain ⟨hrange, hbody⟩ := ofWire?_of_sends h rfl rfl
  rw [hrange, ContentRange.read?_queryRange]
  exact ⟨rfl, hbody⟩

theorem sends_final (h : c.SendsTo ch.finalRequest url wire) :
    ContentRange.ofWire? wire =
        some ⟨if ch.buffer = [] then none else some ch.offset, some ch.bufferedEnd⟩ ∧
      wire.body = ch.buffer := by
  obtain ⟨hrange, hbody⟩ := ofWire?_of_sends h rfl rfl
  rw [hrange, ContentRange.read?_finalRange]
  simp only [List.length_eq_zero_iff]
  exact ⟨rfl, hbody⟩

end Channel

/-! ### Acknowledgements -/

/-- What a server that holds `n` bytes says of them: their range, or nothing. -/
def acknowledgement : Nat → Option String
  | 0 => none
  | n + 1 => some s!"bytes=0-{n}"

def acknowledging (n : Nat) : Response :=
  ⟨incomplete, (acknowledgement n).toList.map (("range", ·)), some []⟩

theorem toList_held (n : Nat) :
    s!"bytes=0-{n}".toList = "bytes=0-".toList ++ Nat.toDigits 10 n := by
  simp only [toString, String.toList_append, Nat.toList_repr]

theorem header?_acknowledging (n : Nat) :
    (acknowledging n).header? "range" = acknowledgement n := by
  rw [acknowledging, Response.header?]
  cases n with
  | zero => rfl
  | succ n =>
      show ((some s!"bytes=0-{n}").filter (·.toList.all Response.isVisible)) = _
      rw [Option.filter_some, if_pos]
      · rfl
      · rw [toList_held, List.all_append, Bool.and_eq_true]
        refine ⟨by decide, List.all_eq_true.mpr fun c hc => ?_⟩
        have hdigit := Numeral.range_of_isDigit (Numeral.isDigit_of_mem_printed hc)
        simp only [Response.isVisible, Bool.or_eq_true, Bool.and_eq_true, decide_eq_true_eq]
        omega

theorem lastByte?_printed (n : Nat) :
    lastByte? s!"bytes=0-{n}" = if n < UInt64.size then some n else none := by
  have hlast : secondPart? (s!"bytes=0-{n}".toList.drop 6) = some (Nat.toDigits 10 n) := by
    rw [toList_held]
    show some ((Nat.toDigits 10 n).takeWhile (· != '-')) = _
    rw [List.takeWhile_eq_self_iff.mpr]
    intro c hc
    simpa using ne_of_mem_printed hc rfl
  rw [lastByte?, if_pos (by rw [toList_held]; rfl), hlast, Option.bind_some,
    Text.trimBlanks_printed, Numeral.readBelow_printed, Numeral.bound64]

theorem heldBytes?_eq_some_iff {range : String} {n : Nat} :
    heldBytes? range = some n ↔
      ∃ last, lastByte? range = some last ∧ last + 1 < UInt64.size ∧ last + 1 = n := by
  simp only [heldBytes?, Option.bind_eq_some_iff, fitting]
  refine exists_congr fun last => and_congr_right fun _ => ?_
  split
  · next hlt => simp [Except.toOption, hlt]
  · next hge => simp [Except.toOption, hge]

/-- An acknowledgement is read as the number of bytes it stands for, or, where
that number is too large for the place it is read to, as none at all. -/
theorem heldBy_of_acknowledged {a : Response} {n : Nat}
    (h : a.header? "range" = acknowledgement n) :
    Channel.heldBy a = if n < UInt64.size then n else 0 := by
  rw [Channel.heldBy, h]
  cases n with
  | zero => rfl
  | succ n =>
      rw [acknowledgement, Option.bind_some]
      split
      · next hlt =>
          have hread : lastByte? s!"bytes=0-{n}" = some n := by
            rw [lastByte?_printed, if_pos (Nat.lt_of_succ_lt hlt)]
          rw [heldBytes?_eq_some_iff.mpr ⟨n, hread, hlt, rfl⟩, Option.getD_some]
      · next hge =>
          cases hheld : heldBytes? s!"bytes=0-{n}" with
          | none => rfl
          | some m =>
              obtain ⟨last, hread, hlast, -⟩ := heldBytes?_eq_some_iff.mp hheld
              rw [lastByte?_printed] at hread
              split at hread <;> cases hread
              exact absurd hlast hge

theorem heldBy_acknowledging {n : Nat} (h : n < UInt64.size) :
    Channel.heldBy (acknowledging n) = n := by
  rw [heldBy_of_acknowledged (header?_acknowledging n), if_pos h]

end WarehouseLoader.Upload

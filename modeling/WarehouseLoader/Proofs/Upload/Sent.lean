import WarehouseLoader.Proofs.Upload.Flush

/-!
# What was sent, and what the server says of it

A channel drops the bytes that the server says it holds. It believes the
server as long as the number lies between what was held before and the end of
the buffer; but of the buffer at most a chunk has gone out. This file has the
two sides of the difference, both read off the record of a run.

On one side, what was dropped was sent (`OnlySentDropped`): each byte in front
of the offset stood in a request, at its own place, and in front of the first
byte of each request that carries any, it stood in an earlier one. The channel
starts every request at its offset, so that says of each byte that it was sent
before it was dropped.

On the other side, no answer is believed that claims more than was sent
(`Credible`), and nothing is asked of the answers that are not believed.
-/

namespace WarehouseLoader.Upload

open Http

variable {σ : Type}

/-- The place of the first byte that an exchange carries. -/
def start? (e : Entry σ) : Option Nat :=
  (ContentRange.ofWire? e.request).bind ContentRange.first

/-- The place after the last byte that an exchange carries. -/
def sentEnd (e : Entry σ) : Nat :=
  match start? e with
  | some first => first + e.request.body.length
  | none => 0

/-- The place after the last byte of all that were sent. -/
def reach (events : List (Entry σ)) : Nat := events.foldl (fun n e => max n (sentEnd e)) 0

/-- An exchange carries `b` as byte number `p` of the payload. -/
def Carried (e : Entry σ) (p : Nat) (b : UInt8) : Prop :=
  ∃ first, start? e = some first ∧ first ≤ p ∧ e.request.body[p - first]? = some b

def Transmitted (events : List (Entry σ)) (p : Nat) (b : UInt8) : Prop :=
  ∃ e ∈ events, Carried e p b

/-- The payload has at least `n` bytes, and each of these was sent. -/
def Covered (payload : Bytes) (events : List (Entry σ)) (n : Nat) : Prop :=
  ∀ p < n, ∃ b, payload[p]? = some b ∧ Transmitted events p b

/-- Each byte that the channel has dropped was sent before. -/
structure OnlySentDropped (payload : Bytes) (ch : Channel) (events : List (Entry σ)) :
    Prop where
  dropped : Covered payload events ch.offset
  before : ∀ {past e rest first}, events = past ++ e :: rest → start? e = some first →
    Covered payload past first

/-- The number of bytes that the answer says are held, if it is an answer to a
request of the upload that says so. -/
def claim? (e : Entry σ) : Option Nat :=
  match e.outcome with
  | .answered a =>
    if (ContentRange.ofWire? e.request).isSome ∧ a.status = incomplete then
      some (Channel.heldBy a)
    else
      none
  | .timedOut | .refused | .broken => none

/-- The answer claims more than was sent, but no more than there is up to
`limit`. -/
def Overclaims (limit : Nat) (past : List (Entry σ)) (e : Entry σ) : Prop :=
  ∃ claim, claim? e = some claim ∧ reach (past ++ [e]) < claim ∧ claim ≤ limit

/-- No answer of the exchanges after `past` overclaims. -/
def Credible (limit : Nat) : List (Entry σ) → List (Entry σ) → Prop
  | _, [] => True
  | past, e :: rest => ¬Overclaims limit past e ∧ Credible limit (past ++ [e]) rest

theorem credible_snoc {limit : Nat} {past new : List (Entry σ)} {e : Entry σ} :
    Credible limit past (new ++ [e]) ↔
      Credible limit past new ∧ ¬Overclaims limit (past ++ new) e := by
  induction new generalizing past with
  | nil => simp [Credible]
  | cons e' rest ih =>
      rw [List.cons_append, Credible, Credible, ih, List.append_assoc, and_assoc]
      exact Iff.rfl

/-- A place in a record that has grown by one is its end, or was there before. -/
theorem split_snoc {made past later : List (Entry σ)} {last e : Entry σ}
    (h : made ++ [last] = past ++ e :: later) :
    (made = past ∧ last = e) ∨ ∃ later', made = past ++ e :: later' := by
  rcases List.eq_nil_or_concat later with rfl | ⟨later', e', rfl⟩
  · obtain ⟨hmade, hlast⟩ := List.append_inj' h rfl
    exact .inl ⟨hmade, List.singleton_inj.mp hlast⟩
  · have hsplit : made ++ [last] = (past ++ e :: later') ++ [e'] := by simpa using h
    exact .inr ⟨later', (List.append_inj' hsplit rfl).1⟩

/-! ### The end of what was sent -/

theorem reach_snoc (events : List (Entry σ)) (e : Entry σ) :
    reach (events ++ [e]) = max (reach events) (sentEnd e) := by
  rw [reach, List.foldl_append]
  rfl

theorem sentEnd_of_start {e : Entry σ} {first : Nat} (h : start? e = some first) :
    sentEnd e = first + e.request.body.length := by
  rw [sentEnd, h]

theorem sentEnd_of_none {e : Entry σ} (h : start? e = none) : sentEnd e = 0 := by
  rw [sentEnd, h]

theorem lt_sentEnd {e : Entry σ} {p : Nat} {b : UInt8} (h : Carried e p b) :
    p < sentEnd e := by
  obtain ⟨first, hstart, hle, hbyte⟩ := h
  obtain ⟨hlt, -⟩ := List.getElem?_eq_some_iff.mp hbyte
  rw [sentEnd_of_start hstart]
  omega

theorem le_foldl_sentEnd (events : List (Entry σ)) (n : Nat) :
    n ≤ events.foldl (fun n e => max n (sentEnd e)) n := by
  induction events generalizing n with
  | nil => exact Nat.le_refl n
  | cons e rest ih => exact Nat.le_trans (Nat.le_max_left _ _) (ih _)

theorem sentEnd_le_foldl {events : List (Entry σ)} {e : Entry σ} (h : e ∈ events)
    (n : Nat) : sentEnd e ≤ events.foldl (fun n e => max n (sentEnd e)) n := by
  induction events generalizing n with
  | nil => cases h
  | cons e' rest ih =>
      rcases List.mem_cons.mp h with rfl | h
      · exact Nat.le_trans (Nat.le_max_right _ _) (le_foldl_sentEnd rest _)
      · exact ih h _

/-- Nothing was sent from the end on. -/
theorem lt_reach {events : List (Entry σ)} {p : Nat} {b : UInt8}
    (h : Transmitted events p b) : p < reach events := by
  obtain ⟨e, he, hcarried⟩ := h
  exact Nat.lt_of_lt_of_le (lt_sentEnd hcarried) (sentEnd_le_foldl he 0)

/-! ### Covered places -/

theorem Transmitted.snoc {events : List (Entry σ)} {p : Nat} {b : UInt8}
    (h : Transmitted events p b) (e : Entry σ) : Transmitted (events ++ [e]) p b := by
  obtain ⟨e', he', hcarried⟩ := h
  exact ⟨e', List.mem_append_left _ he', hcarried⟩

theorem transmitted_snoc_iff {events : List (Entry σ)} {e : Entry σ} {p : Nat} {b : UInt8} :
    Transmitted (events ++ [e]) p b ↔ Transmitted events p b ∨ Carried e p b := by
  simp only [Transmitted, List.mem_append, List.mem_singleton]
  constructor
  · rintro ⟨e', he' | rfl, hcarried⟩
    · exact .inl ⟨e', he', hcarried⟩
    · exact .inr hcarried
  · rintro (⟨e', he', hcarried⟩ | hcarried)
    · exact ⟨e', .inl he', hcarried⟩
    · exact ⟨e, .inr rfl, hcarried⟩

namespace Covered

variable {payload : Bytes} {events : List (Entry σ)} {n m : Nat}

theorem mono (h : Covered payload events n) (hle : m ≤ n) : Covered payload events m :=
  fun p hp => h p (Nat.lt_of_lt_of_le hp hle)

theorem snoc (h : Covered payload events n) (e : Entry σ) :
    Covered payload (events ++ [e]) n := fun p hp => by
  obtain ⟨b, hb, hsent⟩ := h p hp
  exact ⟨b, hb, hsent.snoc e⟩

theorem more (h : Covered payload events n) (data : Bytes) :
    Covered (payload ++ data) events n := fun p hp => by
  obtain ⟨b, hb, hsent⟩ := h p hp
  obtain ⟨hlt, -⟩ := List.getElem?_eq_some_iff.mp hb
  exact ⟨b, by rw [List.getElem?_append_left hlt, hb], hsent⟩

end Covered

end WarehouseLoader.Upload

import WarehouseLoader.Proofs.Http.Log
import WarehouseLoader.Proofs.Upload.Credit

/-!
# Bytes that are dropped unsent

The guard of a channel measures a server's claim against the end of the buffer,
though of the buffer no more than a chunk has gone out. Where there is less
than that to send, nothing goes out before the end and the difference does not
show. Where there is more, one claim is enough: a server that says after the
first chunk that it holds one byte more than the chunk makes the channel drop
that byte, whatever the writes and whatever comes after.
-/

namespace WarehouseLoader.Upload

open Auth Http

/-- What a channel drops in a run of writes was sent before. -/
def DropsOnlySent {σ : Type} (c : HttpClient) (T : Transport σ) (url : String)
    (chunkSize : Nat) (parts : List Bytes) (s : Connection σ) : Prop :=
  let r := (Channel.new url chunkSize).writeAll c T.recorded parts s.recording
  OnlySentDropped parts.flatten r.1 r.2.world.2

section Short

variable {σ : Type} {c : HttpClient} {T : Transport σ}

/-- As long as there is no more than a chunk, nothing happens. -/
theorem writeAll_of_le (parts : List Bytes) {ch : Channel} {s : Connection σ}
    (h : ch.buffer.length + parts.flatten.length ≤ ch.chunkSize) :
    ch.writeAll c T parts s = ({ ch with buffer := ch.buffer ++ parts.flatten }, s) := by
  induction parts generalizing ch s with
  | nil =>
      rw [Channel.writeAll, List.flatten_nil, List.append_nil]
  | cons data rest ih =>
      rw [List.flatten_cons, List.length_append] at h
      have hdrain : Channel.drain c T { ch with buffer := ch.buffer ++ data } s = _ :=
        Channel.drain_of_le (by rw [List.length_append]; show _ ≤ ch.chunkSize; omega)
      rw [Channel.writeAll, Channel.write, hdrain, ih, List.flatten_cons, List.append_assoc]
      rw [List.length_append]
      show _ ≤ ch.chunkSize
      omega

theorem dropsOnlySent_of_le {url : String} {chunkSize : Nat} {parts : List Bytes}
    {s : Connection σ} (h : parts.flatten.length ≤ chunkSize) :
    DropsOnlySent c T url chunkSize parts s := by
  have hrun : (Channel.new url chunkSize).writeAll c T.recorded parts s.recording = _ :=
    writeAll_of_le parts (by rw [Channel.new, List.length_nil, Nat.zero_add]; exact h)
  rw [DropsOnlySent, hrun]
  exact ⟨fun p hp => absurd hp (Nat.not_lt_zero p),
    fun hevents => by simp [Connection.recording] at hevents⟩

theorem carries_record (past : List (Entry σ)) :
    Channel.Carries c T.recorded fun _ (w : Recorded σ) => past <+: w.2 where
  keeps _ := HttpClient.prefix_keeps T past
  chunk _ := HttpClient.establishes_of_kept fun _ _ _ _ h =>
    ⟨h.trans (List.prefix_append _ _), fun _ _ _ => h.trans (List.prefix_append _ _)⟩
  query _ := HttpClient.establishes_of_kept fun _ _ _ _ h =>
    ⟨h.trans (List.prefix_append _ _), fun _ _ _ => h.trans (List.prefix_append _ _)⟩

end Short

/-! ### A server that claims too much -/

/-- The server that always says it holds `claim` bytes. -/
def claiming (claim : Nat) : Transport Unit where
  exchange _ _ _ := (.answered (acknowledging claim), ())
  pause _ _ := ()
  now _ := 0
  log _ _ _ := ()
  newJobId _ := ("", ())
  sign _ _ := []
  halt _ := ()
  isOver _ := false

/-- A client that authorizes nothing. -/
def plain : HttpClient := ⟨HttpConfig.standard, none⟩

def session : String := "http://localhost/s"

theorem isHeaderValue_span (first last : Nat) :
    isHeaderValue s!"bytes {first}-{last}/*" = true := by
  have hdigits : ∀ n, (Nat.toDigits 10 n).all isHeaderValueChar = true := by
    intro n
    rw [List.all_eq_true]
    intro c hc
    have hdigit := Numeral.range_of_isDigit (Numeral.isDigit_of_mem_printed hc)
    simp only [isHeaderValueChar, Bool.or_eq_true, Bool.and_eq_true, decide_eq_true_eq,
      bne_iff_ne]
    omega
  rw [isHeaderValue]
  simp only [toString, String.toList_append, Nat.toList_repr, List.all_append, hdigits,
    Bool.and_true]
  decide

theorem wire?_chunk (ch : Channel) :
    ∃ wire, ch.chunkRequest.wire? (joinUrl none session)
      (some HttpConfig.standard.userAgent)
      [] none = some wire := by
  have hgiven : ([] ++ ch.chunkRequest.headers).mapM wireHeader? =
      some [("content-range", chunkRange ch.offset
        (ch.buffer.take ch.chunkSize).length)] := by
    have hvalue : isHeaderValue (chunkRange ch.offset
      (ch.buffer.take ch.chunkSize).length) =
        true := isHeaderValue_span _ _
    have hname : isHeaderName "Content-Range" = true := by decide
    have hlower : String.ofList ("Content-Range".toList.map Url.lowerAscii) =
        "content-range" := by decide
    show [("Content-Range", chunkRange ch.offset _)].mapM wireHeader? = _
    rw [List.mapM_cons, wireHeader?, hname, hvalue, hlower]
    rfl
  rw [Request.wire?, hgiven]
  exact ⟨_, rfl⟩

theorem putChunk_claiming (ch : Channel) {claim : Nat} (token : Option CachedToken)
    (hurl : ch.sessionUrl = session) (hclaim : claim < UInt64.size) :
    ∃ e : Entry Unit, plain.SendsTo ch.chunkRequest (joinUrl none session) e.request ∧
      claim? e = some claim ∧
      ch.putChunk plain (claiming claim).recorded ⟨((), []), token⟩ =
        (.ok claim, ⟨((), [e]), token⟩) := by
  obtain ⟨wire, hwire⟩ := wire?_chunk ch
  have hsends : plain.SendsTo ch.chunkRequest (joinUrl none session) wire := ⟨_, hwire⟩
  refine ⟨⟨wire, .answered (acknowledging claim), (), ()⟩, hsends, ?_, ?_⟩
  · obtain ⟨hrange, -⟩ := Channel.sends_chunk hsends
    rw [claim?, hrange]
    show some (Channel.heldBy (acknowledging claim)) = _
    rw [heldBy_acknowledging hclaim]
  · have hbuilt : ch.chunkRequest.wire? (joinUrl plain.config.baseUrl ch.chunkRequest.url)
        (some plain.config.userAgent) plain.config.defaultHeaders none = some wire := by
      rw [show ch.chunkRequest.url = session from hurl]
      exact hwire
    have hauth : plain.authorize (claiming claim).recorded ⟨((), []), token⟩ =
        (.ok none, ⟨((), []), token⟩) := rfl
    have hrequest := HttpClient.request_of_accepted hauth hbuilt rfl rfl
    have hstill : ∀ w, (claiming claim).recorded.halt w = w := fun _ => rfl
    rw [Channel.putChunk, Channel.poised_eq_self hstill, Channel.askHeld, hrequest]
    simp only []
    rw [if_pos (show (acknowledging claim).status = incomplete from rfl),
      heldBy_acknowledging hclaim, Channel.heed_eq_self hstill]
    rfl

/-- However the write goes on, the first answer is on the record. -/
theorem write_claiming {ch : Channel} {claim : Nat} (data : Bytes)
    (token : Option CachedToken) (hurl : ch.sessionUrl = session)
    (hclaim : claim < UInt64.size) (full : ch.chunkSize < (ch.buffer ++ data).length) :
    ∃ e rest, claim? e = some claim ∧ sentEnd e ≤ ch.offset + ch.chunkSize ∧
      (ch.write plain (claiming claim).recorded data ⟨((), []), token⟩).2.2.world.2 =
        e :: rest := by
  let ch₁ : Channel := { ch with buffer := ch.buffer ++ data }
  obtain ⟨e, hsends, hsays, hput⟩ := putChunk_claiming ch₁ token hurl hclaim
  have hend : sentEnd e ≤ ch.offset + ch.chunkSize := by
    obtain ⟨hrange, hbody⟩ := Channel.sends_chunk hsends
    have hstart : start? e = some ch.offset := by rw [start?, hrange]; rfl
    rw [sentEnd_of_start hstart, hbody, List.length_take]
    show ch.offset + min ch.chunkSize _ ≤ _
    omega
  have hkept : [e] <+: (Channel.drain plain (claiming claim).recorded ch₁
      ⟨((), []), token⟩).2.2.world.2 :=
    (carries_record [e]).drain_of_flushed full (Channel.flushFrom_of_held _ _ hput)
      (List.prefix_refl [e])
  obtain ⟨rest, hrest⟩ := hkept
  refine ⟨e, rest, hsays, hend, ?_⟩
  rw [← List.singleton_append, hrest, Channel.write]
  cases Channel.drain plain (claiming claim).recorded ch₁ ⟨((), []), token⟩ with
  | mk outcome s₁ => cases outcome <;> rfl

theorem not_credible_claiming {ch : Channel} {claim : Nat} (data : Bytes)
    (token : Option CachedToken) (hurl : ch.sessionUrl = session)
    (hbound : claim < UInt64.size) (hbeyond : ch.offset + ch.chunkSize < claim)
    (hwithin : claim ≤ ch.bufferedEnd + data.length) :
    ¬Credible (ch.bufferedEnd + data.length) []
      (ch.write plain (claiming claim).recorded data ⟨((), []), token⟩).2.2.world.2 := by
  have hfull : ch.chunkSize < (ch.buffer ++ data).length := by
    rw [Channel.bufferedEnd] at hwithin
    rw [List.length_append]
    omega
  obtain ⟨e, later, hclaim, hend, hrecord⟩ := write_claiming data token hurl hbound hfull
  rw [hrecord]
  intro hcredible
  have hreach : reach ([] ++ [e]) = max 0 (sentEnd e) := reach_snoc [] e
  exact hcredible.1 ⟨claim, hclaim, by omega, hwithin⟩

/-- The first write that fills more than a chunk meets the claim. -/
theorem not_allCredible_claiming (parts : List Bytes) (ch : Channel)
    (token : Option CachedToken) (hurl : ch.sessionUrl = session) (hfresh : ch.offset = 0)
    (hwaiting : ch.buffer.length ≤ ch.chunkSize)
    (hmore : ch.chunkSize < ch.buffer.length + parts.flatten.length)
    (hbound : ch.chunkSize + 1 < UInt64.size) :
    ¬AllCredible plain (claiming (ch.chunkSize + 1)) parts ch ⟨((), []), token⟩ := by
  induction parts generalizing ch with
  | nil =>
      rw [List.flatten_nil, List.length_nil] at hmore
      omega
  | cons data rest ih =>
      rw [List.flatten_cons, List.length_append] at hmore
      rw [AllCredible]
      by_cases hsmall : (ch.buffer ++ data).length ≤ ch.chunkSize
      · have hdrain : Channel.drain plain (claiming (ch.chunkSize + 1)).recorded
            { ch with buffer := ch.buffer ++ data } ⟨((), []), token⟩ = _ :=
          Channel.drain_of_le hsmall
        rw [Channel.write, hdrain]
        intro hall
        refine ih { ch with buffer := ch.buffer ++ data } hurl hfresh hsmall ?_ hbound
          hall.2
        rw [List.length_append]
        show ch.chunkSize < _
        omega
      · rintro ⟨hcredible, -⟩
        refine not_credible_claiming data token hurl hbound (by omega) ?_ hcredible
        rw [List.length_append] at hsmall
        rw [Channel.bufferedEnd]
        omega

/-- A channel that drops only what was sent is one whose server never claims
more than was sent where the channel believes it. Whatever the server says,
that is the channel of a payload of at most a chunk: for any longer one there
is a server that makes it drop what was not sent. -/
theorem dropsOnlySent_iff (chunkSize : Nat) (parts : List Bytes) :
    (∀ {σ : Type} (c : HttpClient) (T : Transport σ) (url : String) (s : Connection σ),
      DropsOnlySent c T url chunkSize parts s ↔
        AllCredible c T parts (.new url chunkSize) s.recording) ∧
    (parts.flatten.length < UInt64.size →
      ((∀ {σ : Type} (c : HttpClient) (T : Transport σ) (url : String) (s : Connection σ),
        DropsOnlySent c T url chunkSize parts s) ↔ parts.flatten.length ≤ chunkSize)) := by
  refine ⟨fun c T url s => onlySentDropped_iff_allCredible c T url chunkSize parts s,
    fun hlength => ⟨fun hall => ?_, fun hle _ _ _ _ _ => dropsOnlySent_of_le hle⟩⟩
  refine Nat.le_of_not_lt fun hlong => ?_
  have hdropped := hall plain (claiming (chunkSize + 1)) session ⟨(), none⟩
  refine not_allCredible_claiming parts (.new session chunkSize) none rfl
    rfl (Nat.zero_le _)
    ?_ (Nat.lt_of_le_of_lt hlong hlength)
    ((onlySentDropped_iff_allCredible plain _ session chunkSize parts
      ⟨(), none⟩).mp hdropped)
  rw [Channel.new, List.length_nil, Nat.zero_add]
  exact hlong

/-- Eight bytes in chunks of four. -/
theorem dropsOnlySent_iff_two_chunks :
    [[1, 2, 3, 4, 5], [6, 7, 8]].flatten.length < UInt64.size ∧
      ¬∀ {σ : Type} (c : HttpClient) (T : Transport σ) (url : String) (s : Connection σ),
        DropsOnlySent c T url 4 [[1, 2, 3, 4, 5], [6, 7, 8]] s := by
  have hbound : [[1, 2, 3, 4, 5], [6, 7, 8]].flatten.length < UInt64.size := by decide
  refine ⟨hbound, fun hall => ?_⟩
  have hle := ((dropsOnlySent_iff 4 [[1, 2, 3, 4, 5], [6, 7, 8]]).2 (by decide)).mp hall
  exact absurd hle (by decide)

/-- One write of eight bytes in chunks of four, to a server that says after the
first chunk that it holds seven: the bytes with the numbers four to six are
dropped, and no request carries them. -/
theorem claim_of_seven_loses_bytes :
    ¬DropsOnlySent plain (claiming 7) session 4 [[97, 98, 99, 100, 101, 102, 103, 104]]
      ⟨(), none⟩ := by
  intro hdropped
  obtain ⟨hcredible, -⟩ :=
    (onlySentDropped_iff_allCredible plain _ session 4 _ _).mp hdropped
  exact not_credible_claiming _ none rfl (by decide) (by decide) (by decide) hcredible

end WarehouseLoader.Upload

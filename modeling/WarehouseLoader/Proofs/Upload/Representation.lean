import WarehouseLoader.Proofs.Upload.Answers
import WarehouseLoader.Proofs.Upload.Replay

/-!
# What a channel stands for

Whatever the server answers, and whether writes go well or fail half way, a
channel stands for the payload so far: it has the bytes from its offset on, and
the offset never goes back. What it puts on the wire follows from that. A chunk
is the next `chunkSize` bytes from the offset that the channel has at that
moment, a question carries nothing, and what is sent at the end is the rest of
the payload, the same at every attempt.

The last position of a range is printed from a number of 64 bits. `EndsAt` has
it both ways: as it is counted for any payload, and without the wrapping for
one whose positions all have 64 bits.
-/

namespace WarehouseLoader.Upload

open Auth Http

variable {σ : Type} {c : HttpClient} {T : Transport σ} {ch : Channel} {payload : Bytes}
  {wire : WireRequest} {url : String}

/-- `last` is the last position in front of `stop`. -/
def EndsAt (last stop : Nat) : Prop :=
  (last + 1) % UInt64.size = stop % UInt64.size ∧
    (0 < stop → stop ≤ UInt64.size → last + 1 = stop)

/-- A question for the number of bytes held. -/
structure AsksHeld (wire : WireRequest) : Prop where
  method : wire.method = "PUT"
  range : wire.lastHeader? "content-range" = some "bytes */*"
  body : wire.body = []

/-- A chunk of `size` bytes of the payload, from `offset` on. -/
structure CarriesChunk (payload : Bytes) (offset size : Nat) (wire : WireRequest) :
    Prop where
  method : wire.method = "PUT"
  range : ∃ last, wire.lastHeader? "content-range" = some s!"bytes {offset}-{last}/*" ∧
    EndsAt last (offset + size)
  body : wire.body = (payload.drop offset).take size
  full : wire.body.length = size

/-- All of the payload from `offset` on, and its length. -/
structure CarriesRest (payload : Bytes) (offset : Nat) (wire : WireRequest) : Prop where
  method : wire.method = "PUT"
  body : wire.body = payload.drop offset
  none : payload.length = offset →
    wire.lastHeader? "content-range" = some s!"bytes */{payload.length}"
  some : offset < payload.length → ∃ last,
    wire.lastHeader? "content-range" = some s!"bytes {offset}-{last}/{payload.length}" ∧
      EndsAt last payload.length

theorem endsAt_lastPosition (start length : Nat) :
    EndsAt (lastPosition start length) (start + length) := by
  simp only [EndsAt, lastPosition, wrap64, UInt64.size]
  omega

theorem asksHeld_of_sends (h : c.SendsTo ch.queryRequest url wire) : AsksHeld wire := by
  obtain ⟨hmethod, hbody, hrange⟩ := wire_of_sends h rfl
  exact ⟨hmethod, hrange, hbody⟩

theorem Buffered.carriesChunk (h : Buffered payload ch)
    (full : ch.chunkSize < ch.buffer.length) (hsends : c.SendsTo ch.chunkRequest url wire) :
    CarriesChunk payload ch.offset ch.chunkSize wire := by
  obtain ⟨hmethod, hbody, hrange⟩ := wire_of_sends hsends rfl
  have hlength : (ch.buffer.take ch.chunkSize).length = ch.chunkSize := by
    rw [List.length_take]
    omega
  have hbody : wire.body = ch.buffer.take ch.chunkSize := hbody
  rw [hlength] at hrange
  exact ⟨hmethod, ⟨_, hrange, endsAt_lastPosition _ _⟩, by rw [hbody, h.buffer],
    by rw [hbody, hlength]⟩

theorem Buffered.carriesRest (h : Buffered payload ch)
    (hsends : c.SendsTo ch.finalRequest url wire) :
    CarriesRest payload ch.offset wire := by
  obtain ⟨hmethod, hbody, hrange⟩ := wire_of_sends hsends rfl
  have hbody : wire.body = ch.buffer := hbody
  have hend : ch.offset + ch.buffer.length = payload.length := h.bufferedEnd
  rw [finalRange, hend] at hrange
  refine ⟨hmethod, by rw [hbody, h.buffer], fun hnone => ?_, fun hsome => ?_⟩
  · rw [if_pos (by omega)] at hrange
    exact hrange
  · rw [if_neg (by omega)] at hrange
    refine ⟨_, hrange, ?_⟩
    have hends := endsAt_lastPosition ch.offset ch.buffer.length
    rw [hend] at hends
    exact hends

/-- What a step of a channel puts on the wire. -/
theorem Buffered.step (h : Buffered payload ch) {e : Entry σ}
    (hstep : Channel.Step c ch e) :
    TokenRequest e.request ∨ AsksHeld e.request ∨
      CarriesChunk payload ch.offset ch.chunkSize e.request := by
  cases hstep with
  | token htoken => exact .inl htoken
  | query full hsends => exact .inr (.inl (asksHeld_of_sends hsends))
  | chunk full hsends => exact .inr (.inr (h.carriesChunk full hsends))

/-- Writes add to the payload and leave the session and the size of the chunks
as they are. -/
theorem represented_writeAll (c : HttpClient) (T : Transport σ) (parts : List Bytes)
    {s : Connection (Recorded σ)} (h : Buffered payload ch) :
    let r := ch.writeAll c T.recorded parts s
    Buffered (payload ++ parts.flatten) r.1 ∧ r.1.chunkSize = ch.chunkSize ∧
      r.1.sessionUrl = ch.sessionUrl := by
  induction parts generalizing payload ch s with
  | nil => exact ⟨by simpa [Channel.writeAll] using h, rfl, rfl⟩
  | cons data rest ih =>
      obtain ⟨made, -, hchannel, -⟩ := Channel.write_follows c T ch data s
      have hwritten : Buffered (payload ++ data) (ch.write c T.recorded data s).2.1 := by
        rw [hchannel]
        exact (h.more data).replay made
      obtain ⟨hsize, hurl⟩ :=
        Channel.fixed_replay { ch with buffer := ch.buffer ++ data } made
      rw [← hchannel] at hsize hurl
      obtain ⟨hrest, hsize', hurl'⟩ := ih (s := (ch.write c T.recorded data s).2.2) hwritten
      rw [Channel.writeAll, List.flatten_cons, ← List.append_assoc]
      exact ⟨hrest, hsize'.trans hsize, hurl'.trans hurl⟩

/-- What closing comes to after so many bytes, by what its request comes to. -/
def closing (total : Nat) : Except LoadError Response → Except LoadError Job
  | .error e => .error e
  | .ok a =>
    if a.status = incomplete then .error (.upload s!"upload incomplete after {total} bytes")
    else a.read Job.read

/-- Closing makes the trials of one request, and nothing else. -/
theorem close_of_trials {s : Connection (Recorded σ)} {trials : List (Trial (Recorded σ))}
    {last : Trial (Recorded σ)} (h : c.Trials T.recorded ch.finalRequest 0 s trials last) :
    ch.close c T.recorded s =
      (closing ch.bufferedEnd (last.ending.outcome
        (c.timeoutOf ch.finalRequest)), last.after) := by
  rw [Channel.close, h.request_eq]
  cases last.ending.outcome (c.timeoutOf ch.finalRequest) with
  | error e => rfl
  | ok a =>
      simp only [closing]
      split <;> rfl

/-- For every server, every chunk size and every sequence of writes, whatever
became of them: the channel has the payload so far from its offset on. Through
each further write it keeps that, exchange for exchange, and never goes back; it
makes no exchange but requests for tokens, questions, and full chunks from the
offset of that moment; and a write that goes well leaves at most a chunk.
Closing makes the trials of one request, which carries the rest of the payload.
Each of them that was sent is on the record, there is one but for a failed
authorization or a request that cannot be put together, and the last says what
closing comes to. -/
theorem channel_represents (c : HttpClient) (T : Transport σ) (url : String)
    (chunkSize : Nat) (parts : List Bytes) (s : Connection σ) :
    let r := (Channel.new url chunkSize).writeAll c T.recorded parts s.recording
    let ch := r.1
    (Channel.new url chunkSize).writeAll c T parts s = (ch, r.2.through Prod.fst) ∧
    Buffered parts.flatten ch ∧
    (∀ data,
      let start : Channel := { ch with buffer := ch.buffer ++ data }
      let w := ch.write c T.recorded data r.2
      ((∃ n, w.1 = .ok n) → w.2.1.buffer.length ≤ chunkSize) ∧
      ∃ made, w.2.2.world.2 = r.2.world.2 ++ made ∧ w.2.1 = start.replay made ∧
        (∀ past later, made = past ++ later →
          Buffered (parts.flatten ++ data) (start.replay past) ∧
            ch.offset ≤ (start.replay past).offset ∧
            (start.replay past).offset ≤ w.2.1.offset) ∧
        ∀ past e later, made = past ++ e :: later →
          TokenRequest e.request ∨ AsksHeld e.request ∨
            CarriesChunk (parts.flatten ++ data) (start.replay past).offset
              chunkSize e.request) ∧
    let closed := ch.close c T.recorded r.2
    ch.close c T (r.2.through Prod.fst) = (closed.1, closed.2.through Prod.fst) ∧
    ∃ trials last made, c.Trials T.recorded ch.finalRequest 0 r.2 trials last ∧
      closed = (closing parts.flatten.length
        (last.ending.outcome (c.timeoutOf ch.finalRequest)), last.after) ∧
      closed.2.world.2 = r.2.world.2 ++ made ∧
      (∀ t ∈ trials, ∀ wire x, t.ending = .sent wire x →
        CarriesRest parts.flatten ch.offset wire ∧
          ∃ e ∈ made, e.request = wire ∧ e.outcome = x) ∧
      ((∃ e ∈ made, c.SendsTo ch.finalRequest (joinUrl c.config.baseUrl url) e.request) ∨
        (∃ e, last.ending = .unauthorized e ∧ closed.1 = .error e) ∨
        last.ending = .unbuilt ∧ closed.1 = .error (.transport .builder)) ∧
      (∀ e ∈ made, TokenRequest e.request ∨
        c.SendsTo ch.finalRequest (joinUrl c.config.baseUrl url) e.request) ∧
      (∀ wire, c.SendsTo ch.finalRequest (joinUrl c.config.baseUrl url) wire →
        CarriesRest parts.flatten ch.offset wire) ∧
      ((∃ job, closed.1 = .ok job) → ∃ e ∈ made,
        c.SendsTo ch.finalRequest (joinUrl c.config.baseUrl url) e.request) := by
  intro r ch
  obtain ⟨hbuffered, hsize, hurl⟩ : Buffered parts.flatten ch ∧ ch.chunkSize = chunkSize ∧
      ch.sessionUrl = url := by
    have hall :=
      represented_writeAll c T parts (s := s.recording) (Buffered.fresh url chunkSize)
    rw [List.nil_append] at hall
    exact hall
  refine ⟨Channel.writeAll_over T.recorded_over parts _ s.recording, hbuffered,
    fun data => ?_, ?_⟩
  · intro start w
    obtain ⟨made, hmade, hchannel, hfollows⟩ := Channel.write_follows c T ch data r.2
    have hstart : Buffered (parts.flatten ++ data) start := hbuffered.more data
    refine ⟨?_, made, hmade, hchannel, fun past later hsplit => ?_,
      fun past e later hsplit => ?_⟩
    · rintro ⟨n, hok⟩
      have hwritten : ch.write c T.recorded data r.2 = (.ok n, w.2) := Prod.ext hok rfl
      have hlength := Channel.length_le_of_write hwritten
      have hkept : w.2.1.chunkSize = start.chunkSize := by
        rw [show w.2.1 = start.replay made from hchannel]
        exact (Channel.fixed_replay start made).1
      rw [hkept, show start.chunkSize = chunkSize from hsize] at hlength
      exact hlength
    · refine ⟨hstart.replay past, Channel.offset_le_replay start past, ?_⟩
      rw [show w.2.1 = start.replay made from hchannel, hsplit, Channel.replay_append]
      exact Channel.offset_le_replay _ later
    · have hstep := (hstart.replay past).step (hfollows past e later hsplit)
      rw [(Channel.fixed_replay start past).1,
        show start.chunkSize = chunkSize from hsize] at hstep
      exact hstep
  · intro closed
    obtain ⟨made, hmade, hattempts, hanswered⟩ :=
      Channel.close_logged (recorded_logs T) c ch r.2
    obtain ⟨trials, last, htrials, -⟩ :=
      c.exists_trials T.recorded ch.finalRequest 0 _ r.2 (Nat.zero_add _)
    have hclosed : closed = _ := close_of_trials htrials
    rw [hbuffered.bufferedEnd] at hclosed
    have hfinal : ch.finalRequest.url = url := hurl
    have hgrown : last.after.world.2 = r.2.world.2 ++ made := by
      rw [← hmade, show (ch.close c T.recorded r.2).2 = _ from congrArg Prod.snd hclosed]
    simp only [HttpClient.Attempts, hfinal] at hattempts
    refine ⟨Channel.close_over T.recorded_over ch r.2, trials, last, made, htrials,
      hclosed, hmade, fun t ht wire x hsent => ?_, ?_, hattempts,
      fun wire => hbuffered.carriesRest, ?_⟩
    · exact ⟨hbuffered.carriesRest (htrials.sendsTo ht hsent),
        htrials.recorded_sent hgrown ht hsent⟩
    · rw [← hfinal]
      obtain hsent | ⟨e, hending⟩ | hending := htrials.recorded_or_unsent hgrown
      · exact .inl hsent
      · exact .inr (.inl ⟨e, hending, by rw [hclosed, hending]; rfl⟩)
      · exact .inr (.inr ⟨hending, by rw [hclosed, hending]; rfl⟩)
    · rintro ⟨job, hok⟩
      obtain ⟨a, hanswer, -⟩ := hanswered job hok
      obtain ⟨e, hlast, -, hsends⟩ := hanswer.last
      rw [hfinal] at hsends
      exact ⟨e, List.mem_of_getLast? hlast, hsends⟩

end WarehouseLoader.Upload

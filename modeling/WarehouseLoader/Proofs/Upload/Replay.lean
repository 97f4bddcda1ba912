import WarehouseLoader.Proofs.Http.Log
import WarehouseLoader.Proofs.Upload.Credit

/-!
# The channel is its record, replayed

Between two writes a channel changes by what it hears, and by nothing else. So
the channel at any moment of a write can be read off the record: it is the
channel that the write began with, told the answers to its own requests one
after the other (`replay`). Token requests stand on the same record, but they
are none of its own, and nobody tells the channel how they ended.

With that a run is a system that takes one step after another. A step is an
exchange, and which exchanges are possible is decided by the channel at that
moment (`Step`): a chunk or a question, as long as there is more than a chunk,
or a request for a token. What every step keeps, a replay keeps; and a write
makes no exchange that is not a step (`write_follows`).
-/

namespace WarehouseLoader.Upload

open Auth Http

variable {σ : Type} {c : HttpClient} {T : Transport σ} {ch : Channel} {payload : Bytes}

namespace Channel

/-- The channel after one exchange of the record. -/
def hear (ch : Channel) (e : Entry σ) : Channel :=
  if (ContentRange.ofWire? e.request).isSome then ch.after e.outcome else ch

/-- The channel after the exchanges of a record. -/
def replay (ch : Channel) (made : List (Entry σ)) : Channel := made.foldl hear ch

theorem replay_append (ch : Channel) (made later : List (Entry σ)) :
    ch.replay (made ++ later) = (ch.replay made).replay later :=
  List.foldl_append

theorem replay_snoc (ch : Channel) (made : List (Entry σ)) (e : Entry σ) :
    ch.replay (made ++ [e]) = (ch.replay made).hear e :=
  replay_append ch made [e]

theorem hear_of_tokenRequest {e : Entry σ} (h : TokenRequest e.request) :
    ch.hear e = ch := by
  rw [hear, ofWire?_of_tokenRequest h]
  rfl

theorem hear_of_range {e : Entry σ} {range : ContentRange}
    (h : ContentRange.ofWire? e.request = some range) : ch.hear e = ch.after e.outcome := by
  rw [hear, h]
  rfl

/-! ### What hearing keeps -/

/-- A channel that hears something keeps what it is, or is told a number. -/
theorem hear_cases (ch : Channel) (e : Entry σ) :
    ch.hear e = ch ∨ ∃ held, ch.hear e = ch.credit held := by
  rw [hear]
  split
  · rw [after]
    split
    · rw [told]
      split
      · exact .inr ⟨_, rfl⟩
      · exact .inl rfl
    · exact .inl rfl
  · exact .inl rfl

theorem fixed_hear (ch : Channel) (e : Entry σ) :
    (ch.hear e).chunkSize = ch.chunkSize ∧ (ch.hear e).sessionUrl = ch.sessionUrl := by
  rcases hear_cases ch e with hsame | ⟨held, hcredit⟩
  · rw [hsame]
    exact ⟨rfl, rfl⟩
  · rw [hcredit]
    exact fixed_credit ch held

theorem fixed_replay (ch : Channel) (made : List (Entry σ)) :
    (ch.replay made).chunkSize = ch.chunkSize ∧
    (ch.replay made).sessionUrl = ch.sessionUrl := by
  induction made generalizing ch with
  | nil => exact ⟨rfl, rfl⟩
  | cons e rest ih =>
      obtain ⟨hsize, hurl⟩ := fixed_hear ch e
      rw [← hsize, ← hurl]
      exact ih (ch.hear e)

theorem offset_le_hear (ch : Channel) (e : Entry σ) : ch.offset ≤ (ch.hear e).offset := by
  rcases hear_cases ch e with hsame | ⟨held, hcredit⟩
  · rw [hsame]
  · rw [hcredit]
    exact offset_le_credit ch held

theorem offset_le_replay (ch : Channel) (made : List (Entry σ)) :
    ch.offset ≤ (ch.replay made).offset := by
  induction made generalizing ch with
  | nil => exact Nat.le_refl _
  | cons e rest ih => exact Nat.le_trans (offset_le_hear ch e) (ih (ch.hear e))

end Channel

theorem Buffered.hear (h : Buffered payload ch) (e : Entry σ) :
    Buffered payload (ch.hear e) := by
  rcases Channel.hear_cases ch e with hsame | ⟨held, hcredit⟩
  · rw [hsame]
    exact h
  · rw [hcredit]
    exact h.credit held

theorem Buffered.replay (h : Buffered payload ch) (made : List (Entry σ)) :
    Buffered payload (ch.replay made) := by
  induction made generalizing ch with
  | nil => exact h
  | cons e rest ih => exact ih (h.hear e)

/-! ### Steps -/

namespace Channel

/-- The exchange is one that a channel makes while it is written to. -/
inductive Step (c : HttpClient) (ch : Channel) (e : Entry σ) : Prop where
  | token : TokenRequest e.request → Step c ch e
  | chunk : ch.chunkSize < ch.buffer.length →
      c.SendsTo ch.chunkRequest (joinUrl c.config.baseUrl ch.sessionUrl) e.request →
        Step c ch e
  | query : ch.chunkSize < ch.buffer.length →
      c.SendsTo ch.queryRequest (joinUrl c.config.baseUrl ch.sessionUrl) e.request →
        Step c ch e

/-- Every exchange is a step of the channel at that moment. -/
def Follows (c : HttpClient) (ch : Channel) (made : List (Entry σ)) : Prop :=
  ∀ past e later, made = past ++ e :: later → Step c (ch.replay past) e

theorem Follows.snoc {made : List (Entry σ)} (h : Follows c ch made) {e : Entry σ}
    (hstep : Step c (ch.replay made) e) : Follows c ch (made ++ [e]) := by
  intro past e' later hmade
  rcases split_snoc hmade with ⟨rfl, rfl⟩ | ⟨later', hold⟩
  · exact hstep
  · exact h past e' later' hold

/-- The channel is what the record since `past` made of `start`. -/
def Replayed (c : HttpClient) (start : Channel) (past : List (Entry σ)) (ch : Channel)
    (w : Recorded σ) : Prop :=
  ∃ made, w.2 = past ++ made ∧ ch = start.replay made ∧ Follows c start made

section Replayed

variable {start : Channel} {past : List (Entry σ)} {w : Recorded σ}

theorem Replayed.snoc (h : Replayed c start past ch w) {e : Entry σ} (hstep : Step c ch e)
    (world : σ) : Replayed c start past (ch.hear e) (world, w.2 ++ [e]) := by
  obtain ⟨made, hmade, rfl, hfollows⟩ := h
  refine ⟨made ++ [e], ?_, (replay_snoc start made e).symm, hfollows.snoc hstep⟩
  rw [hmade, List.append_assoc]

theorem replayed_keeps (c : HttpClient) (start : Channel) (past : List (Entry σ))
    (ch : Channel) :
    Keeps T.recorded (Replayed c start past ch) where
  pause h := h
  log h := h
  halt h := h
  token {wire w} timeout htoken h := by
    let e : Entry σ :=
      ⟨wire, (T.exchange wire timeout w.1).1, w.1, (T.exchange wire timeout w.1).2⟩
    show Replayed c start past ch (e.after, w.2 ++ [e])
    have hsnoc := h.snoc (e := e) (.token htoken) e.after
    rw [hear_of_tokenRequest htoken] at hsnoc
    exact hsnoc

theorem replayed_establishes {r : Request} {url : String}
    (hrange : ∀ {wire}, c.SendsTo r url wire → ∃ range,
      ContentRange.ofWire? wire = some range)
    (hstep : ∀ {e : Entry σ}, c.SendsTo r url e.request → Step c ch e) :
    c.Establishes T.recorded r url (Replayed c start past ch) fun a w =>
      Replayed c start past (ch.told a) w := by
  refine establishes_of_after fun wire w timeout hsends h => ?_
  let e : Entry σ :=
    ⟨wire, (T.exchange wire timeout w.1).1, w.1, (T.exchange wire timeout w.1).2⟩
  obtain ⟨range, hwire⟩ := hrange hsends
  have hsnoc := h.snoc (e := e) (hstep hsends) e.after
  rw [hear_of_range (e := e) hwire] at hsnoc
  exact hsnoc

theorem replayed_carries (c : HttpClient) (start : Channel) (past : List (Entry σ)) :
    Carries c T.recorded (Replayed c start past) where
  keeps := replayed_keeps c start past
  chunk full :=
    replayed_establishes (fun hsends => ⟨_, (sends_chunk hsends).1⟩) (.chunk full)
  query full :=
    replayed_establishes (fun hsends => ⟨_, (sends_query hsends).1⟩) (.query full)

end Replayed

/-- What a write adds to the record are steps, and they lead from the channel
with the new data to the channel that it ends with, whether it goes well or
not. -/
theorem write_follows (c : HttpClient) (T : Transport σ) (ch : Channel) (data : Bytes)
    (s : Connection (Recorded σ)) :
    let start : Channel := { ch with buffer := ch.buffer ++ data }
    let r := ch.write c T.recorded data s
    ∃ made, r.2.2.world.2 = s.world.2 ++ made ∧ r.2.1 = start.replay made ∧
      Follows c start made := by
  intro start r
  have hstart : Replayed c start s.world.2 start s.world :=
    ⟨[], (List.append_nil _).symm, rfl, fun past e later h => by simp at h⟩
  exact (replayed_carries c start s.world.2).write hstart

theorem length_le_of_drain {U : Transport σ} {ch' : Channel} {s s' : Connection σ}
    (h : drain c U ch s = (.ok (), ch', s')) : ch'.buffer.length ≤ ch'.chunkSize := by
  fun_induction drain c U ch s with
  | case1 ch s full ch₁ s₁ step ih => exact ih h
  | case2 ch s full e ch₁ s₁ step => cases h
  | case3 ch s full =>
      cases h
      omega

theorem length_le_of_write {U : Transport σ} {ch' : Channel} {data : Bytes} {n : Nat}
    {s s' : Connection σ} (h : ch.write c U data s = (.ok n, ch', s')) :
    ch'.buffer.length ≤ ch'.chunkSize := by
  rw [write] at h
  split at h
  · next hdrain =>
      cases h
      exact length_le_of_drain hdrain
  · cases h

end Channel

end WarehouseLoader.Upload

import WarehouseLoader.Proofs.Http.Record
import WarehouseLoader.Proofs.Upload.Buffer

/-!
# What a channel carries through a write

A write is a loop of flushes, a flush is a loop of attempts at one chunk with
a status query between any two of them, and each of those requests is a loop
of its own. A relation between the channel and the world survives all of it if
it survives three things: what happens aside (`Keeps`), an exchange that brings
no answer, for the channel as it is, and an exchange that brings one, for the
channel that has been told it (`told`). `Carries` says so, and `Carries.write`
and `carries_writeAll` draw the conclusion once, for every invariant of an
upload.

The exchanges only have to be looked at for a channel that holds more than a
chunk, since no other is flushed.
-/

namespace WarehouseLoader.Upload.Channel

open Auth Http

variable {σ τ : Type} {c : HttpClient} {T : Transport σ} {I : Channel → σ → Prop}

/-- `I` survives every step of flushing. -/
structure Carries (c : HttpClient) (T : Transport σ) (I : Channel → σ → Prop) : Prop where
  keeps : ∀ ch, Keeps T (I ch)
  chunk : ∀ {ch : Channel}, ch.chunkSize < ch.buffer.length →
    c.Establishes T ch.chunkRequest (joinUrl c.config.baseUrl ch.sessionUrl) (I ch)
      fun a w => I (ch.told a) w
  query : ∀ {ch : Channel}, ch.chunkSize < ch.buffer.length →
    c.Establishes T ch.queryRequest (joinUrl c.config.baseUrl ch.sessionUrl) (I ch)
      fun a w => I (ch.told a) w

/-- In a world that does not tell whether the program broke off nothing happens
aside. -/
theorem heed_eq_self (hstill : ∀ w, T.halt w = w) (r : Response) (s : Connection σ) :
    heed T r s = s := by
  rw [heed]
  split
  · rw [Connection.mapWorld, hstill]
  · rfl

theorem poised_eq_self (hstill : ∀ w, T.halt w = w) (ch : Channel) (s : Connection σ) :
    ch.poised T s = s := by
  rw [poised]
  split
  · rw [Connection.mapWorld, hstill]
  · rfl

theorem kept_heed {P : σ → Prop} (k : Keeps T P) (r : Response) {s : Connection σ}
    (h : P s.world) : P (heed T r s).world := by
  rw [heed]
  split
  · exact k.halt h
  · exact h

theorem kept_poised {P : σ → Prop} (k : Keeps T P) (ch : Channel) {s : Connection σ}
    (h : P s.world) : P (ch.poised T s).world := by
  rw [poised]
  split
  · exact k.halt h
  · exact h

/-- A request for the number of bytes held, and the channel that asks: the
relation holds for it if nothing was learned, and for the channel that is told
the number if one was. -/
theorem Carries.askHeld (carries : Carries c T I) {ch : Channel} {r : Request}
    {purpose : String} {s : Connection σ}
    (hsent : c.Establishes T r (joinUrl c.config.baseUrl r.url) (I ch)
      fun a w => I (ch.told a) w) (h : I ch s.world) :
    match (askHeld c T r purpose s).1 with
    | .ok held => I (ch.credit held) (Channel.askHeld c T r purpose s).2.world
    | .error _ => I ch (Channel.askHeld c T r purpose s).2.world := by
  have hasked := HttpClient.request_rule (carries.keeps ch) hsent h
  rw [Channel.askHeld]
  cases hr : c.request T r s with
  | mk outcome s₁ =>
      rw [hr] at hasked
      cases outcome with
      | error e => exact hasked
      | ok a =>
          simp only [told] at hasked ⊢
          by_cases hstatus : a.status = incomplete
          · rw [if_pos hstatus] at hasked ⊢
            exact kept_heed (carries.keeps _) a hasked
          · rw [if_neg hstatus] at hasked ⊢
            exact hasked

theorem Carries.putChunk (carries : Carries c T I) {ch : Channel} {s : Connection σ}
    (full : ch.chunkSize < ch.buffer.length) (h : I ch s.world) :
    match (ch.putChunk c T s).1 with
    | .ok held => I (ch.credit held) (ch.putChunk c T s).2.world
    | .error _ => I ch (ch.putChunk c T s).2.world :=
  carries.askHeld (carries.chunk full) (kept_poised (carries.keeps ch) ch h)

theorem Carries.queryHeld (carries : Carries c T I) {ch : Channel} {s : Connection σ}
    (full : ch.chunkSize < ch.buffer.length) (h : I ch s.world) :
    match (ch.queryHeld c T s).1 with
    | .ok held => I (ch.credit held) (ch.queryHeld c T s).2.world
    | .error _ => I ch (ch.queryHeld c T s).2.world :=
  carries.askHeld (carries.query full) h

theorem Carries.pauseForRecovery (carries : Carries c T I) {ch : Channel} (e : LoadError)
    (done : Nat) {s : Connection σ} (h : I ch s.world) :
    I ch (ch.pauseForRecovery c T e done s).world :=
  (carries.keeps ch).pause ((carries.keeps ch).warn h)

/-- A flush whose chunk was answered ends there, with the channel that was told
what is held. -/
theorem flushFrom_of_held (done left : Nat) {held : Nat} {ch : Channel}
    {s s₁ : Connection σ} (hput : ch.putChunk c T s = (.ok held, s₁)) :
    (flushFrom c T done left ch s).2 = (ch.credit held, s₁) := by
  cases left <;>
  · rw [flushFrom, hput]
    simp only []
    split
    · next hle => rw [credit_of_le hle]
    · split
      · next hcommit => rw [credit_of_commit hcommit]
      · next hcommit => rw [credit_of_error hcommit]

theorem Carries.flushFrom (carries : Carries c T I) (done left : Nat) {ch : Channel}
    {s : Connection σ} (full : ch.chunkSize < ch.buffer.length) (h : I ch s.world) :
    I (flushFrom c T done left ch s).2.1 (flushFrom c T done left ch s).2.2.world := by
  induction left generalizing done ch s with
  | zero =>
      have hsent := carries.putChunk full h
      cases hput : ch.putChunk c T s with
      | mk outcome s₁ =>
          rw [hput] at hsent
          cases outcome with
          | ok held =>
              rw [flushFrom_of_held _ _ hput]
              exact hsent
          | error e =>
              rw [Channel.flushFrom, hput]
              simp only []
              split <;> exact hsent
  | succ left ih =>
      have hsent := carries.putChunk full h
      cases hput : ch.putChunk c T s with
      | mk outcome s₁ =>
          rw [hput] at hsent
          cases outcome with
          | ok held =>
              rw [flushFrom_of_held _ _ hput]
              exact hsent
          | error e =>
              rw [Channel.flushFrom, hput]
              simp only []
              split
              · exact hsent
              · -- The chunk failed in a passing way: ask, drop, and go on.
                have hasked :=
                  carries.queryHeld full (carries.pauseForRecovery e done hsent)
                split
                · next hq => rw [hq] at hasked; exact hasked
                · next held s₂ hq =>
                    rw [hq] at hasked
                    simp only [] at hasked
                    split
                    · next hcommit => rw [credit_of_error hcommit] at hasked; exact hasked
                    · next ch' hcommit =>
                        rw [credit_of_commit hcommit] at hasked
                        split
                        · exact hasked
                        · next hmore => exact ih _ (by omega) hasked

theorem drain_of_le {ch : Channel} {s : Connection σ}
    (h : ch.buffer.length ≤ ch.chunkSize) : drain c T ch s = (.ok (), ch, s) := by
  rw [Channel.drain, dif_neg (by omega)]

theorem drain_of_flush_error {ch ch' : Channel} {e : LoadError} {s s' : Connection σ}
    (full : ch.chunkSize < ch.buffer.length)
    (hflush : ch.flush c T s = (.error e, ch', s')) :
    drain c T ch s = (.error e, ch', s') := by
  rw [Channel.drain, dif_pos full]
  split
  · next hstep => rw [hflush] at hstep; cases hstep
  · next hstep => rw [hflush] at hstep; cases hstep; rfl

theorem drain_of_flush {ch ch' : Channel} {s s' : Connection σ}
    (full : ch.chunkSize < ch.buffer.length) (hflush : ch.flush c T s = (.ok (), ch', s')) :
    drain c T ch s = drain c T ch' s' := by
  rw [Channel.drain, dif_pos full]
  split
  · next hstep => rw [hflush] at hstep; cases hstep; rfl
  · next hstep => rw [hflush] at hstep; cases hstep

theorem Carries.drain (carries : Carries c T I) (ch : Channel) (s : Connection σ)
    (h : I ch s.world) : I (drain c T ch s).2.1 (drain c T ch s).2.2.world := by
  fun_induction Channel.drain c T ch s with
  | case1 ch s full ch' s' step ih =>
      have hflushed := carries.flushFrom 0 c.config.maxRetries full h
      rw [show Channel.flushFrom c T 0 c.config.maxRetries ch s = _ from step] at hflushed
      exact ih hflushed
  | case2 ch s full e ch' s' step =>
      have hflushed := carries.flushFrom 0 c.config.maxRetries full h
      rw [show Channel.flushFrom c T 0 c.config.maxRetries ch s = _ from step] at hflushed
      exact hflushed
  | case3 ch s full => exact h

theorem Carries.drain_of_flushed (carries : Carries c T I) {ch ch' : Channel}
    {s s' : Connection σ} (full : ch.chunkSize < ch.buffer.length)
    (hflush : (ch.flush c T s).2 = (ch', s')) (h : I ch' s'.world) :
    I (Channel.drain c T ch s).2.1 (Channel.drain c T ch s).2.2.world := by
  cases hf : ch.flush c T s with
  | mk outcome rest =>
      rw [hf] at hflush
      cases hflush
      cases outcome with
      | error e =>
          rw [drain_of_flush_error full hf]
          exact h
      | ok u =>
          rw [drain_of_flush full hf]
          exact carries.drain ch' s' h

/-- What holds of the channel with the new bytes in its buffer holds of it
after the write, whether that succeeds or not. -/
theorem Carries.write (carries : Carries c T I) {ch : Channel} {data : Bytes}
    {s : Connection σ} (h : I { ch with buffer := ch.buffer ++ data } s.world) :
    I (ch.write c T data s).2.1 (ch.write c T data s).2.2.world := by
  have hdrained := carries.drain _ s h
  rw [Channel.write]
  cases hd : Channel.drain c T { ch with buffer := ch.buffer ++ data } s with
  | mk outcome rest =>
      rw [hd] at hdrained
      cases outcome <;> exact hdrained

/-! ### Runs of several writes -/

/-- All of the parts written one after the other, each whatever became of the
ones before. -/
def writeAll (c : HttpClient) (T : Transport σ) :
    List Bytes → Channel → Connection σ → Channel × Connection σ
  | [], ch, s => (ch, s)
  | data :: rest, ch, s =>
    writeAll c T rest (ch.write c T data s).2.1 (ch.write c T data s).2.2

/-- An invariant that speaks of the payload so far is carried through all of
the writes if the next part may be added to payload and buffer alike. -/
theorem carries_writeAll {J : Bytes → Channel → σ → Prop}
    (carries : ∀ payload, Carries c T (J payload))
    (hmore : ∀ {payload ch w} data, J payload ch w →
      J (payload ++ data) { ch with buffer := ch.buffer ++ data } w)
    (parts : List Bytes) {payload : Bytes} {ch : Channel} {s : Connection σ}
    (h : J payload ch s.world) :
    J (payload ++ parts.flatten) (writeAll c T parts ch s).1
      (writeAll c T parts ch s).2.world := by
  induction parts generalizing payload ch s with
  | nil => simpa [writeAll] using h
  | cons data rest ih =>
      rw [writeAll, List.flatten_cons, ← List.append_assoc]
      exact ih ((carries (payload ++ data)).write (hmore data h))

def upload (c : HttpClient) (T : Transport σ) (parts : List Bytes) (ch : Channel)
    (s : Connection σ) : Except LoadError Job × Connection σ :=
  (writeAll c T parts ch s).1.close c T (writeAll c T parts ch s).2

/-! ### Recorded runs are the runs -/

section Over

variable {U : Transport τ} {view : τ → σ}

theorem heed_over (h : U.Over T view) (r : Response) (s : Connection τ) :
    heed T r (s.through view) = (heed U r s).through view := by
  rw [heed, heed]
  split
  · exact (Connection.through_mapWorld h.halt s).symm
  · rfl

theorem poised_over (h : U.Over T view) (ch : Channel) (s : Connection τ) :
    ch.poised T (s.through view) = (ch.poised U s).through view := by
  rw [poised, poised]
  split
  · exact (Connection.through_mapWorld h.halt s).symm
  · rfl

theorem askHeld_over (h : U.Over T view) (r : Request) (purpose : String)
    (s : Connection τ) :
    askHeld c T r purpose (s.through view) =
      ((askHeld c U r purpose s).1, (askHeld c U r purpose s).2.through view) := by
  simp only [askHeld, HttpClient.request_over h]
  cases c.request U r s with
  | mk outcome s₁ =>
      cases outcome with
      | error e => rfl
      | ok a =>
          simp only [heed_over h]
          split <;> rfl

theorem putChunk_over (h : U.Over T view) (ch : Channel) (s : Connection τ) :
    ch.putChunk c T (s.through view) =
      ((ch.putChunk c U s).1, (ch.putChunk c U s).2.through view) := by
  simp only [putChunk, poised_over h, askHeld_over h]

theorem queryHeld_over (h : U.Over T view) (ch : Channel) (s : Connection τ) :
    ch.queryHeld c T (s.through view) =
      ((ch.queryHeld c U s).1, (ch.queryHeld c U s).2.through view) :=
  askHeld_over h _ _ s

theorem pauseForRecovery_over (h : U.Over T view) (ch : Channel) (e : LoadError)
    (done : Nat) (s : Connection τ) :
    ch.pauseForRecovery c T e done (s.through view) =
      (ch.pauseForRecovery c U e done s).through view := by
  rw [pauseForRecovery, pauseForRecovery, ← Connection.through_mapWorld]
  intro w
  rw [h.warn, h.pause]

theorem flushFrom_over (h : U.Over T view) (done left : Nat) (ch : Channel)
    (s : Connection τ) :
    flushFrom c T done left ch (s.through view) =
      ((flushFrom c U done left ch s).1, (flushFrom c U done left ch s).2.1,
        (flushFrom c U done left ch s).2.2.through view) := by
  induction left generalizing done ch s with
  | zero =>
      unfold flushFrom
      simp only [putChunk_over h]
      cases ch.putChunk c U s with
      | mk outcome s₁ =>
          cases outcome with
          | error e => simp only []; split <;> rfl
          | ok held => simp only []; split <;> [rfl; (split <;> rfl)]
  | succ left ih =>
      unfold flushFrom
      simp only [putChunk_over h]
      cases ch.putChunk c U s with
      | mk outcome s₁ =>
          cases outcome with
          | ok held => simp only []; split <;> [rfl; (split <;> rfl)]
          | error e =>
              simp only [pauseForRecovery_over h, queryHeld_over h]
              split
              · rfl
              · cases ch.queryHeld c U (ch.pauseForRecovery c U e done s₁) with
                | mk outcome s₂ =>
                    cases outcome with
                    | error e => rfl
                    | ok held =>
                        simp only []
                        cases ch.commit held with
                        | error e => rfl
                        | ok ch' => simp only []; split <;> [rfl; exact ih _ _ _]

theorem drain_over (h : U.Over T view) (ch : Channel) (s : Connection τ) :
    drain c T ch (s.through view) =
      ((drain c U ch s).1, (drain c U ch s).2.1, (drain c U ch s).2.2.through view) := by
  fun_induction drain c U ch s with
  | case1 ch s full ch' s' step ih =>
      have hflush := flushFrom_over (c := c) h 0 c.config.maxRetries ch s
      rw [show flushFrom c U 0 c.config.maxRetries ch s = _ from step] at hflush
      rw [drain, dif_pos full]
      split
      · next hstep =>
          rw [show flush ch c T (s.through view) = _ from hflush] at hstep
          cases hstep
          exact ih
      · next hstep =>
          rw [show flush ch c T (s.through view) = _ from hflush] at hstep
          cases hstep
  | case2 ch s full e ch' s' step =>
      have hflush := flushFrom_over (c := c) h 0 c.config.maxRetries ch s
      rw [show flushFrom c U 0 c.config.maxRetries ch s = _ from step] at hflush
      rw [drain, dif_pos full]
      split
      · next hstep =>
          rw [show flush ch c T (s.through view) = _ from hflush] at hstep
          cases hstep
      · next hstep =>
          rw [show flush ch c T (s.through view) = _ from hflush] at hstep
          cases hstep
          rfl
  | case3 ch s full => rw [drain, dif_neg full]

theorem write_over (h : U.Over T view) (ch : Channel) (data : Bytes) (s : Connection τ) :
    ch.write c T data (s.through view) =
      ((ch.write c U data s).1, (ch.write c U data s).2.1,
        (ch.write c U data s).2.2.through view) := by
  simp only [write, drain_over h]
  cases drain c U { ch with buffer := ch.buffer ++ data } s with
  | mk outcome rest => cases outcome <;> rfl

theorem writeAll_over (h : U.Over T view) (parts : List Bytes) (ch : Channel)
    (s : Connection τ) :
    writeAll c T parts ch (s.through view) =
      ((writeAll c U parts ch s).1, (writeAll c U parts ch s).2.through view) := by
  induction parts generalizing ch s with
  | nil => rfl
  | cons data rest ih => rw [writeAll, writeAll, write_over h, ih]

theorem close_over (h : U.Over T view) (ch : Channel) (s : Connection τ) :
    ch.close c T (s.through view) =
      ((ch.close c U s).1, (ch.close c U s).2.through view) := by
  simp only [close, HttpClient.request_over h]
  cases c.request U ch.finalRequest s with
  | mk outcome s₁ =>
      cases outcome with
      | error e => rfl
      | ok a => simp only []; split <;> rfl

theorem upload_over (h : U.Over T view) (parts : List Bytes) (ch : Channel)
    (s : Connection τ) :
    upload c T parts ch (s.through view) =
      ((upload c U parts ch s).1, (upload c U parts ch s).2.through view) := by
  rw [upload, upload, writeAll_over h]
  exact close_over h _ _

end Over

theorem upload_recorded (c : HttpClient) (T : Transport σ) (parts : List Bytes)
    (ch : Channel) (s : Connection σ) :
    upload c T parts ch s = ((upload c T.recorded parts ch s.recording).1,
      (upload c T.recorded parts ch s.recording).2.through Prod.fst) :=
  upload_over T.recorded_over parts ch s.recording

end WarehouseLoader.Upload.Channel

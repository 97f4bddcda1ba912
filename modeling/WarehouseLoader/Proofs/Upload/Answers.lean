import WarehouseLoader.Proofs.Http.Log
import WarehouseLoader.Proofs.Upload.Flush

/-!
# What an upload has to hear to go on

A flush goes on for as long as its requests fail in passing, and gives up at
the first failure that does not pass. There is one way for it to go well: the
server says that it holds a part, in answer to a chunk or in answer to a
question, and that answer is the last thing on the record of the flush
(`flushFrom_logged`). A write is flush after flush, each of which has to go well
(`Drained`), and closing goes well on an answer with a job in it
(`close_logged`).
-/

namespace WarehouseLoader.Upload.Channel

open Auth Http

variable {σ τ : Type} {c : HttpClient} {U : Transport τ} {record : τ → List (Entry σ)}
  {ch ch' : Channel} {s s' : Connection τ}

/-- The exchange brought the answer that a part of the payload is held, to a
chunk or to a question. -/
structure Acknowledged (c : HttpClient) (url : String) (e : Entry σ) : Prop where
  asked : ∃ ch : Channel, ch.sessionUrl = url ∧
    (c.SendsTo ch.chunkRequest (joinUrl c.config.baseUrl url) e.request ∨
      c.SendsTo ch.queryRequest (joinUrl c.config.baseUrl url) e.request)
  answered : ∃ a, e.outcome = .answered a ∧ a.status = incomplete

/-- The last of the exchanges brought such an answer. -/
def EndsAcknowledged (c : HttpClient) (url : String) (made : List (Entry σ)) : Prop :=
  ∃ e, made.getLast? = some e ∧ Acknowledged c url e

theorem EndsAcknowledged.append {url : String} {made : List (Entry σ)}
    (h : EndsAcknowledged c url made) (before : List (Entry σ)) :
    EndsAcknowledged c url (before ++ made) := by
  obtain ⟨e, hlast, hacknowledged⟩ := h
  exact ⟨e, by rw [List.getLast?_append, hlast, Option.some_or], hacknowledged⟩

theorem endsAcknowledged_of_answered {r : Request} {made : List (Entry σ)} {a : Response}
    (hr : r = ch.chunkRequest ∨ r = ch.queryRequest) (h : c.Answered r made a)
    (hstatus : a.status = incomplete) : EndsAcknowledged c ch.sessionUrl made := by
  obtain ⟨e, hlast, hanswer, hsends⟩ := h.last
  refine ⟨e, hlast, ⟨ch, rfl, ?_⟩, a, hanswer, hstatus⟩
  rcases hr with rfl | rfl
  · exact .inl hsends
  · exact .inr hsends

theorem record_heed (h : Logs U record) (r : Response) (s : Connection τ) :
    record (heed U r s).world = record s.world := by
  rw [heed]
  split
  · exact h.halt _
  · rfl

theorem record_poised (h : Logs U record) (ch : Channel) (s : Connection τ) :
    record (ch.poised U s).world = record s.world := by
  rw [poised]
  split
  · exact h.halt _
  · rfl

theorem askHeld_logged (h : Logs U record) (c : HttpClient) (r : Request) (purpose : String)
    (s : Connection τ) :
    ∃ made, record (askHeld c U r purpose s).2.world = record s.world ++ made ∧
      ∀ held, (askHeld c U r purpose s).1 = .ok held →
        ∃ a, c.Answered r made a ∧ a.status = incomplete := by
  obtain ⟨made, hmade, -, hanswered⟩ := c.request_logged h r s
  rw [askHeld]
  cases hr : c.request U r s with
  | mk outcome s₁ =>
      rw [hr] at hmade hanswered
      cases outcome with
      | error e => exact ⟨made, hmade, fun held hok => by cases hok⟩
      | ok a =>
          simp only []
          split
          · next hstatus =>
              exact ⟨made, (record_heed h a s₁).trans hmade,
                fun held _ => ⟨a, hanswered a rfl, hstatus⟩⟩
          · exact ⟨made, hmade, fun held hok => by cases hok⟩

theorem putChunk_logged (h : Logs U record) (c : HttpClient) (ch : Channel)
    (s : Connection τ) :
    ∃ made, record (ch.putChunk c U s).2.world = record s.world ++ made ∧
      ∀ held, (ch.putChunk c U s).1 = .ok held → EndsAcknowledged c ch.sessionUrl made := by
  obtain ⟨made, hmade, hanswered⟩ :=
    askHeld_logged h c ch.chunkRequest "intermediate chunk" (ch.poised U s)
  rw [record_poised h] at hmade
  refine ⟨made, hmade, fun held hok => ?_⟩
  obtain ⟨a, hanswer, hstatus⟩ := hanswered held hok
  exact endsAcknowledged_of_answered (.inl rfl) hanswer hstatus

theorem queryHeld_logged (h : Logs U record) (c : HttpClient) (ch : Channel)
    (s : Connection τ) :
    ∃ made, record (ch.queryHeld c U s).2.world = record s.world ++ made ∧
      ∀ held, (ch.queryHeld c U s).1 = .ok held →
        EndsAcknowledged c ch.sessionUrl made := by
  obtain ⟨made, hmade, hanswered⟩ := askHeld_logged h c ch.queryRequest "upload status" s
  refine ⟨made, hmade, fun held hok => ?_⟩
  obtain ⟨a, hanswer, hstatus⟩ := hanswered held hok
  exact endsAcknowledged_of_answered (.inr rfl) hanswer hstatus

theorem record_pauseForRecovery (h : Logs U record) (c : HttpClient) (ch : Channel)
    (e : LoadError) (done : Nat) (s : Connection τ) :
    record (ch.pauseForRecovery c U e done s).world = record s.world :=
  (h.pause _ _).trans (h.warn _ _)

/-- The flush ended on an acknowledgement, and left the session as it is. -/
def FlushLogged (c : HttpClient) (record : τ → List (Entry σ)) (ch : Channel)
    (s : Connection τ) (ch' : Channel) (s' : Connection τ) : Prop :=
  ch'.sessionUrl = ch.sessionUrl ∧
    ∃ made, record s'.world = record s.world ++ made ∧ EndsAcknowledged c ch.sessionUrl made

theorem flushLogged_of_held (h : Logs U record) {done left held : Nat} {s₁ : Connection τ}
    (hput : ch.putChunk c U s = (.ok held, s₁))
    (hflush : flushFrom c U done left ch s = (.ok (), ch', s')) :
    FlushLogged c record ch s ch' s' := by
  obtain ⟨made, hmade, hends⟩ := putChunk_logged h c ch s
  have hsame := flushFrom_of_held done left hput
  rw [hput] at hmade hends
  rw [hflush] at hsame
  cases hsame
  exact ⟨(fixed_credit ch held).2, made, hmade, hends held rfl⟩

/-- A flush that goes well ends on an acknowledgement. -/
theorem flushFrom_logged (h : Logs U record) {done left : Nat}
    (hflush : flushFrom c U done left ch s = (.ok (), ch', s')) :
    FlushLogged c record ch s ch' s' := by
  induction left generalizing done ch s with
  | zero =>
      cases hput : ch.putChunk c U s with
      | mk outcome s₁ =>
          cases outcome with
          | ok held => exact flushLogged_of_held h hput hflush
          | error e =>
              rw [flushFrom, hput] at hflush
              simp only [] at hflush
              split at hflush <;> cases hflush
  | succ left ih =>
      cases hput : ch.putChunk c U s with
      | mk outcome s₁ =>
          cases outcome with
          | ok held => exact flushLogged_of_held h hput hflush
          | error e =>
              obtain ⟨made, hmade, -⟩ := putChunk_logged h c ch s
              rw [hput] at hmade
              rw [flushFrom, hput] at hflush
              simp only [] at hflush
              split at hflush
              · cases hflush
              · -- The chunk failed in a passing way, and the session is asked.
                obtain ⟨asked, hasked, hends⟩ :=
                  queryHeld_logged h c ch (ch.pauseForRecovery c U e done s₁)
                rw [record_pauseForRecovery h, hmade, List.append_assoc] at hasked
                split at hflush
                · cases hflush
                · next held s₂ hquery =>
                    rw [hquery] at hasked hends
                    split at hflush
                    · cases hflush
                    · next ch₁ hcommit =>
                        have hurl := (fixed_credit ch held).2
                        rw [credit_of_commit hcommit] at hurl
                        split at hflush
                        · cases hflush
                          exact ⟨hurl, _, hasked, (hends held rfl).append made⟩
                        · obtain ⟨hurl', rest, hrest, hlast⟩ := ih hflush
                          rw [hurl] at hurl' hlast
                          refine ⟨hurl', (made ++ asked) ++ rest, ?_, hlast.append _⟩
                          rw [hrest, hasked, List.append_assoc _ (made ++ asked)]

/-! ### Flush after flush -/

/-- The flushes that lead from one channel to another, each with what it put
on the record. -/
inductive Drained (c : HttpClient) (U : Transport τ) (record : τ → List (Entry σ)) :
    Channel → Connection τ → List (List (Entry σ)) → Channel → Connection τ → Prop
  | done {ch : Channel} {s : Connection τ} (hle : ch.buffer.length ≤ ch.chunkSize) :
      Drained c U record ch s [] ch s
  | flushed {ch ch₁ ch' : Channel} {s s₁ s' : Connection τ} {made : List (Entry σ)}
      {flushes : List (List (Entry σ))} (full : ch.chunkSize < ch.buffer.length)
      (hflush : ch.flush c U s = (.ok (), ch₁, s₁))
      (hmade : record s₁.world = record s.world ++ made)
      (hrest : Drained c U record ch₁ s₁ flushes ch' s') :
      Drained c U record ch s (made :: flushes) ch' s'

theorem drained_of_drain (h : Logs U record) (hdrain : drain c U ch s = (.ok (), ch', s')) :
    ∃ flushes, Drained c U record ch s flushes ch' s' := by
  fun_induction drain c U ch s with
  | case1 ch s full ch₁ s₁ step ih =>
      obtain ⟨flushes, hrest⟩ := ih hdrain
      obtain ⟨-, made, hmade, -⟩ := flushFrom_logged h step
      exact ⟨made :: flushes, .flushed full step hmade hrest⟩
  | case2 ch s full e ch₁ s₁ step => cases hdrain
  | case3 ch s full =>
      cases hdrain
      exact ⟨[], .done (Nat.le_of_not_lt full)⟩

theorem Drained.logged {flushes : List (List (Entry σ))}
    (h : Drained c U record ch s flushes ch' s') :
    record s'.world = record s.world ++ flushes.flatten := by
  induction h with
  | done hle => exact (List.append_nil _).symm
  | flushed full hflush hmade hrest ih =>
      rw [ih, hmade, List.flatten_cons, List.append_assoc]

theorem Drained.acknowledged {flushes : List (List (Entry σ))} (hlogs : Logs U record)
    (h : Drained c U record ch s flushes ch' s') :
    ch'.sessionUrl = ch.sessionUrl ∧
      ∀ made ∈ flushes, EndsAcknowledged c ch.sessionUrl made := by
  induction h with
  | done hle => exact ⟨rfl, fun made hmem => by cases hmem⟩
  | flushed full hflush hmade hrest ih =>
      obtain ⟨hurl, made', hmade', hends⟩ := flushFrom_logged hlogs hflush
      rw [hmade] at hmade'
      rw [← List.append_cancel_left hmade'] at hends
      obtain ⟨hurl', hothers⟩ := ih
      rw [hurl] at hurl' hothers
      exact ⟨hurl', List.forall_mem_cons.mpr ⟨hends, hothers⟩⟩

theorem drained_of_write (h : Logs U record) {data : Bytes} {n : Nat}
    (hwrite : ch.write c U data s = (.ok n, ch', s')) :
    ∃ flushes, Drained c U record { ch with buffer := ch.buffer ++ data } s
      flushes ch' s' := by
  rw [write] at hwrite
  split at hwrite
  · next hdrain =>
      cases hwrite
      exact drained_of_drain h hdrain
  · cases hwrite

/-! ### Closing -/

/-- Closing puts nothing on the record but attempts at one request. It ends
well only if that was answered, and the answer does not ask for more and has a
job in it. -/
theorem close_logged (h : Logs U record) (c : HttpClient) (ch : Channel)
    (s : Connection τ) :
    ∃ made, record (ch.close c U s).2.world = record s.world ++ made ∧
      (∀ e ∈ made, c.Attempts ch.finalRequest e) ∧
      ∀ job, (ch.close c U s).1 = .ok job → ∃ a, c.Answered ch.finalRequest made a ∧
        a.status ≠ incomplete ∧ a.read Job.read = .ok job := by
  obtain ⟨made, hmade, hattempts, hanswered⟩ := c.request_logged h ch.finalRequest s
  rw [close]
  cases hr : c.request U ch.finalRequest s with
  | mk outcome s₁ =>
      rw [hr] at hmade hanswered
      cases outcome with
      | error e => exact ⟨made, hmade, hattempts, fun job hok => by cases hok⟩
      | ok a =>
          simp only []
          split
          · exact ⟨made, hmade, hattempts, fun job hok => by cases hok⟩
          · next hstatus =>
              exact ⟨made, hmade, hattempts,
                fun job hok => ⟨a, hanswered a rfl, hstatus, hok⟩⟩

end WarehouseLoader.Upload.Channel

import WarehouseLoader.Proofs.Upload.Sent

/-!
# Which acknowledgements cost bytes

A channel that believes a server which claims more than was sent drops bytes
that were never sent, and never sends them: it goes on at the claimed place.
So a run is in one of two conditions. Either no such claim was made, and then
everything in front of the offset was sent (`Backed`); or one was made, and
then some place in front of the offset is missing from all that was sent, and
stays missing (`Lost`). Each exchange decides between the two by its answer
alone (`Watched.exchanged`), and the whole run is
`onlySentDropped_iff_allCredible`: what a channel drops was sent if and only if
no answer overclaims.
-/

namespace WarehouseLoader.Upload

open Auth Http

variable {σ : Type} {payload : Bytes} {ch : Channel} {events : List (Entry σ)}

/-- The exchange carries bytes from the front of the buffer, or none. -/
def FromBuffer (ch : Channel) (e : Entry σ) : Prop :=
  (start? e = some ch.offset ∧ ∃ m, e.request.body = ch.buffer.take m) ∨ start? e = none

/-- Everything up to the end of what was sent was sent, and the offset is not
past it. -/
structure Backed (payload : Bytes) (ch : Channel) (events : List (Entry σ)) : Prop where
  reached : ch.offset ≤ reach events
  covered : Covered payload events (reach events)
  before : ∀ {past e rest first}, events = past ++ e :: rest → start? e = some first →
    Covered payload past first

/-- A place in front of the offset was never sent. -/
def Lost (ch : Channel) (events : List (Entry σ)) : Prop :=
  ∃ p < ch.offset, ∀ b, ¬Transmitted events p b

theorem Backed.more (h : Backed payload ch events) (data : Bytes) :
    Backed (payload ++ data) { ch with buffer := ch.buffer ++ data } events where
  reached := h.reached
  covered := h.covered.more data
  before hevents hstart := (h.before hevents hstart).more data

theorem Backed.onlySentDropped (h : Backed payload ch events) :
    OnlySentDropped payload ch events where
  dropped := h.covered.mono h.reached
  before := h.before

theorem Lost.not_onlySentDropped (h : Lost ch events) :
    ¬OnlySentDropped payload ch events := by
  obtain ⟨p, hp, hmissing⟩ := h
  intro hsent
  obtain ⟨b, -, htransmitted⟩ := hsent.dropped p hp
  exact hmissing b htransmitted

/-! ### One exchange -/

theorem Backed.snoc (h : Backed payload ch events) (hbuffered : Buffered payload ch)
    {e : Entry σ} (he : FromBuffer ch e) : Backed payload ch (events ++ [e]) where
  reached := by
    rw [reach_snoc]
    exact Nat.le_trans h.reached (Nat.le_max_left _ _)
  covered := by
    intro p hp
    rw [reach_snoc] at hp
    by_cases hold : p < reach events
    · exact h.covered.snoc e p hold
    · -- A new place: it lies in the body, since the body begins at the offset.
      have hreached := h.reached
      rcases he with ⟨hstart, m, hbody⟩ | hnone
      · rw [sentEnd_of_start hstart] at hp
        have hlt : p - ch.offset < e.request.body.length := by omega
        obtain ⟨b, hb⟩ : ∃ b, e.request.body[p - ch.offset]? = some b :=
          ⟨_, List.getElem?_eq_getElem hlt⟩
        refine ⟨b, ?_, transmitted_snoc_iff.mpr (.inr ⟨_, hstart, by omega, hb⟩)⟩
        rw [hbody, List.length_take] at hlt
        rw [hbody, List.getElem?_take_of_lt (by omega), hbuffered.buffer,
          List.getElem?_drop, show ch.offset + (p - ch.offset) = p by omega] at hb
        exact hb
      · rw [sentEnd_of_none hnone] at hp
        omega
  before := by
    intro past e' rest first hevents hstart
    rcases split_snoc hevents with ⟨rfl, rfl⟩ | ⟨rest', hold⟩
    · rcases he with ⟨hfirst, -⟩ | hnone
      · rw [hfirst] at hstart
        cases hstart
        exact h.covered.mono h.reached
      · rw [hnone] at hstart
        cases hstart
    · exact h.before hold hstart

theorem Lost.snoc (h : Lost ch events) {e : Entry σ} (he : FromBuffer ch e) :
    Lost ch (events ++ [e]) := by
  obtain ⟨p, hp, hmissing⟩ := h
  refine ⟨p, hp, fun b htransmitted => ?_⟩
  rcases transmitted_snoc_iff.mp htransmitted with hold | ⟨first, hfirst, hle, -⟩
  · exact hmissing b hold
  · rcases he with ⟨hstart, -⟩ | hnone
    · rw [hstart] at hfirst
      cases hfirst
      omega
    · rw [hnone] at hfirst
      cases hfirst

/-! ### One acknowledgement -/

theorem Lost.credit (h : Lost ch events) (held : Nat) : Lost (ch.credit held) events := by
  obtain ⟨p, hp, hmissing⟩ := h
  exact ⟨p, Nat.lt_of_lt_of_le hp (Channel.offset_le_credit ch held), hmissing⟩

/-- A number that is not believed, or not beyond what was sent, costs
nothing. -/
theorem Backed.credit (h : Backed payload ch events) (hbuffered : Buffered payload ch)
    {held : Nat} (hsent : held ≤ payload.length → held ≤ reach events) :
    Backed payload (ch.credit held) events := by
  cases hcommit : ch.commit held with
  | error e =>
      rw [Channel.credit_of_error hcommit]
      exact h
  | ok ch' =>
      rw [Channel.credit_of_commit hcommit]
      obtain ⟨-, hhigh, rfl⟩ := Channel.of_commit hcommit
      rw [hbuffered.bufferedEnd] at hhigh
      exact ⟨hsent hhigh, h.covered, h.before⟩

/-- A number beyond what was sent is believed up to the end of the buffer, and
the first byte that was not sent is gone. -/
theorem Backed.lost_of_credit (h : Backed payload ch events)
    (hbuffered : Buffered payload ch) {held : Nat} (hbeyond : reach events < held)
    (hwithin : held ≤ payload.length) : Lost (ch.credit held) events := by
  have hreached := h.reached
  refine ⟨reach events, ?_, fun b htransmitted => Nat.lt_irrefl _ (lt_reach htransmitted)⟩
  rw [Channel.credit, Channel.commit, if_neg]
  · exact hbeyond
  · rw [hbuffered.bufferedEnd]
    omega

/-! ### A run under watch -/

/-- `P` holds and all that was dropped was sent, or it does not and a byte is
lost. -/
def Judged (P : Prop) (payload : Bytes) (ch : Channel) (events : List (Entry σ)) : Prop :=
  (P ∧ Backed payload ch events) ∨ (¬P ∧ Lost ch events)

theorem Judged.more {P : Prop} (h : Judged P payload ch events) (data : Bytes) :
    Judged P (payload ++ data) { ch with buffer := ch.buffer ++ data } events := by
  rcases h with ⟨hp, hbacked⟩ | ⟨hnot, hlost⟩
  · exact .inl ⟨hp, hbacked.more data⟩
  · exact .inr ⟨hnot, hlost⟩

theorem Judged.iff {P : Prop} (h : Judged P payload ch events) :
    OnlySentDropped payload ch events ↔ P := by
  rcases h with ⟨hp, hbacked⟩ | ⟨hnot, hlost⟩
  · exact ⟨fun _ => hp, fun _ => hbacked.onlySentDropped⟩
  · exact ⟨fun hsent => absurd hsent hlost.not_onlySentDropped, fun hp => absurd hp hnot⟩

/-- A channel during a write: what became of it since the record was `past` is
decided by whether the answers since then are credible. -/
structure Watched (P : Prop) (past : List (Entry σ)) (payload : Bytes) (ch : Channel)
    (w : Recorded σ) : Prop where
  buffered : Buffered payload ch
  judged : ∃ new, w.2 = past ++ new ∧
    Judged (P ∧ Credible payload.length past new) payload ch w.2

/-- The channel at the end of an exchange. -/
def Channel.after (ch : Channel) (x : Exchange) : Channel :=
  match x.accepted? with
  | some a => ch.told a
  | none => ch

/-- It is enough to look at the channel at the end of each exchange. -/
theorem Channel.establishes_of_after {τ : Type} {U : Transport τ} {c : HttpClient}
    {r : Request} {url : String} {I : Channel → τ → Prop}
    (h : ∀ wire w timeout, c.SendsTo r url wire → I ch w →
      I (ch.after (U.exchange wire timeout w).1) (U.exchange wire timeout w).2) :
    c.Establishes U r url (I ch) fun a w => I (ch.told a) w := by
  intro wire w timeout hsends hw
  have hafter := h wire w timeout hsends hw
  rw [after] at hafter
  split
  · next a haccepted => rw [haccepted] at hafter; exact hafter
  · next hnone => rw [hnone] at hafter; exact hafter

/-- After an exchange of the upload a claim was made, and the channel was told
of it, or none was made and the channel is as it was. -/
theorem claim?_cases (ch : Channel) {e : Entry σ} {range : ContentRange}
    (hrange : ContentRange.ofWire? e.request = some range) :
    (∃ held, claim? e = some held ∧ ch.after e.outcome = ch.credit held) ∨
      (claim? e = none ∧ ch.after e.outcome = ch) := by
  rw [claim?, Channel.after, hrange]
  cases e.outcome with
  | timedOut | refused | broken => exact .inr ⟨rfl, rfl⟩
  | answered a =>
      simp only [Exchange.accepted?]
      by_cases hstatus : a.status = incomplete
      · have hfine : a.isFailure = false := by
          simp [Response.isFailure, hstatus, incomplete]
        refine .inl ⟨Channel.heldBy a, if_pos ⟨rfl, hstatus⟩, ?_⟩
        simp only [hfine, Bool.false_eq_true, if_false, Channel.told, if_pos hstatus]
      · refine .inr ⟨if_neg fun h => hstatus h.2, ?_⟩
        split
        · next h =>
            split at h
            · cases h
            · injection h with h
              rw [← h, Channel.told, if_neg hstatus]
        · rfl

namespace Watched

variable {P : Prop} {past : List (Entry σ)} {T : Transport σ} {w : Recorded σ}
  {c : HttpClient} {e : Entry σ}

/-- An exchange that claims nothing decides nothing. -/
theorem unclaimed (h : Watched P past payload ch w) (he : FromBuffer ch e)
    (hclaim : claim? e = none) : Watched P past payload ch (e.after, w.2 ++ [e]) := by
  obtain ⟨new, hnew, hjudged⟩ := h.judged
  have hover : ¬Overclaims payload.length (past ++ new) e := by
    rintro ⟨held, hclaim', -⟩
    rw [hclaim] at hclaim'
    cases hclaim'
  refine ⟨h.buffered, new ++ [e], by rw [hnew, List.append_assoc], ?_⟩
  rcases hjudged with ⟨⟨hp, hcredible⟩, hbacked⟩ | ⟨hnot, hlost⟩
  · exact .inl ⟨⟨hp, credible_snoc.mpr ⟨hcredible, hover⟩⟩, hbacked.snoc h.buffered he⟩
  · exact .inr ⟨fun hall => hnot ⟨hall.1, (credible_snoc.mp hall.2).1⟩, hlost.snoc he⟩

/-- A claim is credible and costs nothing, or it is not and costs a byte. -/
theorem claimed (h : Watched P past payload ch w) (he : FromBuffer ch e) {held : Nat}
    (hclaim : claim? e = some held) :
    Watched P past payload (ch.credit held) (e.after, w.2 ++ [e]) := by
  obtain ⟨new, hnew, hjudged⟩ := h.judged
  refine ⟨h.buffered.credit held, new ++ [e], by rw [hnew, List.append_assoc], ?_⟩
  rcases hjudged with ⟨⟨hp, hcredible⟩, hbacked⟩ | ⟨hnot, hlost⟩
  · have hsnoc := hbacked.snoc h.buffered he
    by_cases hover : reach (w.2 ++ [e]) < held ∧ held ≤ payload.length
    · refine .inr ⟨fun hall => ?_, hsnoc.lost_of_credit h.buffered hover.1 hover.2⟩
      have hnone := (credible_snoc.mp hall.2).2
      rw [← hnew] at hnone
      exact hnone ⟨held, hclaim, hover⟩
    · refine .inl ⟨⟨hp, credible_snoc.mpr ⟨hcredible, ?_⟩⟩,
        hsnoc.credit h.buffered fun hwithin => ?_⟩
      · rintro ⟨held', hclaim', hbeyond⟩
        rw [hclaim] at hclaim'
        cases hclaim'
        rw [← hnew] at hbeyond
        exact hover hbeyond
      · exact Nat.le_of_not_lt fun hbeyond => hover ⟨hbeyond, hwithin⟩
  · exact .inr ⟨fun hall => hnot ⟨hall.1, (credible_snoc.mp hall.2).1⟩,
      (hlost.snoc he).credit held⟩

theorem exchanged (h : Watched P past payload ch w) {wire : WireRequest}
    (timeout : Option Nat) {range : ContentRange}
    (hrange : ContentRange.ofWire? wire = some range)
    (hfirst : range.first = some ch.offset ∨ range.first = none)
    {m : Nat} (hbody : wire.body = ch.buffer.take m) :
    Watched P past payload (ch.after (T.recorded.exchange wire timeout w).1)
      (T.recorded.exchange wire timeout w).2 := by
  let e : Entry σ :=
    ⟨wire, (T.exchange wire timeout w.1).1, w.1, (T.exchange wire timeout w.1).2⟩
  show Watched P past payload (ch.after e.outcome) (e.after, w.2 ++ [e])
  have hstart : start? e = range.first := by
    show (ContentRange.ofWire? wire).bind _ = _
    rw [hrange, Option.bind_some]
  have he : FromBuffer ch e := by
    rcases hfirst with hfirst | hfirst
    · exact .inl ⟨hstart.trans hfirst, m, hbody⟩
    · exact .inr (hstart.trans hfirst)
  rcases claim?_cases ch (e := e) hrange with ⟨held, hclaim, hafter⟩ | ⟨hclaim, hafter⟩
  · rw [hafter]
    exact h.claimed he hclaim
  · rw [hafter]
    exact h.unclaimed he hclaim

theorem keeps (P : Prop) (past : List (Entry σ)) (payload : Bytes) (ch : Channel) :
    Keeps T.recorded (Watched P past payload ch) where
  pause h := ⟨h.buffered, h.judged⟩
  log h := ⟨h.buffered, h.judged⟩
  halt h := ⟨h.buffered, h.judged⟩
  token {wire w} timeout htoken h := by
    have hnone := ofWire?_of_tokenRequest htoken
    let e : Entry σ :=
      ⟨wire, (T.exchange wire timeout w.1).1, w.1, (T.exchange wire timeout w.1).2⟩
    show Watched P past payload ch (e.after, w.2 ++ [e])
    have hrange : ContentRange.ofWire? e.request = none := hnone
    refine h.unclaimed (.inr ?_) ?_
    · rw [start?, hrange]
      rfl
    · rw [claim?, hrange]
      cases e.outcome with
      | answered a => exact if_neg (by simp)
      | timedOut | refused | broken => rfl

theorem establishes {r : Request} {url : String}
    (hsends : ∀ {wire}, c.SendsTo r url wire → ∃ range,
      ContentRange.ofWire? wire = some range ∧
      (range.first = some ch.offset ∨ range.first = none) ∧
      ∃ m, wire.body = ch.buffer.take m) :
    c.Establishes T.recorded r url (Watched P past payload ch) fun a w =>
      Watched P past payload (ch.told a) w := by
  refine Channel.establishes_of_after fun wire w timeout hwire h => ?_
  obtain ⟨range, hrange, hfirst, m, hbody⟩ := hsends hwire
  exact h.exchanged (T := T) timeout hrange hfirst hbody

theorem carries (P : Prop) (past : List (Entry σ)) (payload : Bytes) :
    Channel.Carries c T.recorded (Watched P past payload) where
  keeps := keeps P past payload
  chunk {ch} _ := establishes fun hwire => by
    obtain ⟨hrange, hbody⟩ := Channel.sends_chunk hwire
    exact ⟨_, hrange, .inl rfl, _, hbody⟩
  query {ch} _ := establishes fun hwire => by
    obtain ⟨hrange, hbody⟩ := Channel.sends_query hwire
    exact ⟨_, hrange, .inr rfl, 0, hbody⟩

end Watched

/-! ### Whole runs -/

/-- No answer of any of the writes is believed that claims more than was
sent. -/
def AllCredible (c : HttpClient) (T : Transport σ) :
    List Bytes → Channel → Connection (Recorded σ) → Prop
  | [], _, _ => True
  | data :: rest, ch, s =>
    let s' := (ch.write c T.recorded data s).2.2
    Credible (ch.bufferedEnd + data.length) s.world.2 (s'.world.2.drop s.world.2.length) ∧
      AllCredible c T rest (ch.write c T.recorded data s).2.1 s'

theorem judged_writeAll {P : Prop} {c : HttpClient} {T : Transport σ} (parts : List Bytes)
    {s : Connection (Recorded σ)} (hbuffered : Buffered payload ch)
    (h : Judged P payload ch s.world.2) :
    let r := ch.writeAll c T.recorded parts s
    Judged (P ∧ AllCredible c T parts ch s) (payload ++ parts.flatten) r.1 r.2.world.2 := by
  induction parts generalizing payload ch s P with
  | nil => simpa [Channel.writeAll, AllCredible, Judged] using h
  | cons data rest ih =>
      have hstart : Watched P s.world.2 (payload ++ data)
          { ch with buffer := ch.buffer ++ data } s.world :=
        ⟨hbuffered.more data, [], by simp, by simpa [Credible] using h.more data⟩
      have hcarries : Channel.Carries c T.recorded
          (Watched P s.world.2 (payload ++ data)) :=
        Watched.carries P _ _
      have hwritten := hcarries.write hstart
      obtain ⟨new, hnew, hjudged⟩ := hwritten.judged
      have hend : (payload ++ data).length = ch.bufferedEnd + data.length := by
        rw [hbuffered.bufferedEnd, List.length_append]
      rw [hend] at hjudged
      have hrest := ih hwritten.buffered hjudged
      rw [Channel.writeAll, AllCredible, hnew, List.drop_left, List.flatten_cons,
        ← List.append_assoc, ← and_assoc]
      exact hrest

/-- For every client, every server and every list of writes. -/
theorem onlySentDropped_iff_allCredible (c : HttpClient) (T : Transport σ) (url : String)
    (chunkSize : Nat) (parts : List Bytes) (s : Connection σ) :
    let r := (Channel.new url chunkSize).writeAll c T.recorded parts s.recording
    OnlySentDropped parts.flatten r.1 r.2.world.2 ↔
      AllCredible c T parts (.new url chunkSize) s.recording := by
  have hbuffered : Buffered [] (.new url chunkSize) := Buffered.fresh url chunkSize
  have hstart : Judged True [] (.new url chunkSize) s.recording.world.2 :=
    .inl ⟨trivial, Nat.zero_le _, fun p hp => absurd hp (Nat.not_lt_zero p),
      fun hevents => by simp [Connection.recording] at hevents⟩
  have hend := (judged_writeAll (c := c) (T := T) parts hbuffered hstart).iff
  rw [true_and, List.nil_append] at hend
  exact hend

end WarehouseLoader.Upload

import WarehouseLoader.Proofs.Http.Attempts

/-!
# Programs that break off

A program that has broken off has done all that it will ever do: its world stays
as it is, and no request of it is answered (`request_of_halted`). A request may
be what breaks it off. It does so over the time of a token, in which case its
error says so, or over the number of attempts in a warning.

What is said of breaking off is said for every transport whose world tells it
(`Tells`). The transport that programs run on is one of them. A view of the
world in which everything is broken off is another, so whatever is shown by way
of `Tells` holds of every transport there is, but for what it says of breaking
off.
-/

namespace WarehouseLoader.Http

open Auth

variable {σ : Type} {T : Transport σ} {halted : σ → Prop}

/-- The world tells whether it broke off, and nothing else changes that. -/
structure Transport.Tells (T : Transport σ) (halted : σ → Prop) : Prop where
  exchange : ∀ wire timeout w, halted (T.exchange wire timeout w).2 ↔ halted w
  pause : ∀ n w, halted (T.pause n w) ↔ halted w
  log : ∀ level text w, halted (T.log level text w) ↔ halted w
  halt : ∀ w, halted (T.halt w)

namespace Transport

theorem haltable_tells (T : Transport σ) : T.haltable.Tells (·.2 = true) where
  exchange wire timeout w := by
    obtain ⟨w, broke⟩ := w
    cases broke <;> exact Iff.rfl
  pause n w := by
    obtain ⟨w, broke⟩ := w
    cases broke <;> exact Iff.rfl
  log level text w := by
    obtain ⟨w, broke⟩ := w
    cases broke <;> exact Iff.rfl
  halt _ := rfl

theorem tells_always (T : Transport σ) : T.Tells fun _ => True :=
  ⟨fun _ _ _ => Iff.rfl, fun _ _ => Iff.rfl, fun _ _ _ => Iff.rfl, fun _ => trivial⟩

theorem haltable_keeps (T : Transport σ) (w : σ) : Keeps T.haltable (· = (w, true)) where
  pause {n v} h := by rw [h]; rfl
  log {level text v} h := by rw [h]; rfl
  halt {v} h := by rw [h]; rfl
  token {wire v} timeout _ h := by rw [h]; rfl

namespace Tells

theorem settle_iff (h : T.Tells halted) (e : LoadError) (w : σ) :
    halted (T.settle e w) ↔ halted w ∨ e.breaksOff = true := by
  rw [Transport.settle]
  split
  · next hbreaks => exact iff_of_true (h.halt w) (.inr hbreaks)
  · next hgoes =>
      refine ⟨.inl, fun hw => hw.resolve_right fun hbreaks => hgoes hbreaks⟩

theorem authorization_iff (h : T.Tells halted) (credentials : Credentials)
    (userAgent : Option String) (timeout : Option Nat) (s : Connection σ) :
    halted (authorization T credentials userAgent timeout s).2.world ↔ halted s.world := by
  have hkept := authorization_rule (P := halted) (s := s)
    (fun timeout _ hw => (h.exchange _ timeout _).mpr hw) credentials userAgent timeout
  have hkept' := authorization_rule (P := fun w => ¬ halted w) (s := s)
    (fun timeout _ hw => fun hx => hw ((h.exchange _ timeout _).mp hx))
      credentials userAgent timeout
  exact ⟨fun hx => Classical.byContradiction fun hs => hkept' hs hx, hkept⟩

end Tells

end Transport

namespace HttpClient

variable {c : HttpClient} {r : Request} {s : Connection σ}

/-- The outcome breaks the program off. -/
def BreaksOff {α : Type} (outcome : Except LoadError α) : Prop :=
  ∃ e, outcome = .error e ∧ e.breaksOff = true

theorem not_breaksOff_ok {α : Type} (a : α) : ¬ BreaksOff (.ok a) := by
  rintro ⟨e, h, -⟩
  cases h

theorem breaksOff_error_iff {α : Type} {e : LoadError} :
    BreaksOff (.error e : Except LoadError α) ↔ e.breaksOff = true := by
  refine ⟨?_, fun h => ⟨e, rfl, h⟩⟩
  rintro ⟨e', h, hbreaks⟩
  cases h
  exact hbreaks

/-- The time of some token or assertion breaks the program off. -/
def TokenBreaks (c : HttpClient) (T : Transport σ) : Prop :=
  ∃ s : Connection σ, BreaksOff (c.authorize T s).1

theorem authorize_halts_iff (h : T.Tells halted) (c : HttpClient) (s : Connection σ) :
    halted (c.authorize T s).2.world ↔ halted s.world ∨ BreaksOff (c.authorize T s).1 := by
  rw [authorize]
  cases c.credentials with
  | none => simp [not_breaksOff_ok]
  | some credentials =>
      have hauth := h.authorization_iff credentials (some c.config.userAgent)
        (some c.config.timeout) s
      simp only []
      split
      · next ha =>
          rw [ha] at hauth
          simpa [not_breaksOff_ok] using hauth
      · next ha =>
          rw [ha] at hauth
          simp only [] at hauth
          rw [breaksOff_error_iff, ← hauth]
          exact h.settle_iff _ _

/-- What a request comes to if no attempt follows this one. -/
def Attempt.outcome : Attempt → Except LoadError Response
  | settled outcome => outcome
  | passing e _ => .error e

/-- No end of an exchange breaks a program off. -/
theorem not_breaksOff_classifyExchange (timeout : Nat) (x : Exchange) :
    ¬ BreaksOff (classifyExchange timeout x).outcome := by
  rintro ⟨e, h, hbreaks⟩
  cases x with
  | timedOut | refused | broken =>
      cases h
      cases hbreaks
  | answered a =>
      simp only [classifyExchange, classify] at h
      split at h
      · cases h
        cases hbreaks
      · split at h
        · split at h <;>
          · cases h
            cases hbreaks
        · cases h

/-- An attempt breaks the program off exactly if its error does. -/
theorem attempt_halts_iff (h : T.Tells halted) (c : HttpClient) (r : Request) (url : String)
    (timeout : Nat) (s : Connection σ) :
    halted (c.attempt T r url timeout s).2.world ↔
      halted s.world ∨ BreaksOff (c.attempt T r url timeout s).1.outcome := by
  have hauth := authorize_halts_iff h c s
  rw [attempt]
  cases ha : c.authorize T s with
  | mk outcome s₁ =>
      rw [ha] at hauth
      cases outcome with
      | error e => simpa [Attempt.outcome, breaksOff_error_iff] using hauth
      | ok authorization =>
          simp only [not_breaksOff_ok, or_false] at hauth
          simp only []
          split
          · have hbuilder : ¬ BreaksOff
                (.error (.transport .builder) : Except LoadError Response) :=
              fun hbreaks => absurd (breaksOff_error_iff.mp hbreaks) (by decide)
            simpa [Attempt.outcome, hbuilder] using hauth
          · next wire hwire =>
              rw [or_iff_left (not_breaksOff_classifyExchange _ _), ← hauth]
              exact h.exchange wire (some timeout) s₁.world

/-- Trouble that may pass breaks no program off. -/
theorem not_breaksOff_of_passing {url : String} {timeout : Nat} {e : LoadError}
    {wait : Option Nat} {s₁ : Connection σ}
    (h : c.attempt T r url timeout s = (.passing e wait, s₁)) :
    ¬ BreaksOff (.error e : Except LoadError Response) := by
  rw [attempt] at h
  split at h
  · cases h
  · split at h
    · cases h
    · next wire hwire =>
        have hclass := congrArg (Attempt.outcome ∘ Prod.fst) h
        rw [show (.error e : Except LoadError Response) = _ from hclass.symm]
        exact not_breaksOff_classifyExchange _ _

/-- A program that broke off makes no request any more. -/
theorem request_of_halted {w : σ} {s : Connection (σ × Bool)} (h : s.world = (w, true)) :
    (c.request T.haltable r s).2.world = (w, true) ∧
      ∃ e, (c.request T.haltable r s).1 = .error e := by
  have hrule := request_rule (c := c) (r := r) (Q := fun _ _ => False) (T.haltable_keeps w)
    (fun wire v timeout _ hv => by subst hv; rfl) h
  split at hrule
  · exact hrule.elim
  · next e he => exact ⟨hrule, e, he⟩

end HttpClient

end WarehouseLoader.Http

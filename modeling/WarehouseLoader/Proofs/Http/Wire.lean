import WarehouseLoader.Http.Request

/-!
# What of a request is on the wire

Headers are only ever appended: the ones every request carries, the request's
own, and behind them at most the three that the client adds by itself. So the
last header of any other name is the request's own, whatever was configured
for all requests, and that is the one a server goes by that has to choose.
The body goes out as it is.
-/

namespace WarehouseLoader.Http

/-- The headers that the client adds to those it was given. -/
def addedNames : List String := ["content-type", "authorization", "user-agent"]

/-- The header that counts where a name stands several times. -/
def WireRequest.lastHeader? (wire : WireRequest) (name : String) : Option String :=
  wire.headers.reverse.lookup name

theorem lookup_reverse_append_of_notMem {α : Type} {name : String}
    {headers tail : List (String × α)} (h : ∀ e ∈ tail, e.1 ≠ name) :
    (headers ++ tail).reverse.lookup name = headers.reverse.lookup name := by
  rw [List.reverse_append, List.lookup_append, List.lookup_eq_none_iff.mpr, Option.none_or]
  intro e he
  simpa using (h e (List.mem_reverse.mp he)).symm

theorem wireHeader?_eq {given sent : String × String} (h : wireHeader? given = some sent) :
    sent = (String.ofList (given.1.toList.map Url.lowerAscii), given.2) := by
  rw [wireHeader?] at h
  split at h
  · injection h with h
    exact h.symm
  · cases h

theorem addMissing_extends (headers : List (String × String)) (name value : String) :
    ∃ tail, addMissing headers name value = headers ++ tail ∧ ∀ e ∈ tail, e.1 = name := by
  rw [addMissing]
  split
  · exact ⟨[], by simp, by simp⟩
  · exact ⟨[(name, value)], rfl, by simp⟩

theorem withAgent_extends (headers : List (String × String)) (userAgent : Option String) :
    ∃ tail, withAgent headers userAgent = headers ++ tail ∧
      ∀ e ∈ tail, e.1 ∈ addedNames := by
  cases userAgent with
  | none => exact ⟨[], by simp [withAgent], by simp⟩
  | some agent =>
      obtain ⟨tail, htail, hname⟩ := addMissing_extends headers "user-agent" agent
      exact ⟨tail, htail, fun e he => by rw [hname e he]; decide⟩

theorem withAuthorization?_extends {headers sent : List (String × String)}
    {authorization : Option String}
    (h : withAuthorization? headers authorization = some sent) :
    ∃ tail, sent = headers ++ tail ∧ ∀ e ∈ tail, e.1 ∈ addedNames := by
  cases authorization with
  | none =>
      injection h with h
      exact ⟨[], by simp [h], by simp⟩
  | some value =>
      obtain ⟨e, he, rfl⟩ := Option.map_eq_some_iff.mp h
      refine ⟨[e], rfl, fun e' he' => ?_⟩
      rw [List.mem_singleton.mp he', wireHeader?_eq he]
      show String.ofList ("authorization".toList.map Url.lowerAscii) ∈ addedNames
      decide

namespace Request

/-- The bytes of the body, as they go out. -/
def content (r : Request) : Bytes :=
  match r.body with
  | none => []
  | some (.json v) => Text.utf8 v.render
  | some (.bytes content _) => content

theorem carried?_extends {r : Request} {given : List (String × String)}
    {carried : List (String × String) × Bytes} (h : r.carried? given = some carried) :
    carried.2 = r.content ∧
      ∃ tail, carried.1 = given ++ tail ∧ ∀ e ∈ tail, e.1 ∈ addedNames := by
  rw [carried?] at h
  cases hbody : r.body with
  | none =>
      rw [hbody] at h
      cases h
      exact ⟨by rw [content, hbody], [], by simp, by simp⟩
  | some body =>
      rw [hbody] at h
      cases body with
      | json v =>
          cases h
          obtain ⟨tail, htail, hname⟩ := addMissing_extends given "content-type" jsonType
          refine ⟨by rw [content, hbody], tail, htail, fun e he => ?_⟩
          rw [hname e he]
          decide
      | bytes bytes type =>
          obtain ⟨e, he, rfl⟩ := Option.map_eq_some_iff.mp h
          refine ⟨by rw [content, hbody], [e], rfl, fun e' he' => ?_⟩
          rw [List.mem_singleton.mp he', wireHeader?_eq he]
          show String.ofList ("content-type".toList.map Url.lowerAscii) ∈ addedNames
          decide

/-- What is sent, step by step: the URL with the query, and the headers that were
given, then the one for the body, then the authorization, then the agent. -/
theorem parts_of_wire? {r : Request} {url : String} {userAgent : Option String}
    {common : List (String × String)} {authorization : Option String}
    {wire : WireRequest} (h : r.wire? url userAgent common authorization = some wire) :
    ∃ parsed given own sent, (Url.parse url = .ok parsed ∧ parsed.isWeb = true) ∧
      (common ++ r.headers).mapM wireHeader? = some given ∧
      r.carried? given = some (own, r.content) ∧
      withAuthorization? own authorization = some sent ∧
      wire = ⟨r.method, parsed.withQuery r.query, withAgent sent userAgent, r.content⟩ := by
  simp only [wire?, Option.bind_eq_bind, Option.bind_eq_some_iff] at h
  obtain ⟨parsed, hparsed, h⟩ := h
  split at h
  · cases h
  · next hweb =>
    simp only [Option.bind_eq_some_iff] at h
    obtain ⟨given, hgiven, ⟨own, body⟩, hcarried, sent, hsent, h⟩ := h
    cases h
    obtain ⟨rfl, -⟩ := carried?_extends hcarried
    have hurl : Url.parse url = .ok parsed := by
      cases hparse : Url.parse url with
      | error e => rw [hparse] at hparsed; cases hparsed
      | ok u => rw [hparse] at hparsed; cases hparsed; rfl
    exact ⟨parsed, given, own, sent, ⟨hurl, by simpa using hweb⟩, hgiven,
      hcarried, hsent, rfl⟩

/-- A request keeps its method and its body, and its headers stand behind the
common ones and in front of those that the client adds. -/
theorem of_wire? {r : Request} {url : String} {userAgent : Option String}
    {common : List (String × String)} {authorization : Option String}
    {wire : WireRequest} (h : r.wire? url userAgent common authorization = some wire) :
    wire.method = r.method ∧ wire.body = r.content ∧
      ∃ given tail, (common ++ r.headers).mapM wireHeader? = some given ∧
        wire.headers = given ++ tail ∧ ∀ e ∈ tail, e.1 ∈ addedNames := by
  obtain ⟨parsed, given, own, sent, -, hgiven, hcarried, hsent, rfl⟩ := parts_of_wire? h
  obtain ⟨-, tail₁, h₁, hname₁⟩ := carried?_extends hcarried
  obtain ⟨tail₂, h₂, hname₂⟩ := withAuthorization?_extends hsent
  obtain ⟨tail₃, h₃, hname₃⟩ := withAgent_extends sent userAgent
  refine ⟨rfl, rfl, given, tail₁ ++ (tail₂ ++ tail₃), hgiven, ?_, ?_⟩
  · show withAgent sent userAgent = _
    rw [h₃, h₂, show own = given ++ tail₁ from h₁, List.append_assoc, List.append_assoc]
  · intro e he
    rcases List.mem_append.mp he with he | he
    · exact hname₁ e he
    · rcases List.mem_append.mp he with he | he
      · exact hname₂ e he
      · exact hname₃ e he

/-- The last header of a request's own keeps its say. -/
theorem lastHeader?_of_wire? {r : Request} {url : String} {userAgent : Option String}
    {common : List (String × String)} {authorization : Option String}
    {wire : WireRequest} {own : List (String × String)} {name lower value : String}
    (h : r.wire? url userAgent common authorization = some wire)
    (hown : r.headers = own ++ [(name, value)])
    (hlower : String.ofList (name.toList.map Url.lowerAscii) = lower)
    (hname : lower ∉ addedNames) : wire.lastHeader? lower = some value := by
  obtain ⟨-, -, given, tail, hgiven, hheaders, htail⟩ := of_wire? h
  have hne : ∀ e ∈ tail, e.1 ≠ lower := fun e he heq => hname (heq ▸ htail e he)
  rw [WireRequest.lastHeader?, hheaders, lookup_reverse_append_of_notMem hne]
  rw [hown, ← List.append_assoc, List.mapM_append] at hgiven
  simp only [List.mapM_cons, List.mapM_nil, Option.bind_eq_bind, Option.pure_def,
    Option.bind_eq_some_iff, Option.some.injEq] at hgiven
  obtain ⟨before, -, last, ⟨sent, hsent, rest, rfl, rfl⟩, rfl⟩ := hgiven
  rw [wireHeader?_eq hsent, List.reverse_append, hlower]
  exact List.lookup_cons_self

end Request

end WarehouseLoader.Http

import WarehouseLoader.Config.Credentials

/-!
# The settings of a service account

A service account section says which scopes its tokens are for and how long its
assertions last, and it may say where the key is. With a key file of its own,
the section resolves to the key in it and to the settings beside it. Without
one, the key is looked for in the environment, and then the settings come from
there as well: the scope of load jobs, and an hour.

So the settings are honoured wherever the section has a key file, and otherwise
only where they say what holds anyway or where the environment has no key
(`honoured_iff`).
-/

namespace WarehouseLoader.Config.CredentialsSection

open Auth

/-- The scopes that a list asks for. An empty one asks for what load jobs
need. -/
def wantedScopes (scopes : List String) : List String :=
  if scopes.isEmpty then [bigQueryScope] else scopes

/-- If the section comes to a service account, then to one with its scopes and
its lifetime. -/
def Honoured (m : Machine) (keyFile : Option String) (scopes : List String)
    (lifetime : Nat) : Prop :=
  ∀ key scopes' lifetime',
    resolve m (.serviceAccount keyFile scopes lifetime) =
      .ok (.serviceAccount key scopes' lifetime') →
    scopes' = wantedScopes scopes ∧ lifetime' = lifetime

/-- There is a key where the path leads, if there is a path. -/
def HasKey (m : Machine) (path : Option String) (key : ServiceAccountKey) : Prop :=
  ∃ file, path.bind Text.nonEmpty? = some file ∧ keyOfFile m file = .ok key

variable {m : Machine} {keyFile : Option String} {scopes scopes' : List String}
  {lifetime lifetime' : Nat} {key : ServiceAccountKey}

theorem wantedScopes_eq_iff :
    [bigQueryScope] = wantedScopes scopes ↔ scopes = [] ∨ scopes = [bigQueryScope] := by
  cases scopes with
  | nil => simp [wantedScopes]
  | cons scope rest => simp [wantedScopes, eq_comm]

/-- A key is the key of the account, and the settings are those given with it. -/
theorem map_eq_serviceAccount_iff {found : Except LoadError ServiceAccountKey} :
    found.map (fun key => Credentials.serviceAccount key scopes lifetime) =
        .ok (.serviceAccount key scopes' lifetime') ↔
      found = .ok key ∧ scopes' = scopes ∧ lifetime' = lifetime := by
  rw [map_eq_ok_iff]
  constructor
  · rintro ⟨key, hkey, ⟨⟩⟩
    exact ⟨hkey, rfl, rfl⟩
  · rintro ⟨hkey, rfl, rfl⟩
    exact ⟨key, hkey, rfl⟩

theorem ofMachine_eq_serviceAccount_iff :
    ofMachine m = .ok (.serviceAccount key scopes' lifetime') ↔
      HasKey m m.credentialsPath key ∧ scopes' = [bigQueryScope] ∧
        lifetime' = defaultLifetime := by
  rw [ofMachine, HasKey]
  cases m.credentialsPath.bind Text.nonEmpty? with
  | none => simp
  | some file =>
      simp only [Option.some.injEq, exists_eq_left']
      exact map_eq_serviceAccount_iff

/-- The two ways for a section to come to a service account. -/
theorem resolve_eq_serviceAccount_iff :
    resolve m (.serviceAccount keyFile scopes lifetime) =
        .ok (.serviceAccount key scopes' lifetime') ↔
      (HasKey m keyFile key ∧ scopes' = wantedScopes scopes ∧ lifetime' = lifetime) ∨
      (keyFile.bind Text.nonEmpty? = .none ∧ HasKey m m.credentialsPath key ∧
        scopes' = [bigQueryScope] ∧ lifetime' = defaultLifetime) := by
  rw [resolve]
  cases hfile : keyFile.bind Text.nonEmpty? with
  | none => simp [ofMachine_eq_serviceAccount_iff, HasKey, hfile]
  | some file =>
      simp only [HasKey, hfile, Option.some.injEq, exists_eq_left', reduceCtorEq, false_and,
        or_false]
      exact map_eq_serviceAccount_iff

theorem honoured_of_machine_iff :
    Honoured m keyFile scopes lifetime ↔
      (keyFile.bind Text.nonEmpty?).isSome ∨ (∀ key, ¬ HasKey m m.credentialsPath key) ∨
        (scopes = [] ∨ scopes = [bigQueryScope]) ∧ lifetime = defaultLifetime := by
  rw [← wantedScopes_eq_iff]
  constructor
  · intro h
    by_cases hfile : (keyFile.bind Text.nonEmpty?).isSome
    · exact .inl hfile
    · refine .inr (Classical.or_iff_not_imp_left.mpr fun hkey => ?_)
      obtain ⟨key, hkey⟩ := Classical.not_forall_not.mp hkey
      obtain ⟨hscopes, hlifetime⟩ := h key _ _ (resolve_eq_serviceAccount_iff.mpr
        (.inr ⟨Option.not_isSome_iff_eq_none.mp hfile, hkey, rfl, rfl⟩))
      exact ⟨hscopes, hlifetime.symm⟩
  · intro h key scopes' lifetime' hresolve
    obtain ⟨-, hscopes, hlifetime⟩ | ⟨hfile, hkey, rfl, rfl⟩ :=
      resolve_eq_serviceAccount_iff.mp hresolve
    · exact ⟨hscopes, hlifetime⟩
    · obtain hgiven | hnone | ⟨hscopes, rfl⟩ := h
      · rw [hfile] at hgiven
        cases hgiven
      · exact absurd hkey (hnone key)
      · exact ⟨hscopes, rfl⟩

/-! ### A machine with a key in its environment -/

/-- A key with nothing in it. -/
def blankKey : ServiceAccountKey := ⟨.none, .none, .none, "", "", defaultTokenUri⟩

def blankKeyText : String := "\x7b\"private_key\":\"\",\"client_email\":\"\"\x7d"

def keyedMachine : Machine := ⟨fun _ => .content (Text.utf8 blankKeyText), some "key.json"⟩

theorem hasKey_keyedMachine : HasKey keyedMachine keyedMachine.credentialsPath blankKey :=
  ⟨"key.json", by decide, by decide +kernel⟩

/-- What a service account section comes to, and when its settings are honoured:
on one machine unless the key comes from its environment and the settings are
others than there, and on all machines exactly with a key file or with those
settings. -/
theorem honoured_iff (keyFile : Option String) (scopes : List String) (lifetime : Nat) :
    (∀ m key scopes' lifetime',
      resolve m (.serviceAccount keyFile scopes lifetime) =
          .ok (.serviceAccount key scopes' lifetime') ↔
        (HasKey m keyFile key ∧ scopes' = wantedScopes scopes ∧ lifetime' = lifetime) ∨
        (keyFile.bind Text.nonEmpty? = .none ∧ HasKey m m.credentialsPath key ∧
          scopes' = [bigQueryScope] ∧ lifetime' = 3600)) ∧
    (∀ m, Honoured m keyFile scopes lifetime ↔
      (keyFile.bind Text.nonEmpty?).isSome ∨ (∀ key, ¬ HasKey m m.credentialsPath key) ∨
        (scopes = [] ∨ scopes = [bigQueryScope]) ∧ lifetime = 3600) ∧
    ((∀ m, Honoured m keyFile scopes lifetime) ↔
      (keyFile.bind Text.nonEmpty?).isSome ∨
        (scopes = [] ∨ scopes = [bigQueryScope]) ∧ lifetime = 3600) := by
  refine ⟨fun m key scopes' lifetime' => resolve_eq_serviceAccount_iff,
    fun m => honoured_of_machine_iff, fun h => ?_, fun h m => ?_⟩
  · obtain hfile | hnone | hdefault := honoured_of_machine_iff.mp (h keyedMachine)
    · exact .inl hfile
    · exact absurd hasKey_keyedMachine (hnone _)
    · exact .inr hdefault
  · exact honoured_of_machine_iff.mpr (h.imp_right .inr)

/-- The same key in the same file, named by the section and by the environment:
only the first keeps the section's scope and its ten minutes. -/
theorem environment_key_drops_settings :
    resolve keyedMachine (.serviceAccount (some "key.json") ["read"] 600) =
      .ok (.serviceAccount blankKey ["read"] 600) ∧
    resolve keyedMachine (.serviceAccount .none ["read"] 600) =
      .ok (.serviceAccount blankKey [bigQueryScope] 3600) ∧
    ¬ Honoured keyedMachine .none ["read"] 600 := by
  have henvironment : resolve keyedMachine (.serviceAccount .none ["read"] 600) =
      .ok (.serviceAccount blankKey [bigQueryScope] 3600) := by decide +kernel
  refine ⟨by decide +kernel, henvironment, fun h => ?_⟩
  exact absurd (h _ _ _ henvironment).2 (by decide)

end WarehouseLoader.Config.CredentialsSection

import LiveMenu.Lib.Program
import LiveMenu.Model.Settings

/-!
# Where the signing keys come from

`_build_settings` overlays the fields with the secrets it can get and keeps the others. `Settings()`
looks for `GCP_PROJECT_ID` in `os.environ` in any case and in `.env`, `get_secret` under this very
name in `os.environ` only.
-/

namespace LiveMenu

variable {E : Environment}

/-! ### The layers of a field -/

lemma truthy_eq_some {value : Option String} {v : String} :
    truthy value = some v ↔ value = some v ∧ v ≠ "" := by
  simp [truthy, Option.filter_eq_some_iff]

lemma Environment.named_self (name : String) : Environment.named name name = true := by
  simp [Environment.named]

/-- A variable that `os.getenv` finds is one of those that `Settings()` chooses from. -/
lemma Environment.explicit_of_getenv {name v : String} (h : E.getenv name = some v) :
    (E.explicit name).isSome := by
  obtain ⟨p, hp, -⟩ := Option.map_eq_some_iff.mp h
  have hmem : p ∈ E.environ.filter fun v => Environment.named name v.1 := by
    have hname : p.1 = name := by simpa using List.find?_some hp
    exact List.mem_filter.mpr ⟨List.mem_of_find?_eq_some hp, by rw [hname, named_self]⟩
  unfold Environment.explicit
  cases hlast : (E.environ.filter fun v => Environment.named name v.1).getLast? with
  | none => rw [List.getLast?_eq_none_iff.mp hlast] at hmem; cases hmem
  | some q => rfl

lemma Environment.textField_eq_ok {accepts : String → Bool} {name default v : String} :
    E.textField accepts name default = .ok v ↔
      E.explicit name = none ∧ v = default ∨
        E.explicit name = some v ∧ v ≠ "" ∧ accepts v = true := by
  unfold Environment.textField
  cases E.explicit name with
  | none =>
    simp only [Except.ok.injEq, true_and, reduceCtorEq, false_and, or_false]
    exact eq_comm
  | some w =>
    by_cases hw : w ≠ "" ∧ accepts w = true
    · simp only [if_pos hw, Except.ok.injEq, reduceCtorEq, false_and, false_or, Option.some.injEq]
      constructor
      · rintro rfl
        exact ⟨rfl, hw⟩
      · exact And.left
    · simp only [if_neg hw, reduceCtorEq, false_and, false_or, Option.some.injEq, false_iff]
      rintro ⟨rfl, h⟩
      exact hw h

/-! ### Secret Manager -/

/-- A call for the secret raises. -/
def SecretManager.Raises (M : SecretManager) (secretName : String) : Prop :=
  M.library = .broken ∨ M.library = .installed ∧ M.clientFails secretName = true

/-- The text that Secret Manager has for a secret of a project. -/
def SecretManager.latest (M : SecretManager) (secretName projectId : String) : Option String :=
  if M.library = .installed then
    M.accessSecretVersion
      ("projects/" ++ projectId ++ "/secrets/" ++ secretName ++ "/versions/latest")
  else none

lemma fetchFromSecretManager_eq_ok {M : SecretManager} {secretName projectId : String}
    {r : Option String} : fetchFromSecretManager M secretName projectId = .ok r ↔
      ¬ M.Raises secretName ∧ r = M.latest secretName projectId := by
  unfold fetchFromSecretManager SecretManager.Raises SecretManager.latest
  cases M.library with
  | installed => cases M.clientFails secretName <;> simp [eq_comm (a := r)]
  | missing => simp [eq_comm (a := r)]
  | broken => simp

namespace Environment

/-- The call of `get_secret` raises: it asks Secret Manager, and that raises. -/
def Raises (E : Environment) (name : String) : Prop :=
  gcpProjectId E ≠ none ∧ E.secretManager.Raises name

/-- What `get_secret` has from Secret Manager. -/
def secret (E : Environment) (name : String) : Option String :=
  (gcpProjectId E).bind (E.secretManager.latest name)

end Environment

lemma getSecret_eq_ok {name : String} {r : Option String} : getSecret E name = .ok r ↔
    ¬ E.Raises name ∧ r = (E.secret name).or (E.getenv name) := by
  unfold getSecret Environment.Raises Environment.secret
  cases gcpProjectId E with
  | none => simp [Except.pure_eq_ok, eq_comm (a := r)]
  | some projectId =>
    simp only [Except.bind_eq_ok_iff, fetchFromSecretManager_eq_ok, Option.bind_some]
    cases E.secretManager.latest name projectId with
    | none => simp [Except.pure_eq_ok, eq_comm (a := r)]
    | some value => simp [Except.pure_eq_ok, eq_comm (a := r)]

/-! ### `_build_settings` -/

namespace Environment

/-- What a field is after a secret has been laid over it. -/
def overlay (E : Environment) (name kept : String) : String :=
  (truthy ((E.secret name).or (E.getenv name))).getD kept

/-- The value comes from Secret Manager, or was given as a variable of this name. -/
def FromSource (E : Environment) (name v : String) : Prop :=
  (∃ projectId, gcpProjectId E = some projectId ∧
      fetchFromSecretManager E.secretManager name projectId = .ok (some v)) ∨
    E.explicit name = some v ∨ E.getenv name = some v

/-- A variable of this name is given, or `get_secret` knows the project and Secret Manager has a
text that is not empty. -/
def Supplied (E : Environment) (name : String) : Prop :=
  E.explicit name ≠ none ∨ truthy (E.secret name) ≠ none

lemma fromSource_iff_of_not_raises {name v : String} (h : ¬ E.Raises name) :
    E.FromSource name v ↔
      E.secret name = some v ∨ E.explicit name = some v ∨ E.getenv name = some v := by
  refine or_congr_left ?_
  rw [secret, Option.bind_eq_some_iff]
  constructor
  · rintro ⟨projectId, hproject, hfetch⟩
    exact ⟨projectId, hproject, (fetchFromSecretManager_eq_ok.mp hfetch).2.symm⟩
  · rintro ⟨projectId, hproject, hlatest⟩
    have hasks : ¬ E.secretManager.Raises name := by
      intro hraises
      exact h ⟨by simp [hproject], hraises⟩
    exact ⟨projectId, hproject, fetchFromSecretManager_eq_ok.mpr ⟨hasks, hlatest.symm⟩⟩

/-- A field ends with a value from a source exactly when there is one. -/
lemma fromSource_overlay_iff {name default kept : String} (hdefault : default ≠ "")
    (hkept : E.strField name default = .ok kept) (h : ¬ E.Raises name) :
    E.FromSource name (E.overlay name kept) ↔ E.Supplied name := by
  rw [fromSource_iff_of_not_raises h, Supplied, overlay]
  rcases textField_eq_ok.mp hkept with ⟨hexplicit, rfl⟩ | ⟨hexplicit, -, -⟩
  · have hgetenv : E.getenv name = none := by
      cases hg : E.getenv name with
      | none => rfl
      | some v =>
        have hsome := explicit_of_getenv hg
        rw [hexplicit] at hsome
        cases hsome
    rw [hexplicit, hgetenv, Option.or_none]
    cases ht : truthy (E.secret name) with
    | none =>
      have hnot : E.secret name ≠ some kept := by
        intro hsecret
        rw [truthy_eq_some.mpr ⟨hsecret, hdefault⟩] at ht
        cases ht
      simp [hnot]
    | some v => simp [(truthy_eq_some.mp ht).1]
  · refine iff_of_true ?_ (.inl (by simp [hexplicit]))
    cases ht : truthy ((E.secret name).or (E.getenv name)) with
    | none => exact .inr (.inl hexplicit)
    | some v =>
      rcases Option.or_eq_some_iff.mp (truthy_eq_some.mp ht).1 with hsecret | ⟨-, hgetenv⟩
      · exact .inl hsecret
      · exact .inr (.inr hgetenv)

/-- `Settings()` accepts what it is given. -/
def Loads (E : Environment) : Prop :=
  E.othersValid = true ∧ E.explicit "JWT_SECRET" ≠ some "" ∧ E.explicit "IP_HASH_SALT" ≠ some "" ∧
    ∀ url, E.explicit "DATABASE_URL" = some url → url ≠ "" ∧ E.postgresDsn url = true

/-- `Settings()` is given a project. -/
def OnGcp (E : Environment) : Prop := truthy (E.explicit "GCP_PROJECT_ID") ≠ none

lemma exists_textField_eq_ok {accepts : String → Bool} {name default : String} :
    (∃ v, E.textField accepts name default = .ok v) ↔
      ∀ v, E.explicit name = some v → v ≠ "" ∧ accepts v = true := by
  simp only [textField_eq_ok]
  cases E.explicit name with
  | none => simp
  | some w => simp

lemma exists_strField_eq_ok {name default : String} :
    (∃ v, E.strField name default = .ok v) ↔ E.explicit name ≠ some "" := by
  rw [strField, exists_textField_eq_ok]
  constructor
  · intro h hempty
    exact (h "" hempty).1 rfl
  · rintro h v hv
    refine ⟨?_, rfl⟩
    rintro rfl
    exact h hv

end Environment

lemma Settings.load_eq_ok {s : Settings} : Settings.load E = .ok s ↔ E.othersValid = true ∧
    E.textField E.postgresDsn "DATABASE_URL"
      "postgresql+asyncpg://livemenu:livemenu@db:5432/livemenu" = .ok s.databaseUrl ∧
    E.strField "JWT_SECRET" "change-me-in-production" = .ok s.jwtSecret ∧
    E.strField "IP_HASH_SALT" "change-me-too" = .ok s.ipHashSalt ∧
    s.gcpProjectId = truthy (E.explicit "GCP_PROJECT_ID") := by
  simp only [Settings.load, Except.bind_eq_ok_iff]
  constructor
  · rintro ⟨url, hurl, jwt, hjwt, salt, hsalt, h⟩
    split at h
    · rename_i hvalid
      cases h
      exact ⟨hvalid, hurl, hjwt, hsalt, rfl⟩
    · cases h
  · rintro ⟨hvalid, hurl, hjwt, hsalt, hproject⟩
    refine ⟨_, hurl, _, hjwt, _, hsalt, ?_⟩
    rw [if_pos hvalid, ← hproject]
    rfl

lemma Settings.exists_load_eq_ok : (∃ s, Settings.load E = .ok s) ↔ E.Loads := by
  constructor
  · rintro ⟨s, hs⟩
    obtain ⟨hvalid, hurl, hjwt, hsalt, -⟩ := Settings.load_eq_ok.mp hs
    exact ⟨hvalid, Environment.exists_strField_eq_ok.mp ⟨_, hjwt⟩,
      Environment.exists_strField_eq_ok.mp ⟨_, hsalt⟩,
      Environment.exists_textField_eq_ok.mp ⟨_, hurl⟩⟩
  · rintro ⟨hvalid, hjwt, hsalt, hurl⟩
    obtain ⟨jwt, hjwt⟩ := Environment.exists_strField_eq_ok.mpr hjwt
    obtain ⟨salt, hsalt⟩ := Environment.exists_strField_eq_ok.mpr hsalt
    obtain ⟨url, hurl⟩ := Environment.exists_textField_eq_ok.mpr hurl
    exact ⟨⟨_, url, jwt, salt⟩, Settings.load_eq_ok.mpr ⟨hvalid, hurl, hjwt, hsalt, rfl⟩⟩

/-- The secrets that `_build_settings` asks for. -/
def secretNames : List String := ["JWT_SECRET", "IP_HASH_SALT", "DATABASE_URL"]

/-- The settings on GCP are those of `Settings()` with the secrets laid over them. -/
lemma buildSettings_eq_ok_of_onGcp {s₀ : Settings} (hload : Settings.load E = .ok s₀)
    (hgcp : E.OnGcp) {s : Settings} : buildSettings E = .ok s ↔
      (∀ name ∈ secretNames, ¬ E.Raises name) ∧
      s = { gcpProjectId := s₀.gcpProjectId
            databaseUrl := E.overlay "DATABASE_URL" s₀.databaseUrl
            jwtSecret := E.overlay "JWT_SECRET" s₀.jwtSecret
            ipHashSalt := E.overlay "IP_HASH_SALT" s₀.ipHashSalt } := by
  have hproject := (Settings.load_eq_ok.mp hload).2.2.2.2
  obtain ⟨projectId, hp⟩ := Option.ne_none_iff_exists'.mp hgcp
  rw [hp] at hproject
  simp only [buildSettings, Except.bind_eq_ok_iff, hload, Except.ok.injEq, exists_eq_left',
    hproject, getSecret_eq_ok, secretNames, List.forall_mem_cons]
  constructor
  · rintro ⟨jwt, ⟨hjwt, rfl⟩, salt, ⟨hsalt, rfl⟩, url, ⟨hurl, rfl⟩, h⟩
    cases h
    exact ⟨⟨hjwt, hsalt, hurl, by simp⟩, rfl⟩
  · rintro ⟨⟨hjwt, hsalt, hurl, -⟩, rfl⟩
    exact ⟨_, ⟨hjwt, rfl⟩, _, ⟨hsalt, rfl⟩, _, ⟨hurl, rfl⟩, rfl⟩

lemma buildSettings_gcpProjectId {s : Settings} (h : buildSettings E = .ok s)
    (hproject : s.gcpProjectId ≠ none) : ∃ s₀, Settings.load E = .ok s₀ ∧ E.OnGcp := by
  obtain ⟨s₀, hload, hrest⟩ := Except.bind_eq_ok_iff.mp h
  have hsame := (Settings.load_eq_ok.mp hload).2.2.2.2
  refine ⟨s₀, hload, ?_⟩
  rw [Environment.OnGcp, ← hsame]
  intro hnone
  rw [hnone] at hrest
  cases hrest
  exact hproject hnone

/-- On GCP the signing key and the salt come from a source unless the process can be built with one
of them missing from every source. -/
theorem buildSettings_signing_keys_iff (E : Environment) :
    (∀ s, buildSettings E = .ok s → s.gcpProjectId ≠ none →
      E.FromSource "JWT_SECRET" s.jwtSecret ∧ E.FromSource "IP_HASH_SALT" s.ipHashSalt) ↔
    ¬ E.Loads ∨ ¬ E.OnGcp ∨ (∃ name ∈ secretNames, E.Raises name) ∨
      E.Supplied "JWT_SECRET" ∧ E.Supplied "IP_HASH_SALT" := by
  by_cases hload : E.Loads
  swap
  · refine iff_of_true ?_ (.inl hload)
    intro s hs hproject
    obtain ⟨s₀, hs₀, -⟩ := buildSettings_gcpProjectId hs hproject
    exact absurd (Settings.exists_load_eq_ok.mp ⟨s₀, hs₀⟩) hload
  by_cases hgcp : E.OnGcp
  swap
  · refine iff_of_true ?_ (.inr (.inl hgcp))
    intro s hs hproject
    obtain ⟨-, -, hon⟩ := buildSettings_gcpProjectId hs hproject
    exact absurd hon hgcp
  obtain ⟨s₀, hs₀⟩ := Settings.exists_load_eq_ok.mpr hload
  by_cases hraises : ∃ name ∈ secretNames, E.Raises name
  · refine iff_of_true ?_ (.inr (.inr (.inl hraises)))
    intro s hs _
    obtain ⟨name, hname, hr⟩ := hraises
    exact absurd hr (((buildSettings_eq_ok_of_onGcp hs₀ hgcp).mp hs).1 name hname)
  -- the settings are built, and what is left is each field for itself
  have hquiet : ∀ name ∈ secretNames, ¬ E.Raises name := by
    intro name hname hr
    exact hraises ⟨name, hname, hr⟩
  obtain ⟨-, -, hjwt, hsalt, hproject⟩ := Settings.load_eq_ok.mp hs₀
  have hjwt := Environment.fromSource_overlay_iff (by decide) hjwt
    (hquiet "JWT_SECRET" (by simp [secretNames]))
  have hsalt := Environment.fromSource_overlay_iff (by decide) hsalt
    (hquiet "IP_HASH_SALT" (by simp [secretNames]))
  simp only [hload, hgcp, hraises, not_true_eq_false, false_or]
  rw [← hjwt, ← hsalt]
  constructor
  · intro h
    refine h _ ((buildSettings_eq_ok_of_onGcp hs₀ hgcp).mpr ⟨hquiet, rfl⟩) ?_
    rw [hproject]
    exact hgcp
  · intro h s hs _
    obtain ⟨-, rfl⟩ := (buildSettings_eq_ok_of_onGcp hs₀ hgcp).mp hs
    exact h

/-- A process on GCP whose secrets have not been created. -/
def withoutSecrets : Environment where
  environ := [("GCP_PROJECT_ID", "livemenu")]
  names := by decide
  dotenv := []
  postgresDsn := fun _ => true
  othersValid := true
  secretManager := ⟨.installed, fun _ => false, fun _ => none⟩

/-- It starts, and signs with the key of the source code. -/
theorem signing_key_without_secrets : ∃ s, buildSettings withoutSecrets = .ok s ∧
    s.gcpProjectId = some "livemenu" ∧ s.jwtSecret = "change-me-in-production" ∧
    s.ipHashSalt = "change-me-too" ∧
    ¬ withoutSecrets.FromSource "JWT_SECRET" s.jwtSecret := by
  refine ⟨⟨some "livemenu", "postgresql+asyncpg://livemenu:livemenu@db:5432/livemenu",
    "change-me-in-production", "change-me-too"⟩, by decide +kernel, rfl, rfl, rfl, ?_⟩
  rintro (⟨projectId, -, hfetch⟩ | hexplicit | hgetenv)
  · cases hfetch
  · revert hexplicit
    decide +kernel
  · revert hgetenv
    decide +kernel

end LiveMenu

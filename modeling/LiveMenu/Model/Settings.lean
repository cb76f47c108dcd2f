import LiveMenu.Model.Slug
import LiveMenu.Model.Storage

/-!
# Settings and secrets

`_build_settings` of `config.py` on the layers it resolves a field through: `os.environ`, the `.env`
file, the default in the code, and the secrets of `secrets.py`.
-/

namespace LiveMenu

/-- The package of the Secret Manager client. -/
inductive ClientLibrary where
  | installed
  /-- Its import raises `ImportError`. -/
  | missing
  /-- Its import raises another exception. -/
  | broken
  deriving DecidableEq

/-- How Secret Manager behaves: whether the client for a secret can be made, and the text of the
latest version of a resource, if there is one that can be read and decoded. -/
structure SecretManager where
  library : ClientLibrary
  clientFails : String → Bool
  accessSecretVersion : String → Option String

/-- What the settings of a process are built from. -/
structure Environment where
  /-- `os.environ`, in order. -/
  environ : List (String × String)
  names : (environ.map Prod.fst).Nodup
  /-- What `dotenv_values` reads from `.env`, in order; a name without an equals sign has no
  value. -/
  dotenv : List (String × Option String)
  /-- The texts that `PostgresDsn` accepts. -/
  postgresDsn : String → Bool
  /-- The values of the fields that are not modelled pass their checks. -/
  othersValid : Bool
  secretManager : SecretManager

inductive SettingsExc where
  /-- `ValidationError` of `Settings()`. -/
  | validation
  /-- An exception of the import of the client library. -/
  | library
  /-- An exception of the constructor of the client. -/
  | client
  deriving DecidableEq

namespace Environment

variable (E : Environment)

/-- `os.getenv(name)`. -/
def getenv (name : String) : Option String :=
  (E.environ.find? fun v => v.1 = name).map Prod.snd

/-- Variables are matched in lower case. -/
def named (name key : String) : Bool := lower key.toList = lower name.toList

/-- What the environment gives for a field, the last variable of its name first, else what `.env`
gives. -/
def explicit (name : String) : Option String :=
  match (E.environ.filter fun v => named name v.1).getLast? with
  | some v  => some v.2
  | none    => ((E.dotenv.filter fun v => named name v.1).getLast?).bind Prod.snd

/-- A field whose type accepts some texts. An empty value is `None` (`env_parse_none_str`), which is
no text. -/
def textField (accepts : String → Bool) (name default : String) : Except SettingsExc String :=
  match E.explicit name with
  | none    => .ok default
  | some v  => if v ≠ "" ∧ accepts v then .ok v else .error .validation

/-- A field of type `str`. -/
def strField (name default : String) : Except SettingsExc String :=
  E.textField (fun _ => true) name default

end Environment

/-! ### `secrets.py` -/

/-- `_fetch_from_secret_manager`. -/
def fetchFromSecretManager (M : SecretManager) (secretName projectId : String) :
    Except SettingsExc (Option String) :=
  match M.library with
  | .missing    => .ok none
  | .broken     => .error .library
  | .installed  =>
    if M.clientFails secretName then .error .client
    else .ok (M.accessSecretVersion
      ("projects/" ++ projectId ++ "/secrets/" ++ secretName ++ "/versions/latest"))

/-- `_gcp_project_id`. -/
def gcpProjectId (E : Environment) : Option String := truthy (E.getenv "GCP_PROJECT_ID")

/-- `get_secret`, without a default. -/
def getSecret (E : Environment) (name : String) : Except SettingsExc (Option String) := do
  match gcpProjectId E with
  | some projectId =>
    match ← fetchFromSecretManager E.secretManager name projectId with
    | some value  => return some value
    | none        => return E.getenv name
  | none => return E.getenv name

/-! ### `config.py` -/

/-- The fields that `_build_settings` reads or sets. -/
structure Settings where
  gcpProjectId : Option String
  databaseUrl : String
  jwtSecret : String
  ipHashSalt : String
  deriving DecidableEq

/-- `Settings()`. -/
def Settings.load (E : Environment) : Except SettingsExc Settings := do
  let databaseUrl ← E.textField E.postgresDsn "DATABASE_URL"
    "postgresql+asyncpg://livemenu:livemenu@db:5432/livemenu"
  let jwtSecret ← E.strField "JWT_SECRET" "change-me-in-production"
  let ipHashSalt ← E.strField "IP_HASH_SALT" "change-me-too"
  if E.othersValid then
    return ⟨truthy (E.explicit "GCP_PROJECT_ID"), databaseUrl, jwtSecret, ipHashSalt⟩
  else .error .validation

/-- `_build_settings`. -/
def buildSettings (E : Environment) : Except SettingsExc Settings := do
  let s ← Settings.load E
  match s.gcpProjectId with
  | none => return s
  | some _ =>
    let jwt ← getSecret E "JWT_SECRET"
    let s := { s with jwtSecret := (truthy jwt).getD s.jwtSecret }
    let salt ← getSecret E "IP_HASH_SALT"
    let s := { s with ipHashSalt := (truthy salt).getD s.ipHashSalt }
    let dbUrl ← getSecret E "DATABASE_URL"
    return { s with databaseUrl := (truthy dbUrl).getD s.databaseUrl }

end LiveMenu

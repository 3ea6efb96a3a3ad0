import Evenscribe.Config
import Evenscribe.Serializer.Numbers

/-!
# The options of the ClickHouse client

`Clickhouse::run` sets four options from the configuration. The port becomes a
`uint16_t` on the way, and the default database stays what it was. It also asks for TLS,
which a client library that was built without OpenSSL answers with an exception.
-/

namespace Evenscribe

/-- `clickhouse::ClientOptions::SSLOptions`. -/
structure SSLOptions where
  /-- A pointer, null unless a context is given. -/
  sslContext : Option ℕ := none
  useDefaultCALocations : Bool := true
  pathToCAFiles : List Text := []
  pathToCADirectory : Text := []
  minProtocolVersion : Int32 := -1
  maxProtocolVersion : Int32 := -1
  contextOptions : Int32 := -1
  useSni : Bool := true
  skipVerification : Bool := false
  hostFlags : Int32 := -1
  /-- Commands with their values. -/
  configuration : List (Text × Option Text) := []
  deriving DecidableEq

/-- The options of `clickhouse::ClientOptions` that say what to connect to, and how. -/
@[ext] structure ClientOptions where
  host : Text := []
  port : UInt16 := 9000
  defaultDatabase : Text := text "default"
  user : Text := text "default"
  password : Text := []
  sslOptions : Option SSLOptions := none
  deriving DecidableEq

namespace ClientOptions

/-- `SetHost`. -/
def setHost (options : ClientOptions) (value : Text) : ClientOptions :=
  { options with host := value }

/-- `SetPort`. -/
def setPort (options : ClientOptions) (value : UInt16) : ClientOptions :=
  { options with port := value }

/-- `SetUser`. -/
def setUser (options : ClientOptions) (value : Text) : ClientOptions :=
  { options with user := value }

/-- `SetPassword`. -/
def setPassword (options : ClientOptions) (value : Text) : ClientOptions :=
  { options with password := value }

/-- `SetSSLOptions`, which throws unless the library was built with `WITH_OPENSSL`. -/
def setSSLOptions (withOpenssl : Bool) (options : ClientOptions) (value : SSLOptions) :
    Except Text ClientOptions :=
  if withOpenssl then .ok { options with sslOptions := some value }
  else .error (text "Library was built with no SSL support")

end ClientOptions

/-- The options that `Clickhouse::run` builds, or what is thrown meanwhile. An `int` becomes
a `uint16_t` by its low bits. -/
def Config.clientOptions (withOpenssl : Bool) (config : Config) : Except Text ClientOptions :=
  ((((({} : ClientOptions).setHost config.host).setPort (UInt16.ofInt config.port.toInt)).setUser
    config.user).setPassword config.password).setSSLOptions withOpenssl {}

namespace Config

open CJSON Serializer

/-- The five fields of a file. -/
structure Settings where
  host : Option Text
  port : Option Double
  user : Option Text
  password : Option Text
  dbname : Option Text
  deriving DecidableEq

/-- The fields of a file that say where to connect, and as whom. -/
def Settings.server (settings : Settings) :
    Option Text × Option Double × Option Text × Option Text :=
  (settings.host, settings.port, settings.user, settings.password)

/-- The string under a name, if there is one. -/
def stringUnder (json : CJSON) (name : Text) : Option Text :=
  (firstNamed json name).bind fun item => if item.kind = .string then item.valuestring else none

/-- The number under a name, if there is one. -/
def numberUnder (json : CJSON) (name : Text) : Option Double :=
  (firstNamed json name).bind fun item =>
    if item.kind = .number then some item.valuedouble else none

/-- What a tree has under the five names. -/
def settings (json : CJSON) : Settings where
  host := stringUnder json (text "host")
  port := numberUnder json (text "port")
  user := stringUnder json (text "user")
  password := stringUnder json (text "password")
  dbname := stringUnder json (text "dbname")

/-- The string under a name is that of the first member of the name. -/
theorem stringUnder_eq_some {json : CJSON} {name value : Text} :
    stringUnder json name = some value ↔ StringMember json name value := by
  simp [stringUnder, StringMember, Option.bind_eq_some_iff]

/-- The number under a name is that of the first member of the name. -/
theorem numberUnder_eq_some {json : CJSON} {name : Text} {number : Double} :
    numberUnder json name = some number ↔ NumberMember json name number := by
  simp [numberUnder, NumberMember, Option.bind_eq_some_iff]

/-- A text that is accepted with ClickHouse as its database. -/
structure ClickhouseFile (target : Target) where
  jsonString : Text
  json : CJSON
  config : Config
  parsed : parse jsonString = some json
  accepted : deserializeJsonToConfig target jsonString = .ok config
  clickhouse : config.databaseKind = .clickhouse

namespace ClickhouseFile

variable {target : Target} (file : ClickhouseFile target)

/-- What the file has under the five names. -/
def settings : Settings := Config.settings file.json

/-- What the client is opened with. -/
def options (withOpenssl : Bool) : Except Text ClientOptions :=
  file.config.clientOptions withOpenssl

/-- Options say what settings say. -/
structure Carries (settings : Settings) (options : ClientOptions) : Prop where
  host : settings.host = some options.host
  port : settings.port = some (.finite options.port.toNat)
  user : settings.user = some options.user
  password : settings.password = some options.password
  dbname : ∀ dbname, settings.dbname = some dbname → options.defaultDatabase = dbname

/-- There are options for the file, and they say what it says. -/
def Carried (withOpenssl : Bool) : Prop :=
  ∃ options, file.options withOpenssl = .ok options ∧ Carries file.settings options

/-- The port is a port, and the database that is named is the default one. -/
structure Carriable : Prop where
  port : ∃ number : ℤ, file.settings.port = some (.finite number) ∧ 0 ≤ number ∧ number ≤ 65535
  dbname : ∀ dbname, file.settings.dbname = some dbname → dbname = text "default"

/-- The files name the same database, or both none, if they agree in everything else. -/
def NameAlike (first second : ClickhouseFile target) : Prop :=
  first.settings.server = second.settings.server → first.settings.dbname = second.settings.dbname

/-- The fields of the configuration are those of the file. -/
theorem describes : Describes target file.json file.config := by
  obtain ⟨json, parsed, describes⟩ := deserializeJsonToConfig_eq_ok.mp file.accepted
  obtain rfl := Option.some.inj (file.parsed.symm.trans parsed)
  exact describes

/-- The options, where there are any. `run` calls no setter of the default database. -/
def set : ClientOptions where
  host := file.config.host
  port := UInt16.ofInt file.config.port.toInt
  user := file.config.user
  password := file.config.password
  sslOptions := some {}

/-- There are options exactly with OpenSSL. -/
theorem options_eq_ok {withOpenssl : Bool} {options : ClientOptions} :
    file.options withOpenssl = .ok options ↔ withOpenssl = true ∧ options = file.set := by
  cases withOpenssl with
  | false => exact ⟨nofun, fun ⟨able, _⟩ => (Bool.false_ne_true able).elim⟩
  | true => exact ⟨fun same => ⟨rfl, (Except.ok.inj same).symm⟩, fun ⟨_, same⟩ => same ▸ rfl⟩

/-- A port is carried when it fits. -/
theorem settings_port {number : ℤ} (holds : file.settings.port = some (.finite number))
    (nonneg : 0 ≤ number) (small : number ≤ 65535) :
    file.settings.port = some (.finite file.set.port.toNat) := by
  obtain ⟨double, ported, converted⟩ := file.describes.port
  obtain rfl := (numberUnder_eq_some.mp holds).unique ported
  have exact : (target.toInt32 (.finite number)).toInt = number :=
    target.toInt32_intCast (by omega) (by omega)
  have kept : ((UInt16.ofInt number).toNat : ℤ) = number := by
    simp only [UInt16.ofInt, UInt16.toNat_ofNat']
    omega
  have same : file.set.port = UInt16.ofInt number := by
    change UInt16.ofInt file.config.port.toInt = _
    rw [← converted, exact]
  rw [holds, same, ← Int.cast_natCast, kept]

/-- What is set is what the file says when that can be carried. -/
theorem carries_iff_carriable : Carries file.settings file.set ↔ file.Carriable := by
  constructor
  · intro carried
    refine ⟨⟨file.set.port.toNat, ?_, by omega, ?_⟩, fun dbname named => ?_⟩
    · simpa using carried.port
    · have := file.set.port.toNat_lt
      omega
    · exact (carried.dbname dbname named).symm
  · rintro ⟨⟨number, holds, nonneg, small⟩, named⟩
    exact ⟨stringUnder_eq_some.mpr file.describes.host, file.settings_port holds nonneg small,
      stringUnder_eq_some.mpr file.describes.user, stringUnder_eq_some.mpr file.describes.password,
      fun dbname given => (named dbname given).symm⟩

/-- A file is carried exactly when the library has OpenSSL and the file can be carried. -/
theorem carried_iff {withOpenssl : Bool} :
    file.Carried withOpenssl ↔ withOpenssl = true ∧ file.Carriable := by
  simp only [Carried, options_eq_ok, ← carries_iff_carriable]
  constructor
  · rintro ⟨_, ⟨able, rfl⟩, carries⟩
    exact ⟨able, carries⟩
  · rintro ⟨able, carries⟩
    exact ⟨_, ⟨able, rfl⟩, carries⟩

/-- Carried files lead to the same options exactly when they agree in what is carried. -/
theorem set_eq_iff {first second : ClickhouseFile target} (one : Carries first.settings first.set)
    (other : Carries second.settings second.set) :
    first.set = second.set ↔ first.settings.server = second.settings.server := by
  simp only [Settings.server, one.host, other.host, one.port, other.port, one.user, other.user,
    one.password, other.password, Prod.mk.injEq, Option.some.injEq, Double.finite.injEq,
    Nat.cast_inj, UInt16.toNat_inj]
  constructor
  · intro same
    rw [same]
    exact ⟨rfl, rfl, rfl, rfl⟩
  · rintro ⟨host, port, user, password⟩
    exact ClientOptions.ext host port rfl user password rfl

/-- With OpenSSL, files lead to the same options exactly when the same is set. -/
theorem options_eq_iff {first second : ClickhouseFile target} :
    first.options true = second.options true ↔ first.set = second.set :=
  ⟨Except.ok.inj, congrArg Except.ok⟩

/-- **The client's parameters.** Two files reach their options, and different options
if they differ, exactly when the client library was built with OpenSSL, both have a port and
name no database but the default one, and if they agree in everything else both name it or
none does. -/
theorem carried_and_apart_iff (withOpenssl : Bool) (first second : ClickhouseFile target) :
    (first.Carried withOpenssl ∧ second.Carried withOpenssl ∧
        (first.settings ≠ second.settings →
          first.options withOpenssl ≠ second.options withOpenssl)) ↔
      withOpenssl = true ∧ first.Carriable ∧ second.Carriable ∧ NameAlike first second := by
  cases withOpenssl with
  | false => simp only [carried_iff, Bool.false_eq_true, false_and]
  | true =>
      simp only [carried_iff, true_and]
      refine and_congr_right fun one => and_congr_right fun other => ?_
      rw [not_imp_not, options_eq_iff, set_eq_iff (first.carries_iff_carriable.mpr one)
        (second.carries_iff_carriable.mpr other)]
      constructor
      · intro determined agree
        exact congrArg Settings.dbname (determined agree)
      · intro alike agree
        obtain ⟨host, port, user, password⟩ := by
          simpa only [Settings.server, Prod.mk.injEq] using agree
        exact (Settings.mk.injEq ..).mpr ⟨host, port, user, password, alike agree⟩

/-- A file with the port that is used with TLS, and no database of its own. -/
def secureText (host : Text) : Text :=
  text "\x7b\"database_kind\": \"clickhouse\", \"host\": \"" ++ host ++
    text "\", \"port\": 9440, \"user\": \"collector\", \"password\": \"secret\"\x7d"

/-- A client of that file connects with TLS. -/
def secure : ClickhouseFile .wrapping where
  jsonString := secureText (text "db")
  json := (parse (secureText (text "db"))).get (by decide +kernel)
  config := ⟨9440, text "db", text "collector", text "secret", [], .clickhouse⟩
  parsed := (Option.some_get _).symm
  accepted := by decide +kernel
  clickhouse := rfl

/-- The same file with another host. -/
def secureElsewhere : ClickhouseFile .wrapping where
  jsonString := secureText (text "db.example")
  json := (parse (secureText (text "db.example"))).get (by decide +kernel)
  config := ⟨9440, text "db.example", text "collector", text "secret", [], .clickhouse⟩
  parsed := (Option.some_get _).symm
  accepted := by decide +kernel
  clickhouse := rfl

/-- With OpenSSL both files reach their options, which differ. -/
theorem carried_and_apart_secure :
    secure.Carried true ∧ secureElsewhere.Carried true ∧
      (secure.settings ≠ secureElsewhere.settings →
        secure.options true ≠ secureElsewhere.options true) := by
  have carriable {file : ClickhouseFile .wrapping}
      (port : file.settings.port = some (.finite 9440)) (none : file.settings.dbname = none) :
      file.Carriable := by
    refine ⟨⟨9440, by exact_mod_cast port, by decide⟩, fun dbname named => ?_⟩
    exact absurd (none.symm.trans named) nofun
  exact (carried_and_apart_iff true secure secureElsewhere).mpr
    ⟨rfl, carriable (by decide +kernel) (by decide +kernel),
      carriable (by decide +kernel) (by decide +kernel),
      fun agree => absurd agree (by decide +kernel)⟩

/-- A file with a port that is none, and a database of its own. -/
def beyondText : Text :=
  text "\x7b\"database_kind\": \"clickhouse\", \"host\": \"db\", \"port\": 70000, " ++
    text "\"user\": \"collector\", \"password\": \"secret\", \"dbname\": \"logs\"\x7d"

/-- The file as it is accepted. -/
def beyond : ClickhouseFile .wrapping where
  jsonString := beyondText
  json := (parse beyondText).get (by decide +kernel)
  config := ⟨70000, text "db", text "collector", text "secret", [], .clickhouse⟩
  parsed := (Option.some_get _).symm
  accepted := by decide +kernel
  clickhouse := rfl

/-- With OpenSSL the client of that file connects to port 4464 of its host, and without it
there is no client. -/
theorem not_carried_beyond :
    ¬ ∃ withOpenssl : Bool, ∀ (target : Target) (first second : ClickhouseFile target),
      first.Carried withOpenssl ∧ second.Carried withOpenssl ∧
        (first.settings ≠ second.settings →
          first.options withOpenssl ≠ second.options withOpenssl) := by
  rintro ⟨withOpenssl, always⟩
  obtain ⟨options, built, carries⟩ := (always .wrapping beyond beyond).1
  obtain ⟨_, rfl⟩ := beyond.options_eq_ok.mp built
  exact absurd carries.port (by decide +kernel)

end ClickhouseFile

end Config

end Evenscribe

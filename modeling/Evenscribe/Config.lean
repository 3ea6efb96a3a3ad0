import Evenscribe.Json.ParseShape
import Evenscribe.Serializer.Message

/-!
# The configuration file

`deserializeJsonToConfig` reads one field after the other and exits at the first
that is missing or of another type. Which fields it reads depends on the database.
-/

namespace Evenscribe

/-- The databases that can be written to. -/
inductive DatabaseKind where
  | postgres
  | clickhouse
  deriving DecidableEq

/-- What a field of the file is asked to be. -/
inductive DataKind where
  | string
  | integer
  deriving DecidableEq

/-- What the program reads from its configuration file. -/
structure Config where
  port : Int32
  host : Text
  user : Text
  password : Text
  dbname : Text
  databaseKind : DatabaseKind
  deriving DecidableEq

namespace Config

open CJSON

/-- `database_kind_map`. -/
def databaseKindMap : List (Text × DatabaseKind) :=
  [(text "postgres", .postgres), (text "clickhouse", .clickhouse)]

/-- `get_database_kind`. An error is the text that `error` prints before it exits. -/
def getDatabaseKind (databaseKindString : Text) : Except Text DatabaseKind :=
  match databaseKindMap.lookup databaseKindString with
  | none => .error (text "evenscribe(config): invalid string for databse_kind")
  | some kind => .ok kind

/-- `get_json_field_value`, where a null pointer is neither a string nor a number. -/
def getJsonFieldValue (json : CJSON) (field : Text) (dataKind : DataKind) : Except Text CJSON :=
  let fieldValue := getObjectItemCaseSensitive json field
  match dataKind with
  | .string =>
      let errorMsg := text "evenscribe(config): " ++ field ++ text " is missing or not a string\n"
      match fieldValue with
      | none => .error errorMsg
      | some item =>
          if isString item = false ∨ item.valuestring = none then .error errorMsg else .ok item
  | .integer =>
      let errorMsg := text "evenscribe(config): " ++ field ++ text " is missing or not a number\n"
      match fieldValue with
      | none => .error errorMsg
      | some item => if isNumber item = false then .error errorMsg else .ok item

/-- The `valuestring` of a field, which is not null. -/
def stringField (json : CJSON) (field : Text) : Except Text Text :=
  (getJsonFieldValue json field .string).map fun item => item.valuestring.getD []

/-- The `valuedouble` of a field. -/
def numberField (json : CJSON) (field : Text) : Except Text Double :=
  (getJsonFieldValue json field .integer).map fun item => item.valuedouble

/-- `deserializeJsonToConfig`. An error is the text that `error` is called with. -/
def deserializeJsonToConfig (target : Target) (jsonString : Text) : Except Text Config :=
  match parse jsonString with
  | none => .error (text "evenscribe(config): error parsing config file\n")
  | some json => do
      let databaseKindString ← stringField json (text "database_kind")
      let databaseKind ← getDatabaseKind databaseKindString
      let host ← stringField json (text "host")
      let port ← numberField json (text "port")
      match databaseKind with
      | .postgres =>
          let user ← stringField json (text "user")
          let password ← stringField json (text "password")
          let dbname ← stringField json (text "dbname")
          .ok ⟨target.toInt32 port, host, user, password, dbname, .postgres⟩
      | .clickhouse =>
          let user ← stringField json (text "user")
          let password ← stringField json (text "password")
          .ok ⟨target.toInt32 port, host, user, password, [], .clickhouse⟩

open Serializer (StringMember NumberMember getObjectItemCaseSensitive_eq_firstNamed)

section Fields

variable {json : CJSON} {field : Text}

/-- A string is read exactly from a string member. -/
theorem stringField_eq_ok (wellFormed : WellFormed json) {value : Text} :
    stringField json field = .ok value ↔ StringMember json field value := by
  unfold stringField getJsonFieldValue StringMember
  rw [← getObjectItemCaseSensitive_eq_firstNamed wellFormed]
  cases found : getObjectItemCaseSensitive json field with
  | none => simp [Except.map]
  | some item =>
      by_cases kind : item.kind = .string
      · obtain ⟨content, holds⟩ :=
          (wellFormed.children item (mem_of_getObjectItem found).1).strings kind
        simp [Except.map, isString, kind, holds]
      · simp [Except.map, isString, kind]

/-- A number is read exactly from a number member. -/
theorem numberField_eq_ok (wellFormed : WellFormed json) {number : Double} :
    numberField json field = .ok number ↔ NumberMember json field number := by
  unfold numberField getJsonFieldValue NumberMember
  rw [← getObjectItemCaseSensitive_eq_firstNamed wellFormed]
  cases getObjectItemCaseSensitive json field with
  | none => simp [Except.map]
  | some item => by_cases kind : item.kind = .number <;> simp [Except.map, isNumber, kind]

end Fields

/-- A kind is found when its name is in the map. -/
theorem getDatabaseKind_eq_ok {databaseKindString : Text} {kind : DatabaseKind} :
    getDatabaseKind databaseKindString = .ok kind ↔
      databaseKindMap.lookup databaseKindString = some kind := by
  unfold getDatabaseKind
  cases databaseKindMap.lookup databaseKindString <;> simp

/-- A tree describes a configuration: the members it is read from. -/
structure Describes (target : Target) (json : CJSON) (config : Config) : Prop where
  databaseKind : ∃ name, StringMember json (text "database_kind") name ∧
    databaseKindMap.lookup name = some config.databaseKind
  host : StringMember json (text "host") config.host
  port : ∃ number, NumberMember json (text "port") number ∧ target.toInt32 number = config.port
  user : StringMember json (text "user") config.user
  password : StringMember json (text "password") config.password
  dbname : match config.databaseKind with
    | .postgres => StringMember json (text "dbname") config.dbname
    | .clickhouse => config.dbname = []

/-- **What a configuration is read from.** A text is accepted exactly when it parses
to a tree that describes the configuration. -/
theorem deserializeJsonToConfig_eq_ok {target : Target} {jsonString : Text} {config : Config} :
    deserializeJsonToConfig target jsonString = .ok config ↔
      ∃ json, parse jsonString = some json ∧ Describes target json config := by
  unfold deserializeJsonToConfig
  cases parsed : parse jsonString with
  | none => simp
  | some json =>
      have wellFormed := (parsedValue_parseWithLength parsed).wellFormed
      simp only [Serializer.bind_eq_ok, stringField_eq_ok wellFormed, getDatabaseKind_eq_ok,
        numberField_eq_ok wellFormed, Option.some.injEq, exists_eq_left']
      constructor
      · rintro ⟨name, named, kind, known, host, hosted, port, ported, rest⟩
        cases kind with
        | postgres =>
            simp only [Serializer.bind_eq_ok, stringField_eq_ok wellFormed] at rest
            obtain ⟨user, users, password, passwords, dbname, databases, built⟩ := rest
            obtain rfl := Except.ok.inj built
            exact ⟨⟨name, named, known⟩, hosted, ⟨port, ported, rfl⟩, users, passwords, databases⟩
        | clickhouse =>
            simp only [Serializer.bind_eq_ok, stringField_eq_ok wellFormed] at rest
            obtain ⟨user, users, password, passwords, built⟩ := rest
            obtain rfl := Except.ok.inj built
            exact ⟨⟨name, named, known⟩, hosted, ⟨port, ported, rfl⟩, users, passwords, rfl⟩
      · obtain ⟨port, host, user, password, dbname, kind⟩ := config
        rintro ⟨⟨name, named, known⟩, hosted, ⟨number, ported, rfl⟩, users, passwords, databases⟩
        refine ⟨name, named, kind, known, host, hosted, number, ported, ?_⟩
        cases kind with
        | postgres =>
            simp only [Serializer.bind_eq_ok, stringField_eq_ok wellFormed]
            exact ⟨user, users, password, passwords, dbname, databases, rfl⟩
        | clickhouse =>
            simp only [Serializer.bind_eq_ok, stringField_eq_ok wellFormed]
            obtain rfl : dbname = [] := databases
            exact ⟨user, users, password, passwords, rfl⟩

end Config

end Evenscribe

import Evenscribe.Config
import Evenscribe.Foundation.Marked

/-!
# The connection URI of PostgreSQL

`Postgres::run` splices the fields of the configuration into a URI, from which the
database library reads them again. They arrive exactly when none of them holds a
byte that means something else where it stands.
-/

namespace Evenscribe

open Marked

/-- `:`. -/
def colon : UInt8 := 58

/-- `@`. -/
def atSign : UInt8 := 64

/-- `?`. -/
def question : UInt8 := 63

/-- `db_connection_url`. -/
def Config.dbConnectionUrl (config : Config) : Text :=
  text "postgres://" ++ config.user ++ text ":" ++ config.password ++ text "@" ++ config.host ++
    text ":" ++ stdToString config.port.toInt ++ text "/" ++ config.dbname

namespace ConnectionUri

/-- `%` and two hexadecimal digits stand for a byte, but not for NUL. -/
def percentEscapes : Coding UInt8 where
  mark := percent
  sequence
    | high :: low :: rest =>
        (CJSON.hexDigit high).bind fun first => (CJSON.hexDigit low).bind fun second =>
          if 16 * first + second = 0 then none else some ((16 * first + second).toUInt8, rest)
    | _ => none
  shorter {rest symbol later} found := by
    rcases rest with _ | ⟨high, _ | ⟨low, rest⟩⟩
    · exact nomatch found
    · exact nomatch found
    · obtain ⟨first, _, found⟩ := Option.bind_eq_some_iff.mp found
      obtain ⟨second, _, found⟩ := Option.bind_eq_some_iff.mp found
      obtain ⟨_, pair⟩ := Option.ite_none_left_eq_some.mp found
      obtain ⟨_, rfl⟩ := Prod.mk.inj (Option.some.inj pair)
      simp only [List.length_cons]
      omega

/-- What a connection is opened with, as far as the URI says it. -/
structure Parameters where
  user : Option Text
  password : Option Text
  host : Option Text
  port : Option ℕ
  dbname : Option Text
  options : Option Text
  deriving DecidableEq

/-- The parts of a URI behind its scheme. A part that is not there is empty. -/
structure Parts where
  user : Text
  password : Text
  host : Text
  port : Text
  dbname : Text
  options : Option Text

/-- The user information ends at the first `@`, if that comes before any slash. -/
def userInfo (rest : Text) : Text × Text :=
  match cut atSign rest with
  | (_, none) => ([], rest)
  | (info, some address) => if slash ∈ info then ([], rest) else (info, address)

/-- The parts of what follows the scheme. -/
def readParts (rest : Text) : Parts :=
  let (info, address) := userInfo rest
  let (user, password) := cut colon info
  let (location, options) := cut question address
  let (server, dbname) := cut slash location
  let (host, port) := cut colon server
  ⟨user, password.getD [], host, port.getD [], dbname.getD [], options⟩

/-- A part that is not empty is decoded. -/
def component (part : Text) : Option (Option Text) :=
  if part = [] then some none else (percentEscapes.decode part).map some

/-- A port is a decimal number of its range. -/
def readPort (part : Text) : Option (Option ℕ) :=
  (component part).bind fun
    | none => some none
    | some digits =>
        if digits.all isDigit = true ∧ 1 ≤ digitsValue digits ∧ digitsValue digits ≤ 65535 then
          some (some (digitsValue digits))
        else none

/-- The URI grammar of the database library. -/
def readUri (uri : Text) : Option Parameters :=
  if text "postgres://" <+: uri then do
    let parts := readParts (uri.drop (text "postgres://").length)
    let user ← component parts.user
    let password ← component parts.password
    let host ← component parts.host
    let port ← readPort parts.port
    let dbname ← component parts.dbname
    some ⟨user, password, host, port, dbname, parts.options⟩
  else none

example : readUri (text "postgres://me:a%20b@db:5432/logs?x=1") =
    some ⟨some (text "me"), some (text "a b"), some (text "db"), some 5432, some (text "logs"),
      some (text "x=1")⟩ := by
  decide +kernel

/-- A component that is given is what its part decodes to. -/
theorem component_eq_some {part value : Text} (nonempty : value ≠ []) :
    component part = some (some value) ↔ percentEscapes.decode part = some value := by
  unfold component
  by_cases empty : part = []
  · subst empty
    simp [Ne.symm nonempty]
  · simp [empty]

section Splice

variable {credentials address other : Text}

/-- User information in front of an `@` is read from what was put there. -/
theorem userInfo_front (credentials address : Text) :
    (userInfo (credentials ++ atSign :: address)).1 <+: credentials := by
  unfold userInfo
  split
  · exact List.nil_prefix
  · next info rest found =>
      split
      · exact List.nil_prefix
      · exact prefix_of_cut found

/-- Credentials without a mark of their own end at the mark behind them. -/
theorem userInfo_spliced (noAt : atSign ∉ credentials) (noSlash : slash ∉ credentials)
    (address : Text) : userInfo (credentials ++ atSign :: address) = (credentials, address) := by
  rw [userInfo, cut_append noAt]
  exact if_neg noSlash

/-- User information is read whole exactly when it holds no `@` and no slash. -/
theorem userInfo_eq_iff (nonempty : credentials ≠ []) :
    userInfo (credentials ++ atSign :: address) = (credentials, other) ↔
      atSign ∉ credentials ∧ slash ∉ credentials ∧ other = address := by
  constructor
  · intro read
    unfold userInfo at read
    split at read
    · exact (nonempty (Prod.mk.inj read).1.symm).elim
    · next info rest found =>
        split at read
        · exact (nonempty (Prod.mk.inj read).1.symm).elim
        · next noSlash =>
            obtain ⟨rfl, rfl⟩ := Prod.mk.inj read
            obtain ⟨same, noAt⟩ := cut_eq_some.mp found
            have tails := List.append_cancel_left same
            exact ⟨noAt, noSlash, (List.cons.inj tails).2.symm⟩
  · rintro ⟨noAt, noSlash, rfl⟩
    exact userInfo_spliced noAt noSlash _

end Splice

/-- A user name and a password with a colon between them come out of a front of the
two exactly when it is the two and the colon is the first. -/
theorem credentials_eq_iff {info user password : Text}
    (isPrefix : info <+: user ++ colon :: password) (nonempty : password ≠ []) :
    (percentEscapes.decode (cut colon info).1 = some user ∧
        percentEscapes.decode ((cut colon info).2.getD []) = some password) ↔
      info = user ++ colon :: password ∧ colon ∉ user ∧ percent ∉ user ∧ percent ∉ password := by
  constructor
  · rintro ⟨userDecoded, passwordDecoded⟩
    rcases found : cut colon info with ⟨front, _ | back⟩
    · -- without a colon there is no password
      rw [found] at passwordDecoded
      exact (nonempty (Option.some.inj passwordDecoded).symm).elim
    · rw [found] at userDecoded passwordDecoded
      obtain ⟨rfl, noColon⟩ := cut_eq_some.mp found
      obtain ⟨rfl, rfl⟩ :=
        percentEscapes.eq_of_decode_spliced isPrefix userDecoded passwordDecoded
      exact ⟨rfl, noColon, percentEscapes.decode_eq_self_iff.mp userDecoded,
        percentEscapes.decode_eq_self_iff.mp passwordDecoded⟩
  · rintro ⟨rfl, noColon, userPlain, passwordPlain⟩
    rw [cut_append noColon]
    exact ⟨percentEscapes.decode_of_unmarked userPlain,
      percentEscapes.decode_of_unmarked passwordPlain⟩

/-- A URI is read part by part. -/
theorem readUri_eq_some {rest : Text} {parameters : Parameters} :
    readUri (text "postgres://" ++ rest) = some parameters ↔
      component (readParts rest).user = some parameters.user ∧
        component (readParts rest).password = some parameters.password ∧
        component (readParts rest).host = some parameters.host ∧
        readPort (readParts rest).port = some parameters.port ∧
        component (readParts rest).dbname = some parameters.dbname ∧
        (readParts rest).options = parameters.options := by
  obtain ⟨user, password, host, port, dbname, options⟩ := parameters
  rw [readUri, if_pos (List.prefix_append ..), List.drop_left]
  simp only [Option.bind_eq_bind, Option.bind_eq_some_iff, Option.some.injEq, Parameters.mk.injEq]
  constructor
  · rintro ⟨_, user, _, password, _, host, _, port, _, dbname, rfl, rfl, rfl, rfl, rfl, rfl⟩
    exact ⟨user, password, host, port, dbname, rfl⟩
  · rintro ⟨user, password, host, port, dbname, rfl⟩
    exact ⟨_, user, _, password, _, host, _, port, _, dbname, rfl, rfl, rfl, rfl, rfl, rfl⟩

section Address

variable {host port dbname : Text}

/-- The host, the port and the database are cut at their delimiters if the two first
parts hold none. -/
theorem address_cut (hostColon : colon ∉ host) (hostSlash : slash ∉ host)
    (portSlash : slash ∉ port) (dbname : Text) :
    cut slash (host ++ colon :: (port ++ slash :: dbname)) =
        (host ++ colon :: port, some dbname) ∧
      cut colon (host ++ colon :: port) = (host, some port) := by
  refine ⟨?_, cut_append hostColon port⟩
  rw [← List.cons_append, ← List.append_assoc]
  refine cut_append ?_ dbname
  simp [hostSlash, portSlash, show slash ≠ colon by decide]

/-- The parts of a URI whose user information is read whole and that has no options. -/
theorem readParts_of_userInfo {rest user password : Text}
    (info : userInfo rest = (user ++ colon :: password, host ++ colon :: (port ++ slash :: dbname)))
    (userColon : colon ∉ user) (hostColon : colon ∉ host) (hostSlash : slash ∉ host)
    (portSlash : slash ∉ port) (noOptions : question ∉ host ++ colon :: (port ++ slash :: dbname)) :
    readParts rest = ⟨user, password, host, port, dbname, none⟩ := by
  obtain ⟨server, name⟩ := address_cut hostColon hostSlash portSlash dbname
  simp only [readParts, info, cut_append userColon, cut_of_not_mem noOptions, server, name,
    Option.getD_some]

/-- A port in its range is written in digits. -/
theorem stdToString_port {number : ℤ} (positive : 1 ≤ number) :
    stdToString number = decimal number.toNat := by
  obtain ⟨natural, rfl⟩ := Int.eq_ofNat_of_zero_le (by omega : 0 ≤ number)
  rfl

theorem not_mem_decimal {number : ℕ} {byte : UInt8} (other : isDigit byte = false) :
    byte ∉ decimal number := fun member =>
  Bool.false_ne_true (other.symm.trans (isDigit_of_mem_decimal member))

/-- A port is read back. -/
theorem readPort_decimal {number : ℕ} (positive : 1 ≤ number) (small : number ≤ 65535) :
    readPort (decimal number) = some (some number) := by
  have decoded : component (decimal number) = some (some (decimal number)) :=
    (component_eq_some (decimal_ne_nil number)).mpr
      (percentEscapes.decode_of_unmarked (not_mem_decimal (by decide)))
  have digits : (decimal number).all isDigit = true :=
    List.all_eq_true.mpr fun byte member => isDigit_of_mem_decimal member
  rw [readPort, decoded, Option.bind_some]
  simp only [digits, digitsValue_decimal, positive, small, and_self, if_true]

end Address

end ConnectionUri

namespace Config

open ConnectionUri

/-- The parameters that a configuration asks for. -/
def parameters (config : Config) : Parameters :=
  ⟨some config.user, some config.password, some config.host, some config.port.toInt.toNat,
    some config.dbname, none⟩

/-- The URI of a configuration says what the configuration says, and no more. -/
def UriRoundTrips (config : Config) : Prop :=
  readUri config.dbConnectionUrl = some config.parameters

instance : DecidablePred UriRoundTrips := fun config =>
  inferInstanceAs (Decidable (readUri config.dbConnectionUrl = some config.parameters))

/-- No byte of a list occurs in a text. -/
def Lacks (bytes : Text) (marks : Text) : Prop := ∀ mark ∈ marks, mark ∉ bytes

instance (bytes marks : Text) : Decidable (Lacks bytes marks) :=
  inferInstanceAs (Decidable (∀ mark ∈ marks, mark ∉ bytes))

@[simp] theorem lacks_nil (bytes : Text) : Lacks bytes [] := fun _ member =>
  (List.not_mem_nil member).elim

@[simp] theorem lacks_cons {bytes marks : Text} {mark : UInt8} :
    Lacks bytes (mark :: marks) ↔ mark ∉ bytes ∧ Lacks bytes marks := List.forall_mem_cons

/-- A configuration that names a server: no field is empty, the host is a name, and
the port is one. -/
structure NamesServer (config : Config) : Prop where
  user : config.user ≠ []
  password : config.password ≠ []
  host : config.host ≠ []
  dbname : config.dbname ≠ []
  hostName : Lacks config.host [colon, slash, atSign]
  port : 1 ≤ config.port.toInt ∧ config.port.toInt ≤ 65535

/-- No field holds a byte that means something else where the field stands. -/
structure Unreserved (config : Config) : Prop where
  user : Lacks config.user [colon, atSign, slash, percent]
  password : Lacks config.password [atSign, slash, percent]
  host : Lacks config.host [question, percent]
  dbname : Lacks config.dbname [question, percent]

/-- The URI with its marks. -/
theorem dbConnectionUrl_eq (config : Config) :
    config.dbConnectionUrl = text "postgres://" ++ (config.user ++ colon :: config.password ++
      atSign :: (config.host ++ colon :: (stdToString config.port.toInt ++
        slash :: config.dbname))) := by
  have marks : text ":" = [colon] ∧ text "@" = [atSign] ∧ text "/" = [slash] := by decide
  simp only [dbConnectionUrl, marks, List.append_assoc, List.cons_append, List.nil_append]

section Spliced

variable {config : Config}

theorem portSlash : slash ∉ decimal config.port.toInt.toNat :=
  not_mem_decimal (by decide)

/-- What is read back whole holds no byte that means something else. -/
theorem unreserved_of_uriRoundTrips (names : NamesServer config)
    (roundTrips : UriRoundTrips config) : Unreserved config := by
  obtain ⟨hostColon, hostSlash, -⟩ := by simpa using names.hostName
  rw [UriRoundTrips, dbConnectionUrl_eq, readUri_eq_some, stdToString_port names.port.1]
    at roundTrips
  simp only [parameters, component_eq_some names.user, component_eq_some names.password,
    component_eq_some names.host, component_eq_some names.dbname] at roundTrips
  obtain ⟨user, password, host, _, dbname, options⟩ := roundTrips
  -- what stands in the user information has to fill it
  obtain ⟨whole, userColon, userPercent, passwordPercent⟩ :=
    (credentials_eq_iff (userInfo_front ..) names.password).mp ⟨user, password⟩
  obtain ⟨noAt, noSlash, address⟩ :=
    (userInfo_eq_iff (List.append_ne_nil_of_left_ne_nil names.user _)).mp (Prod.ext whole rfl)
  -- nothing behind it may be taken for options
  have located := congrArg (fun location => (cut question location).2) address
  have noOptions := not_mem_of_cut (Prod.ext rfl (located.symm.trans options))
  rw [readParts_of_userInfo (Prod.ext whole address) userColon hostColon hostSlash portSlash
    noOptions] at host dbname
  have hostPercent := percentEscapes.decode_eq_self_iff.mp host
  have dbnamePercent := percentEscapes.decode_eq_self_iff.mp dbname
  simp only [List.mem_append, List.mem_cons, not_or] at noAt noSlash noOptions
  refine ⟨?_, ?_, ?_, ?_⟩ <;> simp only [lacks_cons, lacks_nil, and_true]
  · exact ⟨userColon, noAt.1, noSlash.1, userPercent⟩
  · exact ⟨noAt.2.2, noSlash.2.2, passwordPercent⟩
  · exact ⟨noOptions.1, hostPercent⟩
  · exact ⟨noOptions.2.2.2.2, dbnamePercent⟩

/-- Fields without bytes that mean something else are read back whole. -/
theorem uriRoundTrips_of_unreserved (names : NamesServer config) (unreserved : Unreserved config) :
    UriRoundTrips config := by
  obtain ⟨hostColon, hostSlash, -⟩ := by simpa using names.hostName
  obtain ⟨positive, small⟩ := names.port
  obtain ⟨user, password, host, dbname⟩ := unreserved
  simp only [lacks_cons, lacks_nil, and_true] at user password host dbname
  obtain ⟨userColon, userAt, userSlash, userPercent⟩ := user
  have portQuestion : question ∉ decimal config.port.toInt.toNat := not_mem_decimal (by decide)
  have noAt : atSign ∉ config.user ++ colon :: config.password := by
    simp only [List.mem_append, List.mem_cons, not_or]
    exact ⟨userAt, by decide, password.1⟩
  have noSlash : slash ∉ config.user ++ colon :: config.password := by
    simp only [List.mem_append, List.mem_cons, not_or]
    exact ⟨userSlash, by decide, password.2.1⟩
  have noOptions : question ∉ config.host ++ colon :: (decimal config.port.toInt.toNat ++
      slash :: config.dbname) := by
    simp only [List.mem_append, List.mem_cons, not_or]
    exact ⟨host.1, by decide, portQuestion, by decide, dbname.1⟩
  rw [UriRoundTrips, dbConnectionUrl_eq, readUri_eq_some, stdToString_port positive,
    readParts_of_userInfo (userInfo_spliced noAt noSlash _) userColon hostColon hostSlash portSlash
      noOptions]
  simp only [parameters, component_eq_some names.user, component_eq_some names.password,
    component_eq_some names.host, component_eq_some names.dbname]
  exact ⟨percentEscapes.decode_of_unmarked userPercent,
    percentEscapes.decode_of_unmarked password.2.2, percentEscapes.decode_of_unmarked host.2,
    readPort_decimal (by omega) (by omega), percentEscapes.decode_of_unmarked dbname.2, trivial⟩

end Spliced

/-- A text that is accepted with PostgreSQL as its database, and names a server. -/
structure PostgresFile (target : Target) where
  jsonString : Text
  config : Config
  accepted : deserializeJsonToConfig target jsonString = .ok config
  postgres : config.databaseKind = .postgres
  names : NamesServer config

namespace PostgresFile

/-- **The connection URI.** The parameters of an accepted configuration are read back
from its URI, and no others, exactly when no field holds a byte that means something
else where it stands. -/
theorem uriRoundTrips_iff {target : Target} (file : PostgresFile target) :
    file.config.UriRoundTrips ↔ file.config.Unreserved :=
  ⟨unreserved_of_uriRoundTrips file.names, uriRoundTrips_of_unreserved file.names⟩

/-- A file whose password has a colon in it, which means nothing else there. -/
def plain : PostgresFile .wrapping where
  jsonString :=
    text "\x7b\"database_kind\": \"postgres\", \"host\": \"db\", \"port\": 5432, " ++
      text "\"user\": \"collector\", \"password\": \"p:ss\", \"dbname\": \"logs\"\x7d"
  config := ⟨5432, text "db", text "collector", text "p:ss", text "logs", .postgres⟩
  accepted := by decide +kernel
  postgres := rfl
  names := ⟨by decide, by decide, by decide, by decide, by decide +kernel, by decide⟩

/-- The parameters of that file are read back. -/
theorem uriRoundTrips_plain : plain.config.UriRoundTrips :=
  (uriRoundTrips_iff plain).mpr
    ⟨by decide +kernel, by decide +kernel, by decide +kernel, by decide +kernel⟩

/-- A file whose password has an `@` in it. -/
def hidden : PostgresFile .wrapping where
  jsonString :=
    text "\x7b\"database_kind\": \"postgres\", \"host\": \"db\", \"port\": 5432, " ++
      text "\"user\": \"collector\", \"password\": \"p@ss\", \"dbname\": \"logs\"\x7d"
  config := ⟨5432, text "db", text "collector", text "p@ss", text "logs", .postgres⟩
  accepted := by decide +kernel
  postgres := rfl
  names := ⟨by decide, by decide, by decide, by decide, by decide +kernel, by decide⟩

/-- The client of that file sends the password `p` to the host `ss@db`. -/
theorem not_uriRoundTrips_hidden :
    ¬ ∀ (target : Target) (file : PostgresFile target), file.config.UriRoundTrips := by
  intro always
  exact absurd (always .wrapping hidden) (by decide +kernel)

end PostgresFile

end Config

end Evenscribe

import Evenscribe.Config
import Evenscribe.Json.Heap.ParseTree
import Evenscribe.Json.Heap.Read

/-!
# The configuration in memory

`deserializeJsonToConfig` with the tree it builds, reads and deletes. An error is a
call of `error`, which exits: the memory that is in use then is not given back by
the program.
-/

namespace Evenscribe.Config.Heap

open Allocation Separation Separation.Assertion CJSON.Heap

/-- A part of `deserializeJsonToConfig`, which may end in a call of `error`. -/
abbrev Reader := ExceptT Text (Action Cell)

/-- `get_database_kind`. -/
def getDatabaseKind (databaseKindString : Text) : Reader DatabaseKind :=
  ExceptT.mk (pure (Config.getDatabaseKind databaseKindString))

/-- The tree is deleted before `error` is called. -/
def giveUp (json : Item) (errorMsg : Text) : Reader Item := do
  json.delete
  throw errorMsg

/-- `get_json_field_value`. -/
def getJsonFieldValue (json : Item) (field : Text) (dataKind : DataKind) : Reader Item := do
  let fieldValue ← getObjectItemCaseSensitive json field
  match dataKind with
  | .string =>
      let errorMsg := text "evenscribe(config): " ++ field ++ text " is missing or not a string\n"
      if (← isString fieldValue) = false then giveUp json errorMsg
      else
        let node ← readNode fieldValue
        if node.valuestring = none then giveUp json errorMsg else return fieldValue
  | .integer =>
      let errorMsg := text "evenscribe(config): " ++ field ++ text " is missing or not a number\n"
      if (← isNumber fieldValue) = false then giveUp json errorMsg else return fieldValue

/-- The `valuestring` of a field. -/
def stringField (json : Item) (field : Text) : Reader Text := do
  let fieldValue ← getJsonFieldValue json field .string
  let node ← readNode fieldValue
  readString node.valuestring

/-- The `valuedouble` of a field. -/
def numberField (json : Item) (field : Text) : Reader Double := do
  let fieldValue ← getJsonFieldValue json field .integer
  let node ← readNode fieldValue
  return node.valuedouble

/-- The fields in the order in which they are read. -/
def readConfig (target : Target) (json : Item) : Reader Config := do
  let databaseKindString ← stringField json (text "database_kind")
  let databaseKind ← getDatabaseKind databaseKindString
  let host ← stringField json (text "host")
  let port ← numberField json (text "port")
  match databaseKind with
  | .postgres =>
      let user ← stringField json (text "user")
      let password ← stringField json (text "password")
      let dbname ← stringField json (text "dbname")
      return ⟨target.toInt32 port, host, user, password, dbname, .postgres⟩
  | .clickhouse =>
      let user ← stringField json (text "user")
      let password ← stringField json (text "password")
      return ⟨target.toInt32 port, host, user, password, [], .clickhouse⟩

/-- `deserializeJsonToConfig`, which deletes the tree before it returns. -/
def deserializeJsonToConfig (hooks : Malloc) (target : Target) (jsonString : Text) :
    Reader Config := do
  let json ← parse hooks jsonString
  if json = none then throw (text "evenscribe(config): error parsing config file\n")
  else
    let config ← readConfig target json
    json.delete
    return config

section Fields

variable {json : CJSON} {field : Text} {address : ℕ} {R : Assertion ℕ Cell} {store : Store Cell}

/-- How a field is found: as a node of the tree that is still there, or by an error behind
which nothing of the tree is left. -/
def Looks (R : Assertion ℕ Cell) (store : Store Cell) (program : Reader Item) :
    Except Text CJSON → Prop
  | .ok item => ∃ pointer, program.run.run store = pure (.ok pointer, store) ∧
      Found store.cells (some item) pointer
  | .error reason => ∃ after, program.run.run store = pure (.error reason, after) ∧
      R.On after.cells

/-- Giving up deletes the tree and ends in the error. -/
theorem looks_giveUp (part : (tree none none json address * R).On store.cells) (errorMsg : Text) :
    Looks R store (giveUp (some address) errorMsg) (.error errorMsg) := by
  rw [← segment_singleton] at part
  obtain ⟨_, after, ran, rest⟩ := triple_delete [json] R store part
  rw [one_mul] at rest
  exact ⟨after, run_lift ran, rest⟩

/-- A reading at the head changes nothing. -/
theorem Looks.lift {α : Type} {action : Action Cell α} {value : α} {body : α → Reader Item}
    {outcome : Except Text CJSON} (first : Reads store.cells action value)
    (rest : Looks R store (body value) outcome) :
    Looks R store (monadLift action >>= body) outcome := by
  have ran : (monadLift action >>= body : Reader Item).run.run store =
      (body value).run.run store := run_lift (first store rfl)
  cases outcome with
  | ok item =>
      obtain ⟨pointer, continued, finds⟩ := rest
      exact ⟨pointer, ran.trans continued, finds⟩
  | error reason =>
      obtain ⟨after, continued, rest⟩ := rest
      exact ⟨after, ran.trans continued, rest⟩

/-- A field is looked up in memory as it is in the tree. -/
theorem looks_getJsonFieldValue (field : Text) (dataKind : DataKind)
    (part : (tree none none json address * R).On store.cells) :
    Looks R store (getJsonFieldValue (some address) field dataKind)
      (Config.getJsonFieldValue json field dataKind) := by
  obtain ⟨pointer, lookup, finds⟩ :=
    reads_getObjectItemCaseSensitive field (present_of_within json ⟨R, part⟩)
  apply Looks.lift lookup
  unfold Config.getJsonFieldValue
  have tested : ∀ kind, Reads store.cells (isKind kind pointer) _ := fun kind => reads_isKind finds
  cases dataKind with
  | string =>
      apply Looks.lift (tested .string)
      cases found : CJSON.getObjectItemCaseSensitive json field with
      | none => exact looks_giveUp part _
      | some item =>
          rw [found] at finds
          obtain ⟨place, next, rfl, present⟩ := finds
          obtain ⟨node, here, _, shown⟩ := present_iff.mp present
          by_cases same : item.kind = .string
          · have isString : CJSON.isString item = true := decide_eq_true same
            simp only [Option.any_some, decide_eq_true same, isString, Bool.true_eq_false, if_false,
              false_or]
            apply Looks.lift (reads_readNode here)
            have nullIff := eq_none_iff_of_spelled shown.valuestring
            by_cases null : item.valuestring = none
            · rw [if_pos null, if_pos (nullIff.mpr null)]
              exact looks_giveUp part _
            · rw [if_neg null, if_neg (mt nullIff.mp null)]
              exact ⟨_, rfl, place, next, rfl, present⟩
          · have isString : CJSON.isString item = false := decide_eq_false same
            simp only [Option.any_some, decide_eq_false same, isString, true_or, if_true]
            exact looks_giveUp part _
  | integer =>
      apply Looks.lift (tested .number)
      cases found : CJSON.getObjectItemCaseSensitive json field with
      | none => exact looks_giveUp part _
      | some item =>
          rw [found] at finds
          by_cases same : item.kind = .number
          · have isNumber : CJSON.isNumber item = true := decide_eq_true same
            simp only [Option.any_some, decide_eq_true same, isNumber, Bool.true_eq_false, if_false]
            exact ⟨pointer, rfl, finds⟩
          · have isNumber : CJSON.isNumber item = false := decide_eq_false same
            simp only [Option.any_some, decide_eq_false same, isNumber, if_true]
            exact looks_giveUp part _

/-- What a field is used for, once it is found. -/
theorem yields_field {α : Type} {dataKind : DataKind} {read : Pointer → Reader α}
    {value : CJSON → α}
    (reads : ∀ cells item pointer, Config.getJsonFieldValue json field dataKind = .ok item →
      Found cells (some item) pointer → Reads cells (read pointer).run (.ok (value item))) :
    Yields (tree none none json address) (getJsonFieldValue (some address) field dataKind >>= read)
      ((Config.getJsonFieldValue json field dataKind).map value) := by
  intro R store part
  have looks := looks_getJsonFieldValue field dataKind part
  rw [ExceptT.run_bind, StateT.run_bind]
  cases outcome : Config.getJsonFieldValue json field dataKind with
  | ok item =>
      rw [outcome] at looks
      obtain ⟨pointer, ran, finds⟩ := looks
      refine ⟨.ok (value item), store, ?_, ?_⟩
      · rw [ran, pure_bind]
        exact reads _ item pointer outcome finds store rfl
      · rw [mul_assoc]
        exact fact_mul_on.mpr ⟨rfl, part⟩
  | error reason =>
      rw [outcome] at looks
      obtain ⟨after, ran, rest⟩ := looks
      refine ⟨.error reason, after, ?_, ?_⟩
      · rw [ran, pure_bind]
        rfl
      · rw [mul_assoc]
        refine fact_mul_on.mpr ⟨rfl, ?_⟩
        rw [← one_mul R] at rest
        exact le_iff.mp (mul_le_mul_left le_top R) _ rest

theorem yields_stringField : Yields (tree none none json address) (stringField (some address) field)
    (Config.stringField json field) := by
  apply yields_field
  intro cells item pointer accepted finds
  obtain ⟨place, next, rfl, present⟩ := finds
  obtain ⟨node, here, _, shown⟩ := present_iff.mp present
  obtain ⟨value, holds⟩ : ∃ value, item.valuestring = some value := by
    apply Option.ne_none_iff_exists'.mp
    intro null
    unfold Config.getJsonFieldValue at accepted
    cases found : CJSON.getObjectItemCaseSensitive json field with
    | none => simp [found] at accepted
    | some other =>
        simp only [found] at accepted
        by_cases refused : CJSON.isString other = false ∨ other.valuestring = none
        · rw [if_pos refused] at accepted
          exact nomatch accepted
        · rw [if_neg refused] at accepted
          obtain rfl := Except.ok.inj accepted
          exact refused (.inr null)
  have spelled := shown.valuestring
  rw [holds] at spelled ⊢
  exact Reads.lift (reads_readNode here) fun store same =>
    run_monadLift (reads_readString spelled store same)

theorem yields_numberField : Yields (tree none none json address) (numberField (some address) field)
    (Config.numberField json field) := by
  apply yields_field
  intro cells item pointer _ finds
  obtain ⟨place, next, rfl, present⟩ := finds
  obtain ⟨node, here, _, shown⟩ := present_iff.mp present
  rw [← shown.valuedouble]
  exact Reads.lift (reads_readNode here) Reads.ret

/-- The kind of the database is found without memory. -/
theorem yields_getDatabaseKind {P : Assertion ℕ Cell} {databaseKindString : Text} :
    Yields P (getDatabaseKind databaseKindString) (Config.getDatabaseKind databaseKindString) :=
  Yields.of_reads fun _ _ => Reads.ret

end Fields

section Runs

variable {hooks : Malloc} {target : Target}

/-- What `deserializeJsonToConfig` makes of a file: what it makes of the text, unless an
allocation is refused; then it may fail to parse it. -/
def Answers (hooks : Malloc) (target : Target) (jsonString : Text) (answer : Except Text Config) :
    Prop :=
  answer = Config.deserializeJsonToConfig target jsonString ∨
    ¬ hooks.Generous ∧ answer = .error (text "evenscribe(config): error parsing config file\n")

/-- The memory that is left: none, unless `error` was called. -/
def remains : Except Text Config → Assertion ℕ Cell
  | .ok _ => 1
  | .error _ => ⊤

/-- What `deserializeJsonToConfig` leaves behind. -/
theorem triple_deserializeJsonToConfig (hooks : Malloc) (target : Target) (jsonString : Text) :
    Triple 1 (deserializeJsonToConfig hooks target jsonString).run fun answer =>
      fact (Answers hooks target jsonString answer) * remains answer := by
  apply Triple.lift (triple_parseWithLength (cString jsonString ++ [0]))
  intro json
  cases json with
  | none =>
      rw [if_pos rfl, ← mul_one (grown hooks _ none)]
      refine Triple.fact_mul fun refused => Triple.ret ?_
      refine le_trans le_top (fact_mul_of (?_ : Answers hooks target jsonString _)).ge
      by_cases generous : hooks.Generous
      · exact .inl (by rw [Config.deserializeJsonToConfig, CJSON.parse, refused generous])
      · exact .inr ⟨generous, rfl⟩
  | some address =>
      refine Triple.iSup fun json => Triple.fact_mul fun parsed => ?_
      rw [if_neg (Option.some_ne_none _)]
      have reads : Yields (tree none none json address) (readConfig target (some address))
          (Config.deserializeJsonToConfig target jsonString) := by
        rw [Config.deserializeJsonToConfig, CJSON.parse, parsed]
        refine yields_stringField.follow fun _ _ => yields_getDatabaseKind.follow fun kind _ => ?_
        refine yields_stringField.follow fun _ _ => yields_numberField.follow fun _ _ => ?_
        cases kind with
        | postgres =>
            refine yields_stringField.follow fun _ _ => yields_stringField.follow fun _ _ => ?_
            exact yields_stringField.follow fun _ _ => Yields.of_reads fun _ _ => Reads.ret
        | clickhouse =>
            refine yields_stringField.follow fun _ _ => yields_stringField.follow fun _ _ => ?_
            exact Yields.of_reads fun _ _ => Reads.ret
      rw [ExceptT.run_bind]
      refine Triple.bind reads fun answer => Triple.fact_mul fun same => ?_
      cases answer with
      | ok config =>
          change Triple (tree none none json address) _ _
          rw [← segment_singleton]
          refine Triple.lift (triple_delete [json]) fun _ => Triple.ret (fact_mul_of ?_).ge
          exact .inl same
      | error reason => exact Triple.ret (fact_mul_of (.inl same)).ge

/-- **The configuration in memory.** Whatever is in the file, every access is to memory that
is in use and the program comes to the configuration or the error of the text. With a
configuration the memory in use is what it was at first. -/
theorem deserializeJsonToConfig_file (hooks : Malloc) (target : Target) (jsonString : Text)
    (store : Store Cell) :
    ∃ answer after,
      (deserializeJsonToConfig hooks target jsonString).run.run store = pure (answer, after) ∧
        Answers hooks target jsonString answer ∧
        ∀ config, answer = .ok config → after.cells = store.cells := by
  have start : (1 * exactly store.cells).On store.cells := by
    rw [one_mul]
    exact exactly_on.mpr rfl
  obtain ⟨answer, after, ran, part⟩ :=
    triple_deserializeJsonToConfig hooks target jsonString _ store start
  rw [mul_assoc] at part
  obtain ⟨answers, part⟩ := fact_mul_on.mp part
  refine ⟨answer, after, ran, answers, ?_⟩
  rintro config rfl
  rw [remains, one_mul] at part
  exact exactly_on.mp part

end Runs

end Evenscribe.Config.Heap

import Evenscribe.Text
import Evenscribe.Foundation.Directories

/-!
# Creating a path

`create_path_if_not_exists` cuts its buffer at every slash and makes sure of a
directory at each cut. It delivers the path it reports unless something other than a
directory is there already (`createPathIfNotExists_delivers_iff`), since
`create_directory` asks only whether there is anything.

A place is found by the names between the slashes. Relative paths start at the root,
and `.`, `..` and links are names like any other.
-/

namespace Evenscribe

open Directories (Grows ensure ensureAll)

/-- The types of files that `stat` reports. -/
inductive FileType where
  | fifo
  | characterDevice
  | directory
  | blockDevice
  | regular
  | socket
  deriving DecidableEq

/-- The type in `st_mode`. -/
def FileType.stMode : FileType → ℕ
  | .fifo => 0o010000
  | .characterDevice => 0o020000
  | .directory => 0o040000
  | .blockDevice => 0o060000
  | .regular => 0o100000
  | .socket => 0o140000

/-- What is where, as far as the program asks. -/
abbrev FileSystem := Directories.Tree Text FileType.directory

/-- The names on a path. Repeated and trailing slashes do not count. -/
def components (path : Text) : List Text := (path.splitOn slash).filter (· ≠ [])

/-- `stat`, with `none` for -1. -/
def stat (fs : FileSystem) (path : Text) : Option FileType :=
  if path = [] then none else fs.entry (components path)

/-- `S_IFDIR` is also a part of the types of block devices and sockets. -/
def fileExists (fs : FileSystem) (filename : Text) : Bool :=
  match stat fs filename with
  | none => false
  | some type => if type.stMode &&& 0o040000 ≠ 0 then false else true

/-- `S_ISDIR` compares the whole type. -/
def directoryExists (fs : FileSystem) (filename : Text) : Bool :=
  match stat fs filename with
  | none => false
  | some type => type.stMode &&& 0o170000 = 0o040000

/-- Where a directory of which mode may be made. -/
abbrev Permissions := FileSystem → List Text → ℕ → Bool

section Create

variable (permits : Permissions)

/-- `mkdir`, where an error changes nothing. -/
def mkdir (fs : FileSystem) (path : Text) (mode : ℕ) : ℤ × FileSystem :=
  if path = [] then (-1, fs)
  else
    match Directories.make (permits · · mode) fs (components path) with
    | some after => (0, after)
    | none => (-1, fs)

/-- `create_directory`: nothing is made where anything is. -/
def createDirectory (fs : FileSystem) (path : Text) : ℤ × FileSystem :=
  if stat fs path = none then
    let (code, after) := mkdir permits fs path 0o755
    if code ≠ 0 then (-1, after) else (0, after)
  else (0, fs)

/-- The loop with `tmp` split at `p`, and the call after it. -/
def createPathLoop (front : Text) : Text → FileSystem → ℤ × FileSystem
  -- `p` is past the buffer, which does not happen while a NUL is ahead
  | [], fs => createDirectory permits fs (cString front)
  | byte :: rest, fs =>
      if byte = 0 then createDirectory permits fs (cString (front ++ byte :: rest))
      else if byte = slash then
        let (code, after) := createDirectory permits fs (cString (front ++ 0 :: rest))
        if code ≠ 0 then (-1, after) else createPathLoop (front ++ [slash]) rest after
      else createPathLoop (front ++ [byte]) rest fs

/-- `create_path_if_not_exists`: the path is copied to a buffer of 256 bytes. -/
def createPathIfNotExists (fs : FileSystem) (path : Text) : ℤ × FileSystem :=
  let tmp := (cString path).take 255 ++ [0]
  let len := (cString tmp).length
  let tmp := if tmp[len - 1]? = some slash then tmp.set (len - 1) 0 else tmp
  createPathLoop permits (tmp.take 1) (tmp.drop 1) fs

end Create

section Look

variable {fs : FileSystem} {filename : Text}

/-- Only a directory counts as one. -/
theorem directoryExists_iff : directoryExists fs filename = true ↔
    stat fs filename = some .directory := by
  unfold directoryExists
  cases stat fs filename with
  | none => simp
  | some type => cases type <;> simp [FileType.stMode]

/-- Of what is there, block devices and sockets do not count as files. -/
theorem fileExists_iff : fileExists fs filename = true ↔
    ∃ type, stat fs filename = some type ∧
      type ≠ .directory ∧ type ≠ .blockDevice ∧ type ≠ .socket := by
  unfold fileExists
  cases stat fs filename with
  | none => simp
  | some type => cases type <;> simp [FileType.stMode]

/-- What `file_exists` finds is no directory, and `create_directory` is content with it. -/
theorem createDirectory_of_fileExists (permits : Permissions)
    (found : fileExists fs filename = true) :
    directoryExists fs filename = false ∧ createDirectory permits fs filename = (0, fs) := by
  obtain ⟨type, there, notDirectory, _⟩ := fileExists_iff.mp found
  constructor
  · by_contra directory
    have same := directoryExists_iff.mp (Bool.not_eq_false _ ▸ directory)
    exact notDirectory (Option.some.inj (there.symm.trans same))
  · exact if_neg (there ▸ Option.some_ne_none type)

end Look

section Components

example : components (text "/usr//lib/") = [text "usr", text "lib"] := by decide

@[simp] theorem components_append_slash (front rest : Text) :
    components (front ++ slash :: rest) = components front ++ components rest := by
  unfold components
  rw [List.splitOn_append_cons_self, List.filter_append]

@[simp] theorem components_nil : components [] = [] := by decide

theorem components_append_trailing (front : Text) :
    components (front ++ [slash]) = components front := by
  rw [components_append_slash, components_nil, List.append_nil]

/-- The places at which the loop cuts a path, and the path. -/
def cuts (front : Text) : Text → List (List Text)
  | [] => [components front]
  | byte :: rest =>
      if byte = slash then components front :: cuts (front ++ [byte]) rest
      else cuts (front ++ [byte]) rest

/-- Every cut is on the way to the path. -/
theorem isPrefix_of_mem_cuts {front rest : Text} {place : List Text}
    (member : place ∈ cuts front rest) : place <+: components (front ++ rest) := by
  induction rest generalizing front with
  | nil =>
      simp only [List.mem_singleton.mp member, List.append_nil, List.prefix_rfl]
  | cons byte rest ih =>
      rw [List.append_cons]
      unfold cuts at member
      split at member
      case isTrue same =>
        rcases List.mem_cons.mp member with rfl | later
        · rw [← List.append_cons, same, components_append_slash]
          exact List.prefix_append _ _
        · exact ih later
      case isFalse => exact ih member

/-- The last cut is the path. -/
theorem components_mem_cuts (front rest : Text) :
    components (front ++ rest) ∈ cuts front rest := by
  induction rest generalizing front with
  | nil =>
      rw [List.append_nil]
      exact List.mem_singleton_self _
  | cons byte rest ih =>
      rw [List.append_cons]
      unfold cuts
      split
      case isTrue => exact List.mem_cons_of_mem _ (ih _)
      case isFalse => exact ih _

end Components

section Loop

variable {permits : Permissions} {fs : FileSystem}

/-- The code for what became of making sure of places. -/
def reported : Bool × FileSystem → ℤ × FileSystem
  | (made, fs) => (if made then 0 else -1, fs)

theorem reported_eq_zero {result : Bool × FileSystem} :
    (reported result).1 = 0 ↔ result.1 = true := by
  rcases result with ⟨_ | _, after⟩ <;> simp [reported]

theorem reported_eq_neg_one {result : Bool × FileSystem} :
    (reported result).1 = -1 ↔ result.1 = false := by
  rcases result with ⟨_ | _, after⟩ <;> simp [reported]

/-- `create_directory` makes sure of a place. -/
theorem createDirectory_eq {path : Text} (nonempty : path ≠ []) :
    createDirectory permits fs path =
      reported (ensure (permits · · 0o755) fs (components path)) := by
  unfold createDirectory stat mkdir ensure
  rw [if_neg nonempty, if_neg nonempty]
  split
  · cases Directories.make (permits · · 0o755) fs (components path) <;> rfl
  · rfl

/-- The loop makes sure of one cut after the other. -/
theorem createPathLoop_eq {front rest : Text} (nonempty : front ≠ []) (terminated : 0 ∉ front)
    (plain : 0 ∉ rest) (junk : Text) :
    createPathLoop permits front (rest ++ 0 :: junk) fs =
      reported (ensureAll (permits · · 0o755) (cuts front rest) fs) := by
  induction rest generalizing front fs with
  | nil =>
      rw [List.nil_append, createPathLoop, if_pos rfl, cString_append_zero terminated,
        createDirectory_eq nonempty, cuts, ensureAll]
      rcases ensure (permits · · 0o755) fs (components front) with ⟨_ | _, after⟩ <;> rfl
  | cons byte rest ih =>
      obtain ⟨notNul, plain⟩ := List.ne_and_not_mem_of_not_mem_cons plain
      have longer : front ++ [byte] ≠ [] := List.append_ne_nil_of_right_ne_nil _ (by simp)
      have kept : 0 ∉ front ++ [byte] := by
        simp only [List.mem_append, List.mem_singleton, terminated, notNul, or_self,
          not_false_eq_true]
      have next (after : FileSystem) := @ih after _ longer kept plain
      rw [List.cons_append, createPathLoop, if_neg notNul.symm, cuts]
      by_cases same : byte = slash
      · rw [if_pos same, if_pos same, cString_append_zero terminated, createDirectory_eq nonempty,
          ensureAll, ← same]
        rcases ensure (permits · · 0o755) fs (components front) with ⟨_ | _, after⟩
        · rfl
        · exact next after
      · rw [if_neg same, if_neg same]
        exact next fs

end Loop

/-- An absolute path that names something, which takes two bytes, and fits the buffer. -/
structure AbsolutePath where
  bytes : Text
  absolute : bytes.head? = some slash
  terminated : 0 ∉ bytes
  length_le : bytes.length ≤ 255
  named : ∃ byte ∈ bytes, byte ≠ slash

namespace AbsolutePath

variable (path : AbsolutePath)

/-- The names that lead to the path. -/
def place : List Text := components path.bytes

/-- A path that names something has a first and a last byte. -/
theorem exists_bytes : ∃ middle last, path.bytes = slash :: middle ++ [last] := by
  obtain ⟨tail, whole⟩ := List.head?_eq_some_iff.mp path.absolute
  rcases List.eq_nil_or_concat tail with rfl | ⟨middle, last, rfl⟩
  · obtain ⟨byte, member, other⟩ := path.named
    rw [whole] at member
    exact absurd (List.mem_singleton.mp member) other
  · rw [List.concat_eq_append] at whole
    exact ⟨middle, last, whole⟩

end AbsolutePath

section Create

variable {permits : Permissions} {fs : FileSystem} {path : AbsolutePath}

/-- The loop runs over the path without its last byte, if that is a slash. -/
theorem createPathIfNotExists_bytes {middle : Text} {last : UInt8}
    (whole : path.bytes = slash :: middle ++ [last]) :
    createPathIfNotExists permits fs path.bytes =
      createPathLoop permits [slash]
        (if last = slash then middle ++ 0 :: [0] else middle ++ [last] ++ 0 :: []) fs := by
  have length : (slash :: middle ++ [last]).length - 1 = (slash :: middle).length := by
    rw [List.length_append, List.length_singleton, Nat.add_sub_cancel]
  have final : (slash :: middle ++ [last] ++ [0])[(slash :: middle).length]? = some last := by
    rw [List.append_assoc, List.getElem?_append_right (Nat.le_refl _), Nat.sub_self]
    rfl
  simp only [createPathIfNotExists, cString_eq_self path.terminated,
    List.take_of_length_le path.length_le, cString_append_zero path.terminated]
  simp only [whole, length, final, Option.some.injEq]
  split
  · rw [List.append_assoc, List.set_append_right _ _ (Nat.le_refl _), Nat.sub_self]
    rfl
  · rw [List.cons_append, List.cons_append]
    rfl

/-- The function makes sure of places on the way to the path, and of the path. -/
theorem createPathIfNotExists_eq (permits : Permissions) (fs : FileSystem) (path : AbsolutePath) :
    ∃ places, (∀ place ∈ places, place <+: path.place) ∧ path.place ∈ places ∧
      createPathIfNotExists permits fs path.bytes =
        reported (ensureAll (permits · · 0o755) places fs) := by
  obtain ⟨middle, last, whole⟩ := path.exists_bytes
  have terminated : 0 ∉ middle ++ [last] := fun member =>
    path.terminated (whole ▸ List.mem_cons_of_mem _ member)
  -- one trailing slash is cut off before the loop, which changes no name
  have enough : ∃ rest junk, 0 ∉ rest ∧ components (slash :: rest) = path.place ∧
      createPathIfNotExists permits fs path.bytes =
        createPathLoop permits [slash] (rest ++ 0 :: junk) fs := by
    rw [createPathIfNotExists_bytes whole, AbsolutePath.place, whole]
    split
    case isTrue same =>
      refine ⟨middle, [0], fun member => terminated (List.mem_append_left _ member), ?_, rfl⟩
      rw [same, components_append_trailing]
    case isFalse => exact ⟨middle ++ [last], [], terminated, rfl, rfl⟩
  obtain ⟨rest, junk, plain, same, run⟩ := enough
  refine ⟨cuts [slash] rest, ?_, ?_, ?_⟩
  · intro place member
    rw [← same]
    exact isPrefix_of_mem_cuts member
  · rw [← same]
    exact components_mem_cuts [slash] rest
  · rw [run]
    exact createPathLoop_eq (by simp) (by decide) plain junk

/-- The function delivers the path it reports: its code is 0 only with directories all
the way and -1 only where one could not be made, and nothing else is touched. -/
structure Delivers (permits : Permissions) (path : List Text) (before : FileSystem)
    (result : ℤ × FileSystem) : Prop where
  code : result.1 = 0 ∨ result.1 = -1
  delivered : result.1 = 0 → ∀ above, above <+: path → result.2.entry above = some .directory
  refused : result.1 = -1 → ∃ above, above <+: path ∧ result.2.entry above = none ∧
    Directories.make (permits · · 0o755) result.2 above = none
  grows : Grows path before result.2

/-- What is at the path is taken for a directory. -/
theorem createPathIfNotExists_of_blocked (blocked : ¬ fs.Unblocked path.place) :
    createPathIfNotExists permits fs path.bytes = (0, fs) := by
  obtain ⟨places, onWay, _, run⟩ := createPathIfNotExists_eq permits fs path
  rw [run, Directories.ensureAll_of_blocked onWay blocked]
  rfl

/-- The path is delivered where nothing but a directory is in its place. -/
theorem delivers_of_unblocked (unblocked : fs.Unblocked path.place) :
    Delivers permits path.place fs (createPathIfNotExists permits fs path.bytes) := by
  obtain ⟨places, onWay, goal, run⟩ := createPathIfNotExists_eq permits fs path
  have settled : Directories.Settles (permits · · 0o755) path.place places fs _ :=
    Directories.ensureAll_settles onWay
  rw [run]
  refine ⟨?_, fun success => ?_, fun failure => ?_, settled.grows⟩
  · rw [reported_eq_zero, reported_eq_neg_one]
    exact Bool.eq_false_or_eq_true _
  · exact (Directories.ensureAll_delivers_iff onWay goal (reported_eq_zero.mp success)).mpr
      unblocked
  · obtain ⟨place, member, refused⟩ := settled.refused (reported_eq_neg_one.mp failure)
    exact ⟨place, onWay place member, refused⟩

/-- The path is not delivered where something else is in its place. -/
theorem not_delivers_of_blocked (blocked : ¬ fs.Unblocked path.place) :
    ¬ Delivers permits path.place fs (createPathIfNotExists permits fs path.bytes) := by
  intro delivers
  rw [createPathIfNotExists_of_blocked blocked] at delivers
  exact blocked (.inr (delivers.delivered rfl _ List.prefix_rfl))

/-- **When the path is delivered.** Exactly when nothing but a directory was there. -/
theorem createPathIfNotExists_delivers_iff (permits : Permissions) (fs : FileSystem)
    (path : AbsolutePath) :
    Delivers permits path.place fs (createPathIfNotExists permits fs path.bytes) ↔
      fs.Unblocked path.place := by
  constructor
  · intro delivers
    by_contra blocked
    exact not_delivers_of_blocked blocked delivers
  · exact delivers_of_unblocked

/-- A home where a file is in the place of the services' directory. -/
def occupiedHome : FileSystem :=
  let root : FileSystem := Directories.Tree.bare.add [text "root"] .directory
    (by decide) (by decide)
  let config := root.add [text "root", text ".config"] .directory (by decide) (by decide)
  let systemd := config.add [text "root", text ".config", text "systemd"] .directory
    (by decide) (by decide)
  systemd.add [text "root", text ".config", text "systemd", text "user"] .regular
    (by decide) (by decide)

/-- The path that the services of root are written to. -/
def servicesOfRoot : AbsolutePath where
  bytes := text "/root/.config/systemd/user/"
  absolute := by decide
  terminated := by decide
  length_le := by decide
  named := ⟨114, by decide, by decide⟩

/-- A file in the place of the directory is reported as a success. -/
theorem not_delivers_occupied : ¬ ∀ (permits : Permissions) (fs : FileSystem)
    (path : AbsolutePath),
    Delivers permits path.place fs (createPathIfNotExists permits fs path.bytes) := by
  intro always
  have there : occupiedHome.entry servicesOfRoot.place = some .regular := by decide
  have blocked : ¬ occupiedHome.Unblocked servicesOfRoot.place := by
    rintro (absent | directory)
    · rw [there] at absent
      cases absent
    · rw [there] at directory
      cases directory
  exact not_delivers_of_blocked blocked (always (fun _ _ _ => true) occupiedHome servicesOfRoot)

/-- A success that `directory_exists` would have confirmed. -/
theorem directoryExists_createPathIfNotExists
    (made : (createPathIfNotExists permits fs path.bytes).1 = 0) :
    directoryExists (createPathIfNotExists permits fs path.bytes).2 path.bytes = true ↔
      fs.Unblocked path.place := by
  have nonempty : path.bytes ≠ [] := by
    obtain ⟨middle, last, whole⟩ := path.exists_bytes
    rw [whole]
    simp
  rw [directoryExists_iff, stat, if_neg nonempty]
  constructor
  · intro directory
    by_contra blocked
    rw [createPathIfNotExists_of_blocked blocked] at directory
    exact blocked (.inr directory)
  · intro unblocked
    exact (delivers_of_unblocked unblocked).delivered made _ List.prefix_rfl

end Create

section Service

/-- `create_service_path_linux`: the directory of the services in the home directory. -/
def createServicePathLinux (permits : Permissions) (fs : FileSystem) (home : Option Text) :
    Except Text Unit × FileSystem :=
  match home with
  | none => (.error (text "evenscribe: 'env HOME' not set! abort..\n"), fs)
  | some home =>
      let path := (home ++ text "/.config/systemd/user/").take 255
      let (code, after) := createPathIfNotExists permits fs path
      if code ≠ 0 then
        (.error (text "evenscribe: could not create path " ++ path ++ text "! abort..\n"), after)
      else (.ok (), after)

/-- A home directory whose services' path fits the buffer. -/
structure Home where
  bytes : Text
  absolute : bytes.head? = some slash
  terminated : 0 ∉ bytes
  length_le : bytes.length ≤ 233

namespace Home

variable (home : Home)

/-- The path that the services of a home are written to. -/
def servicePath : AbsolutePath where
  bytes := home.bytes ++ text "/.config/systemd/user/"
  absolute := by
    rw [List.head?_append, home.absolute]
    rfl
  terminated := by
    rw [List.mem_append, not_or]
    exact ⟨home.terminated, by decide⟩
  length_le := by
    have suffix : (text "/.config/systemd/user/").length = 22 := by decide
    have fits := home.length_le
    rw [List.length_append, suffix]
    omega
  named := ⟨46, List.mem_append_right _ (by decide), by decide⟩

theorem servicePath_place : home.servicePath.place =
    components home.bytes ++ [text ".config", text "systemd", text "user"] := by
  calc components (home.bytes ++ text "/.config/systemd/user/")
      = components (home.bytes ++ slash :: text ".config/systemd/user/") := by congr 1
    _ = components home.bytes ++ components (text ".config/systemd/user/") :=
      components_append_slash ..
    _ = components home.bytes ++ [text ".config", text "systemd", text "user"] := by congr 1

/-- The service directory is there when the program goes on, unless a file was in its
place. -/
theorem createServicePathLinux_delivers {permits : Permissions} {fs : FileSystem}
    (unblocked : fs.Unblocked home.servicePath.place)
    (goesOn : (createServicePathLinux permits fs (some home.bytes)).1 = .ok ()) :
    ∀ above, above <+: components home.bytes ++ [text ".config", text "systemd", text "user"] →
      (createServicePathLinux permits fs (some home.bytes)).2.entry above = some .directory := by
  have whole : (home.bytes ++ text "/.config/systemd/user/").take 255 = home.servicePath.bytes :=
    List.take_of_length_le home.servicePath.length_le
  have delivers : Delivers permits _ fs _ := delivers_of_unblocked unblocked
  unfold createServicePathLinux at goesOn ⊢
  simp only [whole] at goesOn ⊢
  split at goesOn
  case isTrue => cases goesOn
  case isFalse success =>
    rw [if_neg success, ← home.servicePath_place]
    exact delivers.delivered (not_not.mp success)

end Home

end Service

end Evenscribe

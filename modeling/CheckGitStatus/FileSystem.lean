import CheckGitStatus.Status

/-! # The file system that a scan sees

Both programs ask the system for the status of a path, with links followed, and for
the entries of a directory. A listing may end in an error, at once or after some
entries. The names in a listing are distinct and name one path component each, which
is part of the type.
-/

namespace CheckGitStatus

/-- A system error with its number and message. -/
structure ErrorCode where
  value : Nat
  message : Text
  deriving DecidableEq, Repr

/-- `ENOENT`. -/
def ErrorCode.isNoSuchFile (error : ErrorCode) : Bool :=
  error.value == 2

/-- `EINVAL`. -/
def ErrorCode.invalidArgument : ErrorCode where
  value := 22
  message := ascii "Invalid argument"

/-- What a path leads to; a status query tells no more. -/
inductive FileType where
  | directory
  | regular
  | other
  deriving DecidableEq, Repr

/-- What an entry is; a link comes with the status of what it leads to. -/
inductive EntryKind where
  | directory
  | file
  | link (target : Except ErrorCode FileType)

/-- An entry of a listing. -/
structure Entry where
  name : Text
  kind : EntryKind

/-- The separator of POSIX paths. -/
def slash : Byte := 47

/-- The name of a directory entry: one component other than `.` and `..`. -/
structure ValidName (name : Text) : Prop where
  nonempty : name ≠ []
  no_slash : slash ∉ name
  not_dot : name ≠ ascii "."
  not_dotdot : name ≠ ascii ".."

instance (name : Text) : Decidable (ValidName name) :=
  decidable_of_iff (name ≠ [] ∧ slash ∉ name ∧ name ≠ ascii "." ∧ name ≠ ascii "..")
    ⟨fun ⟨nonempty, noSlash, notDot, notDotdot⟩ => ⟨nonempty, noSlash, notDot, notDotdot⟩,
      fun valid => ⟨valid.nonempty, valid.no_slash, valid.not_dot, valid.not_dotdot⟩⟩

/-- The entries that a listing produces, and the error that ends it, if any. -/
structure Listing where
  entries : List Entry
  failure : Option ErrorCode := none
  names_valid : ∀ entry ∈ entries, ValidName entry.name
  names_nodup : (entries.map Entry.name).Nodup

theorem noNames_valid : ∀ entry ∈ ([] : List Entry), ValidName entry.name := by
  decide

theorem noNames_nodup : (([] : List Entry).map Entry.name).Nodup :=
  List.nodup_nil

/-- The listing of an empty directory. -/
def Listing.empty : Listing where
  entries := []
  names_valid := noNames_valid
  names_nodup := noNames_nodup

/-- What both programs ask of the system: the working directory, the status of a path with links
followed, and the listing of a directory. -/
structure FileSystem where
  currentPath : Except ErrorCode Path
  status : Path → Except ErrorCode FileType
  listing : Path → Listing

/-! ## Paths -/

/-- `path::filename`: what follows the last slash. -/
def filename (path : Path) : Text :=
  path.rtakeWhile fun byte => byte != slash

/-- `operator/` for a relative right side. -/
def joinPath (path : Path) (name : Text) : Path :=
  if filename path ≠ [] then path ++ slash :: name else path ++ name

/-- A path that ends in a name, or the file system's root. -/
def NoTrailingSeparator (path : Path) : Prop :=
  filename path ≠ [] ∨ path = [slash]

/-- What stands before the slash in paths below this one. -/
def stem (path : Path) : Text :=
  if path = [slash] then [] else path

/-- Joining puts one separator between a path and a name. -/
theorem joinPath_eq {path : Path} (bare : NoTrailingSeparator path) (name : Text) :
    joinPath path name = stem path ++ slash :: name := by
  unfold joinPath stem
  rcases bare with named | rfl
  · have notRoot : path ≠ [slash] := by
      rintro rfl
      exact named (by decide)
    rw [if_pos named, if_neg notRoot]
  · rw [if_neg (by decide), if_pos rfl]
    rfl

/-- Different names are joined to different paths. -/
theorem joinPath_right_injective (path : Path) : Function.Injective (joinPath path) := by
  intro left right same
  unfold joinPath at same
  split at same
  · rw [List.append_right_inj, List.cons_inj_right] at same
    exact same
  · exact List.append_cancel_left same

theorem stem_inj {left right : Path} (leftBare : NoTrailingSeparator left)
    (rightBare : NoTrailingSeparator right) (same : stem left = stem right) : left = right := by
  have nonempty : ∀ {path}, NoTrailingSeparator path → path ≠ [] := by
    rintro path (named | rfl)
    · rintro rfl
      exact named (by decide)
    · exact List.cons_ne_nil slash []
  unfold stem at same
  split at same <;> split at same
  · rename_i leftRoot rightRoot
    rw [leftRoot, rightRoot]
  · exact absurd same.symm (nonempty rightBare)
  · exact absurd same (nonempty leftBare)
  · exact same

/-- The last component of a path is its name. -/
theorem filename_joinPath (path : Path) {name : Text} (valid : ValidName name) :
    filename (joinPath path name) = name := by
  have inName : ∀ byte ∈ name.reverse, (byte != slash) = true := by
    intro byte inside
    rw [bne_iff_ne]
    rintro rfl
    exact valid.no_slash (List.mem_reverse.mp inside)
  unfold joinPath
  split
  · rw [filename, List.rtakeWhile, List.reverse_append, List.reverse_cons, List.append_assoc,
      List.singleton_append, List.takeWhile_append_of_pos inName, List.takeWhile_cons,
      bne_self_eq_false, if_neg Bool.false_ne_true, List.append_nil, List.reverse_reverse]
  · rename_i unnamed
    rw [not_not, filename, List.rtakeWhile, List.reverse_eq_nil_iff] at unnamed
    rw [filename, List.rtakeWhile, List.reverse_append, List.takeWhile_append_of_pos inName, unnamed,
      List.append_nil, List.reverse_reverse]

theorem noTrailingSeparator_joinPath (path : Path) {name : Text} (valid : ValidName name) :
    NoTrailingSeparator (joinPath path name) := by
  left
  rw [filename_joinPath path valid]
  exact valid.nonempty

/-- A path below another one determines its parent and its name. -/
theorem joinPath_inj {left right : Path} (leftBare : NoTrailingSeparator left)
    (rightBare : NoTrailingSeparator right) {leftName rightName : Text}
    (leftValid : ValidName leftName) (rightValid : ValidName rightName)
    (same : joinPath left leftName = joinPath right rightName) :
    left = right ∧ leftName = rightName := by
  have names : leftName = rightName := by
    rw [← filename_joinPath left leftValid, same, filename_joinPath right rightValid]
  refine ⟨stem_inj leftBare rightBare ?_, names⟩
  rw [joinPath_eq leftBare, joinPath_eq rightBare, names] at same
  exact List.append_cancel_right same

theorem length_lt_joinPath (path : Path) {name : Text} (valid : ValidName name) :
    path.length < (joinPath path name).length := by
  have named := List.length_pos_iff.mpr valid.nonempty
  unfold joinPath
  split
  · rw [List.length_append, List.length_cons]
    omega
  · rw [List.length_append]
    omega

/-! ## Scan roots and repositories -/

/-- `is_excluded_scan_directory`. -/
def isExcludedScanDirectory (path : Path) : Bool :=
  let name := filename path
  name == ascii "node_modules" || name == ascii "build"

namespace FileSystem

variable (files : FileSystem)

/-- The `.git` of a directory is inspected successfully as a directory or file. -/
def hasMarker (directory : Path) : Bool :=
  match files.status (joinPath directory (ascii ".git")) with
  | .ok .directory | .ok .regular => true
  | _ => false

/-- The listing of a directory produces a real directory with this name. -/
def ListsDirectory (directory : Path) (name : Text) : Prop :=
  ∃ entry ∈ (files.listing directory).entries, entry.name = name ∧ entry.kind = .directory

/-- The path that a chain of names leads to. -/
def descend (root : Path) (names : List Text) : Path :=
  names.foldl joinPath root

theorem descend_concat (root : Path) (front : List Text) (name : Text) :
    descend root (front ++ [name]) = joinPath (descend root front) name := by
  rw [descend, List.foldl_concat, ← descend]

/-- The directories below a root are finitely deep: no endless chain of real directories. -/
def Finite (root : Path) : Prop :=
  Acc (fun child parent => ∃ name, files.ListsDirectory parent name ∧
    child = joinPath parent name) root

/-- A chain of names along which the scan may go down: no directory on it is excluded,
every name is listed as a real directory, and none but the last directory has a
marker. -/
structure ScanChain (root : Path) (names : List Text) : Prop where
  included : ∀ front, front <+: names → isExcludedScanDirectory (descend root front) = false
  listed : ∀ front name, front ++ [name] <+: names →
    files.ListsDirectory (descend root front) name
  unmarked : ∀ front, front <+: names → front ≠ names →
    files.hasMarker (descend root front) = false

/-- A chain can be continued into a directory that is not a repository. -/
theorem ScanChain.concat {files : FileSystem} {root : Path} {names : List Text}
    (chain : files.ScanChain root names)
    (plain : files.hasMarker (descend root names) = false) {name : Text}
    (listed : files.ListsDirectory (descend root names) name)
    (included : isExcludedScanDirectory (descend root (names ++ [name])) = false) :
    files.ScanChain root (names ++ [name]) where
  included front isFront := by
    rcases List.prefix_concat_iff.mp isFront with rfl | shorter
    · exact included
    · exact chain.included front shorter
  listed front last isFront := by
    rcases List.prefix_concat_iff.mp isFront with same | shorter
    · obtain ⟨rfl, lasts⟩ := List.append_inj' same rfl
      cases lasts
      exact listed
    · exact chain.listed front last shorter
  unmarked front isFront notAll := by
    rcases List.prefix_concat_iff.mp isFront with same | shorter
    · exact absurd same notAll
    · by_cases all : front = names
      · rw [all]
        exact plain
      · exact chain.unmarked front shorter all

/-- The scan inspects this directory. -/
def Inspected (root directory : Path) : Prop :=
  ∃ names, directory = descend root names ∧ files.ScanChain root names

/-- A repository with no repository above it. -/
def IsTopRepository (root directory : Path) : Prop :=
  files.Inspected root directory ∧ files.hasMarker directory = true

end FileSystem

/-! ## Links -/

/-- What the status of a path is when links are followed, given the status when they are not. -/
inductive LeadsTo : Except ErrorCode EntryKind → Except ErrorCode FileType → Prop where
  | directory : LeadsTo (.ok .directory) (.ok .directory)
  | file (type : FileType) (plain : type ≠ .directory) : LeadsTo (.ok .file) (.ok type)
  | link (target : Except ErrorCode FileType) : LeadsTo (.ok (.link target)) target
  | error (error : ErrorCode) : LeadsTo (.error error) (.error error)

/-- A file system with `lstat`, in which a directory may be named with a
separator at the end. -/
structure PosixFileSystem extends FileSystem where
  currentPath_rooted : ∀ path, currentPath = .ok path → path.head? = some slash
  /-- The status of a path whose last component is not followed. -/
  symlinkStatus : Path → Except ErrorCode EntryKind
  leadsTo : ∀ path, LeadsTo (symlinkStatus path) (status path)
  status_separator : ∀ path, status path = .ok .directory →
    status (path ++ [slash]) = .ok .directory
  listing_separator : ∀ path, status path = .ok .directory →
    listing (path ++ [slash]) = listing path

/-- The status that the target of a link has, or that the entry itself has. -/
def EntryKind.followed : EntryKind → Except ErrorCode FileType
  | .directory => .ok .directory
  | .file => .ok .regular
  | .link target => target

/-- What an entry is followed to is a status it can lead to. -/
theorem leadsTo_followed (kind : Except ErrorCode EntryKind) :
    LeadsTo kind (kind.bind EntryKind.followed) := by
  cases kind with
  | error error => exact .error error
  | ok kind =>
      cases kind with
      | directory => exact .directory
      | file => exact .file .regular (by decide)
      | link target => exact .link target

/-- The entry that a status belongs to when no link is left to follow. -/
def FileType.entryKind : FileType → EntryKind
  | .directory => .directory
  | _ => .file

/-- A status is led to by an entry of its own type. -/
theorem leadsTo_of_followed (status : Except ErrorCode FileType) :
    LeadsTo (status.map FileType.entryKind) status := by
  cases status with
  | error error => exact .error error
  | ok type =>
      cases type with
      | directory => exact .directory
      | regular => exact .file .regular (by decide)
      | other => exact .file .other (by decide)

/-- The file system given by what is found and listed at paths without separators at the
end; that of the root is empty. -/
def PosixFileSystem.ofBare (current : Path) (rooted : current.head? = some slash)
    (kind : Path → Except ErrorCode EntryKind) (listing : Path → Listing) : PosixFileSystem where
  currentPath := .ok current
  status path := (kind (path.rdropWhile fun byte => byte == slash)).bind EntryKind.followed
  listing path := listing (path.rdropWhile fun byte => byte == slash)
  currentPath_rooted path same := by
    cases same
    exact rooted
  symlinkStatus path :=
    -- a separator at the end makes the system follow a link
    if filename path = [] then
      ((kind (path.rdropWhile fun byte => byte == slash)).bind EntryKind.followed).map
        FileType.entryKind
    else kind (path.rdropWhile fun byte => byte == slash)
  leadsTo path := by
    split
    · exact leadsTo_of_followed _
    · exact leadsTo_followed _
  status_separator path directory := by
    rw [List.rdropWhile_concat_pos _ _ _ (by decide)]
    exact directory
  listing_separator path _ := by
    rw [List.rdropWhile_concat_pos _ _ _ (by decide)]

/-- The path is that of a symbolic link. -/
def PosixFileSystem.IsLink (files : PosixFileSystem) (path : Path) : Prop :=
  ∃ target, files.symlinkStatus path = .ok (.link target)

/-- A directory that is no link is one without following links. -/
theorem PosixFileSystem.symlinkStatus_eq_directory {files : PosixFileSystem} {path : Path}
    (directory : files.status path = .ok .directory) (plain : ¬ files.IsLink path) :
    files.symlinkStatus path = .ok .directory := by
  have leads := files.leadsTo path
  rw [directory] at leads
  cases found : files.symlinkStatus path with
  | error error =>
      rw [found] at leads
      cases leads
  | ok kind =>
      cases kind with
      | directory => rfl
      | link target => exact absurd ⟨target, found⟩ plain
      | file =>
          rw [found] at leads
          cases leads with
          | file _ other => exact absurd rfl other

end CheckGitStatus

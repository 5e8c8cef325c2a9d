import QueryMix.Text.Blank

/-!
# `QueryMix.Directory`: a directory of files

A directory holds files by name and no directories of its own. A path is read from the
directory: its empty components and its `.` components say nothing. A path of no other
component is the directory itself, a path of one is a file, and a path of several leads
through a directory that is not there. Only a directory can be meant by a name with a slash
after it.

A file that has been written is found again with its bytes (`lookup?_insert`), and the bytes
of a text are read as that text (`text_bytesOfText`).
-/

set_option autoImplicit false

namespace QueryMix

/-- Why a file cannot be read or written. -/
inductive DiskFault where
  | notFound
  | notDirectory
  | isDirectory
  /-- The bytes of the file are no UTF-8 text. -/
  | notUnicode
  /-- Any other fault, in the words of the system. -/
  | other (message : String)
deriving DecidableEq, Repr

/-- The words of the system for the fault. -/
def DiskFault.message : DiskFault → String
  | notFound => "No such file or directory (os error 2)"
  | notDirectory => "Not a directory (os error 20)"
  | isDirectory => "Is a directory (os error 21)"
  | notUnicode => "stream did not contain valid UTF-8"
  | other message => message

/-- Files by name, in the order of the names. -/
structure Directory where
  files : List (Text × ByteArray)

namespace Directory

/-- A directory without files. -/
def empty : Directory := ⟨[]⟩

/-- What a path leads to. -/
inductive Place where
  /-- The directory itself. -/
  | self
  /-- A file of that name, which may not be there yet. -/
  | file (name : Text)
  /-- A directory of that name, which is not there; a file of that name may be. -/
  | folder (name : Text)
  /-- Nothing, for that reason. -/
  | nowhere (fault : DiskFault)
deriving DecidableEq, Repr

/-- The components of a path. -/
def components (path : Text) : List Text :=
  (path.splitOn '/').filter fun part => !part.isEmpty && part != ['.']

/-- The bytes of a file. -/
def lookup? (dir : Directory) (name : Text) : Option ByteArray := dir.files.lookup name

/-- Where a path leads. -/
def place (dir : Directory) (path : Text) : Place :=
  if path.isEmpty then .nowhere .notFound
  else
    match components path with
    | [] => .self
    | [name] => if path.getLast? = some '/' then .folder name else .file name
    | first :: _ => .nowhere (if (dir.lookup? first).isSome then .notDirectory else .notFound)

/-- Put a file into a list of files in the order of their names. -/
def insertFile (name : Text) (bytes : ByteArray) :
    List (Text × ByteArray) → List (Text × ByteArray)
  | [] => [(name, bytes)]
  | (other, content) :: rest =>
    match compare name other with
    | .lt => (name, bytes) :: (other, content) :: rest
    | .eq => (name, bytes) :: rest
    | .gt => (other, content) :: insertFile name bytes rest

/-- The directory with these bytes under the name. -/
def insert (dir : Directory) (name : Text) (bytes : ByteArray) : Directory :=
  ⟨insertFile name bytes dir.files⟩

/-- What is stored at a path. -/
inductive Stored where
  /-- Nothing that can be found, for that reason. -/
  | absent (fault : DiskFault)
  /-- A file with these bytes. -/
  | present (bytes : ByteArray)
  /-- Something that cannot be read, for that reason. -/
  | unreadable (fault : DiskFault)

/-- What is stored at a path of the directory. -/
def stored (dir : Directory) (path : Text) : Stored :=
  match dir.place path with
  | .self => .unreadable .isDirectory
  | .nowhere fault => .absent fault
  | .folder name => .absent (if (dir.lookup? name).isSome then .notDirectory else .notFound)
  | .file name =>
    match dir.lookup? name with
    | some bytes => .present bytes
    | none => .absent .notFound

/-- The text of a file. -/
def Stored.text : Stored → Except DiskFault Text
  | absent fault => .error fault
  | unreadable fault => .error fault
  | present bytes =>
    match String.fromUTF8? bytes with
    | some s => .ok s.toList
    | none => .error .notUnicode

/-- Write a file. -/
def write (dir : Directory) (path : Text) (bytes : ByteArray) : Except DiskFault Directory :=
  match dir.place path with
  | .self => .error .isDirectory
  | .nowhere fault => .error fault
  | .folder name =>
    .error (if (dir.lookup? name).isSome then .notDirectory else .isDirectory)
  | .file name => .ok (dir.insert name bytes)

/-- The bytes of a text in UTF-8. -/
def bytesOfText (t : Text) : ByteArray := (String.ofList t).toUTF8

/-- The bytes of a text are read as that text. -/
theorem text_bytesOfText (t : Text) : Stored.text (.present (bytesOfText t)) = .ok t := by
  have h : String.fromUTF8? (bytesOfText t) = some (String.ofList t) := by
    have hvalid : (bytesOfText t).IsValidUTF8 := (String.ofList t).isValidUTF8
    unfold String.fromUTF8?
    rw [dif_pos hvalid]
    rfl
  simp only [Stored.text, h, String.toList_ofList]

/-- A file that was put in is found with its bytes. -/
theorem lookup_insertFile (name : Text) (bytes : ByteArray) (files : List (Text × ByteArray)) :
    (insertFile name bytes files).lookup name = some bytes := by
  induction files with
  | nil => simp [insertFile]
  | cons entry rest ih =>
    obtain ⟨other, content⟩ := entry
    unfold insertFile
    split
    · simp
    · simp
    · next hgt =>
      have hne : (name == other) = false := by
        rw [beq_eq_false_iff_ne]
        rintro rfl
        simp [Std.ReflCmp.compare_self] at hgt
      rw [List.lookup_cons, hne]
      exact ih

/-- A file that has been written is found again. -/
theorem lookup?_insert (dir : Directory) (name : Text) (bytes : ByteArray) :
    (dir.insert name bytes).lookup? name = some bytes := lookup_insertFile name bytes dir.files

end Directory

end QueryMix

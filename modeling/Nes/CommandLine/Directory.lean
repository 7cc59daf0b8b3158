/-!
# Files in the working directory

A command line names files.  This module says what reading a path gives in a working directory that
holds files and no other directories: the bytes of a file, or why there are none.

A path with a NUL character never reaches the operating system, since its paths end there.  Any
other path is resolved component by component.  Empty components and single dots stay where they
are.  A component of more than 255 bytes is too long for any directory, a path of 4096 bytes or more
is too long altogether, and a path that goes on after a file does not name anything.  Of the
directories outside of the working directory nothing is known but that they exist.

## Main definitions

* `FileError`: why a file cannot be read.
* `Directory`, `Directory.read`.
-/

namespace Nes

/-- Why a file cannot be read: a text and, for an error of the operating system, its number. -/
structure FileError where
  /-- The text. -/
  text : String
  /-- The number, if the operating system was asked. -/
  code : Option Nat
  deriving DecidableEq, Repr

namespace FileError

/-- The wording of an error. -/
def message (e : FileError) : String :=
  match e.code with
  | some code => e.text ++ " (os error " ++ toString code ++ ")"
  | none => e.text

/-- There is nothing under the name. -/
def notFound : FileError := ⟨"No such file or directory", some 2⟩

/-- A file stands where a directory is needed. -/
def notADirectory : FileError := ⟨"Not a directory", some 20⟩

/-- A directory stands where a file is needed. -/
def isADirectory : FileError := ⟨"Is a directory", some 21⟩

/-- No directory can hold the name. -/
def nameTooLong : FileError := ⟨"File name too long", some 36⟩

/-- The path holds a NUL character. -/
def nulInPath : FileError := ⟨"file name contained an unexpected NUL byte", none⟩

end FileError

/-- A working directory: its files by name. -/
structure Directory where
  /-- The files. -/
  files : List (String × Array UInt8)

namespace Directory

/-- The largest size of a name. -/
def maxName : Nat := 255

/-- The smallest size of a path that is too long. -/
def pathLimit : Nat := 4096

/-- The components of a path, which slashes separate. -/
def components (path : String) : List String := (path.toList.splitOn '/').map String.ofList

/-- The component of a path stays in the same directory. -/
def isStay (name : String) : Bool := name == "" || name == "."

/-- Reads what the components of a path name outside of the working directory. -/
def readOutside : List String → Except FileError (Array UInt8)
  | [] => .error .isADirectory
  | name :: rest =>
    if isStay name || name == ".." then readOutside rest
    else if maxName < name.utf8ByteSize then .error .nameTooLong
    else .error .notFound

/-- Reads what the components of a path name in the working directory. -/
def readComponents (d : Directory) : List String → Except FileError (Array UInt8)
  | [] => .error .isADirectory
  | name :: rest =>
    if isStay name then d.readComponents rest
    else if name == ".." then readOutside rest
    else if maxName < name.utf8ByteSize then .error .nameTooLong
    else
      match d.files.lookup name with
      | some bytes => if rest.isEmpty then .ok bytes else .error .notADirectory
      | none => .error .notFound

/-- Reads what a path names. -/
def read (d : Directory) (path : String) : Except FileError (Array UInt8) :=
  if path.contains '\x00' then .error .nulInPath
  else if path == "" then .error .notFound
  else if pathLimit ≤ path.utf8ByteSize then .error .nameTooLong
  else if path.startsWith "/" then readOutside (components path)
  else d.readComponents (components path)

end Directory

end Nes

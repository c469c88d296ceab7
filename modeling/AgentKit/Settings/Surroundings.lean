/-
# Environment and files

Settings are looked up in the environment variables of the process and in a file.
The variables are given as a table of names, in which a later entry takes the place
of an earlier one for the same thing. Names end before their first NUL.

Of files and of JSON no more is fixed than what loading depends on: whether something
stands at a path, whether it can be opened, and what a reader of JSON makes of it. So
loading works in any file system and with any reader. A table of text files is a file
system, in which a path may be written in several ways: parts that are empty or a
single dot lead nowhere else.
-/

import AgentKit.Json.Basic
import AgentKit.Text.Ascii

namespace AgentKit

/-- What can be read of an open file: bytes up to the end, or up to the place where
reading throws an exception. -/
structure ByteStream where
  bytes : List UInt8
  exception : Option String := none
  deriving DecidableEq

/-- The stream of a text. -/
def ByteStream.ofText (text : String) : ByteStream where
  bytes := text.toUTF8.data.toList

/-- What stands at a path: something that cannot be opened, or something to read. A
directory can be opened, but not read. -/
inductive FileEntry
  | closed
  | opens (stream : ByteStream)

/-- What a reader of JSON makes of a stream: a value, a fault in the text, which it
tells, or an exception of any other kind, its own or that of the stream. -/
inductive JsonReading
  | value (root : Json)
  | fault (description : String)
  | throws (exception : String)

/-- The environment variables, each with its text, what stands at every path, and the
reader of JSON. -/
structure Surroundings where
  environment : List (String × String) := []
  entry? : String → Option FileEntry := fun _ => none
  readJson : ByteStream → JsonReading

namespace Surroundings

/-- The text of the variable with a name. -/
def variableText? (surroundings : Surroundings) (name : String) : Option String :=
  (surroundings.environment.reverse.find? fun entry => Text.untilNul entry.1 = name).map
    fun entry => Text.untilNul entry.2

/-- What is found under a key. No variable has an empty name or one with an equals
sign in it; a key with an equals sign asks for the variable named before the
sign, and finds what its text has behind the rest of the key and one more equals
sign. -/
def environmentText? (surroundings : Surroundings) (key : String) : Option String :=
  let (name, inner) := (Text.untilNul key).toList.span (· ≠ '=')
  if name.isEmpty then none
  else
    (surroundings.variableText? (String.ofList name)).bind fun text =>
      match inner with
      | [] => some text
      | _ :: inner => ((inner ++ ['=']).isPrefixOf? text.toList).map String.ofList

/-- The JSON value in the file at a path, if there is one. -/
def jsonAt? (surroundings : Surroundings) (path : String) : Option Json :=
  match surroundings.entry? path with
  | some (.opens stream) =>
    match surroundings.readJson stream with
    | .value root => some root
    | _ => none
  | _ => none

end Surroundings

namespace FilePath

/-- What follows the last of some character, or everything where there is none. -/
def afterLast (mark : Char) (cs : List Char) : List Char :=
  (cs.reverse.takeWhile (· ≠ mark)).reverse

/-- The last part of a path, empty if the path ends with a slash. -/
def lastPart (path : List Char) : List Char :=
  afterLast '/' path

/-- The extension of a path's last part, with its dot: what follows the last
dot, unless that is the first character of the part. -/
def extension (path : String) : String :=
  let name := lastPart path.toList
  if name = ['.'] || name = ['.', '.'] || !name.contains '.' then ""
  else
    let afterDot := afterLast '.' name
    if afterDot.length + 1 = name.length then "" else String.ofList ('.' :: afterDot)

/-- Whether a path names a parent directory, or merely contains two dots in a
row. -/
def climbs (path : String) : Bool :=
  (path.toList.zip (path.toList.drop 1)).contains ('.', '.')

/-- The parts of a path that lead somewhere. -/
def parts (path : List Char) : List (List Char) :=
  (path.splitOn '/').filter fun part => part ≠ [] && part ≠ ['.']

end FilePath

/-! ## Tables of files -/

/-- Text files by their paths, in which a later entry takes the place of an earlier one
for the same path, and the directory from which relative paths lead on. -/
structure FileTable where
  directory : String
  files : List (String × String)

namespace FileTable

variable (table : FileTable)

/-- Paths have to be shorter than this many bytes. -/
def pathLimit : Nat := 4096

/-- The parts of a path, from the root on. -/
def partsOf (path : String) : List (List Char) :=
  let chars := (Text.untilNul path).toList
  if chars.head? = some '/' then FilePath.parts chars
  else FilePath.parts table.directory.toList ++ FilePath.parts chars

/-- A directory is there if something is in it, or if relative paths lead on from it. -/
def hasDirectory (parts : List (List Char)) : Bool :=
  parts.isPrefixOf (FilePath.parts table.directory.toList) ||
    table.files.any fun file => parts.isPrefixOf (table.partsOf file.1)

/-- What stands at a path without parts that lead up. A path that goes on after a file,
if only with a slash, leads nowhere, and so does one that is too long. -/
def entry? (path : String) : Option FileEntry :=
  let chars := (Text.untilNul path).toList
  let last := FilePath.lastPart chars
  if chars = [] || pathLimit ≤ (Text.untilNul path).utf8ByteSize then none
  else
    match table.files.reverse.find? fun file => table.partsOf file.1 = table.partsOf path with
    | some file => if last = [] || last = ['.'] then none else some (.opens (.ofText file.2))
    | none =>
      if table.hasDirectory (table.partsOf path) then
        some (.opens { bytes := [], exception := some "is a directory" })
      else none

end FileTable

end AgentKit

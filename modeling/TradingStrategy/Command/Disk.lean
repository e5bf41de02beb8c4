import TradingStrategy.Command.Run

/-!
Files in memory.

Owns:
- files under a home directory, and why a path leads to none of them;
- how a path is followed, step by step, and how it is joined to a directory;
- the access of commands to these files.

A directory is there when it is the home directory or a file lies somewhere in it. With files in memory a command is a
function, so what it prints and writes can be reasoned about.
-/

namespace TradingStrategy

/-- Why a file cannot be read or written. -/
inductive AccessFault where
  | missing
  | notDirectory
  | isDirectory
  | longName
  | zeroCharacter
deriving Repr, DecidableEq

def AccessFault.message : AccessFault → String
  | missing => "No such file or directory (os error 2)"
  | notDirectory => "Not a directory (os error 20)"
  | isDirectory => "Is a directory (os error 21)"
  | longName => "File name too long (os error 36)"
  | zeroCharacter => "file name contained an unexpected NUL byte"

/-- A file: the names on the way to it, its own name last, and its content. -/
structure DiskFile where
  place : List String
  content : String
deriving Repr, DecidableEq

/-- The home directory, and the files. The last file of a place counts. -/
structure Disk where
  home : String
  files : List DiskFile
deriving Repr, DecidableEq

/-! ### Paths -/

/-- The steps of a path. Empty ones and single points do not move. -/
def stepsOf (path : String) : List String :=
  (path.splitOn "/").filter fun step => step != "" && step != "."

/-- The form of a path can only name a directory. -/
def namesDirectory (path : String) : Bool :=
  path.endsWith "/" || path.endsWith "/."

/-- The path of a name in a directory. A name that starts at the root stands for itself. -/
def pathIn (directory name : String) : String :=
  if name.startsWith "/" then name
  else if directory.endsWith "/" then directory ++ name
  else directory ++ "/" ++ name

/-- The number of bytes that a name may have. -/
def maxNameBytes : Nat := 255

namespace Disk

/-- Files under a home directory, by their names there. -/
def ofFiles (home : String) (files : List (String × String)) : Disk :=
  ⟨home, files.map fun (name, content) => ⟨stepsOf (pathIn home name), content⟩⟩

/-- The content of the file at a place. -/
def content? (disk : Disk) (place : List String) : Option String :=
  (disk.files.reverse.find? fun file => file.place == place).map DiskFile.content

/-- The names in a directory lead on to these files. -/
def inside (disk : Disk) (place : List String) : List DiskFile :=
  disk.files.filter fun file => place.isPrefixOf file.place && place.length < file.place.length

def isDirectory (disk : Disk) (place : List String) : Bool :=
  place == [disk.home] || !(disk.inside place).isEmpty

/-- Why a place holds neither a file nor a directory: a file may stand on the way to it. -/
def absence (disk : Disk) (place : List String) : AccessFault :=
  if (List.range place.length).any fun count => (disk.content? (place.take count)).isSome then .notDirectory
  else .missing

/-- Follows steps from a place. A step up must leave a directory. -/
def follow (disk : Disk) (place : List String) : List String → Except AccessFault (List String)
  | [] => .ok place
  | step :: rest =>
      if step = ".." then
        if disk.isDirectory place then disk.follow place.dropLast rest
        else .error (disk.absence (place ++ [step]))
      else disk.follow (place ++ [step]) rest

/-- The place that a path leads to. -/
def locate (disk : Disk) (path : String) : Except AccessFault (List String) :=
  if path.toList.contains '\x00' then .error .zeroCharacter
  else if (stepsOf path).any fun step => maxNameBytes < step.utf8ByteSize then .error .longName
  else disk.follow [] (stepsOf path)

/-- The file that is always empty. -/
def nullPath : String :=
  "/dev/null"

/-- The content of the file that a path names. -/
def read (disk : Disk) (path : String) : Except AccessFault String :=
  if path = nullPath then .ok ""
  else do
    let place ← disk.locate path
    match disk.content? place with
    | some content => if namesDirectory path then .error .notDirectory else .ok content
    | none => .error (if disk.isDirectory place then .isDirectory else disk.absence place)

/-- Writes a file. Its directory has to be there. -/
def write (disk : Disk) (path content : String) : Except AccessFault Disk :=
  if path = nullPath then .ok disk
  else do
    let place ← disk.locate path
    if (disk.content? place).isSome then
      if namesDirectory path then .error .notDirectory
    else if disk.isDirectory place then .error .isDirectory
    else if !disk.isDirectory place.dropLast then .error (disk.absence place)
    else if namesDirectory path then .error .isDirectory
    return { disk with files := disk.files ++ [⟨place, content⟩] }

/-- The names in the directory that a path names. -/
def list (disk : Disk) (path : String) : Except AccessFault (List String) := do
  let place ← disk.locate path
  if disk.isDirectory place then
    return ((disk.inside place).filterMap fun file => file.place[place.length]?).eraseDups
  else .error (if (disk.content? place).isSome then .notDirectory else disk.absence place)

/-- The access of commands to files in memory. -/
def access : FileAccess (StateM Disk) where
  read path := do return ((← get).read path).mapError AccessFault.message
  write path content := do
    match (← get).write path content with
    | .ok disk =>
        set disk
        return .ok ()
    | .error fault => return .error fault.message

end Disk

end TradingStrategy

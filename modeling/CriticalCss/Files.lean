/-!
# A directory of files

Files and directories under a working directory, by their path.  Reading, making directories and
saving follow the rules of a file system: every part of a path but the last has to be a directory,
and an error names what stands in the way.
-/

namespace CriticalCss

/-- What a path leads to. -/
inductive FileEntry where
  | directory
  | text (content : String)
  | picture
deriving DecidableEq

/-- Why a path cannot be used. -/
inductive FileFault where
  | notFound
  | exists
  | notDirectory
  | isDirectory
  /-- A part of the path is longer than any name. -/
  | nameTooLong
  /-- The path holds the zero character. -/
  | zeroCharacter
  | notText
deriving DecidableEq

namespace FileFault

/-- The wording of the operating system. -/
def message : FileFault → String
  | .notFound => "No such file or directory (os error 2)"
  | .exists => "File exists (os error 17)"
  | .notDirectory => "Not a directory (os error 20)"
  | .isDirectory => "Is a directory (os error 21)"
  | .nameTooLong => "File name too long (os error 36)"
  | .zeroCharacter => "file name contained an unexpected NUL byte"
  | .notText => "stream did not contain valid UTF-8"

end FileFault

/-- Files and directories by the parts of their path.  The empty path is the working directory; a
path that begins with `/` is absolute. -/
structure Files where
  entries : List (List String × FileEntry)

namespace Files

/-- An empty working directory. -/
def empty : Files := ⟨[]⟩

/-- What stands at the parts of a path. -/
def entryAt? (fs : Files) (parts : List String) : Option FileEntry :=
  if parts = [] ∨ parts = ["/"] then some .directory else fs.entries.lookup parts

/-- Puts an entry at the parts of a path, in place of an older one. -/
def put (fs : Files) (parts : List String) (entry : FileEntry) : Files :=
  ⟨fs.entries.filter (·.1 ≠ parts) ++ [(parts, entry)]⟩

/-- The parts of a path as it is written; an absolute path begins with the part `/`. -/
def partsOf (path : String) : List String :=
  let parts := (path.splitOn "/").filter fun p => p ≠ "" ∧ p ≠ "."
  if path.startsWith "/" then "/" :: parts else parts

/-- A path that starts from another one; an absolute path starts from nowhere else. -/
def join (base path : String) : String :=
  if path.startsWith "/" ∨ base = "" then path
  else if base.endsWith "/" then base ++ path
  else base ++ "/" ++ path

/-- Drops slashes, and points that stand for the directory itself, from a reversed path.  The first
argument bounds the steps. -/
def dropSlashes : Nat → List Char → List Char
  | 0, cs => cs
  | _, ['/'] => ['/']
  | n + 1, '/' :: cs => dropSlashes n cs
  | n + 1, '.' :: '/' :: cs => dropSlashes n ('/' :: cs)
  | _, cs => cs

/-- The path of the directory that a path stands in. -/
def parent? (path : String) : Option String :=
  let trim (cs : List Char) := dropSlashes (cs.length + 1) cs
  match trim path.toList.reverse with
  | [] => none
  | ['/'] => none
  | cs => some (String.ofList (trim (cs.dropWhile (· ≠ '/'))).reverse)

/-- The last part of a path, if it is a name. -/
def fileName? (path : String) : Option String :=
  match (partsOf path).getLast? with
  | none => none
  | some name => if name = ".." ∨ name = "/" then none else some name

/-- What stands after the last point of the name of a file. -/
def extension? (path : String) : Option String :=
  match fileName? path with
  | none => none
  | some name =>
    let after := name.toList.reverse.takeWhile (· ≠ '.')
    if after.length + 1 < name.toList.length then some (String.ofList after.reverse) else none

/-- Goes from a directory one part further. -/
def descend (directory : List String) (part : String) : List String :=
  if part = ".." then
    if directory = ["/"] then directory
    else if directory = [] ∨ directory.getLast? = some ".." then directory ++ [".."]
    else directory.dropLast
  else directory ++ [part]

/-- How many bytes a name has at most. -/
def longestName : Nat := 255

/-- Follows the parts of a path through directories; the last part need not be there. -/
def follow (fs : Files) (directory : List String) : List String → Except FileFault (List String)
  | [] => .ok directory
  | part :: rest =>
    let next := descend directory part
    if longestName < part.utf8ByteSize then .error .nameTooLong
    else if rest = [] then .ok next
    else
      match fs.entryAt? next with
      | some .directory => follow fs next rest
      | some _ => .error .notDirectory
      | none => .error .notFound

/-- Where a path leads. -/
def resolve (fs : Files) (path : String) : Except FileFault (List String) :=
  if path = "" then .error .notFound
  else if path.contains '\x00' then .error .zeroCharacter
  else
    match partsOf path with
    | "/" :: rest => fs.follow ["/"] rest
    | parts => fs.follow [] parts

/-- The text of a file. -/
def read (fs : Files) (path : String) : Except FileFault String := do
  let parts ← fs.resolve path
  match fs.entryAt? parts with
  | none => .error .notFound
  | some .directory => .error .isDirectory
  | some .picture => if path.endsWith "/" then .error .notDirectory else .error .notText
  | some (.text content) => if path.endsWith "/" then .error .notDirectory else .ok content

/-- Whether a path leads to a directory. -/
def isDirectory (fs : Files) (path : String) : Bool :=
  match fs.resolve path with
  | .ok parts => fs.entryAt? parts = some .directory
  | .error _ => false

/-- Makes the directories on the way through the parts of a path, and then its last part. -/
def makeDirectoriesFrom (fs : Files) (directory : List String) :
    List String → Except FileFault Files
  | [] => .ok fs
  | part :: rest =>
    let next := descend directory part
    if longestName < part.utf8ByteSize then .error .nameTooLong
    else
      match fs.entryAt? next with
      | some .directory => makeDirectoriesFrom fs next rest
      | some _ => .error (if rest = [] then .exists else .notDirectory)
      | none => makeDirectoriesFrom (fs.put next .directory) next rest

/-- Makes a directory and those it stands in, unless they are there already. -/
def makeDirectories (fs : Files) (path : String) : Except FileFault Files :=
  if path.contains '\x00' then .error .zeroCharacter
  else
    match partsOf path with
    | "/" :: rest => fs.makeDirectoriesFrom ["/"] rest
    | parts => fs.makeDirectoriesFrom [] parts

/-- Saves a picture; the directory it goes to must be there. -/
def savePicture (fs : Files) (path : String) : Except FileFault Files := do
  let parts ← fs.resolve path
  match fs.entryAt? parts with
  | some .directory => .error .isDirectory
  | _ =>
    if path.endsWith "/" then .error .isDirectory
    else if fs.entryAt? parts.dropLast = some .directory then .ok (fs.put parts .picture)
    else .error .notFound

/-- Puts a text file there, with the directories it stands in. -/
def addText (fs : Files) (path : String) (content : String) : Files :=
  let parts := partsOf path
  let made := (fs.makeDirectoriesFrom [] parts.dropLast).toOption.getD fs
  made.put parts (.text content)

/-- The paths of the files in the working directory, in order. -/
def paths (fs : Files) : List String :=
  let inside := fs.entries.filter fun e => e.2 ≠ .directory ∧ e.1.head? ≠ some "/"
  (inside.map fun e => "/".intercalate e.1).mergeSort (fun a b => decide (a ≤ b))

end Files

end CriticalCss

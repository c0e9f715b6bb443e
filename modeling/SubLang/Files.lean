import SubLang.Text.Line
import SubLang.Text.OsText
import SubLang.Text.Utf8

/-!
Files as reading sees them: what stands at each path.
-/

namespace SubLang

open Text

inductive FileEntry where
  | missing
  /-- the path leads through something that is no directory -/
  | blocked
  /-- the path, or a name in it, is too long -/
  | tooLong
  /-- the path holds a character that no path can hold -/
  | unspeakable
  | directory
  | file (bytes : List UInt8)
  deriving DecidableEq, Repr

abbrev Files := OsText → FileEntry

inductive FileError where
  | missing (path : OsText)
  | blocked (path : OsText)
  | tooLong (path : OsText)
  | unspeakable
  | directory (path : OsText)
  | undecodable (fault : Utf8Fault)
  deriving DecidableEq, Repr

def FileError.message : FileError → String
  | .missing path => "[Errno 2] No such file or directory: " ++ path.quoted
  | .blocked path => "[Errno 20] Not a directory: " ++ path.quoted
  | .tooLong path => "[Errno 36] File name too long: " ++ path.quoted
  | .unspeakable => "embedded null byte"
  | .directory path => "[Errno 21] Is a directory: " ++ path.quoted
  | .undecodable fault => fault.message

def FileEntry.bytes (path : OsText) : FileEntry → Except FileError (List UInt8)
  | .missing => .error (.missing path)
  | .blocked => .error (.blocked path)
  | .tooLong => .error (.tooLong path)
  | .unspeakable => .error .unspeakable
  | .directory => .error (.directory path)
  | .file bytes => .ok bytes

def Files.readText (files : Files) (path : OsText) : Except FileError String := do
  let bytes ← (files path).bytes path
  (decodeUtf8 bytes).mapError .undecodable

def pathLimit : Nat := 4096

def nameLimit : Nat := 255

/-- What is known of a path from its spelling alone. -/
def FileEntry.ofSpelling? (path : OsText) : Option FileEntry :=
  if path = .empty then some .missing
  else if path.chars.contains (.char '\x00') then some .unspeakable
  else if pathLimit ≤ path.bytes.length then some .tooLong
  else none

/-- Files that are kept in memory, by the components of their paths from the top, with the directories
there are. The working directory is where paths start from that do not start at the top; it also has a
spelling of its own. -/
structure FileTree where
  spelling : OsText
  working : List OsText
  files : List (List OsText × List UInt8)
  directories : List (List OsText)

namespace FileTree

def slash : OsChar := .char '/'

def components (path : List OsChar) : List OsText :=
  (splitAt slash path).map .mk

def start (t : FileTree) (path : OsText) : List OsText × List OsText :=
  let top := t.spelling.chars ++ [slash]
  if path = t.spelling then (t.working, [])
  else if top.isPrefixOf path.chars then (t.working, components (path.chars.drop top.length))
  else if path.chars.head? = some slash then ([], components path.chars)
  else (t.working, components path.chars)

def isDirectory (t : FileTree) (path : List OsText) : Bool :=
  path.isPrefixOf t.working || t.directories.any (path.isPrefixOf ·)

def isHere (c : OsText) : Bool :=
  c = .empty || c = .ofText "."

def isAbove (c : OsText) : Bool :=
  c = .ofText ".."

/-- What stands at the end of a walk that begins in the directory `here`. Above the top is the top. -/
def walk (t : FileTree) : (here : List OsText) → List OsText → FileEntry
  | _, [] => .directory
  | here, c :: cs =>
    if isHere c then walk t here cs
    else if isAbove c then walk t here.dropLast cs
    else if nameLimit < c.bytes.length then .tooLong
    else
      let path := here ++ [c]
      match t.files.lookup path with
      | some bytes => if cs.isEmpty then .file bytes else .blocked
      | none => if t.isDirectory path then walk t path cs else .missing

def look (t : FileTree) : Files := fun path =>
  (FileEntry.ofSpelling? path).getD (t.walk (t.start path).1 (t.start path).2)

def resolve : (here : List OsText) → List OsText → List OsText
  | here, [] => here
  | here, c :: cs =>
    if isHere c then resolve here cs
    else if isAbove c then resolve here.dropLast cs
    else resolve (here ++ [c]) cs

def place (t : FileTree) (path : OsText) : List OsText :=
  resolve (t.start path).1 (t.start path).2

/-- The tree with a file written; its directory comes into being with it, and stays. -/
def write (t : FileTree) (path : OsText) (bytes : List UInt8) : FileTree :=
  let place := t.place path
  { t with
    files := (place, bytes) :: t.files.filter (·.1 ≠ place)
    directories := place.dropLast :: t.directories }

def remove (t : FileTree) (path : OsText) : FileTree :=
  { t with files := t.files.filter (·.1 ≠ t.place path) }

end FileTree

end SubLang

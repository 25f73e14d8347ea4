import RayScene.Text.Search
/-!
A file system without links. Paths are resolved component by component from a working directory, and
every directory on the way has to exist.
-/
set_option autoImplicit false

namespace RayScene

inductive FileEntry where
  | directory
  | file (content : ByteArray)

inductive FileError where
  | notFound
  | notDirectory
  | isDirectory
  | badName
  | notText
  deriving DecidableEq, Repr

abbrev Location := List String

/-- The root and the working directory are directories that are not listed. -/
structure FileStore where
  entries : List (Location × FileEntry)
  working : Location

namespace FileStore

def at? (s : FileStore) (l : Location) : Option FileEntry :=
  if l = [] ∨ l.isPrefixOf s.working then some .directory else s.entries.lookup l

/-- No name is longer than 255 bytes. -/
def isName (name : String) : Bool := name.utf8ByteSize ≤ 255

/-- A text that can be handed to the system: no zero character stands in it. -/
def isPlain (text : String) : Bool := !text.toList.contains '\x00'

/-- A path that is used as a whole has less than 4096 bytes. -/
def isPath (path : String) : Bool := isPlain path && path.utf8ByteSize < 4096

def enter (s : FileStore) (l : Location) (name : String) : Except FileError Location :=
  if name = "." ∨ name = "" then .ok l
  else if name = ".." then .ok l.dropLast
  else if !isName name then .error .badName
  else match s.at? (l ++ [name]) with
    | some .directory => .ok (l ++ [name])
    | some (.file _) => .error .notDirectory
    | none => .error .notFound

def start (s : FileStore) (path : String) : Location × List String :=
  let parts := (Text.splitOn '/' path.toList).map String.ofList
  if path.toList.head? = some '/' then ([], parts) else (s.working, parts)

def directory (s : FileStore) (path : String) : Except FileError Location :=
  if !isPath path then .error .badName
  else if path.isEmpty then .error .notFound
  else
    let (l, parts) := s.start path
    parts.foldlM s.enter l

/-- The location that a path names, however long it is: its directory exists, and its last component
is a name. -/
def resolve (s : FileStore) (path : String) : Except FileError Location := do
  if !isPlain path then .error .badName
  let (l, parts) := s.start path
  let name := parts.getLast?.getD ""
  let dir ← parts.dropLast.foldlM s.enter l
  if name = "." ∨ name = ".." then .error .isDirectory
  else if name = "" then .error .notFound
  else if !isName name then .error .badName
  else .ok (dir ++ [name])

def locate (s : FileStore) (path : String) : Except FileError Location :=
  if isPath path then s.resolve path else .error .badName

def put (s : FileStore) (l : Location) (e : FileEntry) : FileStore :=
  { s with entries := (l, e) :: s.entries.filter (·.1 ≠ l) }

/-- The location that a path spells, whether it is there or not. -/
def spelled (s : FileStore) (path : String) : Location :=
  let (l, parts) := s.start path
  parts.foldl (fun l name =>
    if name = "" ∨ name = "." then l
    else if name = ".." then l.dropLast
    else l ++ [name]) l

/-- Makes a directory of each name below the one before it, unless something is there. -/
def makeBelow (s : FileStore) (l : Location) : List String → FileStore
  | [] => s
  | name :: names =>
    let below := l ++ [name]
    (if (s.at? below).isSome then s else s.put below .directory).makeBelow below names

def makeDirectories (s : FileStore) (l : Location) : FileStore := s.makeBelow [] l

def makeFile (s : FileStore) (path : String) (content : ByteArray) : FileStore :=
  let l := s.spelled path
  (s.makeDirectories l.dropLast).put l (.file content)

def read (s : FileStore) (path : String) : Except FileError String := do
  match s.at? (← s.locate path) with
  | none => .error .notFound
  | some .directory => .error .isDirectory
  | some (.file content) =>
    match String.fromUTF8? content with
    | some text => .ok text
    | none => .error .notText

def write (s : FileStore) (path : String) (content : String) : Except FileError FileStore := do
  let l ← s.locate path
  match s.at? l with
  | some .directory => .error .isDirectory
  | _ => .ok (s.put l (.file content.toUTF8))

def touch (s : FileStore) (path : String) : Except FileError FileStore := do
  let l ← s.locate path
  match s.at? l with
  | some .directory => .error .isDirectory
  | some (.file _) => .ok s
  | none => .ok (s.put l (.file "".toUTF8))

def remove (s : FileStore) (path : String) : Except FileError FileStore := do
  let l ← s.locate path
  match s.at? l with
  | some .directory => .error .isDirectory
  | some (.file _) => .ok { s with entries := s.entries.filter (·.1 ≠ l) }
  | none => .error .notFound

def file? (s : FileStore) (path : String) : Option Location :=
  match s.resolve path with
  | .error _ => none
  | .ok l => match s.at? l with
    | some (.file _) => some l
    | _ => none

/-- Everything below the working directory, with names relative to it. -/
def listing (s : FileStore) : List (Location × FileEntry) :=
  s.entries.filterMap fun (l, e) =>
    if s.working.isPrefixOf l then some (l.drop s.working.length, e) else none

end FileStore

end RayScene

import ChipSupport.Fault
import ChipSupport.Files.Path

/-!
# Files

The files and directories that a run reads and writes.

## Main definitions

* `Files` — files with their texts, and directories.
* `Files.read` — the text of a file.
* `Files.write` — the files with a text written to a path.
-/

namespace ChipSupport

/-- Files with their texts, and directories, by place. -/
structure Files where
  /-- The text of every file. -/
  texts : List (List String × String) := []
  /-- The directories, apart from the working directory and those above it. -/
  directories : List (List String) := []
  deriving DecidableEq, Repr, Inhabited

namespace Files

/-- The text of the file at a place. -/
def text? (fs : Files) (place : List String) : Option String := fs.texts.lookup place

/-- Whether there is a file at a place. -/
def isFile (fs : Files) (place : List String) : Bool := (fs.text? place).isSome

/-- Whether a place is the working directory or above it, or the root. -/
def isOutset (place : List String) : Bool := place.all fun p => p == ".." || p == "/"

/-- Whether there is a directory at a place. -/
def isDirectory (fs : Files) (place : List String) : Bool :=
  isOutset place || fs.directories.contains place

/-- The number of bytes that a name may have. -/
def nameLimit : Nat := 255

/-- The number of bytes that a path has less than. -/
def pathLimit : Nat := 4096

/-- Whether the name at the end of a path is too long for a directory. -/
def isLong (p : Path) : Bool := decide (nameLimit < p.name.utf8ByteSize)

/-- The fault of a path that no file or directory can have. -/
def check (p : Path) : Except Fault Unit :=
  if p.render.contains '\x00' then .error .pathHasNull
  else if pathLimit ≤ p.render.utf8ByteSize then .error (.nameTooLong p.render)
  else .ok ()

/-- The fault of going on from a place that is no directory. -/
def missing (fs : Files) (target place : Path) : Fault :=
  if isLong place then .nameTooLong target.render
  else if fs.isFile place.location then .notADirectory target.render
  else .fileNotFound target.render

/-- Goes through the directories on the way to a path. -/
def follow (fs : Files) (target : Path) : List Path → Except Fault Unit
  | [] => .ok ()
  | p :: rest =>
    if fs.isDirectory p.location then follow fs target rest else .error (fs.missing target p)

/-- Goes to the place of a path. -/
def reach (fs : Files) (p : Path) : Except Fault Unit := do
  check p
  fs.follow p p.parent.way
  if isLong p then throw (.nameTooLong p.render)

/-- The text of the file at a path. -/
def read (fs : Files) (p : Path) : Except Fault String := do
  fs.reach p
  if fs.isDirectory p.location then throw (.fileIsDirectory p.render)
  match fs.text? p.location with
  | some text => return text
  | none => throw (.fileNotFound p.render)

/-- Whether a path can be gone to and has a property.  Only a name that is too long is a fault. -/
def test (fs : Files) (p : Path) (property : List String → Bool) : Except Fault Bool :=
  match fs.reach p with
  | .ok _ => .ok (property p.location)
  | .error (.nameTooLong text) => .error (.nameTooLong text)
  | .error _ => .ok false

/-- Whether there is a file or a directory at a path. -/
def holds (fs : Files) (p : Path) : Except Fault Bool :=
  fs.test p fun place => fs.isDirectory place || fs.isFile place

/-- Whether there is a directory at a path. -/
def holdsDirectory (fs : Files) (p : Path) : Except Fault Bool := fs.test p fs.isDirectory

/-- The files with a directory at each of the paths, which lead to a path.  `opened` says that a
directory on the way is new. -/
def openWay (fs : Files) (target : Path) (opened : Bool) : List Path → Except Fault Files
  | [] => .ok fs
  | p :: rest =>
    if fs.isDirectory p.location then openWay fs target opened rest
    else if isLong p then .error (.nameTooLong target.render)
    else if fs.isFile p.location then
      .error (if rest.isEmpty || opened then .fileExists target.render
        else .notADirectory target.render)
    else openWay { fs with directories := fs.directories ++ [p.location] } target true rest

/-- The texts with a text at a place. -/
def put (place : List String) (text : String) :
    List (List String × String) → List (List String × String)
  | [] => [(place, text)]
  | entry :: rest =>
    if entry.1 = place then (place, text) :: rest else entry :: put place text rest

/-- The files with a text at a path, and directories on the way to it. -/
def write (fs : Files) (p : Path) (text : String) : Except Fault Files := do
  check p.parent
  let opened ← fs.openWay p.parent false p.parent.way
  opened.reach p
  if opened.isDirectory p.location then throw (.fileIsDirectory p.render)
  return { opened with texts := put p.location text opened.texts }

/-- The text of a place, without steps out of the working directory. -/
def placeText (place : List String) : String := String.intercalate "/" place

/-- Whether a place is inside of the working directory. -/
def isInside (place : List String) : Bool :=
  match place with
  | first :: _ => first != ".." && first != "/"
  | [] => false

/-- The files in the working directory that are new, or different from what they were. -/
def changedSince (before after : Files) : List (String × String) :=
  (after.texts.filter fun e => isInside e.1 && before.text? e.1 != some e.2).map fun e =>
    (placeText e.1, e.2)

/-- The files of a list of texts by path. -/
def ofTexts (texts : List (String × String)) : Except Fault Files :=
  texts.foldlM (fun fs e => fs.write (Path.ofString e.1) e.2) {}

/-- The files and directories below a directory. -/
def below (fs : Files) (place : List String) : List (List String) :=
  (fs.directories ++ fs.texts.map Prod.fst).filter fun q =>
    place.isPrefixOf q && decide (place.length < q.length)

end Files

end ChipSupport

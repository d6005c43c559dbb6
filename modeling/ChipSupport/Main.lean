import ChipSupport.Program
import Std.Time.Zoned

/-!
# The executable

The files that a command line may refer to are read, the program runs on them, and the files that it
changed are written.

## Main definitions

* `Executable.load` — the files that a request may refer to.
* `Executable.store` — writing the files that changed.
* `main` — the executable.
-/

namespace ChipSupport.Executable

/-- The current date. -/
def today : IO Date := do
  let d ← Std.Time.PlainDate.now
  return ⟨d.year.toInt.toNat, d.month.val.toNat, d.day.val.toNat⟩

/-- The files with what there is at a path and on the way to it. -/
def look (fs : Files) (p : Path) : IO Files :=
  p.way.foldlM (fun fs q => do
    let here := (← IO.currentDir) / q.render
    if fs.isDirectory q.location || fs.isFile q.location then return fs
    else if ← here.isDir then return { fs with directories := fs.directories ++ [q.location] }
    else if ← here.pathExists then
      return { fs with texts := Files.put q.location (← IO.FS.readFile here) fs.texts }
    else return fs) fs

/-- The names in a directory; none if there is no directory. -/
def namesIn (p : Path) : IO (List String) := do
  let here := (← IO.currentDir) / p.render
  if ← here.isDir then return (← here.readDir).toList.map (·.fileName) else return []

/-- The files with the names of all files below a directory, but without their texts. -/
partial def walk (fs : Files) (p : Path) : IO Files := do
  (← namesIn p).foldlM (fun fs name => do
    let q : Path := { p with parts := p.parts ++ [name] }
    if ← ((← IO.currentDir) / q.render).isDir then
      walk { fs with directories := fs.directories ++ [q.location] } q
    else if fs.isFile q.location then return fs
    else return { fs with texts := fs.texts ++ [(q.location, "")] }) fs

/-- The files with the text of the document of a device. -/
def loadDocument (packs : Path) (fs : Files) (device : String) : IO Files := do
  match Program.findDocument fs packs device with
  | .error _ => return fs
  | .ok p =>
    let text ← IO.FS.readFile ((← IO.currentDir) / p.render)
    return { fs with texts := Files.put p.location text fs.texts }

/-- The files with the descriptions in a directory. -/
def loadDescriptions (fs : Files) (directory : Path) : IO Files := do
  let fs ← look fs directory
  let names := (← namesIn directory).filter fun name => (Path.splitEnding name).2 == ".yaml"
  names.foldlM (fun fs name => look fs { directory with parts := directory.parts ++ [name] }) fs

/-- The files that a request may refer to. -/
def load (r : Request) : IO Files := do
  let fs ← look {} r.output
  match r.command with
  | .mips descriptions => descriptions.foldlM look fs
  | .arm devices packs _ styleFile deviceDb _ =>
    let fs ← styleFile.toList.foldlM look fs
    let fs ← deviceDb.toList.foldlM loadDescriptions fs
    let fs ← walk (← look fs packs) packs
    devices.foldlM (loadDocument packs) fs

/-- Writes the files that differ from what they were. -/
def store (before after : Files) : IO Unit :=
  after.texts.forM fun (place, text) => do
    if before.text? place != some text then
      IO.FS.createDirAll ((← IO.currentDir) / Files.placeText place.dropLast)
      IO.FS.writeFile ((← IO.currentDir) / Files.placeText place) text

/-- How the executable is called. -/
def usage : String :=
  "usage: deviceheaders [-h] [-o OUTPUT] [-v] [-q] arm [-h] --packs PACKS [--style STYLE]\n"
    ++ "           [--style-file FILE] [--device-db DIRECTORY] [--linker] DEVICE [DEVICE ...]\n"
    ++ "       deviceheaders [-h] [-o OUTPUT] [-v] [-q] mips [-h] YAML [YAML ...]\n"

/-- Does what a request asks for. -/
def serve (r : Request) : IO UInt32 := do
  let before ← load r
  let (result, g) := (Program.run r (← today)).perform { files := before }
  store before g.files
  match Program.finish r result g with
  | .ok outcome =>
    IO.print outcome.output
    IO.eprint outcome.log
    return outcome.exit.toUInt32
  | .error fault =>
    IO.eprintln fault.message
    return 1

end ChipSupport.Executable

open ChipSupport in
/-- Generates the files that the command line asks for. -/
def main (words : List String) : IO UInt32 := do
  match Request.ofWords words with
  | .ok r => Executable.serve r
  | .error .help =>
    IO.print Executable.usage
    return 0
  | .error .misuse =>
    IO.eprint Executable.usage
    return 2

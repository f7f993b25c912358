import TemplateLinker.Config
import TemplateLinker.Text.Pieces

/-!
# Config.File — configurations in files

A `Disk` says what stands at a path.  A path with a NUL character names nothing; a file is read if
its bytes are UTF-8, and its text parsed as a configuration.
-/

namespace TemplateLinker

inductive DiskEntry where
  | file (bytes : List UInt8)
  | directory

abbrev Disk := String → Option DiskEntry

namespace Disk

/-- Follows the segments of a path through `directories`, the segments so far last first. -/
def follow (directories : List (List String)) : List String → List String → Option (List String)
  | at_, [] => some at_
  | at_, s :: rest =>
    if s = "" ∨ s = "." then follow directories at_ rest
    else if s = ".." then follow directories at_.tail rest
    else if s :: at_ ∈ directories then follow directories (s :: at_) rest
    else none

/-- A disk with some directories besides the root, and no file.  Relative paths start in `working`, in
which nothing stands; directories are given by their segments, last first. -/
def ofDirectories (directories : List (List String)) (working : List String) : Disk := fun path =>
  if path = "" then none
  else
    let segments := (Text.pieces '/' path.toList).map String.ofList
    let start := if segments.head? = some "" then [] else working
    (follow directories start segments).map fun _ => .directory

/-- The directories of a bare system. -/
def systemDirectories : List (List String) :=
  [["bin"], ["boot"], ["dev"], ["etc"], ["home"], ["lib"], ["lib64"], ["media"], ["mnt"], ["opt"],
    ["proc"], ["root"], ["run"], ["sbin"], ["srv"], ["sys"], ["tmp"], ["usr"], ["var"],
    ["shm", "dev"], ["bin", "usr"], ["include", "usr"], ["lib", "usr"], ["local", "usr"],
    ["sbin", "usr"], ["share", "usr"], ["src", "usr"], ["bin", "local", "usr"],
    ["lib", "local", "usr"], ["cache", "var"], ["lib", "var"], ["log", "var"], ["tmp", "var"]]

/-- A bare system, whose one file is the null device. -/
def bare : Disk := fun path =>
  if path = "/dev/null" then some (.file []) else ofDirectories systemDirectories ["work"] path

end Disk

/-- Why a file cannot be read as text. -/
inductive FileError where
  | nulInPath
  | notFound
  | isDirectory
  | notUtf8
  deriving DecidableEq, Repr

def FileError.cause : FileError → String
  | .nulInPath => "file name contained an unexpected NUL byte"
  | .notFound => "No such file or directory (os error 2)"
  | .isDirectory => "Is a directory (os error 21)"
  | .notUtf8 => "stream did not contain valid UTF-8"

inductive ConfigError where
  | file (path : String) (error : FileError)
  | json (failure : Json.Failure)

namespace ConfigError

/-- The message of an error, but for texts that are not JSON. -/
def message? : ConfigError → Option String
  | .file path error => some ("failed to read " ++ path ++ ": " ++ error.cause)
  | .json (.mismatch cause) => some (Config.message cause)
  | .json _ => none

end ConfigError

namespace Config

/-- The text that bytes encode. -/
def textOfBytes (bytes : List UInt8) : Except FileError String :=
  match String.fromUTF8? ⟨bytes.toArray⟩ with
  | some text => .ok text
  | none => .error .notUtf8

def contents (disk : Disk) (path : String) : Except FileError String :=
  if '\x00' ∈ path.toList then .error .nulInPath
  else match disk path with
    | none => .error .notFound
    | some .directory => .error .isDirectory
    | some (.file bytes) => textOfBytes bytes

def ofText (text : String) : Except ConfigError Config := (parse text).mapError .json

def ofFile (disk : Disk) (path : String) : Except ConfigError Config :=
  match contents disk path with
  | .error e => .error (.file path e)
  | .ok text => ofText text

/-- The configuration in a file at `path` with these bytes. -/
def ofBytes (path : String) (bytes : List UInt8) : Except ConfigError Config :=
  ofFile (fun p => if p = path then some (.file bytes) else none) path

end Config

end TemplateLinker

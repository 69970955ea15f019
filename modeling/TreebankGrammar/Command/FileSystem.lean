/-
TreebankGrammar/Command/FileSystem.lean

A file system in memory.

Everything in it has a location, the names on the way to it from the root.
At a location there is a folder, a device, a file, a link to another location
or nothing.  One folder is the working folder, where paths start that do not
start at the root.

A path is followed part by part; every part but the last has to lead to a
folder.  What the last part needs depends on the access.  To read, something
has to be there, and it has to be a folder if a slash follows.  A folder can
be opened, though it has no content.  To create, the last part has to be the
name of a file, of a device or of nothing, and no slash may follow.

A process finds its own open files by number: the three standard streams, and
as the next number the input while it is open.  So a path may name the input
without its name.

Design.  Of the surroundings of the working folder there is what every
system has: the usual folders, devices and links.  The working folder lies
two levels below the root.  No link leads to another, so one step resolves
it.  What is written to the two standard streams by way of their devices is
kept, so that a run can be shown as a whole.
-/
import TreebankGrammar.Command.Files
import TreebankGrammar.Command.Path

namespace TreebankGrammar.Command

/-- Where something is: the names on the way to it from the root. -/
abbrev Location := List Text

/-- A device, by what it does with what is written to it.  Reading from a
device gives nothing unless it says so. -/
inductive Device where
  /-- Takes everything. -/
  | null
  /-- Takes nothing. -/
  | full
  /-- Takes everything, and gives a byte that no text has. -/
  | noise
  /-- Passes everything on to the standard output. -/
  | output
  /-- Passes everything on to the standard error stream. -/
  | errors
  /-- Has nothing behind it and cannot be opened. -/
  | detached
  deriving DecidableEq

/-- What is at a location. -/
inductive Entry where
  | folder
  | device (device : Device)
  | file (content : Bytes)
  deriving DecidableEq

/-- What there is by location, the working folder, where the open input is,
and what was written to the standard streams. -/
structure FileSystem where
  folders : List Location
  /-- The folders in which no file can be created, with the fault. -/
  sealed : List (Location × SystemFault)
  links : List (Location × Location)
  devices : List (Location × Device)
  files : List (Location × Bytes)
  working : Location
  opened : Option Location
  output : Bytes
  errors : Bytes
  deriving DecidableEq

namespace FileSystem

/-! ### The usual surroundings -/

/-- The location with the given names. -/
def place (names : List String) : Location := names.map String.toList

/-- The names of the folders below the root. -/
def topFolders : List String :=
  ["bin", "boot", "dev", "etc", "home", "lib", "lib64", "media", "mnt", "opt",
    "proc", "root", "run", "sbin", "srv", "sys", "tmp", "usr", "var"]

/-- The usual working folder. -/
def usualWorking : Location := place ["tmp", "work"]

/-- The usual folders. -/
def usualFolders : List Location :=
  topFolders.map (fun name => place [name]) ++
    [usualWorking, place ["dev", "mqueue"], place ["dev", "pts"],
      place ["dev", "shm"], place ["proc", "self"],
      place ["proc", "self", "fd"]]

/-- The usual folders in which no file can be created. -/
def usualSealed : List (Location × SystemFault) :=
  [(place ["proc"], .notFound), (place ["proc", "self"], .notFound),
    (place ["proc", "self", "fd"], .notFound),
    (place ["dev", "pts"], .notPermitted), (place ["sys"], .notPermitted)]

/-- The usual links. -/
def usualLinks : List (Location × Location) :=
  [(place ["dev", "fd"], place ["proc", "self", "fd"]),
    (place ["dev", "stdin"], place ["proc", "self", "fd", "0"]),
    (place ["dev", "stdout"], place ["proc", "self", "fd", "1"]),
    (place ["dev", "stderr"], place ["proc", "self", "fd", "2"]),
    (place ["proc", "self", "cwd"], usualWorking),
    (place ["proc", "self", "root"], [])]

/-- The usual devices.  Nothing comes from the standard input. -/
def usualDevices : List (Location × Device) :=
  [(place ["dev", "null"], .null), (place ["dev", "zero"], .null),
    (place ["dev", "full"], .full), (place ["dev", "random"], .noise),
    (place ["dev", "urandom"], .noise), (place ["dev", "tty"], .detached),
    (place ["proc", "self", "fd", "0"], .null),
    (place ["proc", "self", "fd", "1"], .output),
    (place ["proc", "self", "fd", "2"], .errors)]

/-- The number of the open input among the open files. -/
def inputNumber : Location := place ["proc", "self", "fd", "3"]

/-- The file system with the given files in the working folder. -/
def ofFiles (files : List (Text × Bytes)) : FileSystem where
  folders := usualFolders
  sealed := usualSealed
  links := usualLinks
  devices := usualDevices
  files := files.map fun (name, content) => (usualWorking ++ [name], content)
  working := usualWorking
  opened := none
  output := []
  errors := []

/-! ### Locations -/

/-- Where a location leads if it is a link; any other leads to itself. -/
def resolve (fs : FileSystem) (l : Location) : Location :=
  if l = inputNumber then fs.opened.getD l
  else (fs.links.lookup l).getD l

/-- What is at a location that is no link. -/
def entry? (fs : FileSystem) (l : Location) : Option Entry :=
  if l = [] ∨ l ∈ fs.folders then some .folder
  else
    match fs.devices.lookup l with
    | some d => some (.device d)
    | none => (fs.files.lookup l).map Entry.file

/-- Replaces the content of the file at a location in a list of files, or
adds the file at the end. -/
def setIn (l : Location) (content : Bytes) :
    List (Location × Bytes) → List (Location × Bytes)
  | [] => [(l, content)]
  | (other, old) :: files =>
    if other = l then (l, content) :: files
    else (other, old) :: setIn l content files

/-- The name and the content of a file that lies in a folder. -/
def fileIn? (folder : Location) (file : Location × Bytes) :
    Option (Text × Bytes) :=
  match file.1.getLast? with
  | some name =>
    if file.1.dropLast = folder then some (name, file.2) else none
  | none => none

/-- The files in the working folder. -/
def workingFiles (fs : FileSystem) : List (Text × Bytes) :=
  fs.files.filterMap (fileIn? fs.working)

/-! ### Following paths -/

/-- What a path to be opened leads to: a folder that its last part does not
name, or a name in a folder with or without a slash behind it. -/
inductive Goal where
  | folder (l : Location)
  | named (l : Location) (name : Text) (closed : Bool)
  deriving DecidableEq

/-- The folder that one of the parts that move leads to. -/
def moved? (l : Location) (part : Text) : Option Location :=
  if part = Path.same then some l
  else if part = Path.above then some l.dropLast
  else none

/-- The fault of a name with too many bytes.  A folder that finds nothing but
what it has finds no such name either. -/
def overlong (fs : FileSystem) (l : Location) : SystemFault :=
  if fs.sealed.lookup l = some .notFound then .notFound else .nameTooLong

/-- The folder that a part of a path leads to from another. -/
def enter (fs : FileSystem) (l : Location) (part : Text) :
    Except SystemFault Location :=
  match moved? l part with
  | some l => .ok l
  | none =>
    if Path.isLongerThan Path.longestName part then .error (fs.overlong l)
    else
      let inner := fs.resolve (l ++ [part])
      match fs.entry? inner with
      | some .folder => .ok inner
      | some _ => .error .notADirectory
      | none => .error .notFound

/-- Follows a path up to its last part. -/
def goal (fs : FileSystem) (t : Text) : Except SystemFault Goal :=
  if Path.isLongerThan Path.longest t then .error .nameTooLong
  else
    let path := Path.ofText t
    let start := if path.fromRoot then [] else fs.working
    match path.parts.getLast? with
    | none => if path.fromRoot then .ok (.folder start) else .error .notFound
    | some last =>
      match path.parts.dropLast.foldlM fs.enter start with
      | .error fault => .error fault
      | .ok l =>
        match moved? l last with
        | some l => .ok (.folder l)
        | none => .ok (.named l last path.closed)

/-- Where a path leads, and what is there, to read it. -/
def find (fs : FileSystem) (path : Text) :
    Except SystemFault (Location × Entry) :=
  match fs.goal path with
  | .error fault => .error fault
  | .ok (.folder l) => .ok (l, .folder)
  | .ok (.named l name closed) =>
    if Path.isLongerThan Path.longestName name then .error (fs.overlong l)
    else
      let inner := fs.resolve (l ++ [name])
      match fs.entry? inner with
      | none => .error .notFound
      | some .folder => .ok (inner, .folder)
      | some entry =>
        if closed then .error .notADirectory
        else if entry = .device .detached then .error .noDevice
        else .ok (inner, entry)

/-! ### Access -/

/-- Opens what a path leads to, to read it. -/
def openInput (fs : FileSystem) (path : Text) :
    Except SystemFault FileSystem :=
  (fs.find path).map fun found => { fs with opened := some found.1 }

/-- What a device gives. -/
def deviceContent : Device → Bytes
  | .noise => [0xFF]
  | _ => []

/-- The content of what a path leads to. -/
def content (fs : FileSystem) (path : Text) : Except SystemFault Bytes :=
  match fs.find path with
  | .error fault => .error fault
  | .ok (_, .folder) => .error .isADirectory
  | .ok (_, .device d) => .ok (deviceContent d)
  | .ok (_, .file content) => .ok content

/-- The file system after the input is closed. -/
def closeInput (fs : FileSystem) : FileSystem := { fs with opened := none }

/-- Writes a content to a device. -/
def writeDevice (fs : FileSystem) (content : Bytes) :
    Device → Except SystemFault FileSystem
  | .null => .ok fs
  | .full => if content.isEmpty then .ok fs else .error .noSpace
  | .noise => .ok fs
  | .output => .ok { fs with output := fs.output ++ content }
  | .errors => .ok { fs with errors := fs.errors ++ content }
  | .detached => .error .noDevice

/-- Writes the content of the file at a location. -/
def setFile (fs : FileSystem) (l : Location) (content : Bytes) : FileSystem :=
  { fs with files := setIn l content fs.files }

/-- Writes a content to what a path leads to, and creates it if nothing is
there. -/
def write (fs : FileSystem) (path : Text) (content : Bytes) :
    Except SystemFault FileSystem :=
  match fs.goal path with
  | .error fault => .error fault
  | .ok (.folder _) => .error .isADirectory
  | .ok (.named l name closed) =>
    if closed then .error .isADirectory
    else if Path.isLongerThan Path.longestName name then .error (fs.overlong l)
    else
      let inner := fs.resolve (l ++ [name])
      match fs.entry? inner with
      | some .folder => .error .isADirectory
      | some (.device d) => fs.writeDevice content d
      | some (.file _) => .ok (fs.setFile inner content)
      | none =>
        match fs.sealed.lookup l with
        | some fault => .error fault
        | none => .ok (fs.setFile inner content)

/-- Changes the file system if the change succeeds. -/
def attempt (change : FileSystem → Except SystemFault FileSystem) :
    StateM FileSystem (Except SystemFault Unit) := fun fs =>
  match change fs with
  | .ok fs => (.ok (), fs)
  | .error fault => (.error fault, fs)

/-- The access to a file system.  The input stays open until the output is
written. -/
def access : FileAccess (StateM FileSystem) where
  openInput path := attempt (·.openInput path)
  create path := attempt (·.write path [])
  content path := fun fs => (fs.content path, fs)
  write path content :=
    attempt fun fs => (fs.write path content).map closeInput

end FileSystem

end TreebankGrammar.Command

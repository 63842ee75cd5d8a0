import ClassLayout.Storage
import ClassLayout.Storage.Path

/-!
# Disks

A disk is what a run finds around it and leaves behind, as a value: the files and directories in
its working directory, and whatever it puts elsewhere. Nothing is known of the world outside the
working directory but that the directories above it are there.

A path is walked step by step. All steps but the last must lead to directories; what the last may
lead to depends on what is done with it.
-/

namespace ClassLayout

inductive Node
  | file (content : ByteArray)
  | directory

/-- What places are counted from: the root, or the directory a number of levels above the working
directory. -/
inductive Origin
  | root
  | above (levels : Nat)
deriving DecidableEq, Repr

/-- A place, by the names that lead to it from its origin. -/
structure Place where
  origin : Origin
  names : List String := []
deriving DecidableEq, Repr

namespace Place

def working : Place := { origin := .above 0 }

def child (place : Place) (name : String) : Place := { place with names := place.names ++ [name] }

/-- The directory a place is in; the root is in itself. -/
def parent (place : Place) : Place :=
  match place.names, place.origin with
  | [], .above levels => { origin := .above (levels + 1) }
  | names, origin => ⟨origin, names.dropLast⟩

end Place

def Path.origin (path : Path) : Place :=
  match path.start with
  | .root => { origin := .root }
  | _ => .working

structure Disk where
  nodes : List (Place × Node) := []

namespace Disk

def node? (disk : Disk) (place : Place) : Option Node :=
  if place.names.isEmpty then some .directory else disk.nodes.lookup place

def put (disk : Disk) (place : Place) (node : Node) : Disk :=
  ⟨disk.nodes.filter (·.1 != place) ++ [(place, node)]⟩

/-! ### Walking -/

/-- Where a name leads from a directory, whether or not anything is there. -/
def enter (disk : Disk) (place : Place) (name : String) : Except StorageError Place :=
  match disk.node? place with
  | none => .error .notFound
  | some (.file _) => .error .notDirectory
  | some .directory =>
    if name = "." then .ok place
    else if name = ".." then .ok place.parent
    else .ok (place.child name)

/-- A step to a place where something is. -/
def step (disk : Disk) (place : Place) (name : String) : Except StorageError Place :=
  match disk.enter place name with
  | .error e => .error e
  | .ok next =>
    if Path.nameLimit < name.utf8ByteSize then .error .nameTooLong
    else if (disk.node? next).isSome then .ok next
    else .error .notFound

def walk (disk : Disk) (place : Place) : List String → Except StorageError Place
  | [] => .ok place
  | name :: rest =>
    match disk.step place name with
    | .error e => .error e
    | .ok next => disk.walk next rest

def find (disk : Disk) (path : Path) : Except StorageError Node :=
  if path.isTooLong then .error .nameTooLong
  else match disk.walk path.origin path.steps with
  | .error e => .error e
  | .ok place =>
    match disk.node? place with
    | some node => .ok node
    | none => .error .notFound

def isDirectory (disk : Disk) (path : Path) : Bool :=
  match disk.find path with
  | .ok .directory => true
  | _ => false

/-- The name that something put at a path would have and the place it would be at, or `none` if the
path leads to a directory whatever its names are. -/
def aim (disk : Disk) (path : Path) : Except StorageError (Option (String × Place)) :=
  if path.isTooLong then .error .nameTooLong
  else match path.steps.getLast? with
  | none => .ok none
  | some name =>
    match disk.walk path.origin path.steps.dropLast with
    | .error e => .error e
    | .ok place =>
      match disk.enter place name with
      | .error e => .error e
      | .ok next => .ok (if name = "." ∨ name = ".." then none else some (name, next))

/-! ### Reading and writing -/

def read (disk : Disk) (text : String) : Except StorageError String :=
  let path := Path.ofString text
  match disk.find path with
  | .error e => .error e
  | .ok .directory => .error .isDirectory
  | .ok (.file content) =>
    if path.endsInSlash then .error .notDirectory
    else match String.fromUTF8? content with
    | some text => .ok text
    | none => .error .notText

/-- A new directory, under a name that is not taken. -/
def makeDirectory (disk : Disk) (path : Path) : Except StorageError Disk :=
  match disk.aim path with
  | .error e => .error e
  | .ok none => .error .occupied
  | .ok (some (name, place)) =>
    if Path.nameLimit < name.utf8ByteSize then .error .nameTooLong
    else if (disk.node? place).isSome then .error .occupied
    else .ok (disk.put place .directory)

/-- A directory, new or not. -/
def ensureDirectory (disk : Disk) (path : Path) : Except StorageError Disk :=
  match disk.makeDirectory path with
  | .error .occupied => if disk.isDirectory path then .ok disk else .error .occupied
  | result => result

/-- The directory at a path whose parts are given last first. Those on the way to it are created
when it cannot be created without them. -/
def ensureDirectories (disk : Disk) (start : Start) : List String → Except StorageError Disk
  | [] => .ok disk
  | part :: rest =>
    if Path.leadsNowhere part then disk.ensureDirectories start rest
    else
      let path : Path := ⟨start, (part :: rest).reverse⟩
      match disk.ensureDirectory path with
      | .error .notFound =>
        match disk.ensureDirectories start rest with
        | .error e => .error e
        | .ok disk => disk.ensureDirectory path
      | result => result

/-- The directory at a path, with those on the way to it. -/
def putDirectory (disk : Disk) (text : String) : Except StorageError Disk :=
  let path := Path.ofString text
  disk.ensureDirectories path.start path.parts.reverse

/-- A file in a directory that is there. -/
def putFile (disk : Disk) (path : Path) (content : ByteArray) : Except StorageError Disk :=
  match disk.aim path with
  | .error e => .error e
  | .ok none => .error .isDirectory
  | .ok (some (name, place)) =>
    if path.endsInSlash then .error .isDirectory
    else if Path.nameLimit < name.utf8ByteSize then .error .nameTooLong
    else match disk.node? place with
    | some .directory => .error .isDirectory
    | _ => .ok (disk.put place (.file content))

/-- The file at a path, with the directories on the way to it. -/
def write (disk : Disk) (text : String) (content : ByteArray) : Except StorageError Disk :=
  let path := Path.ofString text
  let prepared := match path.parent? with
    | some parent => disk.ensureDirectories parent.start parent.parts.reverse
    | none => .ok disk
  match prepared with
  | .error e => .error e
  | .ok disk => disk.putFile path content

/-- The files in the working directory, each under its path from there. -/
def files (disk : Disk) : List (String × ByteArray) :=
  disk.nodes.filterMap fun
    | (⟨.above 0, names⟩, .file content) => some ("/".intercalate names, content)
    | _ => none

/-- Storage on a disk that is handed on from one use to the next. -/
def storage : Storage (StateM Disk) where
  read path disk := (disk.read path, disk)
  write path text disk :=
    match disk.write path text.toUTF8 with
    | .ok after => (.ok (), after)
    | .error e => (.error e, disk)

end Disk

end ClassLayout

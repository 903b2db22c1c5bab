import SpsAssembler.Text.Basic

/-!
# A store of files

Files and directories by path, with the failures that opening, creating and removing them has. A
place is counted from the working directory; of what is above it, and of what a path from the top
names, a store has only what was put into it. It may have places that cannot be written to, and an
end to its room.

* `Path.extension`, `Path.stem`: what stands from the last period of a file name on, and before it;
* `Path.base`: the last name of a path;
* `SystemError`, `FileError`: failures and their wording;
* `Place`, `Place.path`: where a file is;
* `FileStore.open?`, `FileStore.read`: looking into a store;
* `FileStore.create`, `FileStore.write`, `FileStore.append`, `FileStore.remove`: changing it.
-/

namespace SpsAssembler

namespace Path

/-- The separator of names. -/
def slash : Byte := '/'.toUInt8

/-- The period. -/
def dot : Byte := '.'.toUInt8

/-- The file name at the end of a path, empty behind a closing slash. -/
def fileName (path : Text) : Text := (path.reverse.takeWhile (· != slash)).reverse

/-- What stands from the last period of the file name on. -/
def extension (path : Text) : Text :=
  let name := fileName path
  if name.contains dot then dot :: (name.reverse.takeWhile (· != dot)).reverse else []

/-- The path without its extension. -/
def stem (path : Text) : Text := path.take (path.length - (extension path).length)

/-- The path without the slashes at its end. -/
def trimSlashes (path : Text) : Text := (path.reverse.dropWhile (· == slash)).reverse

/-- The last name of a path: a period for an empty path, and a slash for one of slashes only. -/
def base (path : Text) : Text :=
  if path.isEmpty then [dot]
  else if (trimSlashes path).isEmpty then [slash]
  else fileName (trimSlashes path)

end Path

/-- Why a file cannot be reached or changed. -/
inductive SystemError where
  | notFound
  | notDirectory
  | isDirectory
  | notEmpty
  | busy
  | invalidArgument
  | nameTooLong
  | accessDenied
  | noSpace
  deriving DecidableEq, Repr

/-- The wording of a failure. -/
def SystemError.message : SystemError → Text
  | notFound => ascii "no such file or directory"
  | notDirectory => ascii "not a directory"
  | isDirectory => ascii "is a directory"
  | notEmpty => ascii "directory not empty"
  | busy => ascii "device or resource busy"
  | invalidArgument => ascii "invalid argument"
  | nameTooLong => ascii "file name too long"
  | accessDenied => ascii "permission denied"
  | noSpace => ascii "no space left on device"

/-- A failure, with what was tried and where. -/
structure FileError where
  action : String
  path : Text
  cause : SystemError
  deriving DecidableEq, Repr

/-- The wording of a failure with its place. -/
def FileError.message (e : FileError) : Text :=
  ascii e.action ++ ascii " " ++ e.path ++ ascii ": " ++ e.cause.message

/-- What a path leads to. -/
inductive Node where
  | file (content : Text)
  | directory
  deriving DecidableEq, Repr

/-- The bytes that something takes up. -/
def Node.size : Node → Nat
  | file content => content.length
  | directory => 0

/-- A place in a store: the names on the way to it. The top is named by a slash. -/
abbrev Place := List Text

namespace Place

/-- The name of the top. -/
def top : Text := [Path.slash]

/-- The name of the directory above. -/
def above : Text := ascii ".."

/-- One name further; a blank name and a period lead nowhere else, and nothing is above the top. -/
def step (at_ : Place) (name : Text) : Place :=
  if name.isEmpty || name == ascii "." || (name == above && at_ == [top]) then at_
  else if name == above && at_.getLastD above != above then List.dropLast at_
  else at_ ++ [name]

/-- The names of a path, with the top in front if it starts there. -/
def names (path : Text) : List Text :=
  (if path.head? == some Path.slash then [top] else []) ++ path.fields Path.slash

/-- The names on the way of a path, and the last one; slashes at the end do not count. -/
def splitLast (path : Text) : List Text × Text :=
  let all := ((names path).reverse.dropWhile List.isEmpty).reverse
  (all.dropLast, all.getLastD [])

/-- The working directory, those above it, and the top, which are there in every store. -/
def isBase (at_ : Place) : Bool := at_.all (· == above) || at_ == [top]

/-- The path of a place. -/
def path : Place → Text
  | [] => ascii "."
  | first :: rest =>
    if first == top then top ++ Text.join top rest else Text.join top (first :: rest)

end Place

/-- Files and directories, each at its place. A guarded file cannot be written to, and in a guarded
directory nothing is created or removed. Without a number there is room for everything. -/
structure FileStore where
  entries : List (Place × Node) := []
  guarded : List Place := []
  room : Option Nat := none
  deriving DecidableEq, Repr

namespace FileStore

/-- What is at a place. -/
def node? (s : FileStore) (at_ : Place) : Option Node :=
  if Place.isBase at_ then some .directory
  else (s.entries.find? fun e => e.1 == at_).map Prod.snd

/-- The bytes that are taken up at a place. -/
def sizeAt (s : FileStore) (at_ : Place) : Nat := ((s.node? at_).map Node.size).getD 0

/-- Puts something at a place. -/
def set (s : FileStore) (at_ : Place) (node : Node) : FileStore :=
  { s with
    entries :=
      if (s.node? at_).isSome then s.entries.map fun e => if e.1 == at_ then (at_, node) else e
      else s.entries ++ [(at_, node)]
    room := s.room.map fun n => n + s.sizeAt at_ - node.size }

/-- Takes away what is at a place. -/
def erase (s : FileStore) (at_ : Place) : FileStore :=
  { s with
    entries := s.entries.filter fun e => e.1 != at_
    room := s.room.map fun n => n + s.sizeAt at_ }

/-- Whether something is inside the directory at a place. -/
def hasInside (s : FileStore) (at_ : Place) : Bool :=
  s.entries.any fun e => at_.isPrefixOf e.1 && at_.length < e.1.length

/-- The longest name. -/
def maxName : Nat := 255

/-- One more name on the way through a store; all but the last lead to directories. -/
def enter (s : FileStore) (at_ : Place) (name : Text) : Except SystemError Place :=
  match s.node? at_ with
  | none => .error .notFound
  | some (.file _) => .error .notDirectory
  | some .directory =>
    if maxName < name.length then .error .nameTooLong else .ok (Place.step at_ name)

/-- The longest path. -/
def maxPath : Nat := 4095

/-- Follows the names of a path, if it can be one. -/
def follow (s : FileStore) (path : Text) (names : List Text) : Except SystemError Place :=
  if path.contains 0 then .error .invalidArgument
  else if path.isEmpty then .error .notFound
  else if maxPath < path.length then .error .nameTooLong
  else names.foldlM s.enter []

/-- The place that a path names. -/
def locate (s : FileStore) (path : Text) : Except SystemError Place :=
  s.follow path (Place.names path)

/-- The directory that holds the last name of a path. -/
def holder (s : FileStore) (path : Text) : Except SystemError Place :=
  s.follow path ((Place.splitLast path).1 ++ [[]])

/-- Whether a path names something. -/
def has (s : FileStore) (path : Text) : Bool :=
  match s.locate path with
  | .ok at_ => (s.node? at_).isSome
  | .error _ => false

/-- Opens what a path names. -/
def open? (s : FileStore) (path : Text) : Except FileError Node :=
  let fail (cause : SystemError) := .error ⟨"open", path, cause⟩
  match s.locate path with
  | .error e => fail e
  | .ok at_ =>
    match s.node? at_ with
    | none => fail .notFound
    | some node => .ok node

/-- The failure to read a directory. -/
def unreadable (path : Text) : FileError := ⟨"read", path, .isDirectory⟩

/-- The content of a file. -/
def read (s : FileStore) (path : Text) : Except FileError Text :=
  match s.open? path with
  | .error e => .error e
  | .ok (.file content) => .ok content
  | .ok .directory => .error (unreadable path)

/-- Whether a place can be neither created nor removed: the directory that holds it is guarded. -/
def isFixed (s : FileStore) (at_ : Place) : Bool := s.guarded.contains at_.dropLast

/-- The place of a file that is written, new or there already. A path that ends in a slash can only
name a directory. -/
def writable (s : FileStore) (path : Text) : Except FileError Place :=
  let fail (cause : SystemError) := .error ⟨"open", path, cause⟩
  match s.holder path with
  | .error e => fail e
  | .ok _ =>
    if path.getLast? == some Path.slash then fail .isDirectory
    else match s.locate path with
      | .error e => fail e
      | .ok at_ =>
        match s.node? at_ with
        | some .directory => fail .isDirectory
        | some (.file _) => if s.guarded.contains at_ then fail .accessDenied else .ok at_
        | none => if s.isFixed at_ then fail .accessDenied else .ok at_

/-- Makes a file empty, new or there already, and gives its place. -/
def create (s : FileStore) (path : Text) : Except FileError (FileStore × Place) :=
  (s.writable path).map fun at_ => (s.set at_ (.file []), at_)

/-- The content of the file at a place, if there is one. -/
def contentAt (s : FileStore) (at_ : Place) : Text :=
  match s.node? at_ with
  | some (.file content) => content
  | _ => []

/-- Writes behind what is in a file as far as there is room, and counts the bytes written. -/
def write (s : FileStore) (at_ : Place) (content : Text) : FileStore × Nat :=
  let n := min content.length (s.room.getD content.length)
  (s.set at_ (.file (s.contentAt at_ ++ content.take n)), n)

/-- Writes behind what is in a file, or a new file. -/
def append (s : FileStore) (path content : Text) : Except FileError FileStore :=
  (s.writable path).map fun at_ => (s.write at_ content).1

/-- Removes a file or an empty directory. Directories that a path does not call by their name stay:
the one where it already is, the one above, and the top. -/
def remove (s : FileStore) (path : Text) : Except FileError FileStore :=
  let fail (cause : SystemError) := .error ⟨"remove", path, cause⟩
  match s.holder path with
  | .error e => fail e
  | .ok _ =>
    let last := (Place.splitLast path).2
    if last == ascii "." then fail .invalidArgument
    else if last == Place.above then fail .notEmpty
    else if last == Place.top then fail .busy
    else match s.locate path with
      | .error e => fail e
      | .ok at_ =>
        match s.node? at_ with
        | none => fail .notFound
        | some node =>
          if s.isFixed at_ then fail .accessDenied
          else if node == .directory && (Place.isBase at_ || s.hasInside at_) then fail .notEmpty
          else .ok (s.erase at_)

/-- Puts a file or a directory into a store, with the directories on the way. -/
def install (s : FileStore) (path : Text) (node : Node) : FileStore :=
  let place := (Place.names path).foldl Place.step []
  let parents := (List.range place.length).map fun n => place.take n
  (parents.foldl (fun s at_ => if (s.node? at_).isSome then s else s.set at_ .directory) s).set
    place node

end FileStore

end SpsAssembler

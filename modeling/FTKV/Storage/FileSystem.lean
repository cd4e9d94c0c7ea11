import FTKV.Foundation.Formats
import Mathlib.Logic.Function.Basic

/-!
# The file system

What `kv_store.cpp` reaches through `<filesystem>` and `<fstream>`.  The file
system is not part of the program, so it is an interface here: the calls the
program makes, and what can be observed of a disk.

## Calls that fail

Any call may fail.  `LawfulFileSystem` states what is documented: a call on one
path leaves the files at other paths alone, the bytes written to a stream are
in the file once closing it has succeeded, and renaming moves a file over
another one or leaves the target as it was.  Nothing is said about the file
behind a stream when a call on it fails.
-/

namespace FTKV
namespace Storage

open Foundation

abbrev Path := String

/--
`path::parent_path`: the path without its last component and the separators in
front of it.  A path that is only a root directory is its own parent.
-/
def parentPath (path : Path) : Path :=
  let reversed := path.toList.reverse
  if reversed.all (· == '/') then
    path
  else
    let directory := reversed.dropWhile (· != '/')
    let trimmed := directory.dropWhile (· == '/')
    -- The root directory is a single separator, however often the path repeats it.
    String.ofList (if trimmed = [] then directory.take 1 else trimmed).reverse

inductive FileCall where
  /-- The constructor of a binary, truncating `std::ofstream`. -/
  | openOutput
  | write (data : Bytes)
  | flush
  | close
  /-- The destructor of the stream, which reports no failure. -/
  | release
  | remove
deriving DecidableEq, Repr

/--
The calls of a program on a disk.  The state of the open streams belongs to the
disk, and a call that changes files tells whether it succeeded.
-/
class FileSystem (disk : Type) where
  /-- The file at a path. -/
  contents : disk -> Path -> Option Bytes
  /-- What has been written to the output stream that is open on a path. -/
  written : disk -> Path -> Bytes
  /-- `exists`; no result when the error code is set. -/
  inspect : Path -> disk -> Option Bool × disk
  /-- The bytes an input stream delivers; no result when it does not open. -/
  openInput : Path -> disk -> Option Bytes × disk
  createDirectories : Path -> disk -> Bool × disk
  call : FileCall -> Path -> disk -> Bool × disk
  rename : Path -> Path -> disk -> Bool × disk

class LawfulFileSystem (disk : Type) [FileSystem disk] : Prop where
  contents_inspect : forall (path : Path) (d : disk),
    FileSystem.contents (FileSystem.inspect path d).2 = FileSystem.contents d
  contents_openInput : forall (path : Path) (d : disk),
    FileSystem.contents (FileSystem.openInput path d).2 = FileSystem.contents d
  contents_createDirectories : forall (path : Path) (d : disk),
    FileSystem.contents (FileSystem.createDirectories path d).2 =
      FileSystem.contents d
  contents_call_of_ne : forall (call : FileCall) (path other : Path) (d : disk),
    other ≠ path -> FileSystem.contents (FileSystem.call call path d).2 other =
      FileSystem.contents d other
  written_openOutput : forall (path : Path) (d d' : disk),
    FileSystem.call .openOutput path d = (true, d') ->
      FileSystem.written d' path = []
  written_write : forall (path : Path) (data : Bytes) (d d' : disk),
    FileSystem.call (.write data) path d = (true, d') ->
      FileSystem.written d' path = FileSystem.written d path ++ data
  written_flush : forall (path : Path) (d d' : disk),
    FileSystem.call .flush path d = (true, d') ->
      FileSystem.written d' path = FileSystem.written d path
  contents_close : forall (path : Path) (d d' : disk),
    FileSystem.call .close path d = (true, d') ->
      FileSystem.contents d' path = some (FileSystem.written d path)
  contents_rename : forall (path target : Path) (d d' : disk),
    FileSystem.rename path target d = (true, d') ->
      FileSystem.contents d' target = FileSystem.contents d path
  contents_rename_failed : forall (path target : Path) (d d' : disk),
    FileSystem.rename path target d = (false, d') ->
      FileSystem.contents d' target = FileSystem.contents d target

class ReliableReads (disk : Type) [FileSystem disk] : Prop where
  inspect_eq : forall (path : Path) (d : disk),
    (FileSystem.inspect path d).1 = some (FileSystem.contents d path).isSome
  openInput_eq : forall (path : Path) (d : disk),
    (FileSystem.openInput path d).1 = FileSystem.contents d path

/--
Disks whose calls succeed from some states on: every call from such a state
succeeds and leads to such a state.
-/
structure Dependable {disk : Type} [FileSystem disk] (good : disk -> Prop) :
    Prop where
  createDirectories : forall (path : Path) (d : disk), good d ->
    (FileSystem.createDirectories path d).1 = true ∧
      good (FileSystem.createDirectories path d).2
  call : forall (call : FileCall) (path : Path) (d : disk), good d ->
    (FileSystem.call call path d).1 = true ∧ good (FileSystem.call call path d).2
  rename : forall (path target : Path) (d : disk), good d ->
    (FileSystem.rename path target d).1 = true ∧
      good (FileSystem.rename path target d).2

/-!
# A disk in memory

Files and streams are functions, and a script of outcomes decides which calls
fail.  A stream reaches its file when it is closed.  When the script is used up
every call succeeds.
-/

structure MemoryDisk where
  files : Path -> Option Bytes := fun _ => none
  streams : Path -> Bytes := fun _ => []
  script : List Bool := []

namespace MemoryDisk

def succeeds (d : MemoryDisk) : Bool :=
  d.script.headD true

def advance (d : MemoryDisk) : MemoryDisk :=
  { d with script := d.script.tail }

def apply (d : MemoryDisk) (path : Path) : FileCall -> MemoryDisk
  | .openOutput => { d with
      files := Function.update d.files path (some [])
      streams := Function.update d.streams path [] }
  | .write data => { d with
      streams := Function.update d.streams path (d.streams path ++ data) }
  | .flush => d
  | .close => { d with
      files := Function.update d.files path (some (d.streams path)) }
  | .release => d
  | .remove => { d with files := Function.update d.files path none }

def move (d : MemoryDisk) (path target : Path) : MemoryDisk :=
  { d with
    files := Function.update (Function.update d.files path none) target
      (d.files path) }

def attempt (d : MemoryDisk) (changed : MemoryDisk) : Bool × MemoryDisk :=
  (d.succeeds, (if d.succeeds then changed else d).advance)

instance : FileSystem MemoryDisk where
  contents d := d.files
  written d := d.streams
  inspect path d := (some (d.files path).isSome, d)
  openInput path d := (d.files path, d)
  createDirectories _ d := d.attempt d
  call call path d := d.attempt (d.apply path call)
  rename path target d := d.attempt (d.move path target)

theorem eq_of_attempt_eq_true {d changed d' : MemoryDisk}
    (h : d.attempt changed = (true, d')) : d' = changed.advance := by
  rcases Prod.mk.inj h with ⟨hsucceeds, hd'⟩
  rw [← hd', if_pos hsucceeds]

theorem eq_of_attempt_eq_false {d changed d' : MemoryDisk}
    (h : d.attempt changed = (false, d')) : d' = d.advance := by
  rcases Prod.mk.inj h with ⟨hsucceeds, hd'⟩
  rw [← hd', hsucceeds]
  rfl

theorem files_apply_of_ne (d : MemoryDisk) {path other : Path} (call : FileCall)
    (hne : other ≠ path) : (d.apply path call).files other = d.files other := by
  cases call with
  | openOutput => exact Function.update_of_ne hne ..
  | write data => rfl
  | flush => rfl
  | close => exact Function.update_of_ne hne ..
  | release => rfl
  | remove => exact Function.update_of_ne hne ..

instance : LawfulFileSystem MemoryDisk where
  contents_inspect _ _ := rfl
  contents_openInput _ _ := rfl
  contents_createDirectories path d := by
    show (if d.succeeds then d else d).files = d.files
    rw [ite_self]
  contents_call_of_ne call path other d hne := by
    show (if d.succeeds then d.apply path call else d).files other = d.files other
    split
    · exact files_apply_of_ne d call hne
    · rfl
  written_openOutput path d d' h := by
    rw [eq_of_attempt_eq_true h]
    exact Function.update_self ..
  written_write path data d d' h := by
    rw [eq_of_attempt_eq_true h]
    exact Function.update_self ..
  written_flush path d d' h := by
    rw [eq_of_attempt_eq_true h]
    rfl
  contents_close path d d' h := by
    rw [eq_of_attempt_eq_true h]
    exact Function.update_self ..
  contents_rename path target d d' h := by
    rw [eq_of_attempt_eq_true h]
    exact Function.update_self ..
  contents_rename_failed path target d d' h := by
    rw [eq_of_attempt_eq_false h]
    rfl

instance : ReliableReads MemoryDisk where
  inspect_eq _ _ := rfl
  openInput_eq _ _ := rfl

theorem dependable : Dependable fun d : MemoryDisk => d.script = [] := by
  have hattempt : forall d changed : MemoryDisk, d.script = [] ->
      changed.script = [] ->
      (d.attempt changed).1 = true ∧ (d.attempt changed).2.script = [] := by
    intro d changed hd hchanged
    have hsucceeds : d.succeeds = true := by
      unfold succeeds
      rw [hd]
      rfl
    unfold attempt
    rw [hsucceeds]
    constructor
    · rfl
    · show changed.script.tail = []
      rw [hchanged]
      rfl
  constructor
  · intro path d hd
    exact hattempt d d hd hd
  · intro call path d hd
    apply hattempt d _ hd
    cases call <;> exact hd
  · intro path target d hd
    exact hattempt d _ hd hd

end MemoryDisk

end Storage
end FTKV

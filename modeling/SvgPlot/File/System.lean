import SvgPlot.File.Fault
import SvgPlot.File.Path

/-!
# File systems

What a program finds when it opens a path: directories inside directories to any depth, files, devices and symbolic
links, each with what the system refuses there. A path is followed name by name, so the first name that leads nowhere
decides on the fault.

The things in a file system are its nodes, and a node is known by its number. A directory has names for nodes, and a
file can have several names, in one directory or in more.
-/

namespace SvgPlot

/-- What the system refuses at a node, and with which fault: for want of rights, because a disk is read-only, broken or
full, or for any other reason. -/
structure Guard where
  /-- names are not looked up in the directory -/
  search : Option FileFault := none
  /-- nothing is read from it -/
  read : Option FileFault := none
  /-- nothing is written to it, and no new name is added -/
  write : Option FileFault := none
  /-- so many bytes can be written to it, or to a new file in it, and more cannot -/
  room : Option (Nat × FileFault) := none
deriving Repr, DecidableEq

namespace Guard

/-- So many bytes can be written. -/
def Admits (guard : Guard) (size : Nat) : Prop :=
  guard.write = none ∧ ∀ room fault, guard.room = some (room, fault) → size ≤ room

/-- Passes on bytes as far as they can be written. A file has been emptied before it turns out that there is no room. -/
def pass {α : Type} (guard : Guard) (bytes : List UInt8) (unchanged : α) (store : List UInt8 → α) :
    Except FileFault Unit × α :=
  match guard.write with
  | some fault => (.error fault, unchanged)
  | none =>
    match guard.room with
    | some (room, fault) =>
      if room < bytes.length then (.error fault, store (bytes.take room)) else (.ok (), store bytes)
    | none => (.ok (), store bytes)

end Guard

/-- What a node is. -/
inductive NodeKind where
  | directory (parent : Nat) (entries : List (String × Nat))
  | file (bytes : List UInt8)
  /-- gives the same bytes to every reader, and keeps nothing of what is written to it -/
  | device (bytes : List UInt8)
  /-- a symbolic link, which stands for the path in it -/
  | link (target : String)
deriving Repr, DecidableEq

structure Node where
  kind : NodeKind
  guard : Guard := {}
deriving Repr, DecidableEq

/-- The node has one more name, if it is a directory. -/
def Node.withEntry (node : Node) (name : String) (number : Nat) : Node :=
  match node.kind with
  | .directory parent entries => { node with kind := .directory parent (entries ++ [(name, number)]) }
  | _ => node

/-- Where a path ends: at a node, or at a name that a directory does not have yet. -/
inductive Spot where
  | node (number : Nat)
  | free (directory : Nat) (name : String)
deriving Repr, DecidableEq

/-- The node that changes if something is written at a spot. -/
def Spot.place : Spot → Nat
  | .node number => number
  | .free directory _ => directory

structure FileSystem where
  nodes : List Node
  root : Nat
  /-- the directory that the program runs in -/
  here : Nat
deriving Repr, DecidableEq

namespace FileSystem

/-! ## Following paths -/

/-- The node that a name stands for in a directory, if there is one. -/
def lookUp (s : FileSystem) (directory : Nat) (name : String) : Except FileFault (Option Nat) :=
  match s.nodes[directory]? with
  | some ⟨.directory parent entries, guard⟩ =>
    if name = Path.slash then .ok (some directory)
    else
      match guard.search with
      | some fault => .error fault
      | none =>
        if name = Path.itself then .ok (some directory)
        else if name = Path.outward then .ok (some parent)
        else
          match entries.lookup name with
          | some number => .ok (some number)
          | none => if Path.nameLimit < Text.byteLength name.toList then .error .nameTooLong else .ok none
  | _ => .error .notADirectory

/-- The path that a node stands for, if it is a link. -/
def target? (s : FileSystem) (number : Nat) : Option Path :=
  match s.nodes[number]? with
  | some ⟨.link target, _⟩ => some (Path.of target)
  | _ => none

/-- The directory from which a path is followed that is met in this one. -/
def start (s : FileSystem) (path : Path) (directory : Nat) : Nat := if path.fromRoot then s.root else directory

/-- Follows names from a directory. From the first link on, `jump` follows the path in it and the names that are left.
Only the last name may be free. Nothing is written to where a slash follows the last name, be there a directory or
not. -/
def descend (s : FileSystem) (writing : Bool) (jump : Nat → List String → Except FileFault Spot) :
    (directory : Nat) → List String → Except FileFault Spot
  | directory, [] => .ok (.node directory)
  | directory, name :: names =>
    if writing && names == [Path.slash] then
      match s.lookUp directory Path.itself with
      | .error fault => .error fault
      | .ok _ => .error .isADirectory
    else
      match s.lookUp directory name with
      | .error fault => .error fault
      | .ok none => if names.isEmpty then .ok (.free directory name) else .error .noSuchFile
      | .ok (some number) =>
        match s.target? number with
        | none => s.descend writing jump number names
        | some path => jump (s.start path directory) (path.steps ++ names)

/-- All that a name can lead to: a free name at the end, another node, or the path in a link. -/
theorem descend_cons_eq_ok_iff {s : FileSystem} {writing : Bool} {jump : Nat → List String → Except FileFault Spot}
    {directory : Nat} {name : String} {names : List String} {spot : Spot} :
    s.descend writing jump directory (name :: names) = .ok spot ↔
      (writing = true → names ≠ [Path.slash]) ∧
        (s.lookUp directory name = .ok none ∧ names = [] ∧ spot = .free directory name ∨
          ∃ number, s.lookUp directory name = .ok (some number) ∧
            (s.target? number = none ∧ s.descend writing jump number names = .ok spot ∨
              ∃ path, s.target? number = some path ∧
                jump (s.start path directory) (path.steps ++ names) = .ok spot)) := by
  rw [descend]
  split
  · rename_i hslash
    simp only [Bool.and_eq_true, beq_iff_eq] at hslash
    constructor
    · intro h
      split at h <;> cases h
    · rintro ⟨hnever, -⟩
      exact absurd hslash.2 (hnever hslash.1)
  · rename_i hslash
    have hallowed : writing = true → names ≠ [Path.slash] := fun hwriting hnames => hslash (by simp [hwriting, hnames])
    rw [and_iff_right hallowed]
    cases s.lookUp directory name with
    | error fault => simp
    | ok entry =>
      cases entry with
      | none => cases names <;> simp [eq_comm]
      | some number => cases htarget : s.target? number <;> simp [htarget]

/-- Follows names from a directory, and so many links at most. -/
def follow (s : FileSystem) (writing : Bool) : (links : Nat) → (directory : Nat) → List String → Except FileFault Spot
  | 0 => s.descend writing fun _ _ => .error .tooManyLinks
  | links + 1 => s.descend writing (s.follow writing links)

/-- Follows a path. The empty one leads nowhere. -/
def locate (s : FileSystem) (writing : Bool) (text : String) : Except FileFault Spot :=
  if text.isEmpty then .error .noSuchFile
  else if Path.limit < Text.byteLength text.toList then .error .nameTooLong
  else s.follow writing Path.linkLimit (s.start (Path.of text) s.here) (Path.of text).steps

/-! ## Reading -/

/-- The bytes that a node gives to a reader. -/
def readNode (s : FileSystem) (number : Nat) : Except FileFault (List UInt8) :=
  match s.nodes[number]? with
  | none => .error .noSuchFile
  | some node =>
    match node.guard.read, node.kind with
    | some fault, _ => .error fault
    | none, .file bytes => .ok bytes
    | none, .device bytes => .ok bytes
    | none, .directory .. => .error .isADirectory
    | none, .link _ => .error .noSuchFile

/-- The bytes of the file that a path leads to. -/
def read (s : FileSystem) (text : String) : Except FileFault (List UInt8) :=
  match s.locate false text with
  | .error fault => .error fault
  | .ok (.node number) => s.readNode number
  | .ok (.free ..) => .error .noSuchFile

/-! ## Writing -/

/-- A file gets other content. -/
def overwrite (s : FileSystem) (number : Nat) (bytes : List UInt8) : FileSystem :=
  { s with nodes := s.nodes.modify number fun node => { node with kind := .file bytes } }

/-- A directory gets a new file. -/
def create (s : FileSystem) (directory : Nat) (name : String) (bytes : List UInt8) : FileSystem :=
  { s with nodes := s.nodes.modify directory (·.withEntry name s.nodes.length) ++ [{ kind := .file bytes }] }

/-- The file at a spot gets this content, whether it was there before or not. -/
def put (s : FileSystem) : Spot → List UInt8 → FileSystem
  | .node number, bytes => s.overwrite number bytes
  | .free directory name, bytes => s.create directory name bytes

/-- Writes bytes where a path has led to. -/
def writeAt (s : FileSystem) (bytes : List UInt8) (spot : Spot) : Except FileFault Unit × FileSystem :=
  match s.nodes[spot.place]? with
  | none => (.error .noSuchFile, s)
  | some node =>
    match spot, node.kind with
    | .free .., _ => node.guard.pass bytes s (s.put spot)
    | .node _, .file _ => node.guard.pass bytes s (s.put spot)
    | .node _, .device _ => node.guard.pass bytes s fun _ => s
    | .node _, .directory .. => (.error .isADirectory, s)
    | .node _, .link _ => (.error .noSuchFile, s)

/-- Writes a file whole, which need not have been there before. What is said and what is left are two things: a file
can have changed though not all could be written. -/
def write (s : FileSystem) (text : String) (bytes : List UInt8) : Except FileFault Unit × FileSystem :=
  match s.locate true text with
  | .error fault => (.error fault, s)
  | .ok spot => s.writeAt bytes spot

/-! ## A small system -/

/-- The directories that are commonly in the root besides the two that `ofList` fills. -/
def commonDirectories : List (String × Guard) :=
  [("bin", {}), ("boot", {}), ("etc", {}), ("home", {}), ("lib", {}), ("media", {}), ("mnt", {}), ("opt", {}),
    ("proc", { write := some .noSuchFile }), ("root", {}), ("run", {}), ("sbin", {}), ("srv", {}),
    ("sys", { write := some .permissionDenied }), ("usr", {}), ("var", {})]

/-- Some files in a directory of their own, in which the program runs. All else is empty but for the device that has
nothing in it. -/
def ofList (files : List (String × List UInt8)) : FileSystem where
  nodes :=
    [⟨.directory 0 ([("dev", 1), ("tmp", 3)] ++ (commonDirectories.map Prod.fst).zipIdx 5), {}⟩,
      ⟨.directory 0 [("null", 2)], {}⟩, ⟨.device [], {}⟩, ⟨.directory 0 [("work", 4)], {}⟩,
      ⟨.directory 3 ((files.map Prod.fst).zipIdx (5 + commonDirectories.length)), {}⟩] ++
      commonDirectories.map (fun (_, guard) => ⟨.directory 0 [], guard⟩) ++
      files.map fun (_, bytes) => ⟨.file bytes, {}⟩
  root := 0
  here := 4

end FileSystem

end SvgPlot

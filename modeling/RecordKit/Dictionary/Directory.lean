import RecordKit.Dictionary.Request
import RecordKit.Shared.KeyMap
import RecordKit.Shared.Pool

/-!
# Directories of dictionaries

A library holds shared dictionaries and directories under numbers.  A number is a
handle: what is done through it is seen through every handle of the same dictionary
or directory.  A directory lists handles of dictionaries under keys; to list or to
take out a key does nothing to the dictionaries.  `step` answers one command.
-/

namespace RecordKit

/-- A handle of a shared dictionary. -/
abbrev DictRef := Nat

/-- A handle of a shared directory. -/
abbrev DirectoryRef := Nat

/-- Handles of dictionaries by key. -/
abbrev Directory := KeyMap DictRef

/-- The directory has nothing under the key. -/
structure DictNotFound where
  key : String
deriving DecidableEq, Repr

def DictNotFound.message (e : DictNotFound) : String :=
  "[dict] no data dictionary registered under '" ++ e.key ++ "'"

/-- The handle of the dictionary listed under a key. -/
def Directory.find (d : Directory) (key : String) : Except DictNotFound DictRef :=
  match d.get? key with
  | some ref => .ok ref
  | none => .error ⟨key⟩

/-- Where a dictionary comes from that is made for a key: it is a new one, or one
of which there is a handle already. -/
inductive DictSource (α : Type) where
  | new (d : Dict α)
  | held (ref : DictRef)

/-- A command to a library.  Dictionaries and directories go by their handles. -/
inductive LibraryCommand (τ ν : Type) where
  | advance (span : Span)
  | create (d : Dict (TypedValue τ ν))
  | use (ref : DictRef) (request : DictRequest τ ν)
  | createDirectory
  | put (dir : DirectoryRef) (key : String) (ref : DictRef)
  | get (dir : DirectoryRef) (key : String)
  | getOrInsertWith (dir : DirectoryRef) (key : String)
      (make : String → DictSource (TypedValue τ ν))
  | remove (dir : DirectoryRef) (key : String)
  | keys (dir : DirectoryRef)
  | size (dir : DirectoryRef)
  | isEmpty (dir : DirectoryRef)

inductive LibraryAnswer (τ ν : Type) where
  | created (ref : DictRef)
  | used (a : DictAnswer τ ν)
  | directory (dir : DirectoryRef)
  | found (result : Except DictNotFound DictRef)
  /-- The dictionary under a key, and whether it has just been made. -/
  | obtained (ref : DictRef) (made : Bool)
  | removed (ref : Option DictRef)
  | keys (keys : List String)
  | count (n : Nat)
  | flag (b : Bool)
  | done
  /-- The command names a dictionary or a directory that is not there. -/
  | unknown

/-- Shared dictionaries and directories, and the time. -/
structure DictLibrary (α : Type) where
  now : Instant
  dicts : Pool (Dict α)
  directories : Pool Directory

namespace DictLibrary

section

variable {α : Type}

def empty : DictLibrary α :=
  ⟨Instant.start, Pool.empty, Pool.empty⟩

/-- Add a dictionary that no directory lists. -/
def create (lib : DictLibrary α) (d : Dict α) : DictRef × DictLibrary α :=
  let (ref, dicts) := lib.dicts.add d
  (ref, { lib with dicts })

/-- The handle of a dictionary from its source. -/
def obtain? (lib : DictLibrary α) : DictSource α → Option (DictRef × DictLibrary α)
  | .new d => some (lib.create d)
  | .held ref => (lib.dicts.get? ref).map fun _ => (ref, lib)

def setDict (lib : DictLibrary α) (ref : DictRef) (d : Dict α) : DictLibrary α :=
  { lib with dicts := lib.dicts.set ref d }

def setDirectory (lib : DictLibrary α) (dir : DirectoryRef) (d : Directory) : DictLibrary α :=
  { lib with directories := lib.directories.set dir d }

end

variable {τ ν : Type} [DecidableEq τ]

/-- Answer one command. -/
def step (lib : DictLibrary (TypedValue τ ν)) :
    LibraryCommand τ ν → LibraryAnswer τ ν × DictLibrary (TypedValue τ ν)
  | .advance span => (.done, { lib with now := lib.now.advance span })
  | .create d =>
      let (ref, lib) := lib.create d
      (.created ref, lib)
  | .use ref request =>
      match lib.dicts.get? ref with
      | some d =>
          let (a, d) := request.answer lib.now d
          (.used a, lib.setDict ref d)
      | none => (.unknown, lib)
  | .createDirectory =>
      let (dir, directories) := lib.directories.add KeyMap.empty
      (.directory dir, { lib with directories })
  | .put dir key ref =>
      match lib.directories.get? dir, lib.dicts.get? ref with
      | some directory, some _ => (.done, lib.setDirectory dir (directory.insert key ref))
      | _, _ => (.unknown, lib)
  | .get dir key =>
      match lib.directories.get? dir with
      | some directory => (.found (directory.find key), lib)
      | none => (.unknown, lib)
  | .getOrInsertWith dir key make =>
      match lib.directories.get? dir with
      | some directory =>
          match directory.get? key with
          | some ref => (.obtained ref false, lib)
          | none =>
              match lib.obtain? (make key) with
              | some (ref, lib) =>
                  (.obtained ref true, lib.setDirectory dir (directory.insert key ref))
              | none => (.unknown, lib)
      | none => (.unknown, lib)
  | .remove dir key =>
      match lib.directories.get? dir with
      | some directory =>
          (.removed (directory.get? key), lib.setDirectory dir (directory.erase key))
      | none => (.unknown, lib)
  | .keys dir =>
      match lib.directories.get? dir with
      | some directory => (.keys directory.keys, lib)
      | none => (.unknown, lib)
  | .size dir =>
      match lib.directories.get? dir with
      | some directory => (.count directory.size, lib)
      | none => (.unknown, lib)
  | .isEmpty dir =>
      match lib.directories.get? dir with
      | some directory => (.flag (directory.size == 0), lib)
      | none => (.unknown, lib)

/-- The library after a list of commands. -/
def run (lib : DictLibrary (TypedValue τ ν)) (commands : List (LibraryCommand τ ν)) :
    DictLibrary (TypedValue τ ν) :=
  commands.foldl (fun lib c => (lib.step c).2) lib

end DictLibrary

end RecordKit

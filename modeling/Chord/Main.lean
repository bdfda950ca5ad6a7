import Chord.Command.Console

/-!
# The program

**Input.** The words after the name of the program, the files that they name and the standard input.

**Results.** `main` reads the files, lets the console work on them and writes what has changed.
-/

namespace Chord
namespace Shell

/-- How often a loop may repeat: too often for any machine to get there. -/
def loops : Nat := 1000000000000000000

/-- Reads what a path leads to into a store. -/
def load (s : Store) (path : String) : IO Store := do
  let key := Store.join (Store.parts path)
  try
    let data ← IO.FS.readBinFile path
    return { s with files := s.files.insert key data }
  catch error =>
    match error with
    | .noFileOrDirectory _ _ _ => return s
    | .permissionDenied _ _ _ => return { s with closed := key :: s.closed }
    | _ => return { s with directories := key :: s.directories }

/-- Whether a path leads to a directory. -/
def isFolder (path : String) : IO Bool := do
  try
    IO.FS.withFile (path ++ "/.") .read fun _ => return true
  catch _ => return false

/-- Notes the directories on the way to a path in a store. -/
def loadFronts (s : Store) (path : String) : IO Store := do
  let ps := Store.parts path
  let root := if path.startsWith "/" then "/" else "./"
  let fronts := (List.range ps.length).map fun n => Store.join (ps.take n)
  let found ← fronts.filterM fun front => isFolder (root ++ front)
  return { s with directories := found ++ s.directories }

/-- The text on the standard input; none at a terminal. -/
def standardInput : IO (Option (Except FileError String)) := do
  let input ← IO.getStdin
  if ← input.isTty then return none
  let data ← input.readBinToEnd
  match String.fromUTF8? data with
  | some text => return some (.ok text)
  | none => return some (.error .notText)

/-- Whether a task reads the standard input. -/
def readsInput : Option Invocation → Bool
  | some (.task _ _ (.check none _ _)) => true
  | _ => false

/-- Writes what has changed at a path. -/
def save (before after : Store) (path : String) : IO Unit := do
  let key := Store.join (Store.parts path)
  match after.files.get? key with
  | some data => if before.files.get? key != some data then IO.FS.writeBinFile path data
  | none => return

end Shell
end Chord

open Chord in
/-- Runs the program. -/
def main (args : List String) : IO UInt32 := do
  let invocation := Arguments.parse args
  let paths := (invocation.map Console.paths).getD []
  let mut files : Store := {}
  for path in paths do
    files ← Shell.loadFronts files path
    files ← Shell.load files path
  let input ← if Shell.readsInput invocation then Shell.standardInput else pure none
  let outcome := Console.execute files input Shell.loops invocation
  for note in outcome.notes do
    IO.eprintln note.describe
  IO.print outcome.stdout
  IO.eprint outcome.stderr
  for path in paths do
    Shell.save files outcome.files path
  return UInt32.ofNat outcome.exit

import Recordsmith.Command.Run

/-! The program: reads the files that its arguments name, runs the command on them, and writes what it changed. -/

open Recordsmith

namespace Recordsmith.Main

/-- Adds the file or directory at a path to a store, if there is one. -/
def addFromDisk (store : Store) (path : Path) : IO Store := do
  let onDisk := (← IO.currentDir) / path.text
  if ← onDisk.isDir then return (store.ensureDirectory path).toOption.getD store
  else if ← onDisk.pathExists then
    let bytes ← IO.FS.readBinFile onDisk
    return (store.save path bytes.toList).toOption.getD store
  else return store

/-- The paths that arguments may name: operands, and values with or without their option. -/
def candidates (arguments : List String) : List Path :=
  let values := arguments.flatMap fun argument =>
    let value := argument.toList.dropWhile (· != '=')
    [argument, String.ofList (value.drop 1), String.ofList (argument.toList.drop 2)]
  (Command.defaultFileName :: values.filter (· != "")).map Path.ofText

/-- A path with the paths of all directories on the way to it, outermost first. -/
def lineage (path : Path) : List Path := (List.range (path.steps.length + 1)).map fun n =>
  { path with steps := path.steps.take n }

/-- Warnings are always shown. -/
def isShown (verbose : Bool) (line : LogLine) : Bool := verbose || line.level == .warning

/-- Writes a file and makes the directories on the way to it. -/
def toDisk (place : Place) (bytes : List UInt8) : IO Unit := do
  IO.FS.createDirAll (Path.mk .root place.dropLast).text
  IO.FS.writeBinFile (Path.mk .root place).text (ByteArray.mk bytes.toArray)

end Recordsmith.Main

open Recordsmith.Main in
def main (arguments : List String) : IO UInt32 := do
  let home := (Path.ofText (← IO.currentDir).toString).steps
  let mut store : Store := .ofFiles home []
  for path in (candidates arguments).flatMap lineage do
    store ← addFromDisk store path
  let input ← if arguments.contains "init" then (← IO.getStdin).readToEnd else pure ""
  let outcome := Command.run arguments input.toList store
  let verbose := arguments.contains "-v" || arguments.contains "--verbose"
  for line in outcome.log do
    if isShown verbose line then IO.eprintln (line.origin.text ++ ": " ++ line.message)
  IO.print (String.ofList outcome.output)
  for (place, bytes) in outcome.store.files do
    if store.file? place != some bytes then toDisk place bytes
  return UInt32.ofNat outcome.exitCode

import DocSite.Command.Run
import DocSite.FileTree.Change

namespace DocSite.CommandLine

def usage : String :=
  "Usage: docsite generate -m MODEL -o OUTPUT [-c CONFIG] [--no-wipe] [--no-progressbar] [-v]\n" ++
  "       docsite clean -o OUTPUT [-c CONFIG]\n" ++
  "The paths of all files that may be read or changed are expected on standard input.\n"

def readEntry (path : String) : IO (Option Entry) := do
  try
    return some (.file (← IO.FS.readBinFile path))
  catch
    | .noFileOrDirectory .. => return none
    | _ => return some .dir

/-- The lines of a stream up to its end. -/
partial def readLines (input : IO.FS.Stream) (lines : List String) : IO (List String) := do
  let line ← input.getLine
  if line.isEmpty then return lines.reverse
  readLines input (String.ofList (Text.dropEndWhile (· == '\n') line.toList) :: lines)

def readTree : IO FileTree := do
  let current := FileTree.locate [] ⟨(← IO.currentDir).toString⟩
  let mut t := (⟨[], []⟩ : FileTree).plant current .dir
  for path in ← readLines (← IO.getStdin) [] do
    if let some e ← readEntry path then
      t := t.plant (FileTree.locate current ⟨path⟩) e
  return { t with current }

def writeTree (before after : FileTree) : IO Unit := do
  for (loc, e) in before.gone after do
    let path := (FileTree.pathOf loc).text
    match e with
    | .dir => IO.FS.removeDir path
    | _ => IO.FS.removeFile path
  for (loc, e) in before.fresh after do
    let path := (FileTree.pathOf loc).text
    match e with
    | .dir => IO.FS.createDirAll path
    | .file bytes => IO.FS.writeBinFile path bytes
    | .link _ => pure ()

def readEnvironment (t : FileTree) (config : Option Path) : IO Config.Environment := do
  let text := ((Config.source? t config).bind fun path => (t.readText path).toOption).getD ""
  let mut env : Config.Environment := []
  for name in Config.references text.toList do
    if let some value ← IO.getEnv name then
      env := Dict.insert name value env
  return env

def perform (config : Option Path) (run : Config.Environment → FileTree → Outcome) :
    IO UInt32 := do
  let t ← readTree
  let outcome := run (← readEnvironment t config) t
  writeTree t outcome.tree
  IO.eprint outcome.text
  return outcome.exitCode.toUInt32

end DocSite.CommandLine

def main (args : List String) : IO UInt32 := do
  match DocSite.Request.ofWords args with
  | .generate o => DocSite.CommandLine.perform o.config fun env t => o.run env t
  | .clean o => DocSite.CommandLine.perform o.config fun env t => o.run env t
  | .help =>
    IO.print DocSite.CommandLine.usage
    return 0
  | .version =>
    IO.println s!"docsite {DocSite.Site.version}"
    return 0
  | .misuse =>
    IO.eprint DocSite.CommandLine.usage
    return 2

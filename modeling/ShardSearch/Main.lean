import ShardSearch.CommandLine
import ShardSearch.Config.File
import ShardSearch.Session.Call

/-!
A command line for one search in a copy of the index on disk. The address of a resource, without
what follows a question mark, is the path of its file. Results are written to standard output, one
document a line, and all messages to standard error.
-/

set_option autoImplicit false

namespace ShardSearch.CommandLine

def resourcePath (url : String) : String := String.ofList (url.toList.takeWhile (· != '?'))

def readResource (url : String) : IO (Option Json) := do
  try
    return Json.parse? (← IO.FS.readFile (resourcePath url))
  catch _ => return none

/-- What is at the path of the configuration, as far as reading it tells. -/
def readConfigFile (path : String) : IO Config.File := do
  try
    return .content (← IO.FS.readBinFile path)
  catch
    | .noFileOrDirectory .. => return .absent
    | _ => return .directory

def configPath : IO String := do
  match Config.File.location (← IO.getEnv "PDSL_CONFIG") with
  | .given path => return path
  | .inWorkingDirectory name => return name

/-- The configuration for a run; where there was none, its file is there afterwards. -/
def loadConfig : IO (Except Config.File.Error Config) := do
  let path ← configPath
  let before ← readConfigFile path
  let (after, loaded) := Config.File.load (← IO.getEnv "PDSL_ROOT_URL") before
  match before, after with
  | .absent, .content bytes =>
    try
      IO.FS.writeBinFile path bytes
      return loaded
    catch _ => return .error .unwritable
  | _, _ => return loaded

partial def finish (setup : Session.Setup) (s : Session.State) :
    Session.Progress → IO (Session.State × Session.Outcome)
  | .finished outcome => return (s, outcome)
  | .waiting url next => do
    let (s, progress) := Session.resume setup s (next (← readResource url))
    finish setup s progress

def perform (setup : Session.Setup) (s : Session.State) (request : Session.Request) :
    IO (Session.State × Session.Outcome) := do
  let (s, progress) := Session.start setup s request
  finish setup s progress

def loadPages (setup : Session.Setup) (s : Session.State) : Nat → IO Session.State
  | 0 => return s
  | more + 1 => do
    match ← perform setup s .nextPage with
    | (s, .page .exhausted) => return s
    | (s, _) => loadPages setup s more

def printDocuments (documents : List Document) : IO Unit :=
  documents.forM fun d ↦ IO.println d.toJson.compact

def search (c : CommandLine) (setup : Session.Setup) : IO UInt32 := do
  let first := (Text.trim c.query).isEmpty
  match ← perform setup (.initial setup.config.search) (.search c.query first) with
  | (s, .search (.found _ _)) =>
    if c.exportAll then
      let documents := match ← perform setup s .exportAll with
        | (_, .exported (some documents)) => documents
        | _ => []
      printDocuments documents
      IO.eprintln ("Exported " ++ toString documents.length ++ " servers")
    else
      let s ← loadPages setup s (c.pages - 1)
      printDocuments s.loaded
      IO.eprintln s.status.text
    return 0
  | (_, .search .noResults) =>
    IO.eprintln "No results found."
    return 0
  | _ => return 0

def run (c : CommandLine) : IO UInt32 := do
  match ← loadConfig with
  | .error e =>
    IO.eprintln ("Error: " ++ e.message)
    return 1
  | .ok config =>
    match ← (Catalog.load config.source (← IO.monoMsNow)).runIn readResource with
    | .error _ =>
      IO.eprintln "Error: Could not load the search manifest. The service might be down."
      return 1
    | .ok catalog => search c ⟨catalog, config⟩

end ShardSearch.CommandLine

def main (arguments : List String) : IO UInt32 := do
  match ShardSearch.CommandLine.ofArguments arguments with
  | .error e =>
    IO.eprintln e.message
    return 2
  | .ok c => c.run

/-
# Criteria.CommandLine.Run -- a command from its files to its report

`run` is a command line as a function: from the words and the files to what is
shown, what is wrong, and the exit code.  A fault does not take back the lines
shown before it.
-/
import Criteria.CommandLine.Report
import Criteria.Config
import Criteria.Schema.Json
import Criteria.Schema.Toml

namespace Criteria.CommandLine

set_option autoImplicit false

/-- Everything that a command reads. -/
structure Sources where
  file : String → Except FileFault String
  /-- the settings where they are looked for, if there is such a file -/
  settings : Option (Except FileFault String)
  standardInput : String
  colored : Bool

/-- Where the settings are looked for: in the folder that the environment names for
settings, if its path starts at the root, and else in the home folder. -/
def settingsPath (folder home : Option String) : Option String :=
  ((folder.filter (·.startsWith "/")) <|> (home.map (· ++ "/.config"))).map (· ++ "/sqli/sqli.toml")

/-- What a command line does: lines shown, a message if it fails, and the exit
code. -/
structure Response where
  lines : List String
  failure : Option String
  exit : Nat

/-- What is shown, and the message if it ends in a failure. -/
abbrev Progress : Type :=
  List String × Option String

/-- A fault that its file caused says so twice: in its own words and as its
cause. -/
def chained (f : Fault) : String :=
  match f with
  | .file cause => f.message ++ ": " ++ cause.message
  | _ => f.message

def readWith {α : Type} (parse : String → Except Fault α) (content : Except FileFault String) :
    Except Fault α :=
  match content with
  | .ok text => parse text
  | .error cause => .error (.file cause)

/-- The settings: of the file that was named, or else of the one that is there. -/
def loadConfig (sources : Sources) (path : Option String) : Except String Config :=
  let loaded :=
    match path, sources.settings with
    | some path, _ => readWith Config.parse (sources.file path)
    | none, some content => readWith Config.parse content
    | none, none => .ok .standard
  loaded.mapError fun f => "failed to load config: " ++ chained f

/-- The parts of a path, without those that lead nowhere. -/
def pathParts (path : String) : List (List Char) :=
  (path.toList.splitBy fun a b => a ≠ '/' && b ≠ '/').filter fun part =>
    part ≠ ['/'] && part ≠ ['.']

/-- Whether a path ends in `.json`, behind a name. -/
def isJsonPath (path : String) : Bool :=
  match (pathParts path).getLast? with
  | none => false
  | some name => ".json".toList.isSuffixOf name && name.length > 5

def parseSchema (path : String) : String → Except Fault Schema :=
  if isJsonPath path then Schema.parseJson else Schema.parseToml

def loadSchema (sources : Sources) (tree : TreeArguments) : Except String Schema := do
  let schema ← (readWith (parseSchema tree.schema) (sources.file tree.schema)).mapError fun f =>
    "failed to load schema " ++ tree.schema ++ ": " ++ chained f
  if (schema.table? tree.table).isNone then
    throw ("schema file has no table '" ++ tree.table ++ "'")
  return schema

def loadConditions (sources : Sources) (tree : TreeArguments) : Except String (List Node) := do
  let text ←
    if tree.conditions == "-" then pure sources.standardInput
    else (sources.file tree.conditions).mapError fun cause =>
      "failed to read " ++ tree.conditions ++ ": " ++ cause.message
  (Node.parseAll text).mapError fun _ => "invalid condition tree"

/-- Everything that a tree is compiled with. -/
structure Loaded where
  config : Config
  schema : Schema
  nodes : List Node

def load (sources : Sources) (i : Invocation) (tree : TreeArguments) : Except String Loaded := do
  let config ← loadConfig sources i.config
  let schema ← loadSchema sources tree
  return ⟨config, schema, ← loadConditions sources tree⟩

/-- The context of a tree; of two tables for one alias the later counts. -/
def contextOf (l : Loaded) (tree : TreeArguments) : Context where
  catalog := l.schema.catalog
  primary := tree.table
  aliases := tree.aliases.reverse
  coercion := .epochMillis
  limit := l.config.limit

def runCompile (sources : Sources) (verbose : Bool) (l : Loaded) (tree : TreeArguments)
    (dialect : Option Dialect) (format : Format) : Progress :=
  let dialect := dialect.getD l.config.dialect
  let shown := if verbose then inputLines sources.colored l.nodes dialect else []
  match (compile (contextOf l tree) dialect l.nodes).2 with
  | .error f => (shown, some f.message)
  | .ok c =>
      match format with
      | .json => (shown ++ [c.toJson.pretty], none)
      | .text => (shown ++ compiledLines sources.colored dialect c, none)

def runExplain (sources : Sources) (l : Loaded) (tree : TreeArguments) : Progress :=
  let shown := beforeLines sources.colored l.nodes
  let filtered := filter (contextOf l tree) l.nodes
  match filtered.failure with
  | some f => (shown, some f.message)
  | none =>
      (shown ++ afterLines sources.colored (Node.countAll l.nodes) filtered.nodes, none)

def runInvocation (sources : Sources) (i : Invocation) : Progress :=
  match i.command with
  | .defuse text => ([defuse text], none)
  | .compile tree dialect format =>
      match load sources i tree with
      | .error message => ([], some message)
      | .ok l => runCompile sources i.verbose l tree dialect format
  | .explain tree =>
      match load sources i tree with
      | .error message => ([], some message)
      | .ok l => runExplain sources l tree

def usageLines : List String :=
  ["Usage: sqli [--config <FILE>] [-v] compile <CONDITIONS> -s <SCHEMA> -t <TABLE>",
    "                [-a <ALIAS=TABLE>]... [-d <DIALECT>] [-f text|json]",
    "       sqli [--config <FILE>] [-v] explain <CONDITIONS> -s <SCHEMA> -t <TABLE>",
    "                [-a <ALIAS=TABLE>]...",
    "       sqli defuse <TEXT>"]

/-- The response to a request. -/
def respond (sources : Sources) : Request → Response
  | .run i =>
      let (lines, failure) := runInvocation sources i
      ⟨lines, failure.map ("Error: " ++ ·), if failure.isSome then 1 else 0⟩
  | .version => ⟨["sqli 0.3.0"], none, 0⟩
  | .help => ⟨usageLines, none, 0⟩
  | .usage => ⟨[], some (String.intercalate "\n" usageLines), 2⟩

/-- The files that a request reads, by the names it gives them. -/
def Request.files : Request → List String
  | .run i => i.config.toList ++
      match i.command with
      | .compile tree _ _ => [tree.schema, tree.conditions]
      | .explain tree => [tree.schema, tree.conditions]
      | .defuse _ => []
  | _ => []

end Criteria.CommandLine

/-
# Criteria.CommandLine.Arguments -- what the command line asks for

The arguments are read from left to right, first those of the program and then,
behind the name of a command, those of the command.  The options of the program
may also stand behind the command; the ones there count.

An option's value is the rest of its word or the next word, unless that looks like
an option.  Behind `--` no word is an option.  No option but the alias may be
given twice in one place.  Whatever is wrong is answered with the usage.
-/
import Criteria.Dialect

namespace Criteria.CommandLine

set_option autoImplicit false

inductive Format where
  | text
  | json
  deriving DecidableEq, Repr

/-- The arguments of the commands that read a condition tree. -/
structure TreeArguments where
  conditions : String
  schema : String
  table : String
  aliases : List (String × String)

inductive Command where
  | compile (tree : TreeArguments) (dialect : Option Dialect) (format : Format)
  | explain (tree : TreeArguments)
  | defuse (text : String)

structure Invocation where
  config : Option String
  verbose : Bool
  command : Command

/-- What a command line comes to. -/
inductive Request where
  | run (i : Invocation)
  | version
  | help
  | usage

/-! ## Options -/

inductive Flag where
  | config
  | verbose
  | help
  | version
  | schema
  | table
  | mapping
  | dialect
  | format
  deriving DecidableEq, Repr

def Flag.takesValue : Flag → Bool
  | .verbose => false
  | .help => false
  | .version => false
  | _ => true

/-- The place that options are read in. -/
inductive Place where
  | program
  | compile
  | explain
  | defuse
  deriving DecidableEq, Repr

/-- The options of a place, each with its long name and its letter. -/
def Place.flags : Place → List (Flag × String × Option Char)
  | .program => (.version, "version", some 'V') :: shared
  | .compile => (.dialect, "dialect", some 'd') :: (.format, "format", some 'f') :: tree ++ shared
  | .explain => tree ++ shared
  | .defuse => shared
where
  shared : List (Flag × String × Option Char) :=
    [(.config, "config", none), (.verbose, "verbose", some 'v'), (.help, "help", some 'h')]
  tree : List (Flag × String × Option Char) :=
    [(.schema, "schema", some 's'), (.table, "table", some 't'), (.mapping, "alias", some 'a')]

def Place.long? (p : Place) (name : String) : Option Flag :=
  (p.flags.find? fun (_, long, _) => long == name).map Prod.fst

def Place.short? (p : Place) (letter : Char) : Option Flag :=
  (p.flags.find? fun (_, _, short) => short == some letter).map Prod.fst

/-! ## Words -/

/-- What one place has been given: options with their values in order, and the
words that are no options. -/
structure Given where
  options : List (Flag × String)
  words : List String

def Given.nothing : Given :=
  ⟨[], []⟩

def Given.has (g : Given) (f : Flag) : Bool :=
  g.options.any (·.1 == f)

def Given.value? (g : Given) (f : Flag) : Option String :=
  g.options.lookup f

/-- An alias with the table it stands for. -/
def mapping? (s : String) : Option (String × String) :=
  let text := s.toList
  let front := text.takeWhile (· ≠ '=')
  match text.dropWhile (· ≠ '=') with
  | _ :: back =>
      if front.isEmpty || back.isEmpty then none
      else some (.ofList (Text.trim front), .ofList (Text.trim back))
  | [] => none

def format? : String → Option Format
  | "text" => some .text
  | "json" => some .json
  | _ => none

/-- Whether an option takes a value.  A file has a name. -/
def Flag.accepts (f : Flag) (value : String) : Bool :=
  match f with
  | .config => !value.isEmpty
  | .schema => !value.isEmpty
  | .mapping => (mapping? value).isSome
  | .dialect => (Dialect.parse value).isOk
  | .format => (format? value).isSome
  | _ => true

/-- Why reading stops before the end of the words. -/
inductive Stop where
  | version
  | help
  | usage

/-- Note an option. -/
def Given.add (g : Given) (f : Flag) (value : String) : Except Stop Given :=
  if f = .help then .error .help
  else if f = .version then .error .version
  else if g.has f && f != .mapping then .error .usage
  else if f.accepts value then .ok { g with options := g.options ++ [(f, value)] }
  else .error .usage

/-- Whether a command takes the word as well.  Every command takes one; one that
names a file is not empty. -/
def Place.admits (p : Place) (g : Given) (word : String) : Bool :=
  g.words.isEmpty && (p = .defuse || !word.isEmpty)

/-- What one word says. -/
inductive Said where
  | options (g : Given)
  /-- an option whose value is the next word -/
  | waiting (g : Given) (f : Flag)

/-- Read the letters of a word that starts with one dash. -/
def readLetters (p : Place) (g : Given) : List Char → Except Stop Said
  | [] => .ok (.options g)
  | letter :: rest => do
      match p.short? letter with
      | none => throw .usage
      | some f =>
          if f.takesValue then
            match rest with
            | [] => return .waiting g f
            | '=' :: value => return .options (← g.add f (.ofList value))
            | value => return .options (← g.add f (.ofList value))
          else readLetters p (← g.add f "") rest

/-- Read a word that starts with two dashes, behind them. -/
def readLong (p : Place) (g : Given) (text : List Char) : Except Stop Said := do
  let name := text.takeWhile (· ≠ '=')
  match p.long? (.ofList name) with
  | none => throw .usage
  | some f =>
      match text.drop name.length, f.takesValue with
      | [], false => return .options (← g.add f "")
      | [], true => return .waiting g f
      | _ :: value, true => return .options (← g.add f (.ofList value))
      | _ :: _, false => throw .usage

/-- Read the words of a place.  With `commands` the first word that is no option
ends the place; the rest is given back. -/
def readWords (p : Place) (commands : Bool) (waiting : Option Flag) (g : Given) :
    List String → Except Stop (Given × List String)
  | [] => if waiting.isSome then .error .usage else .ok (g, [])
  | word :: rest =>
      match word.toList, waiting with
      | ['-', '-'], none =>
          if commands then .error .usage else .ok ({ g with words := g.words ++ rest }, [])
      | '-' :: '-' :: long, none => do
          match ← readLong p g long with
          | .options g => readWords p commands none g rest
          | .waiting g f => readWords p commands (some f) g rest
      | '-' :: letter :: letters, none => do
          match ← readLetters p g (letter :: letters) with
          | .options g => readWords p commands none g rest
          | .waiting g f => readWords p commands (some f) g rest
      | '-' :: _ :: _, some _ => .error .usage
      | _, some f => do readWords p commands none (← g.add f word) rest
      | _, none =>
          if commands then .ok (g, word :: rest)
          else if p.admits g word then
            readWords p commands none { g with words := g.words ++ [word] } rest
          else .error .usage

/-! ## Commands -/

/-- The arguments of a tree, all of which have to be there. -/
def Given.tree? (g : Given) : Option TreeArguments := do
  match g.words with
  | [conditions] =>
      if conditions.isEmpty then none
      let aliases := g.options.filterMap fun (f, v) => if f = .mapping then mapping? v else none
      return ⟨conditions, ← g.value? .schema, ← g.value? .table, aliases⟩
  | _ => none

/-- The command of a place, given its arguments. -/
def Given.command? (g : Given) : Place → Option Command
  | .program => none
  | .compile => do
      let tree ← g.tree?
      return .compile tree ((g.value? .dialect).bind fun d => (Dialect.parse d).toOption)
        (((g.value? .format).bind format?).getD .text)
  | .explain => do return .explain (← g.tree?)
  | .defuse =>
      match g.words with
      | [text] => some (.defuse text)
      | _ => none

def place? : String → Option Place
  | "compile" => some .compile
  | "explain" => some .explain
  | "defuse" => some .defuse
  | _ => none

/-- Read the words behind the name of a command.  A file has a name, and so has the
one that the environment names, unless both the program and the command are given
another. -/
def readCommand (config : Option String) (outer : Given) (p : Place) (words : List String) :
    Except Stop Invocation := do
  let (inner, _) ← readWords p false none .nothing words
  if config = some "" && !(inner.has .config && outer.has .config) then throw .usage
  match inner.command? p with
  | none => throw .usage
  | some command =>
      let given := (inner.value? .config <|> outer.value? .config)
      return ⟨given <|> config, inner.has .verbose || outer.has .verbose, command⟩

/-- Read the words of a command line.  `config` is the file that the environment
names, if it names one. -/
def readArguments (config : Option String) (words : List String) : Except Stop Invocation := do
  let (outer, rest) ← readWords .program true none .nothing words
  match rest with
  | [] => throw .usage
  | name :: words =>
      if name == "help" then
        match words with
        | [] => throw .help
        | [topic] => if topic == "help" || (place? topic).isSome then throw .help else throw .usage
        | _ => throw .usage
      match place? name with
      | none => throw .usage
      | some p => readCommand config outer p words

/-- What a command line comes to. -/
def request (config : Option String) (words : List String) : Request :=
  match readArguments config words with
  | .ok i => .run i
  | .error .version => .version
  | .error .help => .help
  | .error .usage => .usage

end Criteria.CommandLine

/-
# Criteria.CommandLine.Report -- what is shown of a compilation

A report is a list of lines.  Its parts are painted when colours are on: headings,
SQL, values and asides each in their own way.
-/
import Criteria.CommandLine.Arguments
import Criteria.Compile

namespace Criteria.CommandLine

set_option autoImplicit false

/-! ## Paint -/

inductive Style where
  | title
  | heading
  | sql
  | value
  | aside
  deriving DecidableEq, Repr

/-- The terminal's code for a style. -/
def Style.code : Style → List Char
  | .title => ['1', ';', '3', '2']
  | .heading => ['3', '6']
  | .sql => ['3', '7']
  | .value => ['3', '3']
  | .aside => ['2']

/-- The sequence that switches a style on, or off for `0`. -/
def switch (code : List Char) : List Char :=
  '\x1b' :: '[' :: code ++ ['m']

/-- Switch a style on again wherever the text itself switches it off. -/
def repaint (on : List Char) : List Char → List Char
  | '\x1b' :: '[' :: '0' :: 'm' :: rest => switch ['0'] ++ on ++ repaint on rest
  | c :: rest => c :: repaint on rest
  | [] => []

/-- A text in a style, if colours are on. -/
def paint (colored : Bool) (style : Style) (s : String) : String :=
  if colored then
    let on := switch style.code
    .ofList (on ++ repaint on s.toList ++ switch ['0'])
  else s

/-! ## Values and trees -/

mutual

/-- A value as it is shown: strings between quotes. -/
def shownValue : Value → String
  | .string s => "'" ++ s ++ "'"
  | .array items => "[" ++ String.intercalate ", " (shownValues items) ++ "]"
  | v => v.text

def shownValues : List Value → List String
  | [] => []
  | v :: rest => shownValue v :: shownValues rest

end

mutual

/-- The lines of a node, `indent` levels to the right. -/
def nodeLines (colored : Bool) (indent : Nat) : Node → List String
  | ⟨conjunction, key, predicate, v, children⟩ =>
      let pad := String.ofList (List.replicate (2 * indent) ' ')
      let start := pad ++ paint colored .heading conjunction.symbol ++ " "
      let about := start ++ paint colored .sql key.text ++ " " ++ predicate.text
      match predicate with
      | .group =>
          (start ++ paint colored .sql "(") :: treeLines colored (indent + 1) children ++
            [pad ++ paint colored .sql ")"]
      | .nullCheck _ => [about]
      | _ => [about ++ " " ++ paint colored .value (shownValue v)]

def treeLines (colored : Bool) (indent : Nat) : List Node → List String
  | [] => []
  | n :: rest => nodeLines colored indent n ++ treeLines colored indent rest

end

/-! ## Reports -/

/-- What is being compiled. -/
def inputLines (colored : Bool) (nodes : List Node) (dialect : Dialect) : List String :=
  [paint colored .aside "Input:" ++ " " ++
    paint colored .value (Nat.repr (Node.countAll nodes)) ++ " node(s), dialect " ++
    paint colored .value dialect.name]

def bindingLine (colored : Bool) (dialect : Dialect) (index : Nat) (v : Value) : String :=
  "  " ++ .ofList (dialect.placeholder index) ++ " = " ++ paint colored .value (shownValue v) ++
    " " ++ paint colored .aside ("(" ++ v.kind.name ++ ")")

/-- The bound values, counted from one. -/
def bindingLines (colored : Bool) (dialect : Dialect) (params : List Value) : List String :=
  params.mapIdx fun index v => bindingLine colored dialect (index + 1) v

def compiledLines (colored : Bool) (dialect : Dialect) (c : Compiled) : List String :=
  let sql :=
    if c.isEmpty then paint colored .aside "(no conditions)" else paint colored .sql c.sql
  let bound :=
    if c.params.isEmpty then []
    else "" :: paint colored .heading "Bindings:" :: bindingLines colored dialect c.params
  let warning :=
    if c.placeholders = c.params.length then []
    else
      ["", paint colored .value ("\u26a0 " ++ Nat.repr c.placeholders ++ " placeholder(s) but " ++
        Nat.repr c.params.length ++ " binding(s): check raw fragments")]
  paint colored .title "Generated SQL:" :: sql :: bound ++ warning

def beforeLines (colored : Bool) (nodes : List Node) : List String :=
  paint colored .title "Condition Tree:" :: treeLines colored 1 nodes

def afterLines (colored : Bool) (before : Nat) (nodes : List Node) : List String :=
  let tree :=
    if nodes.isEmpty then ["  " ++ paint colored .aside "(empty)"] else treeLines colored 1 nodes
  let pruned := before - Node.countAll nodes
  "" :: paint colored .title "After Pruning:" :: tree ++
    ["", paint colored .heading (Nat.repr pruned) ++ " of " ++ Nat.repr before ++
      " node(s) pruned"]

end Criteria.CommandLine

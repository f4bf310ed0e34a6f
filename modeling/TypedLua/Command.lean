import TypedLua.Arguments
import TypedLua.Config.File

/-!
# Commands

The commands of the program and the grammar of its command line.
-/

namespace TypedLua

def version : String :=
  "0.1.0"

structure Choice where
  config : Option Path := none
  typecheck : Option Bool := none
  deriving Repr, DecidableEq

namespace Command

structure Input where
  path : Path := Path.ofText ""
  choice : Choice := {}
  deriving Repr, DecidableEq

structure Compile where
  input : Input := {}
  output : Option Path := none
  print : Bool := false
  deriving Repr, DecidableEq

structure Execute where
  input : Input := {}
  args : List String := []
  deriving Repr, DecidableEq

structure Show where
  input : Input := {}
  prepared : Bool := false
  deriving Repr, DecidableEq

structure Init where
  directory : Option Path := none
  force : Bool := false
  deriving Repr, DecidableEq

end Command

inductive Command where
  | compile (request : Command.Compile)
  | run (request : Command.Execute)
  | check (input : Command.Input)
  | tokens (path : Path)
  | tree (request : Command.Show)
  | init (request : Command.Init)
  deriving Repr, DecidableEq

structure Invocation where
  verbose : Bool := false
  command : Option Command := none
  deriving Repr, DecidableEq

namespace Command

open Arguments

/-! ## Parts of grammars -/

def switch {α : Type} (names : List String) (note : String) (change : α → α) : Flag α :=
  { names, note, action := .set change }

def pathFlag {α : Type} (names : List String) (operand note : String) (change : Path → α → α) :
    Flag α :=
  { names, operand, note, action := .take fun text a => .ok (change (Path.ofText text) a) }

def choiceFlags {α : Type} (change : (Choice → Choice) → α → α) : List (Flag α) := [
  pathFlag ["--config"] "CONFIG" "Configuration file (default: nearest luatypes.toml)"
    fun path => change ({ · with config := some path }),
  { switch ["--typecheck"] "Insert run-time type checks (overrides the config file)"
      (change ({ · with typecheck := some true })) with group := some "typecheck" },
  { switch ["--no-typecheck"] "Strip annotations without inserting checks"
      (change ({ · with typecheck := some false })) with group := some "typecheck" }]

def inputPlace {α : Type} (change : Path → α → α) : Positional α where
  name := "input"
  arity := .one
  rows := [(2, "input", "Input typed Lua file (.lua)")]
  accept words a := .ok (change (Path.ofText (words.headD "")) a, [])

/-! ## Grammars of the commands -/

def compileGrammar : Grammar Compile where
  program := "luatypes compile"
  usage := [
    "luatypes compile [-h] [-o OUTPUT] [--stdout] [--config CONFIG]",
    "                        [--typecheck | --no-typecheck]",
    "                        input"]
  flags := [
    helpFlag,
    pathFlag ["-o", "--output"] "OUTPUT"
      "Output Python file (default: input file with .py extension)"
      fun path r => { r with output := some path },
    switch ["--stdout"] "Print generated code to stdout instead of writing a file"
      ({ · with print := true })]
    ++ choiceFlags fun f r => { r with input.choice := f r.input.choice }
  positionals := [inputPlace fun path r => { r with input.path := path }]

def executeGrammar : Grammar Execute where
  program := "luatypes run"
  usage := [
    "luatypes run [-h] [--config CONFIG] [--typecheck | --no-typecheck]",
    "                    input [args ...]"]
  flags := helpFlag :: choiceFlags fun f r => { r with input.choice := f r.input.choice }
  positionals := [
    inputPlace fun path r => { r with input.path := path },
    { name := "args", arity := .many
      rows := [(2, "args", "Arguments passed to the chunk as ...")]
      accept := fun words r => .ok ({ r with args := words }, []) }]

def checkGrammar : Grammar Input where
  program := "luatypes check"
  usage := [
    "luatypes check [-h] [--config CONFIG] [--typecheck | --no-typecheck]",
    "                      input"]
  flags := helpFlag :: choiceFlags fun f r => { r with choice := f r.choice }
  positionals := [inputPlace fun path r => { r with path }]

def tokensGrammar : Grammar Path where
  program := "luatypes tokens"
  usage := ["luatypes tokens [-h] input"]
  flags := [helpFlag]
  positionals := [inputPlace fun path _ => path]

def showGrammar : Grammar Show where
  program := "luatypes ast"
  usage := [
    "luatypes ast [-h] [--instrumented] [--config CONFIG]",
    "                    [--typecheck | --no-typecheck]",
    "                    input"]
  flags := [
    helpFlag,
    switch ["--instrumented"] "Show the tree after type checks are inserted"
      ({ · with prepared := true })]
    ++ choiceFlags fun f r => { r with input.choice := f r.input.choice }
  positionals := [inputPlace fun path r => { r with input.path := path }]

def initGrammar : Grammar Init where
  program := "luatypes init"
  usage := ["luatypes init [-h] [--force] [directory]"]
  flags := [
    helpFlag,
    switch ["--force"] "Overwrite an existing configuration file" ({ · with force := true })]
  positionals := [{
    name := "directory", arity := .optional, required := false
    rows := [(2, "directory", "Target directory (default: current directory)")]
    accept := fun words r => .ok ({ r with directory := words.head?.map Path.ofText }, []) }]

/-! ## The grammar of the program -/

def names : List String :=
  ["compile", "c", "run", "r", "check", "tokens", "ast", "init"]

def namesText : String :=
  "\x7b" ++ ",".intercalate names ++ "\x7d"

def readBy {α : Type} (g : Grammar α) (start : α) (make : α → Command) (words : List String) :
    Except Refusal (Command × List String) :=
  match g.readKnown start words with
  | .ok (a, extras) => .ok (make a, extras)
  | .error h => .error (.halted h)

def ofWords : List String → Except Refusal (Command × List String)
  | "compile" :: words | "c" :: words => readBy compileGrammar {} .compile words
  | "run" :: words | "r" :: words => readBy executeGrammar {} .run words
  | "check" :: words => readBy checkGrammar {} .check words
  | "tokens" :: words => readBy tokensGrammar default .tokens words
  | "ast" :: words => readBy showGrammar {} .tree words
  | "init" :: words => readBy initGrammar {} .init words
  | words =>
    let given := Text.quote (words.headD "")
    let choices := ", ".intercalate (names.map Text.quote)
    .error (.invalid s!"invalid choice: {given} (choose from {choices})")

end Command

namespace Invocation

open Arguments

def grammar : Grammar Invocation where
  program := "luatypes"
  usage := ["luatypes [-h] [-V] [-v] " ++ Command.namesText ++ " ..."]
  summary := some "luatypes - Run-time type checks for Lua, compiled to Python"
  flags := [
    helpFlag,
    { names := ["-V", "--version"], note := "show program's version number and exit"
      action := .answer ("luatypes " ++ version ++ "\n") },
    Command.switch ["-v", "--verbose"] "Log compiler stages to stderr"
      ({ · with verbose := true })]
  positionals := [{
    name := "command", arity := .rest, required := false
    rows := [
      (2, Command.namesText, "Available commands"),
      (4, "compile (c)", "Compile a typed Lua file to Python"),
      (4, "run (r)", "Compile and run a typed Lua file"),
      (4, "check", "Check a file for syntax and annotation errors"),
      (4, "tokens", "Show tokens (debug)"),
      (4, "ast", "Show the syntax tree (debug)"),
      (4, "init", "Write a default luatypes.toml")]
    accept := fun words i => do
      let (command, extras) ← Command.ofWords words
      return ({ i with command := some command }, extras) }]

def read (words : List String) : Except Halt Invocation :=
  grammar.read {} words

end Invocation

end TypedLua

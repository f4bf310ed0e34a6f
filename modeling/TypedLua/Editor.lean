import TypedLua.Command
import TypedLua.Diagnostic

/-!
# Serving editors

An editor tells the server when a document is opened, changed, saved or closed.
-/

namespace TypedLua

namespace Editor

def name : String :=
  "luatypes-lsp"

def versionText : String :=
  "v" ++ version

inductive Notice where
  | opened (document text : String)
  | changed (document text : String)
  | saved (document : String)
  | closed (document : String)
  deriving Repr, DecidableEq

structure Publication where
  document : String
  diagnostics : List Diagnostic
  deriving Repr, DecidableEq

/-- A server: its configuration and the texts of the open documents. -/
structure Server where
  config : Config
  texts : List (String × String) := []
  deriving Repr, DecidableEq

namespace Server

def textOf (server : Server) (document : String) : String :=
  (server.texts.lookup document).getD ""

def keep (server : Server) (document text : String) : Server :=
  { server with texts := Association.put document text server.texts }

def drop (server : Server) (document : String) : Server :=
  { server with texts := Association.discard document server.texts }

@[simp] theorem textOf_keep (server : Server) (document text : String) :
    (server.keep document text).textOf document = text := by
  simp [keep, textOf]

@[simp] theorem textOf_drop (server : Server) (document : String) :
    (server.drop document).textOf document = "" := by
  simp [drop, textOf]

def publish (server : Server) (document : String) : Except Compilation.Interruption Publication := do
  return ⟨document, ← diagnose server.config document (server.textOf document)⟩

def take (server : Server) : Notice → Server × Except Compilation.Interruption Publication
  | .opened document text | .changed document text =>
    let server := server.keep document text
    (server, server.publish document)
  | .saved document => (server, server.publish document)
  | .closed document => (server.drop document, .ok ⟨document, []⟩)

def takeAll (server : Server) : List Notice → List (Except Compilation.Interruption Publication)
  | [] => []
  | notice :: notices =>
    let (server, published) := server.take notice
    published :: server.takeAll notices

end Server

/-! ## Command line -/

inductive LogLevel where
  | debug | info | warning | error
  deriving Repr, DecidableEq

namespace LogLevel

def all : List LogLevel :=
  [debug, info, warning, error]

def name : LogLevel → String
  | debug => "debug"
  | info => "info"
  | warning => "warning"
  | error => "error"

def number : LogLevel → Nat
  | debug => 10
  | info => 20
  | warning => 30
  | error => 40

end LogLevel

structure Setup where
  tcp : Bool := false
  host : String := "127.0.0.1"
  port : Int := 2087
  typecheck : Bool := true
  level : LogLevel := .info
  deriving Repr, DecidableEq

namespace Setup

open Arguments

def setPort (text : String) (setup : Setup) : Except String Setup :=
  match Numeral.int? 10 text.toList with
  | some port => .ok { setup with port }
  | none => .error ("invalid int value: " ++ Text.quote text)

def setLevel (text : String) (setup : Setup) : Except String Setup :=
  match LogLevel.all.find? (·.name == text) with
  | some level => .ok { setup with level }
  | none =>
    let choices := ", ".intercalate (LogLevel.all.map fun level => Text.quote level.name)
    .error s!"invalid choice: {Text.quote text} (choose from {choices})"

def levelsText : String :=
  "\x7b" ++ ",".intercalate (LogLevel.all.map (·.name)) ++ "\x7d"

def grammar : Grammar Setup where
  program := name
  usage := [
    "luatypes-lsp [-h] [--tcp] [--host HOST] [--port PORT] [--no-typecheck]",
    "                    [--log-level " ++ levelsText ++ "]"]
  summary := some "luatypes Language Server"
  flags := [
    helpFlag,
    Command.switch ["--tcp"] "Start server in TCP mode instead of stdio"
      ({ · with tcp := true }),
    { names := ["--host"], operand := "HOST"
      note := "Host to bind to in TCP mode (default: 127.0.0.1)"
      action := .take fun text setup => .ok { setup with host := text } },
    { names := ["--port"], operand := "PORT"
      note := "Port to listen on in TCP mode (default: 2087)", action := .take setPort },
    Command.switch ["--no-typecheck"] "Analyze documents with type checks disabled"
      ({ · with typecheck := false }),
    { names := ["--log-level"], operand := levelsText
      note := "Logging level (default: info)", action := .take setLevel }]
  positionals := []

def read (words : List String) : Except Halt Setup :=
  grammar.read {} words

end Setup

end Editor

end TypedLua

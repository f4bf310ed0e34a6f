import TypedLua.Compilation

/-!
# The log of a compilation

Each event of a compilation is one line of a log: the component that reports it and a message.
-/

namespace TypedLua.Compilation

def Stage.name : Stage → String
  | lexing => "Lexing"
  | parsing => "Parsing"
  | instrumenting => "Instrumentation"
  | generating => "Code generation"

namespace Event

def component : Event → String
  | erasing | inserted _ => "luatypes.compiler.instrumenter"
  | _ => "luatypes.compiler"

def message : Event → String
  | lexing file => "Lexing " ++ file
  | parsing file tokens => s!"Parsing {file} ({tokens} tokens)"
  | directive on => "Directive sets typecheck " ++ if on then "on" else "off"
  | erasing => "Type checking disabled, stripping annotations only"
  | inserted checks => s!"Inserted {checks} type checks"
  | generating file => "Generating Python code for " ++ file
  | failed stage message => stage.name ++ " failed: " ++ message

end Event

end TypedLua.Compilation

import TypedLua.Annotation.Predicate
import TypedLua.Text.Identifier
import TypedLua.Toml

/-!
# Options of the compiler

A configuration says whether checks are inserted, which global table holds the predicates, how
generated temporaries start, and whether a generated module opens with a comment.
-/

namespace TypedLua

structure Config where
  typecheck : Bool := true
  registry : String := Annotation.defaultRegistry
  stem : String := "_tmp"
  header : Bool := true
  deriving Repr, DecidableEq, Inhabited

namespace Config

def resolve (config : Config) (directive : Option Bool) : Bool :=
  directive.getD config.typecheck

/-! ## Settings -/

inductive Setting where
  | typecheck | registry | stem | header
  deriving Repr, DecidableEq

namespace Setting

def name : Setting → String
  | typecheck => "typecheck"
  | registry => "registry_name"
  | stem => "temp_prefix"
  | header => "emit_header"

def ofName? (name : String) : Option Setting :=
  [typecheck, registry, stem, header].find? (·.name == name)

def kindName : Setting → String
  | typecheck | header => "bool"
  | registry | stem => "str"

end Setting

inductive Flaw where
  | unreadable
  | notTable
  | unknown (name : String)
  | wrongKind (setting : Setting)
  | notIdentifier (setting : Setting)
  deriving Repr, DecidableEq

def Flaw.message : Flaw → String
  | unreadable => "invalid TOML"
  | notTable => "[compiler] must be a table"
  | unknown name => s!"unknown compiler option '{name}'"
  | wrongKind setting => s!"option '{setting.name}' must be of type {setting.kindName}"
  | notIdentifier setting => s!"option '{setting.name}' must be a valid identifier"

def Flaw.text (file : String) (flaw : Flaw) : String :=
  file ++ ": " ++ flaw.message

def set (config : Config) (name : String) (value : Toml.Value) : Except Flaw Config :=
  match Setting.ofName? name, value with
  | none, _ => .error (.unknown name)
  | some .typecheck, .flag b => .ok { config with typecheck := b }
  | some .header, .flag b => .ok { config with header := b }
  | some .registry, .text s => .ok { config with registry := s }
  | some .stem, .text s => .ok { config with stem := s }
  | some setting, _ => .error (.wrongKind setting)

def setAll (config : Config) : List (String × Toml.Value) → Except Flaw Config
  | [] => .ok config
  | (name, value) :: rest => do (← config.set name value).setAll rest

/-- The two names that generated text contains have to be identifiers. -/
def requireNames (config : Config) : Except Flaw Config :=
  if !Text.isIdentifier config.registry then .error (.notIdentifier .registry)
  else if !Text.isIdentifier config.stem then .error (.notIdentifier .stem)
  else .ok config

def ofSettings (document : List (String × Toml.Value)) : Except Flaw Config :=
  match document.lookup "compiler" with
  | none => .ok {}
  | some (.table entries) => do (← setAll {} entries).requireNames
  | some _ => .error .notTable

def override (config : Config) (typecheck header : Option Bool) (registry stem : Option String) :
    Config where
  typecheck := typecheck.getD config.typecheck
  registry := registry.getD config.registry
  stem := stem.getD config.stem
  header := header.getD config.header

end Config

end TypedLua

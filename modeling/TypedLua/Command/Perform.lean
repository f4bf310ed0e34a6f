import TypedLua.Command
import TypedLua.Compilation.File
import TypedLua.Compilation.Log
import TypedLua.Session
import TypedLua.Syntax.Outline

/-!
# Carrying out commands

A command reads files, writes to the two outputs and ends with an exit status.
-/

namespace TypedLua

inductive Crash where
  | file (f : FileFailure)
  | undecodable (flaw : Text.Utf8.Flaw)
  | number (e : Number.TextError)
  | trap (t : Trap)
  | outOfFuel
  deriving Repr, DecidableEq

namespace Crash

def ofRead : ReadError → Crash
  | .file f => .file f
  | .undecodable flaw => .undecodable flaw

def message : Crash → String
  | file f => f.message
  | undecodable flaw => flaw.message
  | number e => e.message
  | trap t => t.message
  | outOfFuel => "out of fuel"

end Crash

structure Console where
  verbose : Bool
  out : String := ""
  err : String := ""
  deriving Repr, DecidableEq

abbrev Work (m : Type → Type) := ExceptT Crash (StateT Console m)

namespace Work

variable {m : Type → Type} [Monad m]

def say (line : String) : Work m Unit :=
  modify fun c => { c with out := c.out ++ line ++ "\n" }

def put (text : String) : Work m Unit :=
  modify fun c => { c with out := c.out ++ text }

def complain (line : String) : Work m Unit :=
  modify fun c => { c with err := c.err ++ line ++ "\n" }

def log (component message : String) : Work m Unit := do
  if (← get).verbose then complain (component ++ ": " ++ message)

def crash {α : Type} (c : Crash) : Work m α :=
  throw c

def files {α : Type} (operation : m α) : Work m α :=
  ExceptT.lift (StateT.lift operation)

def fileResult {α : Type} (operation : m (Except FileFailure α)) : Work m α := do
  match ← files operation with
  | .ok a => return a
  | .error f => crash (.file f)

end Work

/-- The text that reports a fault of a program; none if it is a trap. -/
def Fault.report? : Fault → Option String
  | .raised v => some v.text
  | .mismatch expected actual => some (Fault.mismatchMessage expected actual)
  | .trap _ => none

namespace Command

open Work

variable {m : Type → Type} [Monad m] [Files m]

/-! ## Steps -/

/-- Continues with the source of a unit, unless its file is not there. -/
def withSource (path : Path) (next : String → Work m Nat) : Work m Nat := do
  if ← fileResult (Files.isPresent path) then
    match ← files (Files.readText path) with
    | .ok source => next source
    | .error e => crash (.ofRead e)
  else
    complain ("Error: " ++ fileNotFound path)
    return 1

def configPath? (input : Input) : Work m (Option Path) :=
  match input.choice.config with
  | some path => return some path
  | none => fileResult (Config.find (some input.path.parent))

/-- Continues with the configuration of a unit; a file that is no configuration is reported under a
heading. -/
def withConfig (heading : String) (input : Input) (next : Config → Work m Nat) : Work m Nat := do
  match ← configPath? input with
  | none => next (chosen {})
  | some path =>
    log "luatypes.cli" ("Using configuration " ++ path.text)
    match ← files (Config.load path) with
    | .error e => crash (.ofRead e)
    | .ok (.error e) => crash (.number e)
    | .ok (.ok (.error flaw)) =>
      complain (heading ++ ": " ++ flaw.text path.text)
      return 1
    | .ok (.ok (.ok config)) => next (chosen config)
where
  chosen (config : Config) : Config :=
    config.override input.choice.typecheck none none none

def logEvents (events : List Compilation.Event) : Work m Unit :=
  events.forM fun e => log e.component e.message

/-- Continues with the compilation of a unit, unless it has problems, which are reported. -/
def withCompilation (config : Config) (path : Path) (generate : Bool) (source : String)
    (next : Compilation → Work m Nat) : Work m Nat := do
  match TypedLua.compile config path.text generate source with
  | .error e =>
    logEvents e.log
    crash (.number e.error)
  | .ok c =>
    logEvents c.log
    if c.success then next c
    else
      c.problemTexts.forM fun text => complain ("error: " ++ text)
      return 1

/-! ## Commands -/

def Compile.perform (r : Compile) : Work m Nat :=
  let path := r.input.path
  withSource path fun source =>
  withConfig "Compilation error" r.input fun config =>
  withCompilation config path true source fun c => do
    if r.print then put c.code
    else
      let target := r.output.getD (path.withEnding ".py")
      fileResult (Files.writeText target c.code)
      say s!"Compiled: {path.text} -> {target.text}"
    return 0

def runModule (config : Config) (file : String) (code : Target.Module) (args : List String) :
    Run Unit := do
  let session ← Session.start config 0
  let _ ← session.execute file code (args.map .string)

def settle (stop : Stop) : Work m Nat :=
  match stop with
  | .outOfFuel => crash .outOfFuel
  | .fault f =>
    match f, f.report? with
    | .trap t, _ => crash (.trap t)
    | _, report => do
      complain ("Runtime error: " ++ report.getD "")
      return 1

def Execute.perform (r : Execute) : Work m Nat :=
  let path := r.input.path
  withSource path fun source =>
  withConfig "Compilation error" r.input fun config =>
  withCompilation config path true source fun c => do
    log "luatypes.runtime.state" s!"Loaded {path.text} ({c.checks} type checks)"
    match c.module? with
    | none => return 0
    | some code =>
      match (runModule config path.text code r.args).run {} with
      | .ok () store =>
        put (store.printed 0)
        return 0
      | .error stop store =>
        put (store.printed 0)
        settle stop

def Input.check (input : Input) : Work m Nat :=
  withSource input.path fun source =>
  withConfig "Error" input fun config =>
  withCompilation config input.path false source fun c => do
    let detail := if c.typecheck then s!"{c.checks} type checks" else "type checks disabled"
    say s!"OK: {input.path.text} ({detail})"
    return 0

def listTokens (path : Path) : Work m Nat :=
  withSource path fun source => do
    match readTokens source.toList with
    | .error e => crash (.number e)
    | .ok (.error p) =>
      complain ("Error: " ++ p.text path.text)
      return 1
    | .ok (.ok found) =>
      found.forM fun t =>
        if t.kind.isWritable then say (t.listing path.text) else crash (.number .unwritable)
      return 0

def Show.perform (r : Show) : Work m Nat :=
  withSource r.input.path fun source =>
  withConfig "Error" r.input fun config =>
  withCompilation config r.input.path false source fun c => do
    match if r.prepared then c.prepared else c.chunk with
    | none => return 0
    | some chunk =>
      (chunk.outline.listing 0).forM fun
        | some line => say line
        | none => crash (.number .unwritable)
      return 0

def Init.perform (r : Init) : Work m Nat := do
  let directory ←
    match r.directory with
    | some directory => pure directory
    | none => files Files.home
  fileResult (Files.makeDirectories directory)
  let target := directory.child Config.fileName
  let isPresent ← fileResult (Files.isPresent target)
  if isPresent && !r.force then
    complain s!"Error: {target.text} already exists (use --force to overwrite)"
    return 1
  else
    fileResult (Files.writeText target Config.defaultText)
    say ("Created: " ++ target.text)
    return 0

def perform : Command → Work m Nat
  | compile r => r.perform
  | run r => r.perform
  | check input => input.check
  | tokens path => listTokens path
  | tree r => r.perform
  | init r => r.perform

end Command

/-! ## The program -/

inductive Outcome where
  | status (code : Nat)
  | halted (code : Nat)
  | crashed (c : Crash)
  deriving Repr, DecidableEq

structure Report where
  outcome : Outcome
  out : String
  err : String
  deriving Repr, DecidableEq

/-- Carries out what a command line asks for; without a command, prints the help text. -/
def Invocation.perform {m : Type → Type} [Monad m] [Files m] (i : Invocation) : Work m Nat :=
  match i.command with
  | some command => command.perform
  | none => do
    Work.put Invocation.grammar.helpText
    return 0

def runProgram {m : Type → Type} [Monad m] [Files m] (words : List String) : m Report := do
  match Invocation.read words with
  | .error h => return ⟨.halted h.status, h.output, h.complaint⟩
  | .ok i =>
    let (result, console) ← (i.perform (m := m)).run.run { verbose := i.verbose }
    let outcome :=
      match result with
      | .ok code => Outcome.status code
      | .error c => .crashed c
    return ⟨outcome, console.out, console.err⟩

end TypedLua

import TypedLua.Text.Digit
import TypedLua.Text.Quoted

/-!
# Command lines

A grammar of a command line has flags, which start with a dash and may stand anywhere, and
positionals, which are told apart by their order.
-/

namespace TypedLua.Arguments

inductive Halt where
  | answer (text : String)
  | misuse (usage program message : String)
  deriving Repr, DecidableEq

namespace Halt

def status : Halt → Nat
  | answer _ => 0
  | misuse .. => 2

def output : Halt → String
  | answer text => text
  | misuse .. => ""

def complaint : Halt → String
  | answer _ => ""
  | misuse usage program message => usage ++ s!"{program}: error: {message}\n"

end Halt

inductive Action (α : Type) where
  | set (change : α → α)
  | take (change : String → α → Except String α)
  | answer (text : String)
  | help

structure Flag (α : Type) where
  names : List String
  operand : String := ""
  note : String
  action : Action α
  group : Option String := none

inductive Arity where
  | one | optional | many
  | rest
  deriving Repr, DecidableEq

inductive Refusal where
  | invalid (message : String)
  | halted (h : Halt)

structure Positional (α : Type) where
  name : String
  arity : Arity
  required : Bool := true
  rows : List (Nat × String × String)
  accept : List String → α → Except Refusal (α × List String)

structure Grammar (α : Type) where
  program : String
  usage : List String
  summary : Option String := none
  flags : List (Flag α)
  positionals : List (Positional α)

def helpFlag {α : Type} : Flag α where
  names := ["-h", "--help"]
  note := "show this help message and exit"
  action := .help

/-! ## Help -/

/-- Words filled into lines of a width; `line` is the one being filled. -/
def fill (width : Nat) (line : String) : List String → List String
  | [] => [line]
  | word :: words =>
    if line.isEmpty then fill width word words
    else if line.length + 1 + word.length ≤ width then fill width (line ++ " " ++ word) words
    else line :: fill width word words

def blanks (n : Nat) : String :=
  String.ofList (List.replicate n ' ')

def rowLines (column : Nat) (row : Nat × String × String) : List String :=
  let (depth, label, note) := row
  let head := blanks depth ++ label
  let notes := fill (78 - column) "" (note.splitOn " ")
  if head.length + 2 ≤ column then
    (head ++ blanks (column - head.length) ++ notes.headD "")
      :: notes.tail.map (blanks column ++ ·)
  else head :: notes.map (blanks column ++ ·)

def Flag.label {α : Type} (f : Flag α) : String :=
  let suffix := if f.operand.isEmpty then "" else " " ++ f.operand
  ", ".intercalate (f.names.map (· ++ suffix))

namespace Grammar

variable {α : Type}

def usageText (g : Grammar α) : String :=
  "usage: " ++ "\n".intercalate g.usage ++ "\n"

def helpText (g : Grammar α) : String :=
  let places := g.positionals.flatMap (·.rows)
  let flags := g.flags.map fun f => (2, f.label, f.note)
  let longest := (places ++ flags).foldl (fun n (d, label, _) => max n (d + label.length)) 0
  let column := min 24 (longest + 2)
  let block (title : String) (rows : List (Nat × String × String)) : List String :=
    if rows.isEmpty then [] else "" :: title :: rows.flatMap (rowLines column)
  let summary := match g.summary with
    | none => []
    | some s => ["", s]
  g.usageText ++ "\n".intercalate
    (summary ++ block "positional arguments:" places ++ block "options:" flags) ++ "\n"

def misuse (g : Grammar α) (message : String) : Halt :=
  .misuse g.usageText g.program message

def misuseOf (g : Grammar α) (f : Flag α) (message : String) : Halt :=
  g.misuse ("argument " ++ "/".intercalate f.names ++ ": " ++ message)

def flag? (g : Grammar α) (name : String) : Option (Flag α) :=
  g.flags.find? (·.names.contains name)

def names (g : Grammar α) : List (String × Flag α) :=
  g.flags.flatMap fun f => f.names.map (·, f)

end Grammar

/-! ## Words -/

structure Joined where
  equals : Bool
  text : List Char
  deriving Repr, DecidableEq

inductive Mark (α : Type) where
  | word
  | divider
  | flag (f : Flag α) (name : String) (joined : Option Joined)
  | unknown

def Mark.isFlag {α : Type} : Mark α → Bool
  | flag .. | unknown => true
  | word | divider => false

def splitEquals (cs : List Char) : List Char × Option Joined :=
  match cs.dropWhile (· != '=') with
  | [] => (cs, none)
  | _ :: operand => (cs.takeWhile (· != '='), some ⟨true, operand⟩)

def isNegativeNumber : List Char → Bool
  | '-' :: cs =>
    let whole := cs.takeWhile Text.isDecimal
    match cs.dropWhile Text.isDecimal with
    | [] => !whole.isEmpty
    | '.' :: fraction => !fraction.isEmpty && fraction.all Text.isDecimal
    | _ => false
  | _ => false

namespace Grammar

variable {α : Type}

def candidates (g : Grammar α) (cs : List Char) : List (Flag α × String × Option Joined) :=
  match cs with
  | '-' :: '-' :: _ =>
    let (start, joined) := splitEquals cs
    g.names.filterMap fun (name, f) =>
      if start.isPrefixOf name.toList then some (f, name, joined) else none
  | dash :: letter :: operand =>
    g.names.filterMap fun (name, f) =>
      if name = String.ofList [dash, letter] then some (f, name, some ⟨false, operand⟩)
      else if cs.isPrefixOf name.toList then some (f, name, none)
      else none
  | _ => []

def markShort (g : Grammar α) (word : String) : Except Halt (Mark α) :=
  match g.candidates word.toList with
  | [(f, name, joined)] => .ok (.flag f name joined)
  | [] =>
    if isNegativeNumber word.toList || word.contains ' ' then .ok .word else .ok .unknown
  | several =>
    let options := ", ".intercalate (several.map fun (_, name, _) => name)
    .error (g.misuse s!"ambiguous option: {word} could match {options}")

def mark (g : Grammar α) (word : String) : Except Halt (Mark α) :=
  match word.toList with
  | '-' :: _ :: _ =>
    match g.flag? word, splitEquals word.toList with
    | some f, _ => .ok (.flag f word none)
    | none, (start, some joined) =>
      match g.flag? (String.ofList start) with
      | some f => .ok (.flag f (String.ofList start) (some joined))
      | none => g.markShort word
    | none, (_, none) => g.markShort word
  | _ => .ok .word

def marks (g : Grammar α) : List String → Except Halt (List (String × Mark α))
  | [] => .ok []
  | "--" :: words => .ok (("--", .divider) :: words.map (·, .word))
  | word :: words => do
    let m ← g.mark word
    return (word, m) :: (← g.marks words)

end Grammar

/-! ## Flags -/

structure Progress (α : Type) where
  value : α
  pending : List (Positional α)
  used : List (List String) := []
  extras : List String := []

namespace Grammar

variable {α : Type}

def takesOperand (f : Flag α) : Bool :=
  match f.action with
  | .take _ => true
  | _ => false

def rival? (g : Grammar α) (f : Flag α) (p : Progress α) : Option (Flag α) :=
  match f.group with
  | none => none
  | some group => g.flags.find? fun other =>
    other.group == some group && other.names != f.names && p.used.contains other.names

def use (g : Grammar α) (p : Progress α) (step : Flag α × Option String) :
    Except Halt (Progress α) :=
  let (f, operand) := step
  match g.rival? f p with
  | some other =>
    .error (g.misuseOf f ("not allowed with argument " ++ "/".intercalate other.names))
  | none =>
    let used := f.names :: p.used
    match f.action, operand with
    | .set change, _ => .ok { p with value := change p.value, used }
    | .take change, some operand =>
      match change operand p.value with
      | .ok value => .ok { p with value, used }
      | .error message => .error (g.misuseOf f message)
    | .take _, none => .error (g.misuseOf f "expected one argument")
    | .answer text, _ => .error (.answer text)
    | .help, _ => .error (.answer g.helpText)

/-- The flags in one word, each with its operand, and what no flag takes. -/
def spread (g : Grammar α) (f : Flag α) (name : String) (equals : Bool) :
    List Char → Except Halt (List (Flag α × Option String) × List String)
  | [] => if takesOperand f then .ok ([(f, some "")], []) else .error (ignored f [])
  | c :: rest =>
    if takesOperand f then .ok ([(f, some (String.ofList (c :: rest)))], [])
    else if name.startsWith "--" || equals || c = '-' then .error (ignored f (c :: rest))
    else
      let next := String.ofList ['-', c]
      match g.flag? next, rest with
      | none, _ => .ok ([(f, none)], [String.ofList ('-' :: c :: rest)])
      | some f', [] => .ok ([(f, none), (f', none)], [])
      | some f', '=' :: operand => do
        let (steps, extras) ← g.spread f' next true operand
        return ((f, none) :: steps, extras)
      | some f', c' :: rest' => do
        let (steps, extras) ← g.spread f' next false (c' :: rest')
        return ((f, none) :: steps, extras)
  termination_by text => text.length
where
  ignored (f : Flag α) (text : List Char) : Halt :=
    g.misuseOf f ("ignored explicit argument " ++ Text.quote (String.ofList text))

/-- Gives the last flag of a word its operand, if it wants one: the next word. -/
def complete (g : Grammar α) (next : List (String × Mark α)) :
    List (Flag α × Option String) → Except Halt (List (Flag α × Option String) × Nat)
  | [] => .ok ([], 0)
  | [(f, none)] =>
    if takesOperand f then
      match next with
      | (word, .word) :: _ => .ok ([(f, some word)], 1)
      | _ => .error (g.misuseOf f "expected one argument")
    else .ok ([(f, none)], 0)
  | step :: steps => do
    let (steps, n) ← g.complete next steps
    return (step :: steps, n)

def readFlag (g : Grammar α) (f : Flag α) (name : String) (joined : Option Joined)
    (next : List (String × Mark α)) (p : Progress α) : Except Halt (Progress α × Nat) := do
  let (steps, extras) ←
    match joined with
    | none => pure ([(f, none)], [])
    | some ⟨equals, text⟩ => g.spread f name equals text
  let (steps, n) ← g.complete next steps
  let p := { p with extras := p.extras ++ extras }
  return (← steps.foldlM g.use p, n)

/-! ## Positionals -/

def dividers : List (Mark α) → Nat
  | .divider :: marks => dividers marks + 1
  | _ => 0

/-- The number of words that an arity takes in front; none if there are too few. -/
def span? (arity : Arity) (marks : List (Mark α)) : Option Nat :=
  let before := dividers marks
  let rest := marks.drop before
  match arity, rest with
  | .one, .word :: more => some (before + 1 + dividers more)
  | .one, _ => none
  | .optional, .word :: more => some (before + 1 + dividers more)
  | .optional, _ => some before
  | .many, _ => some (before + (rest.takeWhile (!·.isFlag)).length)
  | .rest, .word :: more => some (before + 1 + more.length)
  | .rest, _ => none

def spans? : List (Positional α) → List (Mark α) → Option (List Nat)
  | [], _ => some []
  | place :: places, marks => do
    let n ← span? place.arity marks
    return n :: (← spans? places (marks.drop n))

def spans (places : List (Positional α)) (marks : List (Mark α)) : List Nat :=
  let tries := (List.range (places.length + 1)).reverse.map fun n => spans? (places.take n) marks
  (tries.findSome? id).getD []

def fillPlaces (g : Grammar α) : List Nat → List String → Progress α →
    Except Halt (Progress α)
  | [], _, p => .ok p
  | n :: ns, words, p =>
    match p.pending with
    | [] => .ok p
    | place :: pending => do
      let given := words.take n
      let given := if place.arity = .rest then given else given.erase "--"
      match place.accept given p.value with
      | .ok (value, extras) =>
        g.fillPlaces ns (words.drop n) { p with value, pending, extras := p.extras ++ extras }
      | .error (.invalid message) =>
        .error (g.misuse ("argument " ++ place.name ++ ": " ++ message))
      | .error (.halted h) => .error h

def readPlaces (g : Grammar α) (items : List (String × Mark α)) (p : Progress α) :
    Except Halt (Progress α × Nat) := do
  let counts := spans p.pending (items.map (·.2))
  return (← g.fillPlaces counts (items.map (·.1)) p, counts.foldl (· + ·) 0)

/-! ## Command lines -/

def readItems (g : Grammar α) : List (String × Mark α) → Progress α →
    Except Halt (Progress α)
  | [], p => do return (← g.readPlaces [] p).1
  | (word, m) :: items, p =>
    match m with
    | .unknown => g.readItems items { p with extras := p.extras ++ [word] }
    | .flag f name joined => do
      let (p, n) ← g.readFlag f name joined items p
      g.readItems (items.drop n) p
    | m => do
      let all := (word, m) :: items
      let (p, n) ← g.readPlaces all p
      if n = 0 then
        let strays := items.takeWhile (!·.2.isFlag)
        let p := { p with extras := p.extras ++ word :: strays.map (·.1) }
        g.readItems (items.drop strays.length) p
      else g.readItems (items.drop (n - 1)) p
  termination_by items => items.length
  decreasing_by all_goals simp only [List.length_cons, List.length_drop]; omega

def readKnown (g : Grammar α) (start : α) (words : List String) :
    Except Halt (α × List String) := do
  let items ← g.marks words
  let p ← g.readItems items { value := start, pending := g.positionals }
  match p.pending.filter (·.required) with
  | [] => return (p.value, p.extras)
  | missing =>
    let names := ", ".intercalate (missing.map (·.name))
    .error (g.misuse ("the following arguments are required: " ++ names))

def read (g : Grammar α) (start : α) (words : List String) : Except Halt α := do
  let (value, extras) ← g.readKnown start words
  if extras.isEmpty then return value
  else .error (g.misuse ("unrecognized arguments: " ++ " ".intercalate extras))

end Grammar

end TypedLua.Arguments

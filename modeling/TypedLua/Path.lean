/-!
# Paths

A path names a file: a root, which is empty for a path that starts in the working directory, and the
names on the way.
-/

namespace TypedLua

structure Path where
  /-- Slashes in front; empty for a path that starts in the working directory. -/
  root : String := ""
  parts : List String
  deriving Repr, DecidableEq, Inhabited

namespace Path

/-- The root in front of a text: exactly two slashes are kept, more count as one. -/
def rootOf (cs : List Char) : String :=
  match (cs.takeWhile (· == '/')).length with
  | 0 => ""
  | 2 => "//"
  | _ => "/"

/-- The names between slashes, where `name` is the one being read, last character first. -/
def partsFrom (name : List Char) : List Char → List String
  | [] => keep []
  | '/' :: cs => keep (partsFrom [] cs)
  | c :: cs => partsFrom (c :: name) cs
where
  keep (rest : List String) : List String :=
    if name = [] ∨ name = ['.'] then rest else String.ofList name.reverse :: rest

def ofText (text : String) : Path :=
  ⟨rootOf text.toList, partsFrom [] text.toList⟩

def text (p : Path) : String :=
  match p.parts with
  | [] => if p.root.isEmpty then "." else p.root
  | parts => p.root ++ "/".intercalate parts

def isAbsolute (p : Path) : Bool :=
  !p.root.isEmpty

def parent (p : Path) : Path :=
  { p with parts := p.parts.dropLast }

def child (p : Path) (name : String) : Path :=
  { p with parts := p.parts ++ [name] }

def under (home p : Path) : Path :=
  if p.isAbsolute then p else { home with parts := home.parts ++ p.parts }

/-- The names on the way with every pair of dots carried out; `done` holds the names so far, last
one first. -/
def climb (done : List String) : List String → List String
  | [] => done.reverse
  | ".." :: parts => climb done.tail parts
  | part :: parts => climb (part :: done) parts

/-- The absolute path without dots that a path names in a working directory. -/
def resolve (home p : Path) : Path :=
  let whole := home.under p
  { whole with parts := climb [] whole.parts }

def ancestors (p : Path) : List Path :=
  (List.range (p.parts.length + 1)).reverse.map fun n => { p with parts := p.parts.take n }

def stem (name : String) : String :=
  let cs := name.toList
  let ending := cs.reverse.takeWhile (· != '.')
  let before := (cs.reverse.drop (ending.length + 1)).reverse
  if ending.isEmpty || before.isEmpty then name else String.ofList before

def withEnding (p : Path) (ending : String) : Path :=
  { p with parts := p.parts.dropLast ++ [stem (p.parts.getLastD "") ++ ending] }

end Path

end TypedLua

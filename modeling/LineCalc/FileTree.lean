/-!
# Files and directories

What a path leads to in a tree of directories, and why it may lead to nothing. A path is followed
part by part, from the root if it starts with a slash and from the working directory otherwise. A
name has at most 255 bytes and a path at most 4095; longer ones are refused before they are looked
for. The command line is stated over such a tree, and the program asks the system instead, which
follows paths by the same rules.
-/

namespace LineCalc

/-- Why a document cannot be read. -/
inductive ReadFailure where
  | notFound
  /-- A path goes on after something that is not a directory. -/
  | notDirectory
  | isDirectory
  | nameTooLong
  | invalidText
  /-- Anything else that the system reports. -/
  | other (message : String)
  deriving Repr, DecidableEq

/-- What is said about a document that cannot be read. -/
def ReadFailure.message : ReadFailure → String
  | notFound => "No such file or directory (os error 2)"
  | notDirectory => "Not a directory (os error 20)"
  | isDirectory => "Is a directory (os error 21)"
  | nameTooLong => "File name too long (os error 36)"
  | invalidText => "stream did not contain valid UTF-8"
  | other message => message

/-- A document or a directory with everything in it. -/
inductive FileTree where
  /-- What reading the document gives. -/
  | document (text : Except ReadFailure String)
  | directory (entries : List (String × FileTree))

def nameLimit : Nat := 255

def pathLimit : Nat := 4095

/-- The parts of a path between its slashes; parts without characters stand for nothing. -/
def pathParts : List Char → List (List Char)
  | [] => [[]]
  | c :: rest =>
    if c = '/' then [] :: pathParts rest
    else
      match pathParts rest with
      | [] => [[c]]
      | part :: parts => (c :: part) :: parts

/-- A place in a tree: what stands there, and the directories above it, nearest first. -/
structure Place where
  above : List FileTree
  here : FileTree

namespace Place

/-- The directory above a place; the root is above itself. -/
def parent (p : Place) : Place :=
  match p.above with
  | [] => p
  | directory :: above => ⟨above, directory⟩

/-- The root of the tree. -/
def root (p : Place) : Place :=
  ⟨[], p.above.getLast?.getD p.here⟩

/-- The place that one part of a path leads to. -/
def enter (p : Place) (part : String) : Except ReadFailure Place :=
  match p.here with
  | .document _ => .error .notDirectory
  | .directory entries =>
    if part = "" ∨ part = "." then .ok p
    else if part = ".." then .ok p.parent
    else if nameLimit < part.utf8ByteSize then .error .nameTooLong
    else
      match entries.find? (·.1 == part) with
      | some (_, tree) => .ok ⟨p.here :: p.above, tree⟩
      | none => .error .notFound

/-- The place that the parts of a path lead to. -/
def follow (p : Place) : List String → Except ReadFailure Place
  | [] => .ok p
  | part :: parts =>
    match p.enter part with
    | .ok next => next.follow parts
    | .error e => .error e

/-- What reading a document gives. -/
def text (p : Place) : Except ReadFailure String :=
  match p.here with
  | .document text => text
  | .directory _ => .error .isDirectory

/-- The document at a path, which starts at a place unless it starts at the root. -/
def read (p : Place) (path : String) : Except ReadFailure String :=
  if path.isEmpty then .error .notFound
  else if pathLimit < path.utf8ByteSize then .error .nameTooLong
  else
    let start := if path.toList.head? = some '/' then p.root else p
    match start.follow ((pathParts path.toList).map String.ofList) with
    | .ok place => place.text
    | .error e => .error e

end Place

end LineCalc

import FeedbackQueue.Text.Quoted

/-!
# Files

Paths, and a directory of files in which they are looked up. A path is relative
to the directory; what lies outside it is known only to be directories.
-/

namespace FeedbackQueue

inductive FileFault where
  | missing
  | notDirectory
  | isDirectory
  | nameTooLong
  | other (code : Nat) (text : String)
deriving DecidableEq, Repr

namespace FileFault

def code : FileFault → Nat
  | .missing => 2
  | .notDirectory => 20
  | .isDirectory => 21
  | .nameTooLong => 36
  | .other code _ => code

def text : FileFault → String
  | .missing => "No such file or directory"
  | .notDirectory => "Not a directory"
  | .isDirectory => "Is a directory"
  | .nameTooLong => "File name too long"
  | .other _ text => text

def message (f : FileFault) (path : String) : String :=
  s!"[Errno {f.code}] {f.text}: {Text.quoted path}"

end FileFault

/-- A path without its empty and `.` components. -/
structure Path where
  /-- Empty for a relative path. -/
  root : String
  parts : List String
deriving DecidableEq, Repr

namespace Path

/-- The slashes at the front of a path: exactly two are kept apart from one. -/
def rootOf (slashes : Nat) : String :=
  if slashes = 0 then "" else if slashes = 2 then "//" else "/"

def parse (s : String) : Path where
  root := rootOf (s.toList.takeWhile (· = '/')).length
  parts := (s.splitOn "/").filter fun part => part ≠ "" ∧ part ≠ "."

def text (p : Path) : String :=
  if p.root = "" ∧ p.parts = [] then "." else p.root ++ "/".intercalate p.parts

end Path

abbrev Contents := Except FileFault (List UInt8)

/-- Files by their path in the directory. -/
abbrev Files := List (List String × List UInt8)

namespace Files

inductive Node where
  | file (octets : List UInt8)
  | directory
  | nothing

def node (files : Files) (location : List String) : Node :=
  match files.lookup location with
  | some octets => .file octets
  | none =>
    if location = [] ∨ files.any (location.isPrefixOf ·.1) then .directory else .nothing

def isTooLong (part : String) : Bool := 255 < part.utf8ByteSize

/-- Above the directory, only the way up leads to something known. -/
def outside : List String → Contents
  | [] => .error .isDirectory
  | ".." :: rest => outside rest
  | part :: _ => .error (if isTooLong part then .nameTooLong else .missing)

/-- Follow the components of a path from a location on. -/
def walk (files : Files) (location : List String) : List String → Contents
  | [] =>
    match files.node location with
    | .file octets => .ok octets
    | .directory => .error .isDirectory
    | .nothing => .error .missing
  | part :: rest =>
    match files.node location with
    | .file _ => .error .notDirectory
    | .nothing => .error .missing
    | .directory =>
      if part = ".." then
        if location = [] then outside rest else files.walk location.dropLast rest
      else if isTooLong part then .error .nameTooLong
      else files.walk (location ++ [part]) rest

def read (files : Files) (path : Path) : Contents :=
  if 4095 < path.text.utf8ByteSize then .error .nameTooLong
  else if path.root = "" then files.walk [] path.parts
  else outside path.parts

end Files

end FeedbackQueue

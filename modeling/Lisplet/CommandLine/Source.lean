import Lisplet.Text.Quoted

/-!
# Sources of scripts

Where a script is read from: a path is brought into a normal form and looked up in a directory. What
a file or the standard input holds is decoded as UTF-8, and its line ends become line feeds.
-/

namespace Lisplet.CommandLine

/-- A path: what it starts with, and its parts. -/
structure Path where
  root : String
  parts : List String
  deriving DecidableEq, Repr

namespace Path

/-- The parts of a text between slashes. -/
def splitSlashes : List Char → List (List Char)
  | [] => [[]]
  | c :: rest =>
    match c == '/', splitSlashes rest with
    | true, parts => [] :: parts
    | false, first :: others => (c :: first) :: others
    | false, [] => [[c]]

/-- The path that a text denotes. Empty parts and single dots count for nothing; exactly two slashes
at the start are not the same as one. -/
def ofText (text : String) : Path :=
  let root := match text.toList with
    | '/' :: '/' :: '/' :: _ => "/"
    | '/' :: '/' :: _ => "//"
    | '/' :: _ => "/"
    | _ => ""
  let parts := (splitSlashes text.toList).map String.ofList
  ⟨root, parts.filter fun part => part != "" && part != "."⟩

/-- The text of a path. -/
def text (p : Path) : String :=
  let text := p.root ++ "/".intercalate p.parts
  if text.isEmpty then "." else text

end Path

/-- Why a file cannot be read. -/
inductive ReadFault where
  | notFound | notDirectory | isDirectory | nameTooLong
  deriving DecidableEq, Repr

namespace ReadFault

/-- The number and the name of a fault. -/
def name : ReadFault → String
  | .notFound => "[Errno 2] No such file or directory"
  | .notDirectory => "[Errno 20] Not a directory"
  | .isDirectory => "[Errno 21] Is a directory"
  | .nameTooLong => "[Errno 36] File name too long"

/-- The report on a fault. -/
def report (f : ReadFault) (path : String) : String :=
  "Error reading file: " ++ f.name ++ ": " ++ Text.quoted path ++ "\n"

end ReadFault

/-- The files below a directory: the parts of their paths and their content. -/
abbrev Directory := List (List String × ByteArray)

namespace Directory

/-- A directory with the given files. -/
def ofFiles (files : List (String × ByteArray)) : Directory :=
  files.map fun (name, content) => ((Path.ofText name).parts, content)

/-- The longest name that a part of a path may have, in bytes. -/
def maxName : Nat := 255

/-- Reads a file, going down the parts of its path from a directory below this one. What lies
outside this directory counts as empty. -/
def readFrom (d : Directory) (below : List String) : List String → Except ReadFault ByteArray
  | [] => .error .isDirectory
  | ".." :: rest => readFrom d below.dropLast rest
  | part :: rest =>
    let here := below ++ [part]
    if maxName < part.utf8ByteSize then .error .nameTooLong
    else
      match d.lookup here with
      | some content => if rest.isEmpty then .ok content else .error .notDirectory
      | none =>
        if d.any fun file => here.isPrefixOf file.1 then readFrom d here rest
        else .error .notFound

/-- Reads the file that a path denotes. -/
def read (d : Directory) (path : Path) : Except ReadFault ByteArray :=
  if path.root.isEmpty || path.parts.isEmpty then d.readFrom [] path.parts else .error .notFound

end Directory

/-- What comes in on the standard input. -/
structure StandardInput where
  bytes : ByteArray

/-- A text comes in as UTF-8. -/
instance : Coe String StandardInput := ⟨fun text => ⟨text.toUTF8⟩⟩

/-- Makes line feeds of all line ends. -/
def plainLineEnds : List Char → List Char
  | '\r' :: '\n' :: rest => '\n' :: plainLineEnds rest
  | '\r' :: rest => '\n' :: plainLineEnds rest
  | c :: rest => c :: plainLineEnds rest
  | [] => []

/-- The text of a source. -/
def sourceText (text : String) : String := String.ofList (plainLineEnds text.toList)

/-- The text that bytes stand for, if they do. -/
def decode (content : ByteArray) : Option String := (String.fromUTF8? content).map sourceText

end Lisplet.CommandLine

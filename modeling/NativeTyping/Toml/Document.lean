import NativeTyping.Toml.Line
/-!
Documents in the TOML format: the members that their lines give, one after the other.
-/

namespace NativeTyping

namespace Toml

/-- What the lines so far define, and the table whose entries come next. -/
structure Document where
  present : Path := []
  members : Members := []

namespace Document

def addEntry (document : Document) (path : Path) (value : Value) : Option Members :=
  match document.present with
  | [] => document.members.addValue value path true
  | header => document.members.changeAt (Node.withValue path value) header

def add (document : Document) : Line → Option Document
  | .entry path value =>
      (document.addEntry path value).map fun members => { document with members }
  | .table path =>
      (document.members.changeAt Node.withHeader path).map fun members =>
        { present := path, members }
  | .arrayTable path =>
      (document.members.changeAt Node.withElement path).map fun members =>
        { present := path, members }

def ofLines (lines : List Line) : Option Document :=
  lines.foldlM add {}

def skipByteOrderMark : List Char → List Char
  | '\uFEFF' :: rest => rest
  | text => text

def ofText? (text : List Char) : Option Document :=
  (readLines (text.length + 1) (skipByteOrderMark text)).bind ofLines

end Document

end Toml

end NativeTyping

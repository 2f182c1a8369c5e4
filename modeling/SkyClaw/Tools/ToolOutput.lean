import SkyClaw.Lib.PyRe

/-!
# What an external tool prints and writes

The error lines that the runners read in the output of their tools, and the folders the tools
write to.  A file carries whether this run's tools have written it; nothing else tells it
from one of an earlier run.
-/

namespace SkyClaw.Tools

open Regex PyRe

/-! ## Output text -/

/-- `(?:…):`, for keywords under `re.IGNORECASE`. -/
def keyword (words : List String) : Regex Char := seq (oneOf (words.map word)) (char (· == ':'))

/-- What follows the blanks after a keyword up to the end of the line, and the text after that
line.  When only blanks follow, the message is blank and is dropped. -/
def messageAfter (rest : List Char) : Option (List Char × List Char) :=
  match rest.dropWhile PyStr.isSpace with
  | [] => none
  | first :: more =>
      some ((first :: more).takeWhile (· != '\n'), ((first :: more).dropWhile (· != '\n')).drop 1)

/-- The messages of `re.finditer(r"(?:…):\s*(.+?)(?:\n|$)", text)`, with `skip` characters left of
the last match. -/
def messagesFrom (start : Regex Char) : Nat → List Char → List (List Char)
  | _, [] => []
  | skip + 1, _ :: text => messagesFrom start skip text
  | 0, c :: text =>
      match (ends start ⟨none, c :: text⟩).head?.bind fun k => messageAfter k.rest with
      | none => messagesFrom start 0 text
      | some (message, rest) => message :: messagesFrom start (text.length - rest.length) text

/-- The messages in the output of a tool, each of them once. -/
def parseMessages (words : List String) (stdout stderr : String) : List String :=
  ((messagesFrom (keyword words) 0 (stdout ++ "\n" ++ stderr).toList).map fun message =>
    PyStr.strip (String.ofList message)).eraseDups

/-- An entry of an output folder. -/
structure OutputFile (Content : Type) where
  name : String
  content : Content
  /-- this run's tools have written it -/
  fresh : Bool
deriving DecidableEq, Repr

/-- What a tool does in a folder. -/
structure FolderChanges (Content : Type) where
  deletes : List String
  writes : List (String × Content)

variable {Content : Type}

namespace FolderChanges

/-- The names that a tool deletes or writes. -/
def touches (changes : FolderChanges Content) (name : String) : Bool :=
  changes.deletes.contains name || (changes.writes.map Prod.fst).contains name

/-- The folder after the tool. -/
def apply (changes : FolderChanges Content) (folder : List (OutputFile Content)) :
    List (OutputFile Content) :=
  folder.filter (fun file => !changes.touches file.name) ++
    changes.writes.map fun entry => ⟨entry.1, entry.2, true⟩

end FolderChanges

/-- The files of an earlier run. -/
def stale (files : List (String × Content)) : List (OutputFile Content) :=
  files.map fun entry => ⟨entry.1, entry.2, false⟩

end SkyClaw.Tools

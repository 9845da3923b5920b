/-
# The output of tsc

Lines of text. A record starts at a header `path(line,column): error TS1234: text`
and goes on with the indented lines right after it; any other line closes it and
belongs to none (`parse_tsc`). Text in which there is no header holds no issue: nothing tells
the absence of problems from output of another kind.
-/

import LintMerge.Output.Document

namespace LintMerge
namespace Output
namespace Tsc

/-- The first line of a record. -/
structure Header where
  path : List Char
  /-- the digits of the line and of the column -/
  line : List Char
  column : List Char
  category : String
  code : List Char
  text : List Char
  deriving DecidableEq, Repr

/-- The categories of records. -/
def categories : List String := ["error", "warning", "message"]

/-- What follows a text at the start of another. -/
def after? : (start s : List Char) → Option (List Char)
  | [], s => some s
  | _ :: _, [] => none
  | a :: start, c :: rest => if a = c then after? start rest else none

/-- The digits at the start of a text, one at least, and what follows them. -/
def digits? (s : List Char) : Option (List Char × List Char) :=
  let ds := s.takeWhile Text.isDigit
  if ds.isEmpty then none else some (ds, s.drop ds.length)

/-- The category at the start of a text, and what follows it. -/
def category? (s : List Char) : Option (String × List Char) :=
  categories.findSome? fun c => (after? c.toList s).map (c, ·)

/-- A header after its path. -/
def afterPath? (path s : List Char) : Option Header := do
  let s ← after? ['('] s
  let (line, s) ← digits? s
  let s ← after? [','] s
  let (column, s) ← digits? s
  let s ← after? "): ".toList s
  let (category, s) ← category? s
  let s ← after? " TS".toList s
  let (code, s) ← digits? s
  let s ← after? [':'] s
  return ⟨path, line, column, category, 'T' :: 'S' :: code, (after? [' '] s).getD s⟩

/-- A header whose path starts with some characters, the last of them first; the
shortest path counts. -/
def headerFrom? (path : List Char) : List Char → Option Header
  | [] => none
  | c :: rest =>
    match afterPath? path.reverse (c :: rest) with
    | some h => some h
    | none => headerFrom? (c :: path) rest

/-- The header that a line is. -/
def header? : List Char → Option Header
  | [] => none
  | c :: rest => if Text.isBlank c then none else headerFrom? [c] rest

/-- Whether a line goes on with the record before it. -/
def isContinuation (line : List Char) : Bool :=
  (line.head? = some ' ' || line.head? = some '\t') && !line.all Text.isBlank

/-- A record: its header, and the lines that go on with it, the last one first. -/
structure Record where
  header : Header
  more : List (List Char)
  deriving DecidableEq, Repr

/-- The records of some lines, the first of which may go on with an open record. -/
def recordsFrom (current : Option Record) : List (List Char) → List Record
  | [] => current.toList
  | line :: rest =>
    match header? line with
    | some h => current.toList ++ recordsFrom (some ⟨h, []⟩) rest
    | none =>
      match current with
      | some r =>
        if isContinuation line then recordsFrom (some ⟨r.header, Text.trimEnd line :: r.more⟩) rest
        else r :: recordsFrom none rest
      | none => recordsFrom none rest

/-- The records of some lines. -/
def records (lines : List (List Char)) : List Record := recordsFrom none lines

/-- The number that digits of any script stand for. -/
def number (ds : List Char) : Except Fault Nat :=
  if ds.length > Text.maxDigits then .error (.tooManyDigits ds.length)
  else .ok (Text.ofDigits (ds.filterMap Text.digitValue?))

/-- What a record says. -/
def Record.message (r : Record) : List Char :=
  Text.trim (Text.joinWith ['\n'] (r.header.text :: r.more.reverse))

/-- The issue of a record. -/
def Record.issue (root : Path) (r : Record) : Except Fault Issue := do
  let line : Int := max (← number r.header.line) 1
  let column : Int := max (← number r.header.column) 1
  ofChecked (Issue.ofDraft
    { path := Path.key root (String.ofList r.header.path), line, column
      endLine := line
      endColumn := column
      severity := if r.header.category = "error" then .error else .warning
      ruleId := ruleOf .tsc (String.ofList r.header.code)
      message := String.ofList r.message
      source := .tsc })

/-- The issues in the output of tsc. -/
def parse (root : Path) (output : String) : Except Fault (List Issue) :=
  (records (Text.lines output.toList)).mapM (Record.issue root)

end Tsc
end Output
end LintMerge

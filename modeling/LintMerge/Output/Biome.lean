/-
# The output of biome

A table with a list of diagnostics, each with the text of its file and a span of
offsets into it, from which lines and columns are counted. The category of a
diagnostic is a path that ends with the group and the name of its rule (`parse_biome`).
-/

import LintMerge.Output.Document
import LintMerge.Text.Position

namespace LintMerge
namespace Output
namespace Biome

/-- The labels of severities; all others mean a warning. -/
def severities : List (String × Severity) :=
  [("error", .error), ("warning", .warning), ("info", .info)]

/-- Where the rules are documented. -/
def docsBase : String := "https://biomejs.dev/linter/rules/"

/-- A name with a hyphen between a small and a capital letter. -/
def hyphenated : List Char → List Char
  | a :: b :: rest =>
    if a.isLower && b.isUpper then a :: '-' :: hyphenated (b :: rest) else a :: hyphenated (b :: rest)
  | s => s

/-- Where a rule is documented. -/
def docsUrl (rule : String) : String :=
  docsBase ++ String.ofList (Text.lower (hyphenated rule.toList))

/-- The value that names the file of a location. -/
def fileValue (v : Value) : Value := if isTable v then v.field "file" else v

/-- The file of a location. -/
def file? (v : Value) : Option String := someText? (fileValue v)

/-- What a diagnostic says. -/
def message (diagnostic : Value) : String :=
  match someText? (diagnostic.field "description") with
  | some s => s
  | none =>
    String.join ((tables (diagnostic.field "message")).map fun part =>
      (text? (part.field "content")).getD "")

/-- What a diagnostic says, if halves of pairs stand in it. -/
def tornMessage? (diagnostic : Value) : Option Torn :=
  match someText? (diagnostic.field "description") with
  | some _ => torn? (diagnostic.field "description")
  | none => Torn.of? ((tables (diagnostic.field "message")).flatMap fun part =>
      (part.field "content").glyphs)

/-- Whether a diagnostic is tagged as one that can be fixed. -/
def isFixable (diagnostic : Value) : Bool :=
  match diagnostic.field "tags" with
  | .list tags => tags.any fun
    | .text s => s = "fixable"
    | _ => false
  | _ => false

/-- The segments of the category of a diagnostic. -/
def category (diagnostic : Value) : List String :=
  (Path.parts ((text? (diagnostic.field "category")).getD "")).filter (· ≠ "")

/-- The segments of the category of a diagnostic, with their halves. -/
def categoryGlyphs (diagnostic : Value) : List (List Glyph) :=
  (Text.splitOn (.char '/') (diagnostic.field "category").glyphs).filter (· ≠ [])

/-- The issue of a diagnostic, if it can be located. -/
def issue? (root : Path) (diagnostic : Value) : Except Fault (Option Issue) :=
  let location := diagnostic.field "location"
  match (location.field "sourceCode").string?, file? (location.field "path"),
    pair? (location.field "span") with
  | some source, some file, some (start, stop) => do
    let ends := Position.ofSpan source.toList start stop
    let segments := category diagnostic
    let rule := segments.getLast?.getD unnamedRule
    let group := if 3 ≤ segments.length then segments[segments.length - 2]? else none
    let glyphs := categoryGlyphs diagnostic
    let issue ← ofChecked (Issue.ofDraft
      { path := Path.key root file
        line := ends.1.line
        column := ends.1.column
        endLine := ends.2.line
        endColumn := ends.2.column
        severity := Severity.ofLabel severities .warning (diagnostic.field "severity")
        ruleId := ruleOf .biome rule
        message := message diagnostic
        source := .biome
        about := some ⟨if segments.isEmpty then none else some (docsUrl rule), group,
          some (isFixable diagnostic)⟩
        tornRule := glyphs.getLast?.bind Torn.of?
        torn := ⟨tornKey? root (fileValue (location.field "path")), tornMessage? diagnostic,
          if 3 ≤ glyphs.length then glyphs[glyphs.length - 2]?.bind Torn.of? else none⟩ })
    return some issue
  | _, _, _ => .ok none

/-- The issues in the output of biome. -/
def parse (root : Path) (output : String) : Except Fault (List Issue) := do
  located (issue? root) (← diagnostics "biome" output)

end Biome
end Output
end LintMerge

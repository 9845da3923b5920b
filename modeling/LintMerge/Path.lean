/-
# Paths

A path is a root, none for a relative one, and segments. Empty segments and `.` are
dropped when a text is read; `..` is kept, because what it means depends on links.
Collapsing a path resolves `..` by the text alone, and at the root drops it (`absolutize`).
Two slashes at the start make a root of their own, three or more count as one. The key of a
path is where it lies as seen from a root (`normalize_path_key`).
-/

import LintMerge.Text.Blank
import LintMerge.Text.Glyph

namespace LintMerge

/-- A path. -/
structure Path where
  /-- the slashes at the start: none, one or two -/
  slashes : Nat
  segments : List String
  deriving DecidableEq, Repr, Inhabited

namespace Path

/-- The parts of a text between slashes. -/
def parts (s : String) : List String := (Text.splitOn '/' s.toList).map String.ofList

/-- Whether a text is an absolute path. -/
def isAbsoluteText (s : String) : Bool := s.toList.head? = some '/'

/-- The root of a text. -/
def slashesOf (s : List Char) : Nat :=
  match (s.takeWhile (· = '/')).length with
  | 0 => 0
  | 2 => 2
  | _ => 1

/-- Whether a part of a text counts as a segment. -/
def isSegment (part : String) : Bool := part != "" && part != "."

/-- The path that a text names. -/
def ofText (s : String) : Path := ⟨slashesOf s.toList, (parts s).filter isSegment⟩

/-- Whether a path has a root. -/
def isAbsolute (p : Path) : Bool := p.slashes != 0

/-- Segments with a slash between each two. -/
def joined (segments : List String) : String := "/".intercalate segments

/-- The text of a path. -/
def text (p : Path) : String :=
  if p.slashes = 0 ∧ p.segments = [] then "."
  else String.ofList (List.replicate p.slashes '/') ++ joined p.segments

/-- Whether a path holds the character U+0000, at which the system would take it to end. -/
def endsEarly (p : Path) : Bool := p.segments.any fun s => s.toList.contains '\x00'

/-- The last segment, empty for a root. -/
def name (p : Path) : String := p.segments.getLast?.getD ""

/-- What is said where a path is needed and none is given. -/
def missingMessage : String := "path must not be None"

/-- A path below another, itself when it has a root. -/
def join (base p : Path) : Path :=
  if p.isAbsolute then p else ⟨base.slashes, base.segments ++ p.segments⟩

/-- A path with one more segment. -/
def child (p : Path) (segment : String) : Path := ⟨p.slashes, p.segments ++ [segment]⟩

/-- Segments below a root with `..` resolved; `done` holds the last segments first. -/
def collapseFrom (done : List String) : List String → List String
  | [] => done.reverse
  | s :: rest => if s = ".." then collapseFrom done.tail rest else collapseFrom (s :: done) rest

/-- Segments below a root with `..` resolved. -/
def collapse (segments : List String) : List String := collapseFrom [] segments

/-- The path that a text names below a directory, with `..` resolved. -/
def absolute (base : Path) (s : String) : Path :=
  let p := base.join (ofText s)
  ⟨p.slashes, collapse p.segments⟩

/-- The segments that lead from one directory to another. -/
def relative : (start target : List String) → List String
  | a :: s, b :: t => if a = b then relative s t else ".." :: s.map (fun _ => "..") ++ b :: t
  | s, t => s.map (fun _ => "..") ++ t

/-- Where a path lies as seen from a directory. -/
def key (base : Path) (s : String) : String :=
  let root : Path := ⟨base.slashes, collapse base.segments⟩
  text ⟨0, relative root.segments (absolute root s).segments⟩

/-! ### Paths with halves of pairs

A half stands in a segment behind a slash, as the character of its number, because no other slash
stands there. -/

/-- A glyph as it stands in a segment. -/
def spell : Glyph → List Char
  | .char c => [c]
  | .half n => ['/', Char.ofNat n]

/-- The glyphs that stand in a segment. -/
def unspell : List Char → List Glyph
  | '/' :: c :: rest => .half (Fin.ofNat _ c.toNat) :: unspell rest
  | c :: rest => .char c :: unspell rest
  | [] => []

/-- Where a path lies as seen from a directory, with its halves. -/
def keyGlyphs (base : Path) (gs : List Glyph) : List Glyph :=
  let segments := ((Text.splitOn (.char '/') gs).map fun part =>
    String.ofList (part.flatMap spell)).filter isSegment
  let p := base.join ⟨slashesOf (gs.map Glyph.masked), segments⟩
  [.char '/'].intercalate
    ((relative (collapse base.segments) (collapse p.segments)).map fun s => unspell s.toList)

/-- What a path is sorted by: its root, if it has one, and its segments. -/
def sortKey (p : Path) : List String :=
  (if p.slashes = 0 then [] else [String.ofList (List.replicate p.slashes '/')]) ++ p.segments

/-- The order of paths: root first, then segment by segment. -/
def compareParts (p q : Path) : Ordering := go p.sortKey q.sortKey
where
  /-- Segments in order. -/
  go : List String → List String → Ordering
    | [], [] => .eq
    | [], _ :: _ => .lt
    | _ :: _, [] => .gt
    | a :: s, b :: t => if a < b then .lt else if b < a then .gt else go s t

/-- Whether a path comes before another or is it. -/
def atMost (p q : Path) : Bool := compareParts p q != .gt

end Path
end LintMerge

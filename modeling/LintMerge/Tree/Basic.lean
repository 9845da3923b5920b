/-
# Trees of files

A tree holds files, folders and symbolic links. Looking a path up follows links,
also the last one, at most forty of them; `..` leads to the folder that holds the
current one, wherever a link has led. A segment has at most 255 octets and a path
fewer than 4096; a path with the character U+0000 leads nowhere, however long it is.

Entries have no permissions, but for that of a file to be run. So a folder that may not
be entered is none here, and `isFile`, `isFolder` and `holds` have an answer for each
path that is not too long, where `is_file`, `is_dir` and `exists` would fail below such
a folder. That a file cannot be read is a matter of how it is read (`Reading`).
-/

import LintMerge.Path
import LintMerge.Text.Quoted

namespace LintMerge

/-- How files are read: to their octets, or why they cannot be. -/
abbrev Reading := Path → Except String (List UInt8)

/-- A file, a folder or a link. -/
inductive Node where
  | file (content : List UInt8) (executable : Bool)
  /-- the entries of a folder, in the order of their names -/
  | folder (entries : List (String × Node))
  | link (target : String)
  deriving Inhabited

namespace Node

/-- The entry of a name. -/
def child? (name : String) : List (String × Node) → Option Node
  | [] => none
  | (k, n) :: rest => if k = name then some n else child? name rest

/-- Entries with the one of a name set. -/
def put (name : String) (n : Node) : List (String × Node) → List (String × Node)
  | [] => [(name, n)]
  | (k, m) :: rest =>
    if k = name then (name, n) :: rest
    else if name < k then (name, n) :: (k, m) :: rest
    else (k, m) :: put name n rest

theorem child?_put_self (name : String) (n : Node) (es : List (String × Node)) :
    child? name (put name n es) = some n := by
  induction es with
  | nil => simp [put, child?]
  | cons e rest ih =>
    obtain ⟨k, m⟩ := e
    by_cases h : k = name
    · simp [put, child?, h]
    · by_cases h' : name < k <;> simp [put, child?, h, h', ih]

/-- Entries without the one of a name. -/
def drop (name : String) (es : List (String × Node)) : List (String × Node) :=
  es.filter (·.1 ≠ name)

/-- The entries of a folder, none of anything else. -/
def entries : Node → List (String × Node)
  | folder es => es
  | _ => []

/-- A tree with the node at some names set; folders are made on the way. -/
def set (n : Node) (names : List String) (new : Node) : Node :=
  match names with
  | [] => new
  | name :: rest => folder (put name (set ((child? name n.entries).getD (folder [])) rest new) n.entries)

/-- A tree without the node at some names. -/
def remove (n : Node) (names : List String) : Node :=
  match names, n with
  | [name], folder es => folder (drop name es)
  | name :: rest, folder es =>
    match child? name es with
    | some m => folder (put name (remove m rest) es)
    | none => folder es
  | _, n => n

end Node

/-- A tree, given by its root. -/
structure Tree where
  root : Node
  deriving Inhabited

namespace Tree

/-- Why a path leads to nothing. -/
inductive Fault where
  | missing
  | notFolder
  | tooManyLinks
  | tooLong
  deriving DecidableEq, Repr

/-- The folders on the way to a node, the innermost first, with their names. -/
abbrev Trail := List (String × Node)

/-- The node at the end of a trail. -/
def Trail.node (root : Node) : Trail → Node
  | [] => root
  | (_, n) :: _ => n

/-- The names of a trail, the outermost first. -/
def Trail.names (t : Trail) : List String := (t.map (·.1)).reverse

/-- The most links that are followed for a path. -/
def maxLinks : Nat := 40

/-- The most octets of a segment. -/
def maxName : Nat := 255

/-- The first number of octets that is too many for a path. -/
def maxPath : Nat := 4096

/-- The trail after some more segments; `leap` goes on where a link leads, with its
segments before those that are left. -/
def descend (root : Node) (leap : Trail → List String → Except Fault Trail) (trail : Trail) :
    List String → Except Fault Trail
  | [] => .ok trail
  | s :: rest =>
    match trail.node root with
    | .folder es =>
      if s = ".." then descend root leap trail.tail rest
      else if maxName < s.utf8ByteSize then .error .tooLong
      else
        match Node.child? s es with
        | none => .error .missing
        | some (.link target) =>
          let p := Path.ofText target
          leap (if p.isAbsolute then [] else trail) (p.segments ++ rest)
        | some n => descend root leap ((s, n) :: trail) rest
    | _ => .error .notFolder

/-- The trail after some more segments, on which a number of links may be followed. -/
def follow (root : Node) : (links : Nat) → Trail → List String → Except Fault Trail
  | 0 => descend root fun _ _ => .error .tooManyLinks
  | links + 1 => descend root (follow root links)

/-- The trail to a path. -/
def trail (t : Tree) (p : Path) : Except Fault Trail :=
  if p.endsEarly then .error .missing
  else if maxPath ≤ p.text.utf8ByteSize then .error .tooLong
  else follow t.root maxLinks [] p.segments

/-- The node at a path. -/
def node (t : Tree) (p : Path) : Except Fault Node := (t.trail p).map (·.node t.root)

/-- The node at a path, if there is one. -/
def node? (t : Tree) (p : Path) : Option Node := (t.node p).toOption

/-- Whether a path leads to anything. -/
def holds (t : Tree) (p : Path) : Bool := (t.node? p).isSome

/-- Whether a path leads to a file. -/
def isFile (t : Tree) (p : Path) : Bool :=
  match t.node? p with
  | some (.file ..) => true
  | _ => false

/-- Whether a path leads to a folder. -/
def isFolder (t : Tree) (p : Path) : Bool :=
  match t.node? p with
  | some (.folder _) => true
  | _ => false

/-- Whether a path leads to a file that can be run. -/
def isProgram (t : Tree) (p : Path) : Bool :=
  match t.node? p with
  | some (.file _ executable) => executable
  | _ => false

/-- Whether a path is too long to be looked up. -/
def isTooLong (t : Tree) (p : Path) : Bool :=
  match t.trail p with
  | .error .tooLong => true
  | _ => false

/-- What is said of a path that is too long. -/
def tooLongMessage (p : Path) : String := "[Errno 36] File name too long: " ++ quoted p.text

/-- The first of some paths that leads to a file. It fails with a path that is too long. -/
def firstFile (t : Tree) : List Path → Except Path (Option Path)
  | [] => .ok none
  | path :: rest =>
    if t.isTooLong path then .error path
    else if t.isFile path then .ok (some path)
    else firstFile t rest

/-- The content of a file. -/
def read? (t : Tree) (p : Path) : Option (List UInt8) :=
  match t.node? p with
  | some (.file content _) => some content
  | _ => none

/-- The octets of the files of a tree, all of which can be read. -/
def contents (t : Tree) : Reading := fun path => .ok ((t.read? path).getD [])

/-- The names at which something written to a path comes to lie; the last name may be
missing, its folder may not. -/
def landing (t : Tree) (links : Nat) (base : Trail) (segments : List String) : Except Fault (List String) :=
  match segments.getLast? with
  | none => .ok base.names
  | some name =>
    match follow t.root links base segments.dropLast with
    | .error e => .error e
    | .ok folder =>
      match Node.child? name (folder.node t.root).entries, links with
      | some (.link target), links + 1 =>
        let p := Path.ofText target
        landing t links (if p.isAbsolute then [] else folder) p.segments
      | some (.link _), 0 => .error .tooManyLinks
      | _, _ =>
        match folder.node t.root with
        | .folder _ => .ok (folder.names ++ [name])
        | _ => .error .notFolder

/-- A tree with a file written, through links, into a folder that is there. -/
def write (t : Tree) (p : Path) (content : List UInt8) : Except Fault Tree := do
  let names ← t.landing maxLinks [] p.segments
  let executable :=
    match t.node? ⟨1, names⟩ with
    | some (.file _ executable) => executable
    | _ => false
  return ⟨t.root.set names (.file content executable)⟩

/-- A tree with a node set; folders are made on the way, links in it are followed. -/
def place (t : Tree) (p : Path) (n : Node) : Tree :=
  match t.landing maxLinks [] p.segments with
  | .ok names => ⟨t.root.set names n⟩
  | .error _ => ⟨t.root.set p.segments n⟩

/-- A tree without what is at a path. -/
def remove (t : Tree) (p : Path) : Tree :=
  match p.segments.getLast?, t.trail ⟨p.slashes, p.segments.dropLast⟩ with
  | some name, .ok folder => ⟨t.root.remove (folder.names ++ [name])⟩
  | _, _ => t

/-- A path with its links followed as far as it leads somewhere. -/
def real (t : Tree) (p : Path) : Path := go p.segments.length p.segments []
where
  /-- The path of the longest start of some segments that leads somewhere, and the rest. -/
  go : Nat → List String → List String → Path
    | 0, start, rest => ⟨1, Path.collapse (start ++ rest)⟩
    | fuel + 1, start, rest =>
      match follow t.root maxLinks [] start with
      | .ok trail => ⟨1, Path.collapse (trail.names ++ rest)⟩
      | .error _ => go fuel start.dropLast (start.getLast?.toList ++ rest)

end Tree
end LintMerge

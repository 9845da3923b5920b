/-
# TOML documents

What `load_config` reads. A document is a list of statements, one a line: a key with its value, the
head of a table, or the head of a further table of a list. What has been said once is not said
again: a value is not overwritten, a table not declared twice, and tables and lists written in one
piece are closed for good.

Reading keeps two lists of keys beside the tables read so far, those that are
closed with all that is below them, and those that no head of a table may name.
-/

import LintMerge.Toml.Scalar
import LintMerge.Value

namespace LintMerge
namespace Toml

/-- Entries with a table at some names changed, made where it is missing; of a list of
tables the last one counts, if lists may be entered. Fails on anything else. -/
def changeAt (enterLists : Bool) (f : List (String × Value) → Option (List (String × Value))) :
    Key → List (String × Value) → Option (List (String × Value))
  | [], es => f es
  | name :: rest, es =>
    match (Value.lookup name es).getD (.table []) with
    | .table inner => (changeAt enterLists f rest inner).map fun t => Value.insert name (.table t) es
    | .list items =>
      if enterLists then
        match items.getLast? with
        | some (.table inner) =>
          (changeAt enterLists f rest inner).map fun t =>
            Value.insert name (.list (items.dropLast ++ [.table t])) es
        | _ => none
      else none
    | _ => none

/-- Entries with one more table in a list of tables. -/
def appendTable (name : String) (es : List (String × Value)) : Option (List (String × Value)) :=
  match Value.lookup name es with
  | none => some (Value.insert name (.list [.table []]) es)
  | some (.list items) => some (Value.insert name (.list (items ++ [.table []])) es)
  | some _ => none

/-- Whether a value was written in one piece of several. -/
def isCompound : Value → Bool
  | .table _ => true
  | .list _ => true
  | _ => false

/-- Whether one of some keys is at or above a key. -/
def covers (keys : List Key) (k : Key) : Bool := !k.isEmpty && keys.any (·.isPrefixOf k)

/-- What is left of keys when all at or below one are dropped. -/
def dropBelow (k : Key) (keys : List Key) : List Key := keys.filter (!k.isPrefixOf ·)

/-- A document as far as it has been read. -/
structure State where
  entries : List (String × Value) := []
  /-- keys that are closed with all that is below them -/
  closed : List Key := []
  /-- keys that no head of a table may name -/
  declared : List Key := []
  /-- keys that will be such from the next head on -/
  pending : List Key := []
  /-- the table that statements belong to -/
  header : Key := []

mutual

/-- A value. -/
def value : (fuel : Nat) → List Char → Except Fault (Value × List Char)
  | 0, s => refuse .badValue s
  | fuel + 1, s =>
    match string? s with
    | some outcome => outcome.map fun (cs, rest) => (.text (String.ofList cs), rest)
    | none =>
      match s with
      | 't' :: 'r' :: 'u' :: 'e' :: rest => .ok (.bool true, rest)
      | 'f' :: 'a' :: 'l' :: 's' :: 'e' :: rest => .ok (.bool false, rest)
      | '[' :: rest => do
        let rest ← skipAll (rest.length + 1) rest
        match rest with
        | ']' :: rest => return (.list [], rest)
        | rest => array fuel [] rest
      | '\x7b' :: rest =>
        match skip rest with
        | '\x7d' :: rest => .ok (.table [], rest)
        | rest => inline fuel [] [] rest
      | s =>
        match moment? s with
        | some outcome => outcome
        | none =>
          match number? s with
          | some outcome => outcome
          | none => refuse .badValue s

/-- The rest of a list that has a value next; `done` holds its values, the last first. -/
def array : (fuel : Nat) → List Value → List Char → Except Fault (Value × List Char)
  | 0, _, s => refuse .unclosedArray s
  | fuel + 1, done, s => do
    let (v, rest) ← value fuel s
    let done := v :: done
    let rest ← skipAll (rest.length + 1) rest
    match rest with
    | ']' :: rest => return (.list done.reverse, rest)
    | ',' :: rest =>
      let rest ← skipAll (rest.length + 1) rest
      match rest with
      | ']' :: rest => return (.list done.reverse, rest)
      | rest => array fuel done rest
    | rest => refuse .unclosedArray rest

/-- The rest of a table written in one piece that has a key next. -/
def inline : (fuel : Nat) → List (String × Value) → List Key → List Char →
    Except Fault (Value × List Char)
  | 0, _, _, s => refuse .unclosedTable s
  | fuel + 1, es, closed, s => do
    let (k, rest) ← key (s.length + 1) s
    match rest with
    | '=' :: rest =>
      let (v, rest) ← value fuel (skip rest)
      if covers closed k then refuse (.immutable k) rest
      else
        let name := k.getLast?.getD ""
        match changeAt false some k.dropLast es with
        | none => refuse .overwritten rest
        | some _ =>
          let add (t : List (String × Value)) :=
            if (Value.lookup name t).isSome then none else some (Value.insert name v t)
          match changeAt false add k.dropLast es with
          | none => refuse (.duplicate name) rest
          | some es =>
            match skip rest with
            | '\x7d' :: rest => .ok (.table es, rest)
            | ',' :: rest => inline fuel es (if isCompound v then k :: closed else closed) (skip rest)
            | rest => refuse .unclosedTable rest
    | rest => refuse .noEquals rest

end

/-- The keys above the last name of a key, below a header. -/
def above (header : Key) (k : Key) : List Key :=
  (List.range (k.length - 1)).map fun i => header ++ k.take (i + 1)

/-- The state after a key with its value. -/
def State.assign (st : State) (s : List Char) : Except Fault (State × List Char) := do
  let (k, rest) ← key (s.length + 1) s
  match rest with
  | '=' :: rest =>
    let body := skip rest
    let (v, rest) ← value (2 * body.length + 2) body
    match (above st.header k).find? (st.declared.contains ·) with
    | some dotted => refuse (.redefined dotted) rest
    | none =>
      let parent := st.header ++ k.dropLast
      if covers st.closed parent then refuse (.immutable parent) rest
      else
        let name := k.getLast?.getD ""
        let add (t : List (String × Value)) :=
          if (Value.lookup name t).isSome then none else some (Value.insert name v t)
        match changeAt true add parent st.entries with
        | none => refuse .overwritten rest
        | some entries =>
          return ({ st with
            entries
            closed := if isCompound v then (st.header ++ k) :: st.closed else st.closed
            pending := above st.header k ++ st.pending }, rest)
  | rest => refuse .noEquals rest

/-- The state after the head of a table; `s` starts after its bracket. -/
def State.openTable (st : State) (s : List Char) : Except Fault (State × List Char) := do
  let s := skip s
  let (k, rest) ← key (s.length + 1) s
  if st.declared.contains k || covers st.closed k then refuse (.declaredTwice k) rest
  else
    match changeAt true some k st.entries with
    | none => refuse .overwritten rest
    | some entries =>
      match rest with
      | ']' :: rest => return ({ st with entries, declared := k :: st.declared, header := k }, rest)
      | rest => refuse .noTableEnd rest

/-- The state after the head of a further table of a list; `s` starts after its brackets. -/
def State.openItem (st : State) (s : List Char) : Except Fault (State × List Char) := do
  let s := skip s
  let (k, rest) ← key (s.length + 1) s
  if covers st.closed k then refuse (.immutable k) rest
  else
    match changeAt true (appendTable (k.getLast?.getD "")) k.dropLast st.entries with
    | none => refuse .overwritten rest
    | some entries =>
      match rest with
      | ']' :: ']' :: rest =>
        return ({ st with
          entries
          closed := dropBelow k st.closed
          declared := k :: dropBelow k st.declared
          header := k }, rest)
      | rest => refuse .noTablesEnd rest

/-- The state with what is pending in force. -/
def State.settle (st : State) : State :=
  { st with declared := st.pending ++ st.declared, pending := [] }

/-- The state after a statement, if there is one on the line. -/
def State.statement (st : State) (s : List Char) : Except Fault (State × List Char) :=
  match s with
  | '[' :: '[' :: rest => st.settle.openItem rest
  | '[' :: rest => st.settle.openTable rest
  | '#' :: _ => .ok (st, s)
  | c :: _ =>
    if isBare c || c = '"' || c = '\x27' then st.assign s else refuse .notAStatement s
  | [] => .ok (st, [])

/-- The state after some lines. -/
def State.lines : (fuel : Nat) → State → List Char → Except Fault State
  | 0, st, _ => .ok st
  | fuel + 1, st, s =>
    match skip s with
    | [] => .ok st
    | '\n' :: rest => lines fuel st rest
    | s => do
      let (st, rest) ← st.statement s
      let rest ← skipComment (skip rest)
      match rest with
      | [] => return st
      | '\n' :: rest => lines fuel st rest
      | rest => refuse .noLineEnd rest

/-- A text with a line feed for each carriage return that one follows. -/
def unifyLines : List Char → List Char
  | '\r' :: '\n' :: rest => '\n' :: unifyLines rest
  | c :: rest => c :: unifyLines rest
  | [] => []

/-- The entries of a document whose lines end with line feeds. -/
def entries (s : List Char) : Except Fault (List (String × Value)) :=
  (State.lines (s.length + 1) {} s).map (·.entries)

end Toml
end LintMerge

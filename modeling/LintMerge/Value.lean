/-
# Values of data documents

What a JSON or a TOML document holds. Entries of a table keep the order in which
their keys first occur, and a key occurs once. Dates and times, which only TOML
has, are kept as written: nothing here computes with them. Texts with halves of
pairs, which only JSON that is read leniently has, are kept apart from the others;
a key takes the replacement character for each half.

`shown` writes a value on one line (`str`), texts inside lists and tables between quotes.
-/

import LintMerge.Number.Shortest
import LintMerge.Text.Blank
import LintMerge.Text.Glyph

namespace LintMerge

/-- A value of a data document. -/
inductive Value where
  | null
  | bool (b : Bool)
  | int (n : Int)
  | float (x : Binary64)
  | text (s : String)
  | list (items : List Value)
  | table (entries : List (String × Value))
  | moment (written : String)
  | torn (t : Torn)
  deriving Inhabited

namespace Value

/-- The name of the kind of a value. -/
def kind : Value → String
  | null => "NoneType"
  | bool _ => "bool"
  | int _ => "int"
  | float _ => "float"
  | text _ => "str"
  | list _ => "list"
  | table _ => "dict"
  | moment _ => "datetime"
  | torn _ => "str"

/-- The entry of a key. -/
def lookup (key : String) : List (String × Value) → Option Value
  | [] => none
  | (k, v) :: rest => if k = key then some v else lookup key rest

/-- Entries with a key set: in its place when it is there, at the end otherwise. -/
def insert (key : String) (value : Value) : List (String × Value) → List (String × Value)
  | [] => [(key, value)]
  | (k, v) :: rest => if k = key then (key, value) :: rest else (k, v) :: insert key value rest

@[simp] theorem lookup_insert_self (key : String) (v : Value) (es : List (String × Value)) :
    lookup key (insert key v es) = some v := by
  induction es with
  | nil => simp [insert, lookup]
  | cons e rest ih =>
    obtain ⟨k, w⟩ := e
    by_cases h : k = key <;> simp [insert, lookup, h, ih]

/-- A key that is not there yet is set at the end. -/
theorem insert_of_not_mem {key : String} {es : List (String × Value)} (h : key ∉ es.map (·.1))
    (v : Value) : insert key v es = es ++ [(key, v)] := by
  induction es with
  | nil => rfl
  | cons head rest ih =>
    rw [List.map_cons, List.mem_cons, not_or] at h
    rw [insert, if_neg (Ne.symm h.1), ih h.2, List.cons_append]

/-- The entry of a key in a table; null for a key that is not there and for other values. -/
def field (v : Value) (key : String) : Value :=
  match v with
  | table es => (lookup key es).getD null
  | _ => null

/-- The entry of a key in a table, another value where there is none. -/
def fieldOr (v : Value) (key : String) (other : Value) : Value :=
  match v with
  | table es => (lookup key es).getD other
  | _ => other

mutual

/-- A value without the entries of tables, at every depth, that are null. -/
def compacted : Value → Value
  | list items => list (compactedItems items)
  | table entries => table (compactedEntries entries)
  | v => v

/-- The values of a list, compacted. -/
def compactedItems : List Value → List Value
  | [] => []
  | v :: rest => compacted v :: compactedItems rest

/-- The entries of a table that are not null, compacted. -/
def compactedEntries : List (String × Value) → List (String × Value)
  | [] => []
  | (_, null) :: rest => compactedEntries rest
  | (k, v) :: rest => (k, compacted v) :: compactedEntries rest

end

/-- A text, or null for none. -/
def ofText? : Option String → Value
  | none => null
  | some s => text s

/-- A number as a value. -/
def ofNat (n : Nat) : Value := int n

/-- Texts separated by a comma and a space. -/
def commas : List (List Char) → List Char := Text.joinWith [',', ' ']

mutual

/-- A value inside a list or a table. -/
def showInner : Value → List Char
  | null => "None".toList
  | bool true => "True".toList
  | bool false => "False".toList
  | int n => (toString n).toList
  | float x => x.text
  | text s => Text.quote s.toList
  | list items => '[' :: commas (showItems items) ++ [']']
  | table entries => '\x7b' :: commas (showEntries entries) ++ ['\x7d']
  | moment written => written.toList
  | torn t => Glyph.quote t.glyphs

/-- The values of a list, one by one. -/
def showItems : List Value → List (List Char)
  | [] => []
  | v :: rest => showInner v :: showItems rest

/-- The entries of a table, one by one. -/
def showEntries : List (String × Value) → List (List Char)
  | [] => []
  | (k, v) :: rest => (Text.quote k.toList ++ [':', ' '] ++ showInner v) :: showEntries rest

end

/-- A value on one line; a text stands for itself. -/
def shown : Value → String
  | text s => s
  | torn t => t.text
  | v => String.ofList v.showInner

/-- The text of glyphs, with its halves if it has any. -/
def ofGlyphs (gs : List Glyph) : Value :=
  match Torn.of? gs with
  | some t => torn t
  | none => text (Glyph.text gs)

/-- What a value is as a text, with its halves; nothing for null. -/
def glyphs : Value → List Glyph
  | null => []
  | torn t => t.glyphs
  | v => Glyph.ofChars v.shown.toList

/-- The text that a value is, none for other kinds of values. -/
def string? : Value → Option String
  | text s => some s
  | torn t => some t.text
  | _ => none

@[simp] theorem ofGlyphs_ofChars (s : List Char) :
    ofGlyphs (Glyph.ofChars s) = text (String.ofList s) := by
  simp [ofGlyphs]

@[simp] theorem string?_text (s : String) : (text s).string? = some s := rfl

end Value
end LintMerge

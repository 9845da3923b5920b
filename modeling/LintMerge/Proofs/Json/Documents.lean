/-
# Documents are read as they were written

A value is written so that it can be read again (`Writable`) when its integers are not too
long, the keys of its tables differ and its containers are not nested too deep. Whatever
blanks are put between its tokens, the text is then read as the value
(`document_writeAt`). So it does not matter whether a document is written on one line or
indented.

The proof takes the reader one token at a time (`value_list` to `members_comma`). Between
tokens the invariant is that the fuel is more than twice the length of what is still to be
read of the value.
-/

import LintMerge.Proofs.Json.Numbers
import LintMerge.Proofs.Json.Strings

namespace LintMerge
namespace Json

/-- Only blanks stand between the tokens of a document. -/
def Spacing.Blank (sp : Spacing) : Prop :=
  (∀ level, ∀ c ∈ sp.line level, isSpace c = true) ∧ ∀ c ∈ sp.colon, isSpace c = true

theorem Spacing.blank_compact : Spacing.compact.Blank :=
  ⟨fun _ _ hc => absurd hc List.not_mem_nil, fun _ hc => absurd hc List.not_mem_nil⟩

theorem Spacing.blank_indented : Spacing.indented.Blank := by
  refine ⟨fun level c hc => ?_, fun c hc => ?_⟩
  · rcases List.mem_cons.1 hc with rfl | hc
    · rfl
    · rw [List.eq_of_mem_replicate hc]
      rfl
  · rw [List.mem_singleton.1 hc]
    rfl

/-- A value that can be read again where `room` more containers may be opened. -/
inductive Writable : Nat → Value → Prop where
  | null {room : Nat} : Writable room .null
  | bool {room : Nat} {b : Bool} : Writable room (.bool b)
  | int {room : Nat} {n : Int} (hn : (toString n).length ≤ Text.maxDigits) : Writable room (.int n)
  | text {room : Nat} {s : String} : Writable room (.text s)
  | list {room : Nat} {vs : List Value} (hroom : vs = [] ∨ 0 < room)
      (items : ∀ v ∈ vs, Writable (room - 1) v) : Writable room (.list vs)
  | table {room : Nat} {es : List (String × Value)} (hroom : es = [] ∨ 0 < room)
      (keys : (es.map (·.1)).Nodup) (values : ∀ e ∈ es, Writable (room - 1) e.2) :
      Writable room (.table es)

/-- What is written for a value starts with a character that is neither blank nor closes a
container. -/
theorem Writable.head {room : Nat} {v : Value} (hv : Writable room v) (sp : Spacing) (level : Nat) :
    ∃ c s, writeAt sp level v = c :: s ∧ isSpace c = false ∧ c ≠ ']' ∧ c ≠ '\x7d' := by
  cases hv with
  | null => exact ⟨'n', _, rfl, rfl, by decide, by decide⟩
  | @bool _ b => cases b <;> exact ⟨_, _, rfl, rfl, by decide, by decide⟩
  | @int _ n =>
    obtain ⟨c, s, htext, hc⟩ := exists_cons_toString n
    have hspace : isSpace c = false := by
      simp [isSpace, hc.ne (d := ' ') (by decide) rfl, hc.ne (d := '\t') (by decide) rfl,
        hc.ne (d := '\n') (by decide) rfl, hc.ne (d := '\r') (by decide) rfl]
    exact ⟨c, s, htext, hspace, hc.ne (by decide) rfl, hc.ne (by decide) rfl⟩
  | text => exact ⟨'"', _, rfl, rfl, by decide, by decide⟩
  | @list _ vs => cases vs <;> exact ⟨'[', _, rfl, rfl, by decide, by decide⟩
  | @table _ es => cases es <;> exact ⟨'\x7b', _, rfl, rfl, by decide, by decide⟩

namespace Strict

variable {fuel depth : Nat} {s t r rest : List Char} {c : Char} {v : Value}

/-- A number is a value. -/
theorem value_of_startsNumber (hc : StartsNumber c) :
    value (fuel + 1) depth (c :: s) = number (c :: s) := by
  rw [value]
  all_goals exact fun _ h => hc.ne (by decide) rfl (List.cons.inj h).1

/-- A list is entered. -/
theorem value_list (hs : skip s = c :: t) (hc : c ≠ ']') (hdepth : depth < maxDepth) :
    value (fuel + 1) depth ('[' :: s) = items fuel depth [] (c :: t) := by
  rw [value, hs]
  split
  · next h => cases h
  · next h => exact absurd (List.cons.inj h).1 hc
  · rw [if_pos hdepth]

/-- A list is left after a value. -/
theorem items_close {done : List Value} (hv : value fuel (depth + 1) s = .ok (v, r))
    (hr : skip r = ']' :: t) : items (fuel + 1) depth done s = .ok (.list (v :: done).reverse, t) := by
  simp only [items, hv, bind, Except.bind, hr]

/-- A list goes on after a value and a comma. -/
theorem items_comma {done : List Value} {r' : List Char} (hv : value fuel (depth + 1) s = .ok (v, r))
    (hr : skip r = ',' :: r') (hr' : skip r' = c :: t) (hc : c ≠ ']') :
    items (fuel + 1) depth done s = items fuel depth (v :: done) (c :: t) := by
  simp only [items, hv, bind, Except.bind, hr]
  rw [hr']
  split
  · next h => cases h
  · next h => exact absurd (List.cons.inj h).1 hc
  · rfl

/-- A table is entered. -/
theorem value_table (hs : skip s = c :: t) (hc : c ≠ '\x7d') :
    value (fuel + 1) depth ('\x7b' :: s) = members fuel depth [] (c :: t) := by
  rw [value, hs]
  split
  · next h => cases h
  · next h => exact absurd (List.cons.inj h).1 hc
  · rfl

variable {done : List (String × Value)} {name : String} {r' r'' : List Char} {d : Char}

/-- A table is left after an entry. -/
theorem members_close (hname : quoted s = .ok (name, r)) (hr : skip r = ':' :: r')
    (hr' : skip r' = c :: t) (hdepth : depth < maxDepth)
    (hv : value fuel (depth + 1) (c :: t) = .ok (v, r'')) (hr'' : skip r'' = '\x7d' :: rest) :
    members (fuel + 1) depth done ('"' :: s) = .ok (.table (Value.insert name v done), rest) := by
  simp only [members, hname, bind, Except.bind, hr, hr', if_pos hdepth, hv, hr'']

/-- A table goes on after an entry and a comma. -/
theorem members_comma {u : List Char} (hname : quoted s = .ok (name, r)) (hr : skip r = ':' :: r')
    (hr' : skip r' = c :: t) (hdepth : depth < maxDepth)
    (hv : value fuel (depth + 1) (c :: t) = .ok (v, r'')) (hr'' : skip r'' = ',' :: rest)
    (hrest : skip rest = d :: u) (hd : d ≠ '\x7d') :
    members (fuel + 1) depth done ('"' :: s) =
      members fuel depth (Value.insert name v done) (d :: u) := by
  simp only [members, hname, bind, Except.bind, hr, hr', if_pos hdepth, hv, hr'']
  rw [hrest]
  split
  · next h => cases h
  · next h => exact absurd (List.cons.inj h).1 hd
  · rfl

variable {sp : Spacing} {level : Nat} {blanks : List Char}

/-- A value is read from what is written for it, and nothing more is. -/
def ReadBack (sp : Spacing) (level depth : Nat) (v : Value) : Prop :=
  ∀ (fuel : Nat) (rest : List Char), Ends rest → 2 * (writeAt sp level v).length + 1 ≤ fuel →
    value fuel depth (writeAt sp level v ++ rest) = .ok (v, rest)

/-- The values of a list are read, and what closes the list after them. The induction is on the
values after the next one. -/
theorem items_writeMore (hsp : sp.Blank) (hblanks : ∀ c ∈ blanks, isSpace c = true)
    (rest : List Char) (more : List Value) :
    ∀ (v : Value) (done : List Value) (fuel : Nat),
      (∀ w ∈ v :: more, (∃ room, Writable room w) ∧ ReadBack sp level (depth + 1) w) →
      2 * (writeAt sp level v ++ writeMore sp level more).length + 2 ≤ fuel →
      items fuel depth done (writeAt sp level v ++ (writeMore sp level more ++ (blanks ++ ']' :: rest))) =
        .ok (.list (done.reverse ++ v :: more), rest) := by
  have hclose : skip (blanks ++ ']' :: rest) = ']' :: rest := by
    rw [skip_append hblanks, skip_cons_of_not rfl]
  induction more with
  | nil =>
    intro v done fuel hread hfuel
    obtain ⟨fuel, rfl⟩ : ∃ k, fuel = k + 1 := ⟨fuel - 1, by omega⟩
    rw [writeMore, List.append_nil] at hfuel
    rw [writeMore, List.nil_append]
    have hends : Ends (blanks ++ ']' :: rest) := .append hblanks ⟨rfl, rfl⟩
    have hv := (hread v List.mem_cons_self).2 fuel _ hends (by omega)
    rw [items_close hv hclose, List.reverse_cons]
  | cons w more ih =>
    intro v done fuel hread hfuel
    obtain ⟨fuel, rfl⟩ : ∃ k, fuel = k + 1 := ⟨fuel - 1, by omega⟩
    obtain ⟨⟨room, hw⟩, -⟩ := hread w (List.mem_cons_of_mem _ List.mem_cons_self)
    obtain ⟨c, s, hhead, hspace, hc, -⟩ := hw.head sp level
    simp only [writeMore, List.length_append, List.length_cons] at hfuel
    have hv := (hread v List.mem_cons_self).2 fuel
      (',' :: (sp.line level ++ (writeAt sp level w ++ (writeMore sp level more ++ (blanks ++ ']' :: rest)))))
      ⟨rfl, rfl⟩ (by omega)
    have hnext : skip (sp.line level ++ (writeAt sp level w ++
        (writeMore sp level more ++ (blanks ++ ']' :: rest)))) =
        c :: (s ++ (writeMore sp level more ++ (blanks ++ ']' :: rest))) := by
      rw [skip_append (hsp.1 level), hhead, List.cons_append, skip_cons_of_not hspace]
    have hmore := ih w (v :: done) fuel (fun u hu => hread u (List.mem_cons_of_mem _ hu))
      (by rw [List.length_append]; omega)
    rw [hhead, List.cons_append] at hmore
    simp only [writeMore, List.cons_append, List.append_assoc]
    rw [items_comma hv (skip_cons_of_not rfl) hnext hc, hmore, List.reverse_cons, List.append_assoc]
    rfl

/-- The key of the next entry is new to the entries before it. -/
theorem not_mem_of_nodup {done more : List (String × Value)} {k : String} {v : Value}
    (h : ((done ++ (k, v) :: more).map (·.1)).Nodup) : k ∉ done.map (·.1) := by
  rw [List.map_append, List.nodup_append] at h
  exact fun hmem => h.2.2 k hmem k List.mem_cons_self rfl

/-- The text of an entry and of all that follows it in a table. -/
def fromEntry (sp : Spacing) (level : Nat) (k : String) (v : Value) (s : List Char) : List Char :=
  '"' :: (k.toList.flatMap escapeChar ++ '"' :: ':' :: (sp.colon ++ (writeAt sp level v ++ s)))

theorem writeEntries_cons (sp : Spacing) (level : Nat) (k : String) (v : Value)
    (more : List (String × Value)) (s : List Char) :
    writeEntries sp level ((k, v) :: more) ++ s =
      ',' :: (sp.line level ++ fromEntry sp level k v (writeEntries sp level more ++ s)) := by
  simp [writeEntries, writeString, fromEntry]

/-- The entries of a table are read, and what closes the table after them. The induction is on the
entries after the next one; their keys are new to those that are done. -/
theorem members_writeEntries (hsp : sp.Blank) (hblanks : ∀ c ∈ blanks, isSpace c = true)
    (hdepth : depth < maxDepth) (rest : List Char) (more : List (String × Value)) :
    ∀ (k : String) (v : Value) (done : List (String × Value)) (fuel : Nat),
      (∀ e ∈ (k, v) :: more, (∃ room, Writable room e.2) ∧ ReadBack sp level (depth + 1) e.2) →
      ((done ++ (k, v) :: more).map (·.1)).Nodup →
      2 * (writeAt sp level v ++ writeEntries sp level more).length + 2 ≤ fuel →
      members fuel depth done
          (fromEntry sp level k v (writeEntries sp level more ++ (blanks ++ '\x7d' :: rest))) =
        .ok (.table (done ++ (k, v) :: more), rest) := by
  have hclose : skip (blanks ++ '\x7d' :: rest) = '\x7d' :: rest := by
    rw [skip_append hblanks, skip_cons_of_not rfl]
  induction more with
  | nil =>
    intro k v done fuel hread hkeys hfuel
    obtain ⟨fuel, rfl⟩ : ∃ n, fuel = n + 1 := ⟨fuel - 1, by omega⟩
    rw [writeEntries, List.append_nil] at hfuel
    obtain ⟨⟨room, hwritable⟩, hback⟩ :
        (∃ room, Writable room v) ∧ ReadBack sp level (depth + 1) v := hread (k, v) List.mem_cons_self
    obtain ⟨c, s, hhead, hspace, -⟩ := hwritable.head sp level
    have hends : Ends (blanks ++ '\x7d' :: rest) := .append hblanks ⟨rfl, rfl⟩
    have hv := hback fuel _ hends (by omega)
    have hnew := not_mem_of_nodup hkeys
    rw [hhead, List.cons_append] at hv
    rw [writeEntries, List.nil_append, fromEntry, hhead, List.cons_append,
      members_close (quoted_writeString k _) (skip_cons_of_not rfl)
        (by rw [skip_append hsp.2, skip_cons_of_not hspace]) hdepth hv hclose,
      Value.insert_of_not_mem hnew]
  | cons e more ih =>
    intro k v done fuel hread hkeys hfuel
    obtain ⟨k', w⟩ := e
    obtain ⟨fuel, rfl⟩ : ∃ n, fuel = n + 1 := ⟨fuel - 1, by omega⟩
    simp only [writeEntries, List.length_append, List.length_cons] at hfuel
    obtain ⟨⟨room, hwritable⟩, hback⟩ :
        (∃ room, Writable room v) ∧ ReadBack sp level (depth + 1) v := hread (k, v) List.mem_cons_self
    obtain ⟨c, s, hhead, hspace, -⟩ := hwritable.head sp level
    have hv := hback fuel (writeEntries sp level ((k', w) :: more) ++ (blanks ++ '\x7d' :: rest))
      (by rw [writeEntries_cons]; exact ⟨rfl, rfl⟩) (by omega)
    have hnew := not_mem_of_nodup hkeys
    have hmore := ih k' w (Value.insert k v done) fuel
      (fun u hu => hread u (List.mem_cons_of_mem _ hu))
      (by rw [Value.insert_of_not_mem hnew, List.append_assoc]; exact hkeys)
      (by rw [List.length_append]; omega)
    have hnext : skip (sp.line level ++ fromEntry sp level k' w
        (writeEntries sp level more ++ (blanks ++ '\x7d' :: rest))) =
        fromEntry sp level k' w (writeEntries sp level more ++ (blanks ++ '\x7d' :: rest)) := by
      rw [skip_append (hsp.1 level), fromEntry, skip_cons_of_not rfl]
    rw [hhead, List.cons_append] at hv
    rw [fromEntry, hhead, List.cons_append,
      members_comma (quoted_writeString k _) (skip_cons_of_not rfl)
        (by rw [skip_append hsp.2, skip_cons_of_not hspace]) hdepth hv
        (by rw [writeEntries_cons, skip_cons_of_not rfl]) hnext (by decide)]
    rw [← fromEntry, hmore, Value.insert_of_not_mem hnew, List.append_assoc]
    rfl

/-- A list is read back when its values are. -/
theorem readBack_list (hsp : sp.Blank) {vs : List Value} (hdepth : vs = [] ∨ depth < maxDepth)
    (hvs : ∀ v ∈ vs, (∃ room, Writable room v) ∧ ReadBack sp (level + 1) (depth + 1) v) :
    ReadBack sp level depth (.list vs) := by
  intro fuel rest _ hfuel
  obtain ⟨fuel, rfl⟩ : ∃ n, fuel = n + 1 := ⟨fuel - 1, by omega⟩
  cases vs with
  | nil => rfl
  | cons v more =>
    obtain ⟨room, hv⟩ := (hvs v List.mem_cons_self).1
    obtain ⟨c, s, hhead, hspace, hc, -⟩ := hv.head sp (level + 1)
    have hlength : 2 * (writeAt sp (level + 1) v ++ writeMore sp (level + 1) more).length + 2 ≤ fuel := by
      simp only [writeAt, List.length_append, List.length_cons] at hfuel
      rw [List.length_append]
      omega
    have hitems := items_writeMore hsp (hsp.1 level) rest more v [] fuel hvs hlength
    simp only [writeAt, List.cons_append, List.append_assoc, List.nil_append]
    rw [hhead, List.cons_append] at hitems ⊢
    rw [value_list (by rw [skip_append (hsp.1 _), skip_cons_of_not hspace]) hc
      (hdepth.resolve_left (List.cons_ne_nil _ _)), hitems]
    rfl

/-- A table is read back when its values are, and its keys differ. -/
theorem readBack_table (hsp : sp.Blank) {es : List (String × Value)} (hdepth : es = [] ∨ depth < maxDepth)
    (hkeys : (es.map (·.1)).Nodup)
    (hes : ∀ e ∈ es, (∃ room, Writable room e.2) ∧ ReadBack sp (level + 1) (depth + 1) e.2) :
    ReadBack sp level depth (.table es) := by
  intro fuel rest _ hfuel
  obtain ⟨fuel, rfl⟩ : ∃ n, fuel = n + 1 := ⟨fuel - 1, by omega⟩
  cases es with
  | nil => rfl
  | cons e more =>
    obtain ⟨k, v⟩ := e
    have hlength : 2 * (writeAt sp (level + 1) v ++ writeEntries sp (level + 1) more).length + 2 ≤ fuel := by
      simp only [writeAt, List.length_append, List.length_cons] at hfuel
      rw [List.length_append]
      omega
    have hmembers := members_writeEntries hsp (hsp.1 level) (hdepth.resolve_left (List.cons_ne_nil _ _))
      rest more k v [] fuel hes hkeys hlength
    have htext : writeAt sp level (.table ((k, v) :: more)) ++ rest =
        '\x7b' :: (sp.line (level + 1) ++ fromEntry sp (level + 1) k v
          (writeEntries sp (level + 1) more ++ (sp.line level ++ '\x7d' :: rest))) := by
      simp [writeAt, writeString, fromEntry]
    rw [htext, value_table (by rw [skip_append (hsp.1 _), fromEntry, skip_cons_of_not rfl]) (by decide),
      ← fromEntry, hmembers]
    rfl

/-- **Values are read back** where enough containers may be opened. The induction is on why the
value can be written; a container hands the room that it leaves to what it holds. -/
theorem readBack_of_writable (hsp : sp.Blank) {room : Nat} {v : Value} (hv : Writable room v) :
    ∀ level depth, depth + room ≤ maxDepth → ReadBack sp level depth v := by
  induction hv with
  | null =>
    intro level depth _ fuel rest _ hfuel
    obtain ⟨fuel, rfl⟩ : ∃ n, fuel = n + 1 := ⟨fuel - 1, by omega⟩
    rfl
  | @bool _ b =>
    intro level depth _ fuel rest _ hfuel
    obtain ⟨fuel, rfl⟩ : ∃ n, fuel = n + 1 := ⟨fuel - 1, by omega⟩
    cases b <;> rfl
  | @int room n hn =>
    intro level depth _ fuel rest hends hfuel
    obtain ⟨fuel, rfl⟩ : ∃ n, fuel = n + 1 := ⟨fuel - 1, by omega⟩
    have hread := number_toString n hends hn
    obtain ⟨c, s, htext, hc⟩ := exists_cons_toString n
    rw [htext, List.cons_append] at hread
    rw [writeAt, htext, List.cons_append, value_of_startsNumber hc, hread]
  | @text _ s =>
    intro level depth _ fuel rest _ hfuel
    obtain ⟨fuel, rfl⟩ : ∃ n, fuel = n + 1 := ⟨fuel - 1, by omega⟩
    rw [writeAt, writeString, List.cons_append, List.cons_append, List.append_assoc,
      List.singleton_append, value, quoted_writeString]
    rfl
  | @list room vs hroom items ih =>
    intro level depth hdepth
    exact readBack_list hsp (hroom.imp_right fun _ => by omega) fun v hv =>
      ⟨⟨_, items v hv⟩, fun fuel rest => by
        have hpos := hroom.resolve_left (List.ne_nil_of_mem hv)
        exact ih v hv (level + 1) (depth + 1) (by omega) fuel rest⟩
  | @table room es hroom keys values ih =>
    intro level depth hdepth
    exact readBack_table hsp (hroom.imp_right fun _ => by omega) keys fun e he =>
      ⟨⟨_, values e he⟩, fun fuel rest => by
        have hpos := hroom.resolve_left (List.ne_nil_of_mem he)
        exact ih e he (level + 1) (depth + 1) (by omega) fuel rest⟩

/-- **Documents round trip**, whatever blanks stand between their tokens. -/
theorem document_writeAt (hsp : sp.Blank) {v : Value} (hv : Writable maxDepth v) :
    document (writeAt sp 0 v) = .ok v := by
  obtain ⟨c, s, hhead, hspace, -⟩ := hv.head sp 0
  have hread := readBack_of_writable hsp hv 0 0 (by omega) (2 * (writeAt sp 0 v).length + 2) []
    ends_nil (by omega)
  rw [List.append_nil, hhead] at hread
  rw [document, hhead, skip_cons_of_not hspace]
  dsimp only
  rw [hread]
  rfl

end Strict
end Json
end LintMerge

/-
# Writing a file

A file is written at the names of the folder to which its path leads, and its own name. So one entry
of a tree is set: the file is found at these names (`Node.leads_set`), every node that was in the
tree is still at its place and of its kind (`Node.Keeps`), and without the entry the tree is what it
was (`Node.remove_set`).

Looking a path up goes by folders and links, and these are kept. So a path that led somewhere still
does, by the same names (`Tree.exists_follow`), and a file is read where it was written
(`Tree.wrote_of_write`), unless the entry is a link: a file is then written where the link leads.
-/

import LintMerge.Proofs.Tree.Lookup

namespace LintMerge

namespace Node

variable {name s : String} {n m k new : Node} {es : List (String × Node)} {ns ss : List String}

theorem child?_put_of_ne (h : s ≠ name) (n : Node) (es : List (String × Node)) :
    child? s (put name n es) = child? s es := by
  induction es with
  | nil => simp [put, child?, Ne.symm h]
  | cons e rest ih =>
    obtain ⟨k, m⟩ := e
    rw [put]
    split
    · next hk => rw [child?, child?, if_neg (Ne.symm h), if_neg (hk ▸ Ne.symm h)]
    · split
      · rw [child?, if_neg (Ne.symm h)]
      · rw [child?, child?, ih]

/-- Of two nodes that are set at one name the last one stays. -/
theorem put_put (name : String) (n m : Node) (es : List (String × Node)) :
    put name n (put name m es) = put name n es := by
  induction es with
  | nil => simp [put]
  | cons e rest ih =>
    obtain ⟨k, k'⟩ := e
    rw [put, put]
    split
    · rw [put, if_pos rfl]
    · next hk =>
      split
      · rw [put, if_pos rfl]
      · next hlt => rw [put, if_neg hk, if_neg hlt, ih]

theorem drop_put (name : String) (n : Node) (es : List (String × Node)) :
    drop name (put name n es) = drop name es := by
  induction es with
  | nil => simp [put, drop]
  | cons e rest ih =>
    obtain ⟨k, m⟩ := e
    rw [put]
    unfold drop at ih ⊢
    split
    · next hk => simp [hk]
    · split
      · simp
      · rw [List.filter_cons, List.filter_cons, ih]

/-- The names of entries lead to one node. -/
theorem Leads.unique {m' : Node} (h : Leads n ss m) (h' : Leads n ss m') : m = m' := by
  induction h with
  | here =>
    cases h'
    rfl
  | step he _ ih =>
    cases h' with
    | step he' h' =>
      cases he.symm.trans he'
      exact ih h'

theorem leads_concat : Leads n (ss ++ [s]) m ↔ ∃ es, Leads n ss (.folder es) ∧ child? s es = some m := by
  constructor
  · intro h
    induction ss generalizing n with
    | nil =>
      cases h with
      | step he h =>
        cases h
        exact ⟨_, .here, he⟩
    | cons s' ss ih =>
      cases h with
      | step he h =>
        obtain ⟨es, hes, hm⟩ := ih h
        exact ⟨es, .step he hes, hm⟩
  · rintro ⟨es, hes, hm⟩
    exact hes.append (.step hm .here)

/-- **The node that is set** is found at its names. -/
theorem leads_set (n : Node) (ns : List String) (new : Node) : Leads (n.set ns new) ns new := by
  induction ns generalizing n with
  | nil => exact .here
  | cons name ns ih => exact .step (child?_put_self _ _ _) (ih _)

/-- A node is of the kind of another, and the same link if it is one. -/
inductive Stays : Node → Node → Prop where
  | file {content content' : List UInt8} {executable executable' : Bool} :
      Stays (.file content executable) (.file content' executable')
  | folder {es es' : List (String × Node)} : Stays (.folder es) (.folder es')
  | link {target : String} : Stays (.link target) (.link target)

theorem Stays.refl (n : Node) : n.Stays n := by
  cases n with
  | file => exact .file
  | folder => exact .folder
  | link => exact .link

/-- What is in a node is in another too, at the same names and of its kind. -/
def Keeps (n n' : Node) : Prop := ∀ ns m, Leads n ns m → ∃ m', Leads n' ns m' ∧ m.Stays m'

theorem Keeps.refl (n : Node) : n.Keeps n := fun _ m hm => ⟨m, hm, .refl m⟩

theorem keeps_file {content content' : List UInt8} {executable executable' : Bool} :
    (file content executable).Keeps (file content' executable') := by
  intro ns m hm
  cases hm
  exact ⟨_, .here, .file⟩

/-- Setting an entry keeps what is in a folder if it keeps what is in the entry. -/
theorem Keeps.put (h : ∀ n, child? name es = some n → n.Keeps m) :
    (folder es).Keeps (folder (Node.put name m es)) := by
  intro ns k hk
  cases hk with
  | here => exact ⟨_, .here, .folder⟩
  | @step _ s n _ _ he hk =>
    by_cases hs : s = name
    · subst hs
      obtain ⟨k', hk', hstays⟩ := h n he _ _ hk
      exact ⟨k', .step (child?_put_self _ _ _) hk', hstays⟩
    · exact ⟨k, .step ((child?_put_of_ne hs _ _).trans he) hk, .refl k⟩

/-- **Setting a node in a folder** keeps what is in the tree if it keeps what was at its name. -/
theorem keeps_set (h : Leads n ns (.folder es)) (hname : ∀ m, child? name es = some m → m.Keeps new) :
    n.Keeps (n.set (ns ++ [name]) new) := by
  induction ns generalizing n with
  | nil =>
    cases h
    exact .put hname
  | cons s ns ih =>
    cases h with
    | step he h =>
      rw [List.cons_append, set, entries, he]
      refine .put fun m hm => ?_
      cases he.symm.trans hm
      exact ih h

theorem remove_cons (s : String) {rest : List String} (hrest : rest ≠ []) (he : child? s es = some n) :
    (folder es).remove (s :: rest) = folder (Node.put s (n.remove rest) es) := by
  cases rest with
  | nil => exact absurd rfl hrest
  | cons s' rest =>
    rw [remove, he]
    exact List.cons_ne_nil _ _

/-- **Without the node that is set in a folder** the tree is what it was. -/
theorem remove_set (h : Leads n ns (.folder es)) :
    (n.set (ns ++ [name]) new).remove (ns ++ [name]) = n.remove (ns ++ [name]) := by
  induction ns generalizing n with
  | nil =>
    cases h
    exact congrArg folder (drop_put _ _ _)
  | cons s ns ih =>
    cases h with
    | step he h =>
      have hrest : ns ++ [name] ≠ [] := List.append_ne_nil_of_right_ne_nil ns (List.cons_ne_nil _ _)
      rw [List.cons_append, set, entries, he, remove_cons s hrest (child?_put_self _ _ _),
        remove_cons s hrest he, put_put, Option.getD_some, ih h]

end Node

namespace Tree

/-- A trail is one that looking up makes: each node is an entry of the folder before it. -/
inductive Trail.Sound (root : Node) : Trail → Prop where
  | root : Sound root []
  | entry {trail : Trail} {es : List (String × Node)} {s : String} {n : Node} (h : Sound root trail)
      (hes : trail.node root = .folder es) (hn : Node.child? s es = some n) : Sound root ((s, n) :: trail)

namespace Trail

variable {root root' n : Node} {trail trail' : Trail} {s : String} {es : List (String × Node)}

theorem names_cons (s : String) (n : Node) (trail : Trail) :
    names ((s, n) :: trail) = trail.names ++ [s] := by
  rw [names, List.map_cons, List.reverse_cons, names]

theorem Sound.leads (h : trail.Sound root) : Node.Leads root trail.names (trail.node root) := by
  induction h with
  | root => exact .here
  | entry _ hes hn ih =>
    rw [names_cons]
    exact Node.leads_concat.2 ⟨_, hes ▸ ih, hn⟩

theorem Sound.tail (h : trail.Sound root) : Sound root trail.tail := by
  cases h with
  | root => exact .root
  | entry h _ _ => exact h

/-- Two trails go by the same names below two roots. -/
structure Alike (root root' : Node) (trail trail' : Trail) : Prop where
  sound : trail.Sound root
  sound' : trail'.Sound root'
  names : trail'.names = trail.names

theorem alike_nil (root root' : Node) : Alike root root' [] [] := ⟨.root, .root, rfl⟩

theorem Alike.tail (h : Alike root root' trail trail') : Alike root root' trail.tail trail'.tail := by
  refine ⟨h.sound.tail, h.sound'.tail, ?_⟩
  have hnames := List.reverse_injective h.names
  rw [Trail.names, Trail.names, List.map_tail, List.map_tail, hnames]

/-- **A root that keeps what is in another** has the folder at the end of a trail, and each of its
entries. -/
theorem Alike.entry (hk : root.Keeps root') (h : Alike root root' trail trail')
    (hes : trail.node root = .folder es) : ∃ es', trail'.node root' = .folder es' ∧
      ∀ s n, Node.child? s es = some n → ∃ n', Node.child? s es' = some n' ∧ n.Stays n' ∧
        Alike root root' ((s, n) :: trail) ((s, n') :: trail') := by
  have hleads : Node.Leads root trail.names (.folder es) := hes ▸ h.sound.leads
  have hleads' : Node.Leads root' trail.names (trail'.node root') := h.names ▸ h.sound'.leads
  obtain ⟨m', hm', hstays⟩ := hk _ _ hleads
  obtain rfl := hm'.unique hleads'
  generalize hes' : trail'.node root' = m' at hstays hleads'
  cases hstays with
  | @folder _ es' =>
    refine ⟨es', rfl, fun s n hn => ?_⟩
    obtain ⟨n', hn', hstays⟩ := hk _ _ (Node.leads_concat.2 ⟨es, hleads, hn⟩)
    obtain ⟨es'', hes'', hn'⟩ := Node.leads_concat.1 hn'
    cases hes''.unique hleads'
    refine ⟨n', hn', hstays, h.sound.entry hes hn, h.sound'.entry hes' hn', ?_⟩
    rw [names_cons, names_cons, h.names]

end Trail

/-- A name by which an entry of a folder can be looked up. -/
def IsEntryName (name : String) : Prop := name ≠ ".." ∧ name.utf8ByteSize ≤ maxName

instance : DecidablePred IsEntryName := fun _ => inferInstanceAs (Decidable (_ ∧ _))

variable {root root' n : Node} {leap leap' : Trail → List String → Except Fault Trail}
  {trail trail' T T' : Trail} {s name : String} {ss ts : List String} {links : Nat}
  {es : List (String × Node)}

/-- How a path that leads somewhere goes on by one segment: to the folder above, to where a link
leads, or to an entry. -/
inductive Goes (root : Node) (leap : Trail → List String → Except Fault Trail) (trail : Trail) :
    String → List String → Trail → Prop where
  | up {es : List (String × Node)} {ss : List String} {T : Trail} (hes : trail.node root = .folder es)
      (hT : descend root leap trail.tail ss = .ok T) : Goes root leap trail ".." ss T
  | link {es : List (String × Node)} {s target : String} {ss : List String} {T : Trail}
      (hes : trail.node root = .folder es) (hs : IsEntryName s)
      (hlink : Node.child? s es = some (.link target))
      (hT : leap (if (Path.ofText target).isAbsolute then [] else trail)
        ((Path.ofText target).segments ++ ss) = .ok T) : Goes root leap trail s ss T
  | entry {es : List (String × Node)} {s : String} {ss : List String} {n : Node} {T : Trail}
      (hes : trail.node root = .folder es) (hs : IsEntryName s) (hn : Node.child? s es = some n)
      (hno : ∀ target, n ≠ .link target) (hT : descend root leap ((s, n) :: trail) ss = .ok T) :
      Goes root leap trail s ss T

theorem descend_cons_eq_ok_iff :
    descend root leap trail (s :: ss) = .ok T ↔ Goes root leap trail s ss T := by
  rw [descend]
  constructor
  · intro hT
    split at hT
    · next es hes =>
      split at hT
      · next hup =>
        subst hup
        exact .up hes hT
      · next hup =>
        split at hT
        · cases hT
        · next hsize =>
          have hs : IsEntryName s := ⟨hup, Nat.not_lt.1 hsize⟩
          split at hT
          · cases hT
          · next hlink => exact .link hes hs hlink hT
          · next hno hn => exact .entry hes hs hn hno hT
    · cases hT
  · intro hgoes
    cases hgoes with
    | up hes hT => rw [hes]; exact hT
    | link hes hs hlink hT =>
      rw [hes]
      dsimp only
      rw [if_neg hs.1, if_neg (Nat.not_lt.2 hs.2), hlink]
      exact hT
    | @entry _ _ _ n _ hes hs hn hno hT =>
      rw [hes]
      dsimp only
      rw [if_neg hs.1, if_neg (Nat.not_lt.2 hs.2), hn]
      cases n with
      | file => exact hT
      | folder => exact hT
      | link target => exact absurd rfl (hno target)

/-- Below a root that keeps what is in another a path leads along the same names, as far as what is
done at a link does. -/
theorem exists_descend (hk : root.Keeps root')
    (hleap : ∀ trail trail' ss T, Trail.Alike root root' trail trail' → leap trail ss = .ok T →
      ∃ T', leap' trail' ss = .ok T' ∧ Trail.Alike root root' T T')
    (h : Trail.Alike root root' trail trail') (hT : descend root leap trail ss = .ok T) :
    ∃ T', descend root' leap' trail' ss = .ok T' ∧ Trail.Alike root root' T T' := by
  induction ss generalizing trail trail' with
  | nil =>
    cases hT
    exact ⟨trail', rfl, h⟩
  | cons s ss ih =>
    cases descend_cons_eq_ok_iff.1 hT with
    | up hes hT =>
      obtain ⟨es', hes', -⟩ := h.entry hk hes
      obtain ⟨T', hT', halike⟩ := ih h.tail hT
      exact ⟨T', descend_cons_eq_ok_iff.2 (.up hes' hT'), halike⟩
    | @link _ _ target _ _ hes hs hlink hT =>
      obtain ⟨es', hes', hentries⟩ := h.entry hk hes
      obtain ⟨n', hn', hstays, -⟩ := hentries _ _ hlink
      cases hstays
      have hstart : Trail.Alike root root' (if (Path.ofText target).isAbsolute then [] else trail)
          (if (Path.ofText target).isAbsolute then [] else trail') := by
        split
        · exact Trail.alike_nil root root'
        · exact h
      obtain ⟨T', hT', halike⟩ := hleap _ _ _ _ hstart hT
      exact ⟨T', descend_cons_eq_ok_iff.2 (.link hes' hs hn' hT'), halike⟩
    | entry hes hs hn hno hT =>
      obtain ⟨es', hes', hentries⟩ := h.entry hk hes
      obtain ⟨n', hn', hstays, hentry⟩ := hentries _ _ hn
      have hno' : ∀ target, n' ≠ .link target := by
        rintro target rfl
        cases hstays
        exact hno target rfl
      obtain ⟨T', hT', halike⟩ := ih hentry hT
      exact ⟨T', descend_cons_eq_ok_iff.2 (.entry hes' hs hn' hno' hT'), halike⟩

/-- **Looking up is kept.** Below a root that keeps what is in another a path leads along the same
names. -/
theorem exists_follow (hk : root.Keeps root') (h : Trail.Alike root root' trail trail')
    (hT : follow root links trail ss = .ok T) :
    ∃ T', follow root' links trail' ss = .ok T' ∧ Trail.Alike root root' T T' := by
  induction links generalizing trail trail' ss T with
  | zero => exact exists_descend hk (fun _ _ _ _ _ hleap => by cases hleap) h hT
  | succ links ih => exact exists_descend hk (fun _ _ _ _ => ih) h hT

/-- The trail to which a path leads is sound. -/
theorem sound_of_follow (hT : follow root links [] ss = .ok T) : T.Sound root := by
  obtain ⟨_, -, halike⟩ := exists_follow (.refl root) (Trail.alike_nil root root) hT
  exact halike.sound

/-- What comes after a path goes on from where the path leads, if no link is in its way. -/
theorem descend_append (hlast : ∀ leap, descend root leap T ts = .ok T')
    (hleap : ∀ trail ss, leap trail ss = .ok T → leap trail (ss ++ ts) = .ok T')
    (hT : descend root leap trail ss = .ok T) : descend root leap trail (ss ++ ts) = .ok T' := by
  induction ss generalizing trail with
  | nil =>
    cases hT
    exact hlast leap
  | cons s ss ih =>
    refine descend_cons_eq_ok_iff.2 ?_
    cases descend_cons_eq_ok_iff.1 hT with
    | up hes hT => exact .up hes (ih hT)
    | link hes hs hlink hT => exact .link hes hs hlink (List.append_assoc _ _ _ ▸ hleap _ _ hT)
    | entry hes hs hn hno hT => exact .entry hes hs hn hno (ih hT)

theorem follow_append (hlast : ∀ leap, descend root leap T ts = .ok T')
    (hT : follow root links trail ss = .ok T) : follow root links trail (ss ++ ts) = .ok T' := by
  induction links generalizing trail ss with
  | zero => exact descend_append hlast (fun _ _ hleap => by cases hleap) hT
  | succ links ih => exact descend_append hlast (fun _ _ => ih) hT

/-! ## A file in a folder -/

variable {t t' : Tree} {p dir : Path} {content : List UInt8}

/-- The entry at a path is a link, wherever it leads. -/
def IsLink (t : Tree) (p : Path) : Prop :=
  ∃ folder name target, t.trail ⟨p.slashes, p.segments.dropLast⟩ = .ok folder ∧
    p.segments.getLast? = some name ∧
    Node.child? name (folder.node t.root).entries = some (.link target)

theorem isLink_child : t.IsLink (dir.child name) ↔ ∃ T target, t.trail dir = .ok T ∧
    Node.child? name (T.node t.root).entries = some (.link target) := by
  rw [IsLink, Path.child]
  simp only [List.dropLast_concat, List.getLast?_concat]
  constructor
  · rintro ⟨T, _, target, hT, ⟨⟩, hlink⟩
    exact ⟨T, target, hT, hlink⟩
  · rintro ⟨T, target, hT, hlink⟩
    exact ⟨T, name, target, hT, rfl, hlink⟩

/-- The system takes a path as a whole. -/
structure Fits (p : Path) : Prop where
  whole : p.endsEarly = false
  size : p.text.utf8ByteSize < maxPath

theorem trail_eq_ok_iff :
    t.trail p = .ok T ↔ Fits p ∧ follow t.root maxLinks [] p.segments = .ok T := by
  rw [Tree.trail]
  split
  · next hearly => exact iff_of_false (by simp) fun h => by cases hearly.symm.trans h.1.whole
  split
  · next hlong => exact iff_of_false (by simp) fun h => absurd h.1.size (Nat.not_lt.2 hlong)
  · next hwhole hshort =>
    exact ⟨fun h => ⟨⟨Bool.eq_false_iff.2 hwhole, Nat.lt_of_not_le hshort⟩, h⟩, And.right⟩

/-- The folder to which a path leads, at the end of a trail. -/
theorem isFolder_iff : t.isFolder p = true ↔ ∃ T es, t.trail p = .ok T ∧ T.node t.root = .folder es := by
  rw [isFolder, node?, node]
  cases t.trail p with
  | error f => simp [Except.map, Except.toOption]
  | ok T => cases hT : T.node t.root <;> simp [Except.map, Except.toOption, hT]

/-- An entry that is no link is found at the end of the trail to its folder. -/
theorem trail_child (hname : IsEntryName name) (hfits : Fits (dir.child name))
    (hT : follow t.root maxLinks [] dir.segments = .ok T) (hes : T.node t.root = .folder es)
    (hn : Node.child? name es = some n) (hno : ∀ target, n ≠ .link target) :
    t.trail (dir.child name) = .ok ((name, n) :: T) := by
  refine trail_eq_ok_iff.2 ⟨hfits, follow_append (fun leap => ?_) hT⟩
  exact descend_cons_eq_ok_iff.2 (.entry hes hname hn hno rfl)

/-- In a folder, a path that can be looked up is taken as a whole. -/
theorem fits_child (hdir : Fits dir) (hname : '\x00' ∉ name.toList)
    (h : t.isTooLong (dir.child name) = false) : Fits (dir.child name) := by
  have hwhole : (dir.child name).endsEarly = false := by
    rw [Path.endsEarly, Path.child, List.any_append, ← Path.endsEarly, hdir.whole]
    simpa using hname
  refine ⟨hwhole, ?_⟩
  by_contra hlong
  rw [isTooLong, Tree.trail, hwhole, if_neg Bool.false_ne_true, if_pos (Nat.not_lt.1 hlong)] at h
  cases h

theorem read?_of_trail {executable : Bool} (hT : t.trail p = .ok T)
    (hfile : T.node t.root = .file content executable) : t.read? p = some content := by
  have hnode : t.node? p = some (.file content executable) := by
    rw [node?, node, hT]
    exact congrArg some hfile
  rw [read?, hnode]

theorem remove_child (hT : t.trail dir = .ok T) :
    t.remove (dir.child name) = ⟨t.root.remove (T.names ++ [name])⟩ := by
  rw [remove, Path.child]
  simp only [List.dropLast_concat, List.getLast?_concat, hT]

/-- What is written to an entry that is no link is set in its folder. -/
theorem landing_child (hT : follow t.root maxLinks [] dir.segments = .ok T)
    (hes : T.node t.root = .folder es) (hno : ∀ target, Node.child? name es ≠ some (.link target)) :
    t.landing maxLinks [] (dir.child name).segments = .ok (T.names ++ [name]) := by
  rw [landing, Path.child]
  simp only [List.dropLast_concat, List.getLast?_concat, hT, hes, Node.entries]
  cases hn : Node.child? name es with
  | none => rfl
  | some n =>
    cases n with
    | file => rfl
    | folder => rfl
    | link target => exact absurd hn (hno target)

theorem exists_of_write (hw : t.write p content = .ok t') : ∃ names executable,
    t.landing maxLinks [] p.segments = .ok names ∧
      t' = ⟨t.root.set names (.file content executable)⟩ := by
  obtain ⟨names, hnames, hw⟩ := Faulty.bind_eq_ok.1 hw
  exact ⟨names, _, hnames, (Except.ok.inj hw).symm⟩

/-- A file has been written to a path, and nothing else: it is read there, the tree is what it was
without it, and what was in the tree is still there. -/
structure Wrote (t t' : Tree) (p : Path) (content : List UInt8) : Prop where
  read : t'.read? p = some content
  rest : t'.remove p = t.remove p
  keeps : t.root.Keeps t'.root

/-- **A file is written where it is read.** In a folder, an entry that is no link and no folder is
made the file that is written. -/
theorem wrote_of_write (hdir : t.isFolder dir = true) (hname : IsEntryName name)
    (hwhole : '\x00' ∉ name.toList) (hlong : t.isTooLong (dir.child name) = false) (hlink : ¬ t.IsLink (dir.child name))
    (hfolder : t.isFolder (dir.child name) = false) (hw : t.write (dir.child name) content = .ok t') :
    t.Wrote t' (dir.child name) content := by
  obtain ⟨T, es, hT, hes⟩ := isFolder_iff.1 hdir
  obtain ⟨hdirFits, hfollow⟩ := trail_eq_ok_iff.1 hT
  have hfits := fits_child hdirFits hwhole hlong
  have hno : ∀ target, Node.child? name es ≠ some (.link target) := by
    intro target hn
    refine hlink (isLink_child.2 ⟨T, target, hT, ?_⟩)
    rw [hes]
    exact hn
  obtain ⟨names, executable, hnames, rfl⟩ := exists_of_write hw
  cases (landing_child hfollow hes hno).symm.trans hnames
  -- what was at the name was a file or nothing, so nothing below it is lost
  have hold : ∀ m, Node.child? name es = some m → m.Keeps (.file content executable) := by
    intro m hm
    cases m with
    | file => exact Node.keeps_file
    | link target => exact absurd hm (hno target)
    | folder es' =>
      have htrail := trail_child hname hfits hfollow hes hm fun _ heq => by cases heq
      cases hfolder.symm.trans (isFolder_iff.2 ⟨_, es', htrail, rfl⟩)
  have hleads : Node.Leads t.root T.names (.folder es) := hes ▸ (sound_of_follow hfollow).leads
  have hkeeps := Node.keeps_set hleads hold
  obtain ⟨T', hT', halike⟩ := exists_follow hkeeps (Trail.alike_nil _ _) hfollow
  obtain ⟨es', hes', hn⟩ := Node.leads_concat.1 (Node.leads_set t.root (T.names ++ [name]) _)
  have hnode : T'.node _ = .folder es' := (halike.names ▸ halike.sound'.leads).unique hes'
  refine ⟨?_, ?_, hkeeps⟩
  · exact read?_of_trail (trail_child hname hfits hT' hnode hn fun _ heq => by cases heq) rfl
  · rw [remove_child (trail_eq_ok_iff.2 ⟨hdirFits, hT'⟩), remove_child hT, halike.names,
      Node.remove_set hleads]

theorem Wrote.isFile (h : t.Wrote t' p content) : t'.isFile p = true := by
  have hread := h.read
  rw [read?] at hread
  rw [Tree.isFile]
  split at hread
  · rfl
  · cases hread

theorem Wrote.contents (h : t.Wrote t' p content) : t'.contents p = .ok content := by
  rw [Tree.contents, h.read, Option.getD_some]

/-- The names to which a path leads are those of the path with its links followed. -/
theorem real_of_follow (hT : follow t.root maxLinks [] p.segments = .ok T) :
    t.real p = ⟨1, Path.collapse T.names⟩ := by
  rw [real]
  cases hlength : p.segments.length with
  | zero =>
    rw [List.length_eq_zero_iff] at hlength
    rw [hlength] at hT
    cases hT
    rw [hlength, real.go]
    rfl
  | succ n =>
    rw [real.go, hT]
    dsimp only
    rw [List.append_nil]

/-- What led to a folder still does where what was in the tree is still there, and by the same
names. -/
theorem isFolder_of_keeps (hk : t.root.Keeps t'.root) (h : t.isFolder p = true) :
    t'.isFolder p = true ∧ t'.real p = t.real p := by
  obtain ⟨T, es, hT, hes⟩ := isFolder_iff.1 h
  obtain ⟨hfits, hT⟩ := trail_eq_ok_iff.1 hT
  obtain ⟨T', hT', halike⟩ := exists_follow hk (Trail.alike_nil _ _) hT
  obtain ⟨es', hes', -⟩ := halike.entry hk hes
  refine ⟨isFolder_iff.2 ⟨T', es', trail_eq_ok_iff.2 ⟨hfits, hT'⟩, hes'⟩, ?_⟩
  rw [real_of_follow hT, real_of_follow hT', halike.names]

end Tree
end LintMerge

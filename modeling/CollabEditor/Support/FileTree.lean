import CollabEditor.Support.FilePath
/-!
# A tree of files

A file system is a tree, and a path leads from its root to a node. `alter` changes what is at a
path, and `makeDirs` makes the directories of a path; the lemmas say what either leaves as it was.
-/

namespace CollabEditor.Support.FileTree

open FilePath List

abbrev Content := List Char

inductive Node
  | file (content : Content) (modTime : Nat)
  | dir (entries : List (Name × Node))

inductive Errno
  | notExist
  | notDir
  | isDir
  | notEmpty
  | nameTooLong
  deriving DecidableEq

/-- The longest name that a directory can hold. -/
def nameMax : Nat := 255

def find (entries : List (Name × Node)) (name : Name) : Except Errno (Option Node) :=
  if nameMax < name.length then .error .nameTooLong else .ok (entries.lookup name)

def walk : List Name → Option Node → Except Errno Node
  | [], none => .error .notExist
  | [], some node => .ok node
  | _ :: _, none => .error .notExist
  | _ :: _, some (.file _ _) => .error .notDir
  | name :: path, some (.dir entries) => (find entries name).bind (walk path)

def setEntry (entries : List (Name × Node)) (name : Name) (node : Option Node) :
    List (Name × Node) :=
  let others := entries.filter fun e => e.1 ≠ name
  match node with
  | none => others
  | some node => (name, node) :: others

/-- Change the entry at a path; the directories on the way have to be there. -/
def alter (f : Option Node → Except Errno (Option Node)) :
    List Name → Option Node → Except Errno (Option Node)
  | [], node => f node
  | _ :: _, none => .error .notExist
  | _ :: _, some (.file _ _) => .error .notDir
  | name :: path, some (.dir entries) =>
    (find entries name).bind fun node =>
      (alter f path node).map fun node => some (.dir (setEntry entries name node))

/-- The entries of a directory that is there or is to be made. -/
def entriesOrNew : Option Node → Except Errno (List (Name × Node))
  | none => .ok []
  | some (.file _ _) => .error .notDir
  | some (.dir entries) => .ok entries

def makeDirs : List Name → Option Node → Except Errno Node
  | [], node => (entriesOrNew node).map .dir
  | name :: path, node =>
    (entriesOrNew node).bind fun entries =>
      (find entries name).bind fun child =>
        (makeDirs path child).map fun child => .dir (setEntry entries name (some child))

lemma bind_eq_ok {ε α β : Type} {x : Except ε α} {f : α → Except ε β} {b : β} :
    x.bind f = .ok b ↔ ∃ a, x = .ok a ∧ f a = .ok b := by
  cases x <;> simp [Except.bind]

lemma map_eq_ok {α β : Type} {x : Except Errno α} {f : α → β} {b : β} :
    x.map f = .ok b ↔ ∃ a, x = .ok a ∧ f a = b := by
  cases x <;> simp [Except.map]

lemma lookup_setEntry_self (entries : List (Name × Node)) (name : Name) (node : Option Node) :
    (setEntry entries name node).lookup name = node := by
  have hothers : (entries.filter fun e => e.1 ≠ name).lookup name = none := by
    rw [lookup_eq_none_iff]
    intro e he
    have hne : e.1 ≠ name := of_decide_eq_true (mem_filter.1 he).2
    exact bne_iff_ne.2 hne.symm
  cases node with
  | none => exact hothers
  | some node => simp [setEntry]

lemma lookup_setEntry_of_ne (entries : List (Name × Node)) {name other : Name}
    (hne : other ≠ name) (node : Option Node) :
    (setEntry entries name node).lookup other = entries.lookup other := by
  have hothers : (entries.filter fun e => e.1 ≠ name).lookup other = entries.lookup other := by
    induction entries with
    | nil => rfl
    | cons e entries ih =>
      obtain ⟨first, n⟩ := e
      by_cases hfirst : first = name
      · have hskip : (other == first) = false := beq_eq_false_iff_ne.2 (hfirst ▸ hne)
        rw [filter_cons_of_neg (by simp [hfirst]), ih, lookup_cons, hskip]
      · rw [filter_cons_of_pos (by simp [hfirst]), lookup_cons, lookup_cons, ih]
  cases node with
  | none => exact hothers
  | some node => simpa [setEntry, lookup_cons, beq_eq_false_iff_ne.2 hne] using hothers

lemma find_setEntry_self {entries : List (Name × Node)} {name : Name} {found : Option Node}
    (h : find entries name = .ok found) (node : Option Node) :
    find (setEntry entries name node) name = .ok node := by
  unfold find at h ⊢
  split at h
  · cases h
  · rename_i hlen
    rw [if_neg hlen, lookup_setEntry_self]

lemma find_setEntry_of_ne (entries : List (Name × Node)) {name other : Name}
    (hne : other ≠ name) (node : Option Node) :
    find (setEntry entries name node) other = find entries other := by
  rw [find, find, lookup_setEntry_of_ne entries hne]

lemma walk_append (p q : List Name) (node : Option Node) :
    walk (p ++ q) node = (walk p node).bind fun n => walk q (some n) := by
  induction p generalizing node with
  | nil =>
    cases node with
    | none => cases q <;> rfl
    | some n => rfl
  | cons name p ih =>
    match node with
    | none => rfl
    | some (.file _ _) => rfl
    | some (.dir entries) =>
      rw [cons_append, walk, walk]
      cases find entries name with
      | error e => rfl
      | ok n => exact ih n

lemma length_le_of_walk {p : List Name} {node : Option Node} {n : Node} (h : walk p node = .ok n) :
    ∀ name ∈ p, name.length ≤ nameMax := by
  induction p generalizing node with
  | nil => exact fun name hname => absurd hname not_mem_nil
  | cons first p ih =>
    match node with
    | none => cases h
    | some (.file _ _) => cases h
    | some (.dir entries) =>
      rw [walk, find] at h
      split at h
      · cases h
      · rename_i hlen
        exact forall_mem_cons.2 ⟨Nat.le_of_not_lt hlen, ih h⟩

lemma exists_of_walk_eq_file {entries : List (Name × Node)} {p : List Name} {content : Content}
    {modTime : Nat} (h : walk p (some (.dir entries)) = .ok (.file content modTime)) :
    ∃ name rest node, p = name :: rest ∧ (name, node) ∈ entries ∧
      walk rest (some node) = .ok (.file content modTime) := by
  match p with
  | [] => cases h
  | name :: rest =>
    obtain ⟨found, hfind, hrest⟩ := bind_eq_ok.1 h
    match found with
    | none => cases rest <;> cases hrest
    | some node =>
      rw [find] at hfind
      split at hfind
      · cases hfind
      · obtain ⟨before, after, rfl, -⟩ := lookup_eq_some_iff.1 (Except.ok.inj hfind)
        exact ⟨name, rest, node, rfl, by simp, hrest⟩

section

variable {f : Option Node → Except Errno (Option Node)} {p q : List Name} {t t' : Option Node}

lemma alter_cons_eq_ok {name : Name} (h : alter f (name :: p) t = .ok t') :
    ∃ entries node node', t = some (.dir entries) ∧ find entries name = .ok node ∧
      alter f p node = .ok node' ∧ t' = some (.dir (setEntry entries name node')) := by
  match t with
  | none => cases h
  | some (.file _ _) => cases h
  | some (.dir entries) =>
    obtain ⟨node, hfind, h⟩ := bind_eq_ok.1 h
    obtain ⟨node', halter, rfl⟩ := map_eq_ok.1 h
    exact ⟨entries, node, node', rfl, hfind, halter, rfl⟩

/-- Neither path is on the way to the other. -/
def Apart (p q : List Name) : Prop := ¬p <+: q ∧ ¬q <+: p

variable (h : alter f p t = .ok t')
include h

lemma walk_alter_of_apart (hpq : Apart p q) : walk q t' = walk q t := by
  induction p generalizing q t t' with
  | nil => exact absurd nil_prefix hpq.1
  | cons name p ih =>
    obtain ⟨entries, node, node', rfl, hfind, halter, rfl⟩ := alter_cons_eq_ok h
    cases q with
    | nil => exact absurd nil_prefix hpq.2
    | cons other q =>
      rw [walk, walk]
      by_cases hname : other = name
      · subst hname
        have hrest : Apart p q := by simpa [Apart, cons_prefix_cons] using hpq
        rw [find_setEntry_self hfind, hfind]
        exact ih halter hrest
      · rw [find_setEntry_of_ne entries hname]

lemma walk_alter_of_prefix (hq : q <+: p) (hne : q ≠ p) :
    ∃ entries, walk q t' = .ok (.dir entries) := by
  induction p generalizing q t t' with
  | nil => exact absurd (prefix_nil.1 hq) hne
  | cons name p ih =>
    obtain ⟨entries, node, node', rfl, hfind, halter, rfl⟩ := alter_cons_eq_ok h
    cases q with
    | nil => exact ⟨_, rfl⟩
    | cons other q =>
      obtain ⟨rfl, hrest⟩ := cons_prefix_cons.1 hq
      rw [walk, find_setEntry_self hfind]
      exact ih halter hrest fun heq => hne (heq ▸ rfl)

lemma walk_alter_self :
    ∃ node node', f node = .ok node' ∧ (∀ n, node = some n → walk p t = .ok n) ∧
      ∀ r, walk (p ++ r) t' = walk r node' := by
  induction p generalizing t t' with
  | nil =>
    refine ⟨t, t', h, ?_, fun r => rfl⟩
    rintro n rfl
    rfl
  | cons name p ih =>
    obtain ⟨entries, node, node', rfl, hfind, halter, rfl⟩ := alter_cons_eq_ok h
    obtain ⟨last, last', hf, hlast, hbelow⟩ := ih halter
    refine ⟨last, last', hf, fun n hn => ?_, fun r => ?_⟩
    · rw [walk, hfind]
      exact hlast n hn
    · rw [cons_append, walk, find_setEntry_self hfind]
      exact hbelow r

lemma file_of_alter (hfile : ∀ node entries, f node ≠ .ok (some (.dir entries)))
    {content : Content} {modTime : Nat} (hq : walk q t' = .ok (.file content modTime)) :
    walk q t = .ok (.file content modTime) ∨ q = p ∧ ∃ node,
      f node = .ok (some (.file content modTime)) ∧ ∀ n, node = some n → walk p t = .ok n := by
  by_cases hpq : p <+: q
  · obtain ⟨r, rfl⟩ := hpq
    obtain ⟨node, node', hf, hnode, hbelow⟩ := walk_alter_self h
    rw [hbelow] at hq
    match node', r with
    | none, [] => cases hq
    | none, _ :: _ => cases hq
    | some (.dir entries), _ => exact absurd hf (hfile node entries)
    | some (.file _ _), _ :: _ => cases hq
    | some (.file _ _), [] =>
      cases hq
      exact .inr ⟨append_nil p, node, hf, hnode⟩
  · by_cases hqp : q <+: p
    · have hne : q ≠ p := fun heq => hpq (heq ▸ prefix_rfl)
      obtain ⟨entries, hdir⟩ := walk_alter_of_prefix h hqp hne
      cases hdir.symm.trans hq
    · exact .inl ((walk_alter_of_apart h ⟨hpq, hqp⟩).symm.trans hq)

end

section

variable {p q : List Name} {t : Option Node} {t' : Node}

lemma makeDirs_cons_eq_ok {name : Name} (h : makeDirs (name :: p) t = .ok t') :
    ∃ entries child child', entriesOrNew t = .ok entries ∧ find entries name = .ok child ∧
      makeDirs p child = .ok child' ∧ t' = .dir (setEntry entries name (some child')) := by
  obtain ⟨entries, hentries, h⟩ := bind_eq_ok.1 h
  obtain ⟨child, hfind, h⟩ := bind_eq_ok.1 h
  obtain ⟨child', hmake, rfl⟩ := map_eq_ok.1 h
  exact ⟨entries, child, child', hentries, hfind, hmake, rfl⟩

lemma walk_entriesOrNew {entries : List (Name × Node)} (h : entriesOrNew t = .ok entries)
    {name : Name} (hfits : name.length ≤ nameMax) :
    walk (name :: q) t = (find entries name).bind (walk q) := by
  match t with
  | some (.file _ _) => cases h
  | some (.dir _) =>
    cases h
    rfl
  | none =>
    cases h
    rw [find, if_neg (Nat.not_lt.2 hfits)]
    cases q <;> rfl

variable (h : makeDirs p t = .ok t')
include h

lemma walk_makeDirs (hqp : ¬q <+: p) (hfits : ∀ name ∈ q, name.length ≤ nameMax) :
    walk q (some t') = walk q t := by
  induction p generalizing q t t' with
  | nil =>
    obtain ⟨entries, hentries, rfl⟩ := map_eq_ok.1 h
    cases q with
    | nil => exact absurd prefix_rfl hqp
    | cons name q => exact (walk_entriesOrNew hentries (hfits name mem_cons_self)).symm
  | cons name p ih =>
    obtain ⟨entries, child, child', hentries, hfind, hmake, rfl⟩ := makeDirs_cons_eq_ok h
    cases q with
    | nil => exact absurd nil_prefix hqp
    | cons other q =>
      obtain ⟨hother, hrest⟩ := forall_mem_cons.1 hfits
      rw [walk, walk_entriesOrNew hentries hother]
      by_cases hname : other = name
      · subst hname
        have hqp : ¬q <+: p := fun hpre => hqp (cons_prefix_cons.2 ⟨rfl, hpre⟩)
        rw [find_setEntry_self hfind, hfind]
        exact ih hmake hqp hrest
      · rw [find_setEntry_of_ne entries hname]

lemma walk_makeDirs_of_prefix (hqp : q <+: p) :
    ∃ entries, walk q (some t') = .ok (.dir entries) := by
  induction p generalizing q t t' with
  | nil =>
    obtain ⟨entries, -, rfl⟩ := map_eq_ok.1 h
    cases prefix_nil.1 hqp
    exact ⟨entries, rfl⟩
  | cons name p ih =>
    obtain ⟨entries, child, child', -, hfind, hmake, rfl⟩ := makeDirs_cons_eq_ok h
    cases q with
    | nil => exact ⟨_, rfl⟩
    | cons other q =>
      obtain ⟨rfl, hrest⟩ := cons_prefix_cons.1 hqp
      rw [walk, find_setEntry_self hfind]
      exact ih hmake hrest

lemma file_of_makeDirs {content : Content} {modTime : Nat}
    (hq : walk q (some t') = .ok (.file content modTime)) :
    walk q t = .ok (.file content modTime) := by
  by_cases hqp : q <+: p
  · obtain ⟨entries, hdir⟩ := walk_makeDirs_of_prefix h hqp
    cases hdir.symm.trans hq
  · rwa [walk_makeDirs h hqp (length_le_of_walk hq)] at hq

end

end CollabEditor.Support.FileTree

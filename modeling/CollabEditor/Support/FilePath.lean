import Mathlib.Tactic.MkIffOfInductiveProp
import Mathlib.Data.List.Basic
/-!
# Paths

The lexical treatment of paths: a path is cleaned component by component, and joining adds the
components of further elements to a path that is clean. Components that are ordinary file names
are only appended.
-/

namespace CollabEditor.Support.FilePath

open List

abbrev Name := List Char

/-- A cleaned path. -/
structure Path where
  rooted : Bool
  names : List Name
  deriving DecidableEq

/-- One more component: an empty one and `.` say nothing, and `..` takes one back. -/
def Path.push (p : Path) (name : Name) : Path :=
  if name = [] ∨ name = ['.'] then p
  else if name = ['.', '.'] then
    match p.names.getLast? with
    | none => if p.rooted then p else { p with names := [name] }
    | some last =>
      if last = ['.', '.'] then { p with names := p.names ++ [name] }
      else { p with names := p.names.dropLast }
  else { p with names := p.names ++ [name] }

def components (text : List Char) : List Name := text.splitOn '/'

def clean (text : List Char) : Path :=
  (components text).foldl Path.push ⟨text.head? = some '/', []⟩

def Path.join (p : Path) (elems : List (List Char)) : Path :=
  (elems.flatMap components).foldl Path.push p

def Path.toText (p : Path) : List Char :=
  if p.rooted then '/' :: intercalate ['/'] p.names
  else if p.names = [] then ['.']
  else intercalate ['/'] p.names

/-- The name of a file in a directory. -/
@[mk_iff]
structure Plain (name : Name) : Prop where
  ne_nil : name ≠ []
  ne_dot : name ≠ ['.']
  ne_dotDot : name ≠ ['.', '.']
  no_slash : '/' ∉ name

instance decidablePlain (name : Name) : Decidable (Plain name) :=
  decidable_of_iff' _ (plain_iff ..)

variable {name : Name} {names : List Name}

lemma plain_of_head {c : Char} (hdot : c ≠ '.') (hslash : '/' ∉ c :: name) :
    Plain (c :: name) := by
  refine ⟨cons_ne_nil c name, ?_, ?_, hslash⟩
  · exact fun h => hdot (cons.inj h).1
  · exact fun h => hdot (cons.inj h).1

lemma Path.push_of_plain (p : Path) (h : Plain name) :
    p.push name = { p with names := p.names ++ [name] } := by
  rw [Path.push, if_neg (not_or.2 ⟨h.ne_nil, h.ne_dot⟩), if_neg h.ne_dotDot]

lemma Path.foldl_push_of_plain (p : Path) (h : ∀ name ∈ names, Plain name) :
    names.foldl Path.push p = { p with names := p.names ++ names } := by
  induction names generalizing p with
  | nil => simp
  | cons name names ih =>
    obtain ⟨hname, hnames⟩ := forall_mem_cons.1 h
    rw [foldl_cons, p.push_of_plain hname, ih _ hnames, append_assoc, singleton_append]

lemma components_of_plain (h : Plain name) : components name = [name] :=
  splitOn_eq_singleton h.no_slash

lemma flatMap_components_of_plain (h : ∀ name ∈ names, Plain name) :
    names.flatMap components = names := by
  induction names with
  | nil => rfl
  | cons name names ih =>
    obtain ⟨hname, hnames⟩ := forall_mem_cons.1 h
    rw [flatMap_cons, components_of_plain hname, ih hnames, singleton_append]

lemma Path.join_of_plain (p : Path) (h : ∀ name ∈ names, Plain name) :
    p.join names = { p with names := p.names ++ names } := by
  rw [Path.join, flatMap_components_of_plain h, p.foldl_push_of_plain h]

lemma Path.names_join (p : Path) (h : ∀ name ∈ names, Plain name) :
    (p.join names).names = p.names ++ names := by
  rw [p.join_of_plain h]

lemma components_intercalate (name : Name) (names : List Name) :
    components (intercalate ['/'] (name :: names)) = (name :: names).flatMap components := by
  induction names generalizing name with
  | nil => simp [intercalate]
  | cons next names ih =>
    have hcons : intercalate ['/'] (name :: next :: names) =
        name ++ '/' :: intercalate ['/'] (next :: names) := by
      simp [intercalate]
    have hsplit : components (name ++ '/' :: intercalate ['/'] (next :: names)) =
        components name ++ components (intercalate ['/'] (next :: names)) :=
      splitOn_append_cons_of_beq _ _ (by decide)
    rw [hcons, hsplit, ih]
    exact flatMap_cons.symm

lemma Path.join_toText (p : Path) (name : Name) (names : List Name) :
    p.join [Path.toText ⟨false, name :: names⟩] = p.join (name :: names) := by
  have htext : Path.toText ⟨false, name :: names⟩ = intercalate ['/'] (name :: names) := rfl
  rw [Path.join, htext, flatMap_cons, flatMap_nil, append_nil, components_intercalate, Path.join]

end CollabEditor.Support.FilePath

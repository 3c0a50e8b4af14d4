import CollabEditor.Support.FileTree
import Mathlib.Data.List.Sort
/-!
# Programs over a tree of files

A program is a tree of calls to the system.  A `Discipline` says which directory it stays in, which
zone of paths it keeps to, and what the files are to hold.  A program that follows one keeps the
files so and leaves alone what lies apart from its zone.
-/

namespace CollabEditor.Support.FileProgram

open FilePath FileTree List

/-! ## Calls -/

/-- What a program asks the system for. `range` is the order in which a map is gone through. -/
inductive Call
  | readFile (path : List Name)
  | readDir (path : List Name)
  | modTime (path : List Name)
  | writeFile (path : List Name) (content : Content)
  | append (path : List Name) (content : Content)
  | remove (path : List Name)
  | mkdirAll (path : List Name)
  | now
  | newID
  | range (keys : List Nat)
  deriving DecidableEq

def Reply : Call → Type
  | .readFile _ => Except Errno Content
  | .readDir _ => Except Errno (List (Name × Bool))
  | .modTime _ => Except Errno Nat
  | .writeFile _ _ | .append _ _ | .remove _ | .mkdirAll _ => Except Errno Unit
  | .now => Nat
  | .newID => Name
  | .range _ => List Nat

/-- What does not depend on the files: the readings of the clock, the ids that are drawn, and the
order of maps. -/
structure Env where
  times : Nat → Nat
  ids : Nat → Name
  range : List Nat → List Nat

structure World where
  tree : Option Node
  env : Env
  touched : List (List Name)

namespace World

def touch (w : World) (path : List Name) : World := { w with touched := w.touched ++ [path] }

def tick (w : World) : World :=
  { w with env := { w.env with times := fun n => w.env.times (n + 1) } }

def change (w : World) (path : List Name) (f : Option Node → Except Errno (Option Node)) :
    Except Errno Unit × World :=
  match alter f path w.tree with
  | .error e => (.error e, w)
  | .ok tree => (.ok (), { w with tree := tree })

def makeDirs (w : World) (path : List Name) : Except Errno Unit × World :=
  match FileTree.makeDirs path w.tree with
  | .error e => (.error e, w)
  | .ok tree => (.ok (), { w with tree := some tree })

end World

def written (f : Content → Content) (now : Nat) : Option Node → Except Errno (Option Node)
  | none => .ok (some (.file (f []) now))
  | some (.file content _) => .ok (some (.file (f content) now))
  | some (.dir _) => .error .isDir

def removed : Option Node → Except Errno (Option Node)
  | none => .error .notExist
  | some (.file _ _) => .ok none
  | some (.dir []) => .ok none
  | some (.dir (_ :: _)) => .error .notEmpty

def nameLE (a b : Name) : Bool := !b.lex a fun x y => x.toNat.blt y.toNat

/-- A directory is listed in the order of the names, without `.` and `..`. -/
def listing (entries : List (Name × Node)) : List (Name × Bool) :=
  ((entries.filter fun e => Plain e.1).map fun e => (e.1, e.2 matches .dir _)).insertionSort
    fun a b => nameLE a.1 b.1

def contentOf : Except Errno Node → Except Errno Content
  | .error e => .error e
  | .ok (.dir _) => .error .isDir
  | .ok (.file content _) => .ok content

def listingOf : Except Errno Node → Except Errno (List (Name × Bool))
  | .error e => .error e
  | .ok (.file _ _) => .error .notDir
  | .ok (.dir entries) => .ok (listing entries)

def modTimeOf : Except Errno Node → Except Errno Nat
  | .error e => .error e
  | .ok (.dir _) => .ok 0
  | .ok (.file _ modTime) => .ok modTime

def perform : (c : Call) → World → Reply c × World
  | .readFile path, w => (contentOf (walk path w.tree), w.touch path)
  | .readDir path, w => (listingOf (walk path w.tree), w.touch path)
  | .modTime path, w => (modTimeOf (walk path w.tree), w.touch path)
  | .writeFile path content, w =>
    (w.touch path).tick.change path (written (fun _ => content) (w.env.times 0))
  | .append path content, w =>
    (w.touch path).tick.change path (written (· ++ content) (w.env.times 0))
  | .remove path, w => (w.touch path).change path removed
  | .mkdirAll path, w => (w.touch path).makeDirs path
  | .now, w => (w.env.times 0, w.tick)
  | .newID, w =>
    (w.env.ids 0, { w with env := { w.env with ids := fun n => w.env.ids (n + 1) } })
  | .range keys, w => (w.env.range keys, w)

/-! ## Programs -/

/-- A program that fails with an `ε` or returns an `α`. -/
inductive Prog (ε α : Type) : Type
  | done (result : Except ε α)
  | call (c : Call) (next : Reply c → Prog ε α)

namespace Prog

variable {ε α β : Type}

def bind : Prog ε α → (α → Prog ε β) → Prog ε β
  | .done (.ok a), f => f a
  | .done (.error e), _ => .done (.error e)
  | .call c next, f => .call c fun reply => (next reply).bind f

instance instMonad : Monad (Prog ε) where
  pure a := .done (.ok a)
  bind := bind

def fail (e : ε) : Prog ε α := .done (.error e)

def ask (c : Call) : Prog ε (Reply c) := .call c fun reply => .done (.ok reply)

def readFile (path : List Name) : Prog ε (Except Errno Content) := ask (.readFile path)

def readDir (path : List Name) : Prog ε (Except Errno (List (Name × Bool))) := ask (.readDir path)

def modTime (path : List Name) : Prog ε (Except Errno Nat) := ask (.modTime path)

def writeFile (path : List Name) (content : Content) : Prog ε (Except Errno Unit) :=
  ask (.writeFile path content)

def append (path : List Name) (content : Content) : Prog ε (Except Errno Unit) :=
  ask (.append path content)

def remove (path : List Name) : Prog ε (Except Errno Unit) := ask (.remove path)

def mkdirAll (path : List Name) : Prog ε (Except Errno Unit) := ask (.mkdirAll path)

def now : Prog ε Nat := ask .now

def newID : Prog ε Name := ask .newID

def range (keys : List Nat) : Prog ε (List Nat) := ask (.range keys)

def orFail (wrap : Errno → ε) : Except Errno α → Prog ε α
  | .error e => fail (wrap e)
  | .ok a => pure a

def attempt : Prog ε α → Prog ε (Except ε α)
  | .done result => .done (.ok result)
  | .call c next => .call c fun reply => (next reply).attempt

def run : Prog ε α → World → Except ε α × World
  | .done result, w => (result, w)
  | .call c next, w => (next (perform c w).1).run (perform c w).2

end Prog

/-! ## Disciplines -/

def Inside (root path : List Name) : Prop :=
  ∃ rest, path = root ++ rest ∧ rest ≠ [] ∧ ∀ name ∈ rest, Plain name

lemma Inside.append {root path rest : List Name} (h : Inside root path)
    (hrest : ∀ name ∈ rest, Plain name) : Inside root (path ++ rest) := by
  obtain ⟨names, rfl, hne, hnames⟩ := h
  refine ⟨names ++ rest, append_assoc _ _ _, append_ne_nil_of_left_ne_nil hne rest, ?_⟩
  exact forall_mem_append.2 ⟨hnames, hrest⟩

structure Discipline where
  root : List Name
  zone : List (List Name)
  good : List Name → Content → Prop
  fresh : Name → Prop
  readOnly : Bool

namespace Discipline

variable {ε α β : Type} (D : Discipline)

def At (path : List Name) : Prop := Inside D.root path ∧ ∃ r ∈ D.zone, r <+: path

def Near (path : List Name) : Prop := Inside D.root path ∧ ∃ r ∈ D.zone, r <+: path ∨ path <+: r

def Allows : Call → Prop
  | .readFile path | .readDir path | .modTime path => D.At path
  | .writeFile path content => D.readOnly = false ∧ D.At path ∧ D.good path content
  | .append path content =>
    D.readOnly = false ∧ D.At path ∧ D.good path content ∧
      ∀ old, D.good path old → D.good path (old ++ content)
  | .remove path => D.readOnly = false ∧ D.At path
  | .mkdirAll path => D.readOnly = false ∧ D.Near path
  | .now | .newID | .range _ => True

/-- What a program may rely on in a reply. -/
def Gives : (c : Call) → Reply c → Prop
  | .readFile path, reply => ∀ content, reply = Except.ok content → D.good path content
  | .readDir _, reply => ∀ entries, reply = Except.ok entries → ∀ e ∈ entries, Plain e.1
  | .newID, id => D.fresh id
  | _, _ => True

structure Sound (w : World) : Prop where
  files : ∀ path content modTime,
    walk path w.tree = .ok (.file content modTime) → D.good path content
  ids : ∀ n, D.fresh (w.env.ids n)
  touched : ∀ path ∈ w.touched, Inside D.root path

/-- The program follows the discipline, and what it returns is as `post` says. -/
def Follows (post : α → Prop) : Prog ε α → Prop
  | .done result => ∀ a, result = .ok a → post a
  | .call c next => D.Allows c ∧ ∀ reply, D.Gives c reply → Follows post (next reply)

variable {D} {w : World} {path q : List Name} {c : Call} {post : α → Prop} {prog : Prog ε α}

lemma Sound.touch (hs : D.Sound w) (h : Inside D.root path) : D.Sound (w.touch path) := by
  refine { hs with touched := fun p hp => ?_ }
  rcases mem_append.1 hp with hp | hp
  · exact hs.touched p hp
  · cases mem_singleton.1 hp
    exact h

lemma Sound.tick (hs : D.Sound w) : D.Sound w.tick := { hs with }

lemma Sound.change (hs : D.Sound w) {f : Option Node → Except Errno (Option Node)}
    (hfile : ∀ node entries, f node ≠ .ok (some (.dir entries)))
    (hgood : ∀ node content modTime, f node = .ok (some (.file content modTime)) →
      (∀ old modTime, node = some (.file old modTime) → D.good path old) → D.good path content) :
    D.Sound (w.change path f).2 := by
  unfold World.change
  split
  · exact hs
  · rename_i tree halter
    refine { hs with files := fun q content modTime hq => ?_ }
    rcases file_of_alter halter hfile hq with hold | ⟨rfl, node, hf, hnode⟩
    · exact hs.files q content modTime hold
    · exact hgood node content modTime hf fun old m hold => hs.files q old m (hnode _ hold)

lemma written_ne_dir (f : Content → Content) (now : Nat) (node : Option Node)
    (entries : List (Name × Node)) : written f now node ≠ .ok (some (.dir entries)) := by
  match node with
  | none | some (.file _ _) | some (.dir _) => simp [written]

lemma removed_ne_some (node : Option Node) (n : Node) : removed node ≠ .ok (some n) := by
  match node with
  | none | some (.file _ _) | some (.dir []) | some (.dir (_ :: _)) => simp [removed]

lemma Sound.write (hs : D.Sound w) {f : Content → Content} {now : Nat}
    (hnew : D.good path (f [])) (hold : ∀ old, D.good path old → D.good path (f old)) :
    D.Sound (w.change path (written f now)).2 := by
  refine hs.change (written_ne_dir f now) fun node content modTime hf hnode => ?_
  match node with
  | some (.dir _) => cases hf
  | none =>
    cases hf
    exact hnew
  | some (.file old m) =>
    cases hf
    exact hold old (hnode old m rfl)

lemma Sound.makeDirs (hs : D.Sound w) (path : List Name) : D.Sound (w.makeDirs path).2 := by
  unfold World.makeDirs
  split
  · exact hs
  · rename_i tree hmake
    exact { hs with
      files := fun q content modTime hq => hs.files q content modTime (file_of_makeDirs hmake hq) }

lemma Sound.perform (hs : D.Sound w) (hc : D.Allows c) : D.Sound (perform c w).2 := by
  match c with
  | .readFile path | .readDir path | .modTime path => exact hs.touch hc.1
  | .writeFile path content => exact (hs.touch hc.2.1.1).tick.write hc.2.2 fun _ _ => hc.2.2
  | .append path content => exact (hs.touch hc.2.1.1).tick.write hc.2.2.1 hc.2.2.2
  | .remove path =>
    refine (hs.touch hc.2.1).change (fun node entries => removed_ne_some node _) ?_
    exact fun node content modTime hf => absurd hf (removed_ne_some node _)
  | .mkdirAll path => exact (hs.touch hc.2.1).makeDirs path
  | .now => exact hs.tick
  | .newID => exact { hs with ids := fun n => hs.ids (n + 1) }
  | .range keys => exact hs

lemma plain_of_mem_listing {entries : List (Name × Node)} {e : Name × Bool}
    (he : e ∈ listing entries) : Plain e.1 := by
  rw [listing, mem_insertionSort] at he
  obtain ⟨entry, hentry, rfl⟩ := mem_map.1 he
  exact of_decide_eq_true (mem_filter.1 hentry).2

lemma Sound.gives (hs : D.Sound w) (c : Call) : D.Gives c (FileProgram.perform c w).1 := by
  match c with
  | .newID => exact hs.ids 0
  | .readFile path =>
    intro content hreply
    match hwalk : walk path w.tree with
    | .error e | .ok (.dir _) =>
      rw [FileProgram.perform, hwalk] at hreply
      cases hreply
    | .ok (.file _ modTime) =>
      rw [FileProgram.perform, hwalk] at hreply
      cases hreply
      exact hs.files path content modTime hwalk
  | .readDir path =>
    intro entries hreply
    match hwalk : walk path w.tree with
    | .error e | .ok (.file _ _) =>
      rw [FileProgram.perform, hwalk] at hreply
      cases hreply
    | .ok (.dir _) =>
      rw [FileProgram.perform, hwalk] at hreply
      cases hreply
      exact fun e he => plain_of_mem_listing he
  | .modTime _ | .writeFile _ _ | .append _ _ | .remove _ | .mkdirAll _ | .now | .range _ => trivial

/-! ## What lies apart from the zone -/

variable (D) in
def ApartFrom (q : List Name) : Prop := ∀ r ∈ D.zone, Apart r q

lemma ApartFrom.of_at (hq : D.ApartFrom q) (hp : D.At path) : Apart path q := by
  obtain ⟨-, r, hr, hrp⟩ := hp
  obtain ⟨hrq, hqr⟩ := hq r hr
  refine ⟨fun hpq => hrq (hrp.trans hpq), fun hqp => ?_⟩
  rcases prefix_or_prefix_of_prefix hrp hqp with h | h
  · exact hrq h
  · exact hqr h

lemma ApartFrom.of_near (hq : D.ApartFrom q) (hp : D.Near path) : ¬q <+: path := by
  intro hqp
  obtain ⟨hin, r, hr, hrp | hpr⟩ := hp
  · exact (hq.of_at ⟨hin, r, hr, hrp⟩).2 hqp
  · exact (hq r hr).2 (hqp.trans hpr)

lemma walk_change (f : Option Node → Except Errno (Option Node)) (h : Apart path q) :
    walk q (w.change path f).2.tree = walk q w.tree := by
  unfold World.change
  split
  · rfl
  · rename_i tree halter
    exact walk_alter_of_apart halter h

lemma walk_makeDirs (h : ¬q <+: path) (hfits : ∀ name ∈ q, name.length ≤ nameMax) :
    walk q (w.makeDirs path).2.tree = walk q w.tree := by
  unfold World.makeDirs
  split
  · rfl
  · rename_i tree hmake
    exact FileTree.walk_makeDirs hmake h hfits

lemma walk_perform (hc : D.Allows c) (hq : D.ApartFrom q)
    (hfits : ∀ name ∈ q, name.length ≤ nameMax) : walk q (perform c w).2.tree = walk q w.tree := by
  match c with
  | .readFile _ | .readDir _ | .modTime _ | .now | .newID | .range _ => rfl
  | .writeFile _ _ => exact walk_change _ (hq.of_at hc.2.1)
  | .append _ _ => exact walk_change _ (hq.of_at hc.2.1)
  | .remove _ => exact walk_change _ (hq.of_at hc.2)
  | .mkdirAll _ => exact walk_makeDirs (hq.of_near hc.2) hfits

lemma Follows.sound (h : D.Follows post prog) (hs : D.Sound w) : D.Sound (prog.run w).2 := by
  induction prog generalizing w with
  | done result => exact hs
  | call c next ih => exact ih _ (h.2 _ (hs.gives c)) (hs.perform h.1)

lemma Follows.walk_eq (h : D.Follows post prog) (hs : D.Sound w) (hq : D.ApartFrom q)
    (hfits : ∀ name ∈ q, name.length ≤ nameMax) : walk q (prog.run w).2.tree = walk q w.tree := by
  induction prog generalizing w with
  | done result => rfl
  | call c next ih =>
    exact (ih _ (h.2 _ (hs.gives c)) (hs.perform h.1)).trans (walk_perform h.1 hq hfits)

/-! ## What an answer depends on -/

variable (D) in
structure Agree (w w' : World) : Prop where
  zone : ∀ r ∈ D.zone, walk r w.tree = walk r w'.tree
  env : w.env = w'.env

variable {w' : World}

lemma Agree.walk_eq (ha : D.Agree w w') (hp : D.At path) :
    walk path w.tree = walk path w'.tree := by
  obtain ⟨-, r, hr, rest, rfl⟩ := hp
  rw [walk_append, walk_append, ha.zone r hr]

lemma Agree.perform (hro : D.readOnly = true) (hc : D.Allows c) (ha : D.Agree w w') :
    (perform c w).1 = (FileProgram.perform c w').1 ∧
      D.Agree (FileProgram.perform c w).2 (FileProgram.perform c w').2 := by
  match c with
  | .readFile _ => exact ⟨congrArg contentOf (ha.walk_eq hc), ha.zone, ha.env⟩
  | .readDir _ => exact ⟨congrArg listingOf (ha.walk_eq hc), ha.zone, ha.env⟩
  | .modTime _ => exact ⟨congrArg modTimeOf (ha.walk_eq hc), ha.zone, ha.env⟩
  | .writeFile _ _ | .append _ _ | .remove _ | .mkdirAll _ =>
    exact absurd (hro.symm.trans hc.1) Bool.noConfusion
  | .now => exact ⟨congrArg (fun env => Env.times env 0) ha.env, ha.zone, by
      simp only [FileProgram.perform, World.tick, ha.env]⟩
  | .newID => exact ⟨congrArg (fun env => Env.ids env 0) ha.env, ha.zone, by
      simp only [FileProgram.perform, ha.env]⟩
  | .range keys => exact ⟨congrArg (fun env => Env.range env keys) ha.env, ha⟩

/-- A program that only reads answers alike in worlds that agree on its zone. -/
lemma Follows.result_eq (hro : D.readOnly = true) (h : D.Follows post prog) (hs : D.Sound w)
    (ha : D.Agree w w') : (prog.run w).1 = (prog.run w').1 := by
  induction prog generalizing w w' with
  | done result => rfl
  | call c next ih =>
    obtain ⟨hreply, hagree⟩ := ha.perform hro h.1
    rw [Prog.run, Prog.run, ← hreply]
    exact ih _ (h.2 _ (hs.gives c)) (hs.perform h.1) hagree

/-! ## Rules -/

lemma follows_pure {a : α} : D.Follows post (pure a : Prog ε α) ↔ post a :=
  ⟨fun h => h a rfl, fun h _ heq => by cases heq; exact h⟩

lemma follows_fail (e : ε) : D.Follows post (Prog.fail e) := fun _ h => by cases h

lemma Follows.bind {mid : α → Prop} {post : β → Prop} {f : α → Prog ε β}
    (h : D.Follows mid prog) (hf : ∀ a, mid a → D.Follows post (f a)) :
    D.Follows post (prog >>= f) := by
  induction prog with
  | done result =>
    cases result with
    | error e => exact follows_fail e
    | ok a => exact hf a (h a rfl)
  | call c next ih => exact ⟨h.1, fun reply hreply => ih reply (h.2 reply hreply)⟩

lemma Follows.ask {post : Reply c → Prop} (hc : D.Allows c)
    (hpost : ∀ reply, D.Gives c reply → post reply) :
    D.Follows post (Prog.ask c : Prog ε (Reply c)) :=
  ⟨hc, fun reply hreply => follows_pure.2 (hpost reply hreply)⟩

lemma follows_readFile (h : D.At path) :
    D.Follows (fun reply => ∀ content, reply = .ok content → D.good path content)
      (Prog.readFile path : Prog ε _) :=
  .ask h fun _ hreply => hreply

lemma follows_readDir (h : D.At path) :
    D.Follows (fun reply => ∀ entries, reply = .ok entries → ∀ e ∈ entries, Plain e.1)
      (Prog.readDir path : Prog ε _) :=
  .ask h fun _ hreply => hreply

lemma follows_modTime (h : D.At path) :
    D.Follows (fun _ => True) (Prog.modTime path : Prog ε _) :=
  .ask h fun _ _ => trivial

section

variable (hro : D.readOnly = false)
include hro

lemma follows_writeFile {content : Content} (h : D.At path) (hgood : D.good path content) :
    D.Follows (fun _ => True) (Prog.writeFile path content : Prog ε _) :=
  .ask ⟨hro, h, hgood⟩ fun _ _ => trivial

lemma follows_append {content : Content} (h : D.At path) (hgood : D.good path content)
    (hold : ∀ old, D.good path old → D.good path (old ++ content)) :
    D.Follows (fun _ => True) (Prog.append path content : Prog ε _) :=
  .ask ⟨hro, h, hgood, hold⟩ fun _ _ => trivial

lemma follows_remove (h : D.At path) : D.Follows (fun _ => True) (Prog.remove path : Prog ε _) :=
  .ask ⟨hro, h⟩ fun _ _ => trivial

lemma follows_mkdirAll (h : D.Near path) :
    D.Follows (fun _ => True) (Prog.mkdirAll path : Prog ε _) :=
  .ask ⟨hro, h⟩ fun _ _ => trivial

end

lemma follows_now : D.Follows (fun _ => True) (Prog.now : Prog ε _) :=
  .ask trivial fun _ _ => trivial

lemma follows_newID : D.Follows D.fresh (Prog.newID : Prog ε _) :=
  .ask trivial fun _ hreply => hreply

lemma follows_range (keys : List Nat) : D.Follows (fun _ => True) (Prog.range keys : Prog ε _) :=
  .ask trivial fun _ _ => trivial

lemma Follows.mono {post' : α → Prop} (h : D.Follows post prog) (hpost : ∀ a, post a → post' a) :
    D.Follows post' prog := by
  induction prog with
  | done result => exact fun a ha => hpost a (h a ha)
  | call c next ih => exact ⟨h.1, fun reply hreply => ih reply (h.2 reply hreply)⟩

lemma Follows.attempt (h : D.Follows post prog) :
    D.Follows (fun result => ∀ a, result = .ok a → post a) prog.attempt := by
  induction prog with
  | done result => exact follows_pure.2 h
  | call c next ih => exact ⟨h.1, fun reply hreply => ih reply (h.2 reply hreply)⟩

lemma follows_orFail {wrap : Errno → ε} {result : Except Errno α}
    (h : ∀ a, result = .ok a → post a) : D.Follows post (Prog.orFail wrap result) := by
  cases result with
  | error e => exact follows_fail _
  | ok a => exact follows_pure.2 (h a rfl)

lemma Follows.returns (h : D.Follows post prog) (f : α → β) :
    D.Follows (fun _ => True) (prog >>= fun a => pure (f a)) :=
  h.bind fun _ _ => follows_pure.2 trivial

lemma Follows.orFail {mid : Except Errno α → Prop} {post : β → Prop}
    {prog : Prog ε (Except Errno α)} {wrap : Errno → ε} {next : α → Prog ε β}
    (h : D.Follows mid prog) (hnext : ∀ a, D.Follows post (next a)) :
    D.Follows post (prog >>= fun result => Prog.orFail wrap result >>= next) :=
  h.bind fun _ _ => (follows_orFail fun _ _ => trivial).bind fun a _ => hnext a

end Discipline

end CollabEditor.Support.FileProgram

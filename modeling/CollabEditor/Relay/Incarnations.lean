import CollabEditor.Support.Execution
import CollabEditor.Support.Replication
import CollabEditor.Relay.RoomText
/-!
# A room and its later incarnations

Without a snapshot, `bootstrapRoom` seeds each new room from the stored text, under `ServerClientID`
and from clock 0 on.  Rooms are created and removed on any pod, clients edit, and a flush stores the
plain text of a room.  A sync brings the client what it lacks and the room nothing.
-/

namespace CollabEditor.Relay

open Support Execution CausalOps SharedText List Option Function

variable {K : Type}

inductive Place
  | room (pod : Nat)
  | client (id : Nat)
  deriving DecidableEq

/-- The docs of one document. `past` keeps the docs of removed rooms and `seeds` the
texts that rooms have been created with. -/
structure Incarnations (K : Type) where
  stored : List K
  docs : Place → Option (Doc K)
  past : List (Doc K)
  seeds : List (List K)

namespace Incarnations

def initial (stored : List K) : Incarnations K where
  stored := stored
  docs
    | .room _ => none
    | .client id => some (Doc.started id [])
  past := []
  seeds := []

def set (w : Incarnations K) (place : Place) (d : Option (Doc K)) : Incarnations K :=
  { w with docs := Function.update w.docs place d }

/-- `d` is the doc of a room, or was when the room was removed. -/
def Bootstrapped (w : Incarnations K) (d : Doc K) : Prop :=
  d ∈ w.past ∨ ∃ pod, w.docs (.room pod) = some d

end Incarnations

inductive IncarnationAction (K : Type)
  | create (pod : Nat)
  | insert (id : Nat) (content : K) (origins : List (Nat × Nat))
  | delete (id : Nat) (target : Nat × Nat)
  | pass (source target : Place) (u : Update K)
  | sync (id pod : Nat)
  | flush (pod : Nat)
  | remove (pod : Nat)

section

variable {P : Type} [LinearOrder P] [DecidableEq K] (order : DocOrder K P)

/-- An update that one of them has taken in may reach the other, at any time and more
than once. -/
def Place.connected : Place → Place → Bool
  | .client _, .client _ => false
  | _, _ => true

def incarnationStep (w : Incarnations K) : IncarnationAction K → Option (Incarnations K)
  | .create pod =>
    match w.docs (.room pod) with
    | some _ => none
    | none => some { w.set (.room pod) (some (bootstrapContent w.stored)) with
        seeds := w.stored :: w.seeds }
  | .insert id content origins => do
      let d ← w.docs (.client id)
      -- Yjs picks the id at random from a range in which it does not meet the server's
      guard (id ≠ serverClientID ∧ ∀ i ∈ origins, ∃ p ∈ integrate d.items, p.id = i)
      let item : Item K := ⟨id, d.nextClock id, origins, some content⟩
      return w.set (.client id) (some (d.apply ⟨[item], []⟩))
  | .delete id target => do
      let d ← w.docs (.client id)
      guard (∃ p ∈ d.visible, p.id = target)
      return w.set (.client id) (some (d.apply ⟨[], [target]⟩))
  | .pass source target u => do
      guard (source.connected target)
      let s ← w.docs source
      let t ← w.docs target
      guard (u ∈ s.updates)
      return w.set target (some (t.receive u))
  | .sync id pod => do
      let r ← w.docs (.room pod)
      let d ← w.docs (.client id)
      return w.set (.client id) (some (d.receive r.asUpdate))
  | .flush pod => do
      let r ← w.docs (.room pod)
      return { w with stored := r.text order }
  | .remove pod => do
      let r ← w.docs (.room pod)
      return { w.set (.room pod) none with past := r :: w.past }

end

/-! ## What is asked of seeds -/

/-- Wherever two docs of rooms hold a struct of the server with the same id, it is the same
character with the same origin. -/
def SeedsStable (w : Incarnations K) : Prop :=
  ∀ d e, w.Bootstrapped d → w.Bootstrapped e → ∀ o ∈ d.items, ∀ p ∈ e.items,
    o.client = serverClientID → o.id = p.id → o = p

def ClientShowsRoom {P : Type} [LinearOrder P] [DecidableEq K] (order : DocOrder K P)
    (w : Incarnations K) (id pod : Nat) : Prop :=
  (w.docs (.client id)).map (·.text order) = (w.docs (.room pod)).map (·.text order)

/-- A room is created only when the stored text agrees with what earlier rooms were created
with, and a client syncs only with a room that has all that the client has, by id. -/
def SeedsAgree (w : Incarnations K) : IncarnationAction K → Prop
  | .create _ => ∀ t ∈ w.seeds, SameStart t w.stored
  | .sync id pod => ∀ d ∈ w.docs (.client id), ∀ r ∈ w.docs (.room pod), d.CoveredBy r
  | _ => True

instance [DecidableEq K] (w : Incarnations K) (a : IncarnationAction K) :
    Decidable (SeedsAgree w a) := by
  rcases a with ⟨⟩ <;> dsimp only [SeedsAgree] <;> infer_instance

/-! ## Where structs come from -/

namespace Incarnations

/-- The struct is one of a seed, or its client has it. -/
def Made (w : Incarnations K) (o : Item K) : Prop :=
  if o.client = serverClientID then ∃ t ∈ w.seeds, o ∈ seed serverClientID t
  else ∃ d, w.docs (.client o.client) = some d ∧ o ∈ d.items

structure Extends (w w' : Incarnations K) : Prop where
  seeds : w.seeds ⊆ w'.seeds
  clients : ∀ id d, w.docs (.client id) = some d →
    ∃ d', w'.docs (.client id) = some d' ∧ ∀ o ∈ d.items, o ∈ d'.items

lemma Made.of_extends {w w' : Incarnations K} {o : Item K} (h : w.Made o) (hext : w.Extends w') :
    w'.Made o := by
  rw [Made] at h ⊢
  split_ifs at h ⊢
  · obtain ⟨t, ht, ho⟩ := h
    exact ⟨t, hext.seeds ht, ho⟩
  · obtain ⟨d, hd, ho⟩ := h
    obtain ⟨d', hd', hsub⟩ := hext.clients _ d hd
    exact ⟨d', hd', hsub o ho⟩

lemma extends_set {w : Incarnations K} {place : Place} {d d' : Doc K}
    (hd : w.docs place = some d) (hsub : ∀ o ∈ d.items, o ∈ d'.items) :
    w.Extends (w.set place (some d')) := by
  refine ⟨List.Subset.refl _, ?_⟩
  intro id e he
  by_cases hplace : Place.client id = place
  · subst hplace
    obtain rfl := mem_unique hd he
    exact ⟨d', by simp [set], hsub⟩
  · exact ⟨e, by simpa [set, update_of_ne hplace] using he, fun o ho => ho⟩

end Incarnations

structure SeedInv (w : Incarnations K) : Prop where
  seeds : ∀ t ∈ w.seeds, ∀ t' ∈ w.seeds, SameStart t t'
  docs : ∀ place d, w.docs place = some d → ∀ o ∈ d.items, w.Made o
  past : ∀ d ∈ w.past, ∀ o ∈ d.items, w.Made o
  unique : ∀ id d, id ≠ serverClientID → w.docs (.client id) = some d →
    ∀ o ∈ d.items, ∀ p ∈ d.items, o.client = id → o.id = p.id → o = p

namespace SeedInv

variable {w : Incarnations K} (h : SeedInv w)
include h

lemma eq_of_made {o p : Item K} (ho : w.Made o) (hp : w.Made p) (hid : o.id = p.id) : o = p := by
  have hclient : o.client = p.client := congrArg Prod.fst hid
  rw [Incarnations.Made] at ho hp
  rw [← hclient] at hp
  split at ho
  · rename_i hserver
    rw [if_pos hserver] at hp
    obtain ⟨t, ht, hot⟩ := ho
    obtain ⟨t', ht', hpt⟩ := hp
    exact seed_ext (h.seeds t ht t' ht') hot hpt hid
  · rename_i hserver
    rw [if_neg hserver] at hp
    obtain ⟨d, hd, hod⟩ := ho
    obtain ⟨e, he, hpe⟩ := hp
    obtain rfl := mem_unique hd he
    exact h.unique _ d hserver hd o hod p hpe rfl hid

lemma made_of_bootstrapped {d : Doc K} (hd : w.Bootstrapped d) : ∀ o ∈ d.items, w.Made o := by
  rcases hd with hd | ⟨pod, hd⟩
  · exact h.past d hd
  · exact h.docs _ d hd

lemma seedsStable : SeedsStable w := by
  intro d e hd he o ho p hp _ hid
  exact h.eq_of_made (h.made_of_bootstrapped hd o ho) (h.made_of_bootstrapped he p hp) hid

end SeedInv

lemma seedInv_initial (stored : List K) : SeedInv (.initial stored) := by
  refine ⟨by simp [Incarnations.initial], ?_, by simp [Incarnations.initial], ?_⟩
  · intro place d hd o ho
    cases place with
    | room pod => cases hd
    | client id =>
      cases hd
      simp at ho
  · intro id d _ hd o ho
    cases hd
    simp at ho

variable {d : Doc K} {place : Place} {w : Incarnations K}

section

variable (h : SeedInv w)
include h

lemma SeedInv.set {d' : Doc K} (hd : w.docs place = some d) (hsub : ∀ o ∈ d.items, o ∈ d'.items)
    (hmade : ∀ o ∈ d'.items, (w.set place (some d')).Made o)
    (hunique : ∀ id, place = .client id → id ≠ serverClientID →
      ∀ o ∈ d'.items, ∀ p ∈ d'.items, o.client = id → o.id = p.id → o = p) :
    SeedInv (w.set place (some d')) := by
  have hext := Incarnations.extends_set hd hsub
  refine ⟨h.seeds, ?_, fun e he o ho => (h.past e he o ho).of_extends hext, ?_⟩
  · intro place' e he
    simp only [Incarnations.set, update_apply] at he
    split at he
    · cases he
      exact hmade
    · exact fun o ho => (h.docs place' e he o ho).of_extends hext
  · intro id e hserver he
    simp only [Incarnations.set, update_apply] at he
    split at he
    · rename_i hplace
      cases he
      exact hunique id hplace.symm hserver
    · exact h.unique id e hserver he

lemma SeedInv.set_of_made {d' : Doc K} (hd : w.docs place = some d)
    (hsub : ∀ o ∈ d.items, o ∈ d'.items) (hmade : ∀ o ∈ d'.items, w.Made o) :
    SeedInv (w.set place (some d')) := by
  apply h.set hd hsub
  · exact fun o ho => (hmade o ho).of_extends (Incarnations.extends_set hd hsub)
  · exact fun _ _ _ o ho p hp _ hid => h.eq_of_made (hmade o ho) (hmade p hp) hid

lemma SeedInv.receive {u : Update K} (hd : w.docs place = some d) (hu : ∀ o ∈ u.items, w.Made o) :
    SeedInv (w.set place (some (d.receive u))) := by
  apply h.set_of_made hd
  · exact fun o ho => Doc.mem_items_receive.2 (.inl ho)
  · intro o ho
    rcases Doc.mem_items_receive.1 ho with ho | ⟨ho, -⟩
    · exact h.docs place d hd o ho
    · exact hu o ho

lemma SeedInv.insert {id : Nat} {content : K} {origins : List (Nat × Nat)}
    (hserver : id ≠ serverClientID) (hd : w.docs (.client id) = some d) :
    SeedInv (w.set (.client id)
      (some (d.apply ⟨[⟨id, d.nextClock id, origins, some content⟩], []⟩))) := by
  have hsub : ∀ o ∈ d.items,
      o ∈ (d.apply ⟨[⟨id, d.nextClock id, origins, some content⟩], []⟩).items :=
    fun _ => Doc.mem_items_apply_of_mem
  have hfresh : ∀ o ∈ d.items, o.id ≠ (id, d.nextClock id) := by
    intro o ho hid
    have hclock := Doc.clock_lt_nextClock ho
    rw [show o.client = id from congrArg Prod.fst hid, show o.clock = _ from congrArg Prod.snd hid]
      at hclock
    exact Nat.lt_irrefl _ hclock
  apply h.set hd hsub
  · intro o ho
    rcases Doc.mem_items_apply.1 ho with hold | hnew
    · exact (h.docs _ d hd o hold).of_extends (Incarnations.extends_set hd hsub)
    · obtain rfl := mem_singleton.1 hnew
      rw [Incarnations.Made, if_neg hserver]
      exact ⟨_, by simp [Incarnations.set], ho⟩
  · rintro _ ⟨⟩ _ o ho p hp hclient hid
    rcases Doc.mem_items_apply.1 ho with ho | ho <;> rcases Doc.mem_items_apply.1 hp with hp | hp
    · exact h.unique _ d hserver hd o ho p hp hclient hid
    · obtain rfl := mem_singleton.1 hp
      exact absurd hid (hfresh o ho)
    · obtain rfl := mem_singleton.1 ho
      exact absurd hid.symm (hfresh p hp)
    · exact (mem_singleton.1 ho).trans (mem_singleton.1 hp).symm

lemma SeedInv.create (pod : Nat) (hagree : ∀ t ∈ w.seeds, SameStart t w.stored) :
    SeedInv { w.set (.room pod) (some (bootstrapContent w.stored)) with
      seeds := w.stored :: w.seeds } := by
  have hext : w.Extends { w.set (.room pod) (some (bootstrapContent w.stored)) with
      seeds := w.stored :: w.seeds } := by
    refine ⟨fun t ht => mem_cons_of_mem _ ht, fun id d hd => ⟨d, ?_, fun o ho => ho⟩⟩
    simpa [Incarnations.set] using hd
  refine ⟨?_, ?_, fun e he o ho => (h.past e he o ho).of_extends hext, ?_⟩
  · intro t ht t' ht'
    rcases mem_cons.1 ht with rfl | ht <;> rcases mem_cons.1 ht' with rfl | ht'
    · exact .refl _
    · exact (hagree t' ht').symm
    · exact hagree t ht
    · exact h.seeds t ht t' ht'
  · intro place e he o ho
    simp only [Incarnations.set, update_apply] at he
    split at he
    · cases he
      have hseed : o ∈ seed serverClientID w.stored := by
        simpa [bootstrapContent, Doc.items] using ho
      obtain ⟨k, c, -, rfl⟩ := mem_seed.1 hseed
      rw [Incarnations.Made, if_pos rfl]
      exact ⟨w.stored, mem_cons_self, hseed⟩
    · exact (h.docs place e he o ho).of_extends hext
  · intro id e hserver he
    exact h.unique id e hserver (by simpa [Incarnations.set] using he)

lemma SeedInv.remove {pod : Nat} {r : Doc K} (hr : w.docs (.room pod) = some r) :
    SeedInv { w.set (.room pod) none with past := r :: w.past } := by
  have hext : w.Extends { w.set (.room pod) none with past := r :: w.past } :=
    ⟨List.Subset.refl _, fun id d hd => ⟨d, by simpa [Incarnations.set] using hd, fun o ho => ho⟩⟩
  refine ⟨h.seeds, ?_, ?_, ?_⟩
  · intro place e he o ho
    simp only [Incarnations.set, update_apply] at he
    split at he
    · cases he
    · exact (h.docs place e he o ho).of_extends hext
  · intro e he o ho
    rcases mem_cons.1 he with rfl | he
    · exact (h.docs _ _ hr o ho).of_extends hext
    · exact (h.past e he o ho).of_extends hext
  · intro id e hserver he
    exact h.unique id e hserver (by simpa [Incarnations.set] using he)

end

section

variable {P : Type} [LinearOrder P] [DecidableEq K] {order : DocOrder K P}
  {w w' : Incarnations K} {pod id : Nat}

lemma incarnationStep_create (hs : incarnationStep order w (.create pod) = some w') :
    w' = { w.set (.room pod) (some (bootstrapContent w.stored)) with
      seeds := w.stored :: w.seeds } := by
  rw [incarnationStep] at hs
  split at hs
  · cases hs
  · exact (some.inj hs).symm

lemma incarnationStep_insert {content : K} {origins : List (Nat × Nat)}
    (hs : incarnationStep order w (.insert id content origins) = some w') :
    ∃ d, w.docs (.client id) = some d ∧ id ≠ serverClientID ∧ w' = w.set (.client id)
        (some (d.apply ⟨[⟨id, d.nextClock id, origins, some content⟩], []⟩)) := by
  simp only [incarnationStep, bind_eq_bind, bind_eq_some_iff, guard_eq_some'] at hs
  obtain ⟨d, hd, _, ⟨hserver, -⟩, hw⟩ := hs
  exact ⟨d, hd, hserver, (some.inj hw).symm⟩

lemma incarnationStep_delete {target : Nat × Nat}
    (hs : incarnationStep order w (.delete id target) = some w') :
    ∃ d, w.docs (.client id) = some d ∧
      w' = w.set (.client id) (some (d.apply ⟨[], [target]⟩)) := by
  simp only [incarnationStep, bind_eq_bind, bind_eq_some_iff] at hs
  obtain ⟨d, hd, _, -, hw⟩ := hs
  exact ⟨d, hd, (some.inj hw).symm⟩

lemma incarnationStep_pass {source target : Place} {u : Update K}
    (hs : incarnationStep order w (.pass source target u) = some w') :
    ∃ s t, w.docs source = some s ∧ w.docs target = some t ∧ u ∈ s.updates ∧
      w' = w.set target (some (t.receive u)) := by
  simp only [incarnationStep, bind_eq_bind, bind_eq_some_iff, guard_eq_some'] at hs
  obtain ⟨_, -, s, hsource, t, ht, _, hu, hw⟩ := hs
  exact ⟨s, t, hsource, ht, hu, (some.inj hw).symm⟩

lemma incarnationStep_sync (hs : incarnationStep order w (.sync id pod) = some w') :
    ∃ r d, w.docs (.room pod) = some r ∧ w.docs (.client id) = some d ∧
      w' = w.set (.client id) (some (d.receive r.asUpdate)) := by
  simp only [incarnationStep, bind_eq_bind, bind_eq_some_iff] at hs
  obtain ⟨r, hr, d, hd, hw⟩ := hs
  exact ⟨r, d, hr, hd, (some.inj hw).symm⟩

lemma incarnationStep_flush (hs : incarnationStep order w (.flush pod) = some w') :
    ∃ stored, w' = { w with stored := stored } := by
  simp only [incarnationStep, bind_eq_bind, bind_eq_some_iff] at hs
  obtain ⟨r, -, hw⟩ := hs
  exact ⟨_, (some.inj hw).symm⟩

lemma incarnationStep_remove (hs : incarnationStep order w (.remove pod) = some w') :
    ∃ r, w.docs (.room pod) = some r ∧
      w' = { w.set (.room pod) none with past := r :: w.past } := by
  simp only [incarnationStep, bind_eq_bind, bind_eq_some_iff] at hs
  obtain ⟨r, hr, hw⟩ := hs
  exact ⟨r, hr, (some.inj hw).symm⟩

lemma seedInv_step {a : IncarnationAction K} (h : SeedInv w) (hok : SeedsAgree w a)
    (hs : incarnationStep order w a = some w') : SeedInv w' := by
  cases a with
  | create pod =>
    obtain rfl := incarnationStep_create hs
    exact h.create pod hok
  | insert id content origins =>
    obtain ⟨d, hd, hserver, rfl⟩ := incarnationStep_insert hs
    exact h.insert hserver hd
  | delete id target =>
    obtain ⟨d, hd, rfl⟩ := incarnationStep_delete hs
    have hitems : ∀ o, o ∈ (d.apply ⟨[], [target]⟩).items ↔ o ∈ d.items := by simp
    exact h.set_of_made hd (fun o ho => (hitems o).2 ho)
      (fun o ho => h.docs _ d hd o ((hitems o).1 ho))
  | pass source target u =>
    obtain ⟨s, t, hsource, ht, hu, rfl⟩ := incarnationStep_pass hs
    exact h.receive ht fun o ho =>
      h.docs source s hsource o (Doc.mem_items_of_mem_updates hu ho)
  | sync id pod =>
    obtain ⟨r, d, hr, hd, rfl⟩ := incarnationStep_sync hs
    exact h.receive hd (h.docs _ r hr)
  | flush pod =>
    obtain ⟨stored, rfl⟩ := incarnationStep_flush hs
    exact { h with }
  | remove pod =>
    obtain ⟨r, hr, rfl⟩ := incarnationStep_remove hs
    exact h.remove hr

lemma SeedInv.clientShowsRoom_sync (h : SeedInv w) (hok : SeedsAgree w (.sync id pod))
    (hs : incarnationStep order w (.sync id pod) = some w') : ClientShowsRoom order w' id pod := by
  obtain ⟨r, d, hr, hd, rfl⟩ := incarnationStep_sync hs
  have hagree : d.Agrees r := fun o ho p hp hid =>
    h.eq_of_made (h.docs _ d hd o ho) (h.docs _ r hr p hp) hid
  have htext := Doc.text_receive_asUpdate order hagree (hok d hd r hr)
  simp [ClientShowsRoom, Incarnations.set, hr, htext]

/-- Seeds keep their identity over all incarnations, and a client that syncs with a later one shows
its text, as long as rooms are created from texts that agree and the room has all that the client
brings along. -/
theorem seeds_stable_of_seedsAgree {stored : List K}
    (hrun : Run (incarnationStep order) SeedsAgree (.initial stored) w) :
    SeedsStable w ∧ ∀ id pod w', SeedsAgree w (.sync id pod) →
      incarnationStep order w (.sync id pod) = some w' → ClientShowsRoom order w' id pod := by
  have hinv := hrun.invariant (seedInv_initial stored) fun _ _ _ h hok hs => seedInv_step h hok hs
  exact ⟨hinv.seedsStable, fun _ _ _ hok hs => hinv.clientShowsRoom_sync hok hs⟩

end

def appendedBetween : List (IncarnationAction Nat) :=
  [.create 0, .sync 7 0, .sync 5 0, .insert 5 0x62 [(1, 0)],
    .pass (.client 5) (.room 0) ⟨[⟨5, 0, [(1, 0)], some 0x62⟩], []⟩, .flush 0, .remove 0, .create 1]

theorem seeds_stable_appendedBetween :
    ∃ w, Run (incarnationStep .byId) SeedsAgree (.initial [0x61]) w ∧
      w.seeds = [[0x61, 0x62], [0x61]] ∧
      SeedsStable w ∧ ∃ w' ∈ incarnationStep .byId w (.sync 7 1), ClientShowsRoom .byId w' 7 1 :=
  exists_run_imp appendedBetween
    (P := fun w => w.seeds = [[0x61, 0x62], [0x61]] ∧ SeedsAgree w (.sync 7 1) ∧
      (incarnationStep .byId w (.sync 7 1)).isSome) (by decide +kernel)
    fun _ hrun ⟨hseeds, hok, hsync⟩ =>
      have ⟨w', hw'⟩ := isSome_iff_exists.1 hsync
      have ⟨hstable, hshows⟩ := seeds_stable_of_seedsAgree hrun
      ⟨hseeds, hstable, w', hw', hshows 7 1 w' hok hw'⟩

def replacedBetween : List (IncarnationAction Nat) :=
  [.create 0, .sync 7 0, .sync 5 0, .insert 5 0x62 [(1, 0)], .delete 5 (1, 0),
    .pass (.client 5) (.room 0) ⟨[⟨5, 0, [(1, 0)], some 0x62⟩], []⟩,
    .pass (.client 5) (.room 0) ⟨[], [(1, 0)]⟩, .flush 0, .remove 0, .create 0, .sync 7 0]

/-- The struct `(1, 0)` is `a` in the first room and `b` in the second, and client 7, which has
edited nothing, goes on showing `a` after it has synced with the second. -/
theorem seed_id_reused_for_other_text :
    ∃ w, Run (incarnationStep .byId) anyStep (.initial [0x61]) w ∧ ¬ SeedsStable w ∧
      ¬ ClientShowsRoom .byId w 7 0 :=
  exists_run_imp replacedBetween
    (P := fun w => (∃ d ∈ w.past, ⟨1, 0, [], some 0x61⟩ ∈ d.items) ∧
      (∃ e ∈ w.docs (.room 0), ⟨1, 0, [], some 0x62⟩ ∈ e.items) ∧
      (w.docs (.client 7)).map (·.text .byId) = some [0x61] ∧
      (w.docs (.room 0)).map (·.text .byId) = some [0x62]) (by decide +kernel)
    fun w _ ⟨⟨d, hd, hold⟩, ⟨e, he, hnew⟩, hclientText, hroomText⟩ => by
      refine ⟨fun hstable => ?_, ?_⟩
      · exact absurd (hstable d e (.inl hd) (.inr ⟨0, he⟩) _ hold _ hnew rfl rfl) (by decide)
      · rw [ClientShowsRoom, hclientText, hroomText]
        decide

end CollabEditor.Relay

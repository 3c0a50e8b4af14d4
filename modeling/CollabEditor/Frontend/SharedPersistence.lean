import CollabEditor.Support.Register
import CollabEditor.Frontend.StoredOnce
/-!
# Several clients that save the same threads

Every client of a document marks what others have changed dirty like its own changes, and saves it
by what it remembers to have saved.
-/

namespace CollabEditor.Frontend

open Support Execution Register List Option CommentClient Function
open scoped List
open CollabEditor.StorageDemo (CommentStore CommentThread)

variable {K : Type}

/-! ## The clients of a document -/

/-- Each run is kept with the client it is one of. `stray` are requests that a client has ceased to
wait for, and `fetched` the threads that are on their way to a client that polls. -/
structure CommentRoom (P K : Type) where
  threads : Nat → Shared P (Option (StoredThread K))
  clients : Nat → CommentClient K
  runs : List (Nat × PersistRun K)
  stray : List (CommentRequest K)
  fetched : List (Nat × Nat × CommentThread K)
  store : CommentStore K

/-- Runs, stray requests and fetched threads are named by where they are in their list. -/
inductive RoomEvent (P K : Type)
  | create (client id : Nat) (caller : Caller) (anchor : CommentAnchor K)
      (startRel endRel : SharedText.Position) (comment : Option (Nat × List K))
      (suggestion : Option (Suggestion K)) (stamp : P)
  | call (client id : Nat) (caller : Caller) (call : ThreadCall K) (stamp : P)
  | delete (client id : Nat) (stamp : P)
  | deliver (client id : Nat) (w : Write P (Option (StoredThread K)))
  | startPersist (client : Nat)
  | nextKey (i : Nat)
  | serve (i now : Nat)
  | answer (i : Nat)
  | lose (i : Nat)
  | serveStray (i now : Nat)
  | finish (i : Nat)
  | fetch (client id : Nat)
  | reconcile (i : Nat) (stamp : P)
  | reconcileDeleted (client id : Nat) (stamp : P)

namespace CommentRoom

variable {P : Type}

def initial : CommentRoom P K where
  threads _ := ⟨[], fun _ => []⟩
  clients _ := .initial
  runs := []
  stray := []
  fetched := []
  store _ := none

def unserved (s : CommentRoom P K) : List (CommentRequest K) :=
  s.runs.flatMap (·.2.unserved) ++ s.stray

def setClient (s : CommentRoom P K) (client : Nat) (c : CommentClient K) : CommentRoom P K :=
  { s with clients := update s.clients client c }

def setRun (s : CommentRoom P K) (i client : Nat) (next : CommentClient K × PersistRun K) :
    CommentRoom P K :=
  { s.setClient client next.1 with runs := s.runs.set i (client, next.2) }

def setThread (s : CommentRoom P K) (id : Nat) (thread : Shared P (Option (StoredThread K))) :
    CommentRoom P K :=
  { s with threads := update s.threads id thread }

variable [LinearOrder P]

def read (s : CommentRoom P K) (client id : Nat) : Option (StoredThread K) :=
  ((s.threads id).value client).join

def put (s : CommentRoom P K) (client id : Nat) (stamp : P) (value : Option (StoredThread K)) :
    CommentRoom P K :=
  s.setThread id ((s.threads id).write client ⟨stamp, value⟩)

/-- `makeId` gives a reply an id that no comment of the thread has had. -/
def FreshIn (s : CommentRoom P K) (id : Nat) : ThreadCall K → Prop
  | .addReply commentId _ =>
    ∀ w ∈ (s.threads id).written, ∀ t ∈ w.value, commentId ∉ commentIds t.comments
  | _ => True

instance (s : CommentRoom P K) (id : Nat) (call : ThreadCall K) :
    Decidable (s.FreshIn id call) := by
  rcases call with ⟨⟩ <;> dsimp only [FreshIn] <;> infer_instance

end CommentRoom

section

variable {P : Type} [LinearOrder P] [DecidableEq K] (bytes : List K → Nat)

open CommentRoom in
def roomStep (s : CommentRoom P K) : RoomEvent P K → Option (CommentRoom P K)
  | .create client id caller anchor startRel endRel comment suggestion stamp =>
    if (s.threads id).written = [] then
      (createThread bytes caller anchor startRel endRel comment suggestion).map fun t =>
        (s.put client id stamp (some t)).setClient client ((s.clients client).mark (.thread id))
    else none
  | .call client id caller call stamp =>
    if (s.threads id).Follows client stamp ∧ s.FreshIn id call then
      (s.read client id).bind fun t => (t.mutate bytes caller call).map fun t' =>
        (s.put client id stamp (some t')).setClient client ((s.clients client).mark (.thread id))
    else none
  | .delete client id stamp =>
    let c := s.clients client
    if s.read client id = none then some (s.setClient client (c.mark (.deleted id)))
    else if (s.threads id).Follows client stamp then
      some ((s.put client id stamp none).setClient client
        ((c.mark (.thread id)).mark (.deleted id)))
    else none
  | .deliver client id w =>
    let thread := s.threads id
    if w ∈ thread.written then
      let thread' := thread.receive client w
      let s' := s.setThread id thread'
      -- an event of the map is only fired for another value
      if latest (thread'.received client) = latest (thread.received client) then some s'
      else some (s'.setClient client ((s.clients client).mark (.thread id)))
    else none
  | .startPersist client =>
    let next := (s.clients client).startPersist
    some { s.setClient client next.1 with runs := s.runs ++ [(client, next.2)] }
  | .nextKey i => s.runs[i]?.bind fun run =>
    ((s.clients run.1).nextKey (s.read run.1) run.2).map (s.setRun i run.1)
  | .serve i now => s.runs[i]?.bind fun run => run.2.saving.bind fun saving =>
    (saving.served bytes now s.store).map fun next =>
      { s with
        store := next.1
        runs := s.runs.set i (run.1, { run.2 with saving := some next.2 }) }
  | .answer i => s.runs[i]?.bind fun run =>
    ((s.clients run.1).answered run.2).map (s.setRun i run.1)
  | .lose i => s.runs[i]?.bind fun run =>
    ((s.clients run.1).lost run.2).map fun next =>
      { s.setRun i run.1 next with stray := run.2.onItsWay ++ s.stray }
  | .serveStray i now => s.stray[i]?.map fun r =>
    { s with
      stray := s.stray.eraseIdx i
      store := (serve bytes now s.store r).toOption.getD s.store }
  | .finish i => s.runs[i]?.bind fun run =>
    ((s.clients run.1).finished run.2).map fun c =>
      { s.setClient run.1 c with runs := s.runs.eraseIdx i }
  | .fetch client id => (s.store id).map fun thread =>
    { s with fetched := s.fetched ++ [(client, id, thread)] }
  | .reconcile i stamp => s.fetched[i]?.bind fun (client, id, thread) =>
    if (s.threads id).Follows client stamp then
      let next := (s.clients client).insertThreadFromWire (s.read client id) id thread
      some { (s.put client id stamp (some next.2)).setClient client next.1 with
        fetched := s.fetched.eraseIdx i }
    else none
  | .reconcileDeleted client id stamp =>
    if s.read client id = none then some s
    else if (s.threads id).Follows client stamp then some (s.put client id stamp none)
    else none

/-- The client knows what of the thread has been saved, if that is what the key stands for. -/
def CommentRoom.KnownAt (s : CommentRoom P K) (client : Nat) : DirtyKey → Prop
  | .thread id => ∀ t ∈ s.read client id,
      Known s.store s.unserved id t ((s.clients client).lastPersisted id)
  | .deleted _ => True

instance (s : CommentRoom P K) (client : Nat) (key : DirtyKey) :
    Decidable (s.KnownAt client key) := by
  rcases key with ⟨⟩ <;> dsimp only [CommentRoom.KnownAt] <;> infer_instance

/-- A run comes to a thread only when its client knows what of the thread has been saved. -/
def SavesKnown (s : CommentRoom P K) : RoomEvent P K → Prop
  | .nextKey i => ∀ run ∈ s.runs[i]?, ∀ key ∈ run.2.queue.head?, s.KnownAt run.1 key
  | _ => True

instance (s : CommentRoom P K) (a : RoomEvent P K) : Decidable (SavesKnown s a) := by
  rcases a with ⟨⟩ <;> dsimp only [SavesKnown] <;> infer_instance

end

/-! ## Every comment once -/

section

variable {t t' : StoredThread K}

lemma commentIds_mapComment (id : Nat) {f : Comment K → Comment K} (hf : ∀ c, (f c).id = c.id) :
    commentIds (t.mapComment id f).comments = commentIds t.comments := by
  rw [commentIds, StoredThread.mapComment, List.map_map]
  refine map_congr_left fun c _ => ?_
  simp only [comp]
  split
  · exact hf c
  · rfl

lemma commentIds_mutate {bytes : List K → Nat} {caller : Caller} {call : ThreadCall K}
    (h : t.mutate bytes caller call = some t') : commentIds t'.comments = commentIds t.comments ∨
      ∃ id content, call = .addReply id content ∧
        commentIds t'.comments = commentIds t.comments ++ [id] := by
  cases call with
  | addReply id content =>
    obtain ⟨-, rfl⟩ := ite_some_none_eq_some.1 h
    exact .inr ⟨id, content, rfl, map_append⟩
  | resolveThread | reopenThread =>
    cases h
    exact .inl rfl
  | editComment id content | deleteComment id =>
    obtain ⟨-, rfl⟩ := ite_some_none_eq_some.1 h
    exact .inl (commentIds_mapComment id fun _ => rfl)
  | addReaction target emoji =>
    obtain ⟨-, h⟩ := ite_none_right_eq_some.1 h
    cases target with
    | none =>
      obtain ⟨-, ⟨⟩⟩ := ite_none_left_eq_some.1 h
      exact .inl rfl
    | some id =>
      cases h
      exact .inl (commentIds_mapComment id fun _ => rfl)
  | removeReaction target emoji =>
    cases target with
    | none =>
      cases h
      exact .inl rfl
    | some id =>
      cases h
      exact .inl (commentIds_mapComment id fun _ => rfl)
  | decideSuggestion decision =>
    obtain ⟨s, -, rfl⟩ := map_eq_some_iff.1 h
    exact .inl rfl

lemma commentIds_createThread {bytes : List K → Nat} {caller : Caller} {anchor : CommentAnchor K}
    {startRel endRel : SharedText.Position} {comment : Option (Nat × List K)}
    {suggestion : Option (Suggestion K)}
    (h : createThread bytes caller anchor startRel endRel comment suggestion = some t) :
    (commentIds t.comments).Nodup := by
  obtain ⟨-, rfl⟩ := ite_some_none_eq_some.1 h
  cases comment.filter fun c => !c.2.isEmpty <;> simp [commentIds]

end

variable {i : Nat}

lemma flatMap_perm_eraseIdx {α β : Type} {l : List α} {a : α} (h : l[i]? = some a)
    (f : α → List β) : l.flatMap f ~ f a ++ (l.eraseIdx i).flatMap f := by
  obtain ⟨hi, rfl⟩ := List.getElem?_eq_some_iff.1 h
  exact ((getElem_cons_eraseIdx_perm hi).flatMap_right f).symm

lemma flatMap_set_perm {α β : Type} {l : List α} {a : α} (h : l[i]? = some a) (b : α)
    (f : α → List β) : (l.set i b).flatMap f ~ f b ++ (l.eraseIdx i).flatMap f := by
  obtain ⟨hi, -⟩ := List.getElem?_eq_some_iff.1 h
  exact (set_perm_cons_eraseIdx hi b).flatMap_right f

/-- What the store has still to get of all but the run at `i`. -/
def CommentRoom.others {P : Type} (s : CommentRoom P K) (i : Nat) : List (CommentRequest K) :=
  (s.runs.eraseIdx i).flatMap (·.2.unserved) ++ s.stray

lemma CommentRoom.unserved_perm {P : Type} {s : CommentRoom P K} {run : Nat × PersistRun K}
    (hrun : s.runs[i]? = some run) : s.unserved ~ run.2.unserved ++ s.others i := by
  rw [others, ← append_assoc]
  exact (flatMap_perm_eraseIdx hrun _).append_right _

section

variable {P : Type}

structure ThreadInv (thread : Shared P (Option (StoredThread K))) : Prop where
  shared : thread.Inv
  distinct : ∀ w ∈ thread.written, ∀ t ∈ w.value, (commentIds t.comments).Nodup

structure RoomInv (s : CommentRoom P K) : Prop where
  once : ∀ id, StoredOnce s.store s.unserved id
  threads : ∀ id, ThreadInv (s.threads id)
  fetched : ∀ f ∈ s.fetched, (commentIds f.2.2.comments).Nodup

namespace RoomInv

variable {s : CommentRoom P K} {client id : Nat}

lemma initial : RoomInv (.initial : CommentRoom P K) where
  once _ := ⟨nodup_nil, fun _ hx => absurd hx not_mem_nil⟩
  threads _ := {
    shared := ⟨fun _ _ hw => absurd hw not_mem_nil, fun _ hw => absurd hw not_mem_nil⟩
    distinct _ hw := absurd hw not_mem_nil }
  fetched _ hf := absurd hf not_mem_nil

section

variable (h : RoomInv s)
include h

lemma distinct_of_stored {thread : CommentThread K}
    (hthread : s.store id = some thread) : (commentIds thread.comments).Nodup := by
  have hdistinct := (nodup_append'.1 (h.once id).distinct).1
  rwa [storedIds_of_some hthread] at hdistinct

lemma setClient (c : CommentClient K) : RoomInv (s.setClient client c) :=
  { h with }

lemma setThread {thread : Shared P (Option (StoredThread K))}
    (hthread : ThreadInv thread) : RoomInv (s.setThread id thread) where
  once := h.once
  threads := (forall_update_iff _ fun _ => ThreadInv).2
    ⟨hthread, fun id' _ => h.threads id'⟩
  fetched := h.fetched

lemma startPersist (client : Nat) :
    RoomInv { s.setClient client (s.clients client).startPersist.1 with
      runs := s.runs ++ [(client, (s.clients client).startPersist.2)] } := by
  refine { h with once := fun id => ?_ }
  simpa [CommentRoom.unserved, CommentClient.startPersist, PersistRun.unserved,
    CommentRoom.setClient] using h.once id

lemma serveStray {bytes : List K → Nat} {now : Nat} {r : CommentRequest K}
    (hstray : s.stray[i]? = some r) :
    RoomInv { s with
      stray := s.stray.eraseIdx i
      store := (Frontend.serve bytes now s.store r).toOption.getD s.store } := by
  obtain ⟨hi, rfl⟩ := List.getElem?_eq_some_iff.1 hstray
  have hperm : s.stray[i] :: (s.runs.flatMap (·.2.unserved) ++ s.stray.eraseIdx i) ~ s.unserved :=
    calc _ ~ s.runs.flatMap (·.2.unserved) ++ s.stray[i] :: s.stray.eraseIdx i :=
          perm_middle.symm
      _ ~ s.unserved := (getElem_cons_eraseIdx_perm hi).append_left _
  refine { h with once := fun id => ?_ }
  have honce := (h.once id).of_subperm hperm.subperm
  cases hserve : Frontend.serve bytes now s.store s.stray[i] with
  | ok cs' => exact honce.serve hserve
  | error e => exact honce.of_subperm (sublist_cons_self ..).subperm

variable {i : Nat} {run : Nat × PersistRun K} {cs : CommentStore K}
  {next : CommentClient K × PersistRun K} (hrun : s.runs[i]? = some run)
include hrun

lemma once_at (id : Nat) : StoredOnce s.store (run.2.unserved ++ s.others i) id :=
  (h.once id).of_subperm (CommentRoom.unserved_perm hrun).symm.subperm

lemma goOn {next : Nat × PersistRun K}
    (honce : ∀ id, StoredOnce cs (next.2.unserved ++ s.others i) id) :
    RoomInv { s with store := cs, runs := s.runs.set i next } where
  once id := by
    have hperm : (s.runs.set i next).flatMap (·.2.unserved) ++ s.stray ~
        next.2.unserved ++ s.others i := by
      rw [CommentRoom.others, ← append_assoc]
      exact (flatMap_set_perm hrun next _).append_right _
    exact (honce id).of_subperm hperm.subperm
  threads := h.threads
  fetched := h.fetched

lemma setRun (honce : ∀ id, StoredOnce s.store (next.2.unserved ++ s.others i) id) :
    RoomInv (s.setRun i client next) := by
  have hnext : RoomInv { s with runs := s.runs.set i (client, next.2) } := h.goOn hrun honce
  exact { hnext with }

lemma serve {bytes : List K → Nat} {now : Nat}
    {saving : Saving K} (hsaving : run.2.saving = some saving) {next : CommentStore K × Saving K}
    (hnext : saving.served bytes now s.store = some next) :
    RoomInv { s with
      store := next.1
      runs := s.runs.set i (run.1, { run.2 with saving := some next.2 }) } := by
  obtain ⟨r, rest, hanswer, hrequests, hnext⟩ := Saving.served_eq_some hnext
  have hunserved : run.2.unserved = r :: rest := by
    simp [PersistRun.unserved, hsaving, Saving.unserved, hanswer, hrequests]
  have honce (id : Nat) : StoredOnce s.store (r :: (rest ++ s.others i)) id := by
    have honce := h.once_at hrun id
    rwa [hunserved] at honce
  rcases hnext with ⟨cs', hserve, rfl⟩ | ⟨e, -, rfl⟩
  · refine h.goOn hrun fun id => ?_
    simpa [PersistRun.unserved, Saving.unserved, hrequests] using (honce id).serve hserve
  · refine h.goOn hrun fun id => ?_
    simpa [PersistRun.unserved, Saving.unserved, hrequests] using
      (honce id).of_subperm (sublist_cons_self ..).subperm

lemma answer
    (hnext : (s.clients run.1).answered run.2 = some next) : RoomInv (s.setRun i run.1 next) := by
  obtain ⟨saving, hsaving, accepted, hanswer, rfl⟩ := bind_map_eq_some.1 hnext
  have hunserved : run.2.unserved = saving.requests.tail := by
    simp [PersistRun.unserved, hsaving, Saving.unserved, hanswer]
  refine h.setRun hrun fun id => ?_
  have honce := h.once_at hrun id
  split
  · rw [unserved_resume rfl]
    rwa [hunserved] at honce
  · rw [unserved_notSaved]
    exact honce.of_subperm (sublist_append_right ..).subperm

lemma lose
    (hnext : (s.clients run.1).lost run.2 = some next) :
    RoomInv { s.setRun i run.1 next with stray := run.2.onItsWay ++ s.stray } := by
  obtain ⟨saving, hsaving, rfl⟩ := map_eq_some_iff.1 hnext
  refine { h with once := fun id => (h.once_at hrun id).of_subperm ?_ }
  have hflat := flatMap_set_perm hrun
    (run.1, ((s.clients run.1).notSaved { run.2 with saving := none } saving.key).2) (·.2.unserved)
  rw [unserved_notSaved] at hflat
  have hperm :=
    calc _ ~ (s.runs.eraseIdx i).flatMap (·.2.unserved) ++ (run.2.onItsWay ++ s.stray) :=
          hflat.append_right _
      _ ~ run.2.onItsWay ++ s.others i := perm_append_comm_assoc ..
  exact hperm.subperm.trans (run.2.onItsWay_sublist.append_right _).subperm

lemma finish (c : CommentClient K) :
    RoomInv { s.setClient client c with runs := s.runs.eraseIdx i } := by
  refine { h with once := fun id => (h.once_at hrun id).of_subperm ?_ }
  exact (sublist_append_right ..).subperm

end

variable [LinearOrder P] (h : RoomInv s) {t : StoredThread K}
include h

lemma written_of_read (ht : s.read client id = some t) :
    ∃ w ∈ (s.threads id).written, t ∈ w.value := by
  have hvalue : (s.threads id).value client = some (some t) := join_eq_some_iff.1 ht
  obtain ⟨w, hw, hvalue⟩ := map_eq_some_iff.1 hvalue
  exact ⟨w, (h.threads id).shared.received client w (latest_mem hw), hvalue⟩

lemma distinct_of_read (ht : s.read client id = some t) : (commentIds t.comments).Nodup := by
  obtain ⟨w, hw, htw⟩ := h.written_of_read ht
  exact (h.threads id).distinct w hw t htw

lemma put {stamp : P} {value : Option (StoredThread K)}
    (hfollows : (s.threads id).Follows client stamp)
    (hvalue : ∀ t ∈ value, (commentIds t.comments).Nodup) :
    RoomInv (s.put client id stamp value) := by
  refine h.setThread ⟨(h.threads id).shared.write hfollows, fun w hw => ?_⟩
  rcases mem_snoc.1 hw with hw | rfl
  · exact (h.threads id).distinct w hw
  · exact hvalue

lemma nextKey [DecidableEq K] {i : Nat} {run : Nat × PersistRun K}
    {next : CommentClient K × PersistRun K} (hrun : s.runs[i]? = some run)
    (hknown : ∀ key ∈ run.2.queue.head?, s.KnownAt run.1 key)
    (hnext : (s.clients run.1).nextKey (s.read run.1) run.2 = some next) :
    RoomInv (s.setRun i run.1 next) := by
  obtain ⟨key, rest, hsaving, hqueue, hnext⟩ := nextKey_eq_some hnext
  have hempty : run.2.unserved = [] := by rw [PersistRun.unserved, hsaving]; rfl
  have hothers : s.unserved ~ s.others i := by
    have hperm := CommentRoom.unserved_perm hrun
    rwa [hempty, nil_append] at hperm
  rcases hnext with ⟨-, rfl⟩ | ⟨saving, htoSave, rfl⟩
  · refine h.setRun hrun fun id => ?_
    have hunserved : PersistRun.unserved { run.2 with queue := rest } = [] := hempty
    rw [hunserved]
    exact (h.once id).of_subperm hothers.symm.subperm
  · -- what is sent anew is added to what the store has still to get
    have hsent (id : Nat) : StoredOnce s.store (saving.requests ++ s.unserved) id ∧
        saving.answer = none := by
      cases key with
      | deleted id' =>
        cases htoSave
        exact ⟨⟨(h.once id).distinct, (h.once id).first⟩, rfl⟩
      | thread id' =>
        obtain ⟨t, ht, -, rfl⟩ := toSave_thread htoSave
        have hknown : s.KnownAt run.1 (.thread id') := hknown _ (by rw [hqueue]; rfl)
        exact ⟨(h.once id).requests (h.distinct_of_read ht) (hknown t ht), rfl⟩
    refine h.setRun hrun fun id => ?_
    rw [unserved_resume (hsent id).2]
    exact (hsent id).1.of_subperm (hothers.symm.append_left _).subperm

variable {bytes : List K → Nat} {a : RoomEvent P K} {s' : CommentRoom P K}

lemma distinct_of_mutate {caller : Caller} {call : ThreadCall K}
    {t' : StoredThread K} (hfresh : s.FreshIn id call) (ht : s.read client id = some t)
    (ht' : t.mutate bytes caller call = some t') : (commentIds t'.comments).Nodup := by
  have hdistinct := h.distinct_of_read ht
  rcases commentIds_mutate ht' with hids | ⟨commentId, content, rfl, hids⟩
  · rwa [hids]
  · obtain ⟨w, hw, htw⟩ := h.written_of_read ht
    rw [hids, nodup_append']
    refine ⟨hdistinct, nodup_singleton _, fun x hx hnew => ?_⟩
    rw [mem_singleton.1 hnew] at hx
    exact hfresh w hw t htw hx

lemma reconcile {i : Nat} {stamp : P} {thread : CommentThread K}
    {existing : Option (StoredThread K)} {next : CommentClient K × StoredThread K}
    (hf : (client, id, thread) ∈ s.fetched) (hfollows : (s.threads id).Follows client stamp)
    (hnext : (s.clients client).insertThreadFromWire existing id thread = next) :
    RoomInv { (s.put client id stamp (some next.2)).setClient client next.1 with
      fetched := s.fetched.eraseIdx i } := by
  have hput : RoomInv (s.put client id stamp (some next.2)) := h.put hfollows fun t ht => by
    cases ht
    rw [← hnext, (insertThreadFromWire_keeps ..).1]
    exact h.fetched _ hf
  exact { hput with fetched := fun f hf => h.fetched f (mem_of_mem_eraseIdx hf) }

lemma step [DecidableEq K] (hok : SavesKnown s a) (hs : roomStep bytes s a = some s') :
    RoomInv s' := by
  cases a with
  | create client id caller anchor startRel endRel comment suggestion stamp =>
    obtain ⟨hnew, hs⟩ := ite_none_right_eq_some.1 hs
    obtain ⟨t, ht, rfl⟩ := map_eq_some_iff.1 hs
    have hnone (w) : w ∉ (s.threads id).written := hnew ▸ not_mem_nil
    have hfollows : (s.threads id).Follows client stamp :=
      ⟨fun w hw => absurd hw (hnone w), fun w hw =>
        absurd ((h.threads id).shared.received client w (latest_mem hw)) (hnone w)⟩
    refine (h.put hfollows fun t' ht' => ?_).setClient _
    cases ht'
    exact commentIds_createThread ht
  | call client id caller call stamp =>
    obtain ⟨⟨hfollows, hfresh⟩, hs⟩ := ite_none_right_eq_some.1 hs
    obtain ⟨t, ht, t', ht', rfl⟩ := bind_map_eq_some.1 hs
    refine (h.put hfollows fun t'' ht'' => ?_).setClient _
    cases ht''
    exact h.distinct_of_mutate hfresh ht ht'
  | delete client id stamp =>
    simp only [roomStep] at hs
    split at hs
    · cases hs
      exact h.setClient _
    · obtain ⟨hfollows, rfl⟩ := ite_some_none_eq_some.1 hs
      exact (h.put hfollows fun t ht => absurd ht (not_mem_none t)).setClient _
  | deliver client id w =>
    simp only [roomStep] at hs
    obtain ⟨hw, hs⟩ := ite_none_right_eq_some.1 hs
    have hnext : RoomInv (s.setThread id ((s.threads id).receive client w)) :=
      h.setThread ⟨(h.threads id).shared.receive hw, (h.threads id).distinct⟩
    split at hs
    · cases hs
      exact hnext
    · cases hs
      exact hnext.setClient _
  | startPersist client =>
    cases hs
    exact h.startPersist client
  | nextKey i =>
    obtain ⟨run, hrun, next, hnext, rfl⟩ := bind_map_eq_some.1 hs
    exact h.nextKey hrun (hok run hrun) hnext
  | serve i now =>
    obtain ⟨run, hrun, hs⟩ := bind_eq_some_iff.1 hs
    obtain ⟨saving, hsaving, next, hnext, rfl⟩ := bind_map_eq_some.1 hs
    exact h.serve hrun hsaving hnext
  | answer i =>
    obtain ⟨run, hrun, next, hnext, rfl⟩ := bind_map_eq_some.1 hs
    exact h.answer hrun hnext
  | lose i =>
    obtain ⟨run, hrun, next, hnext, rfl⟩ := bind_map_eq_some.1 hs
    exact h.lose hrun hnext
  | serveStray i now =>
    obtain ⟨r, hr, rfl⟩ := map_eq_some_iff.1 hs
    exact h.serveStray hr
  | finish i =>
    obtain ⟨run, hrun, c, -, rfl⟩ := bind_map_eq_some.1 hs
    exact h.finish hrun c
  | fetch client id =>
    obtain ⟨thread, hthread, rfl⟩ := map_eq_some_iff.1 hs
    refine { h with fetched := fun f hf => ?_ }
    rcases mem_snoc.1 hf with hf | rfl
    · exact h.fetched f hf
    · exact h.distinct_of_stored hthread
  | reconcile i stamp =>
    obtain ⟨⟨client, id, thread⟩, hf, hs⟩ := bind_eq_some_iff.1 hs
    obtain ⟨hfollows, rfl⟩ := ite_some_none_eq_some.1 hs
    exact h.reconcile (mem_of_getElem? hf) hfollows rfl
  | reconcileDeleted client id stamp =>
    simp only [roomStep] at hs
    split at hs
    · cases hs
      exact h
    · obtain ⟨hfollows, rfl⟩ := ite_some_none_eq_some.1 hs
      exact h.put hfollows fun t ht => absurd ht (not_mem_none t)

end RoomInv

variable [LinearOrder P]

/-- In every run in which persist runs come to a thread only when their client knows what of it has
been saved, no comment is twice in a thread of the store. -/
theorem stored_once_of_savesKnown [DecidableEq K] {bytes : List K → Nat} {s : CommentRoom P K}
    (hrun : Run (roomStep bytes) SavesKnown .initial s) {id : Nat} {thread : CommentThread K}
    (hthread : s.store id = some thread) : (commentIds thread.comments).Nodup := by
  have hinv := hrun.invariant (P := RoomInv) .initial fun _ _ _ h hok hs => h.step hok hs
  exact hinv.distinct_of_stored hthread

end

def sharedThread (replies : List Nat) : StoredThread Nat where
  anchor := ⟨0, 1, [0x61]⟩
  startRel := some .textEnd
  endRel := some .textEnd
  status := .opened
  suggestion := none
  comments := (10 :: replies).map fun id => { id, author := 1, content := [0x63], createdAt := 0 }
  reactions := []
  createdAt := 0

def createShared : RoomEvent Nat Nat :=
  .create 1 1 ⟨1, 0, none⟩ ⟨0, 1, [0x61]⟩ .textEnd .textEnd (some (10, [0x63])) none 0

def replyShared (client id stamp : Nat) : RoomEvent Nat Nat :=
  .call client 1 ⟨client, 0, none⟩ (.addReply id [0x63]) stamp

def persistAlone (client now : Nat) : List (RoomEvent Nat Nat) :=
  [.startPersist client, .nextKey 0, .serve 0 now, .answer 0, .finish 0]

/-- The first save is given up and comes through late; client 2 polls what client 1 has replied
before it saves a reply of its own. -/
theorem stored_once_twoClients : ∃ (s : CommentRoom Nat Nat) (thread : CommentThread Nat),
      Run (roomStep length) SavesKnown .initial s ∧ s.store 1 = some thread ∧
      commentIds thread.comments = [10, 11, 12] ∧ (commentIds thread.comments).Nodup := by
  have hrun : ∃ s ∈ exec (roomStep length) SavesKnown .initial
      ([createShared, .deliver 2 1 ⟨0, some (sharedThread [])⟩, .startPersist 1, .nextKey 0,
        .lose 0, .finish 0] ++ persistAlone 1 1 ++ [.serveStray 0 2] ++ persistAlone 2 3 ++
      [replyShared 1 11 1, .startPersist 1, .nextKey 0,
        .deliver 2 1 ⟨1, some (sharedThread [11])⟩, .serve 0 4, .fetch 2 1, .answer 0, .finish 0,
        .reconcile 0 2, replyShared 2 12 3] ++ persistAlone 2 5),
      ∃ thread ∈ s.store 1, commentIds thread.comments = [10, 11, 12] := by
    decide +kernel
  obtain ⟨s, hs, thread, hthread, hids⟩ := hrun
  exact ⟨s, thread, run_of_exec hs, hthread, hids,
    stored_once_of_savesKnown (run_of_exec hs) hthread⟩

/-- Two clients that have both saved the thread both send the reply that one of them makes. A client
that nobody shares the thread with sends its reply again when the answer is lost. -/
theorem reply_stored_twice : (∃ (s : CommentRoom Nat Nat) (thread : CommentThread Nat),
      Run (roomStep length) anyStep .initial s ∧ s.store 1 = some thread ∧
      commentIds thread.comments = [10, 11, 11]) ∧
    ∃ (s : CommentRoom Nat Nat) (thread : CommentThread Nat),
      Run (roomStep length) anyStep .initial s ∧ s.store 1 = some thread ∧
      s.read 2 1 = none ∧ commentIds thread.comments = [10, 11, 11] := by
  have hboth : ∃ s ∈ exec (roomStep length) anyStep .initial
      ([createShared, .deliver 2 1 ⟨0, some (sharedThread [])⟩] ++ persistAlone 1 1 ++
        persistAlone 2 2 ++ [replyShared 1 11 1, .deliver 2 1 ⟨1, some (sharedThread [11])⟩] ++
        persistAlone 1 3 ++ persistAlone 2 4),
      ∃ thread ∈ s.store 1, commentIds thread.comments = [10, 11, 11] := by
    decide +kernel
  have hretried : ∃ s ∈ exec (roomStep length) anyStep .initial
      ([createShared] ++ persistAlone 1 1 ++ [replyShared 1 11 1, .startPersist 1, .nextKey 0,
        .serve 0 2, .lose 0, .finish 0] ++ persistAlone 1 3),
      ∃ thread ∈ s.store 1, s.read 2 1 = none ∧ commentIds thread.comments = [10, 11, 11] := by
    decide +kernel
  obtain ⟨s, hs, thread, hthread, hids⟩ := hboth
  obtain ⟨s', hs', thread', hthread', hread, hids'⟩ := hretried
  exact ⟨⟨s, thread, run_of_exec hs, hthread, hids⟩,
    s', thread', run_of_exec hs', hthread', hread, hids'⟩

end CollabEditor.Frontend

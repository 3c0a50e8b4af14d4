import CollabEditor.Support.Replication
import CollabEditor.Relay.RoomText
import CollabEditor.Relay.StateStore
/-!
# Filling the doc of a new room

`NewRoom`, `BootstrapContent`, `BootstrapFromSnapshot` and `ApplyLogEntry` of
`internal/relay/room.go`, and `bootstrapRoom` of `server.go`.  What the calls return is the input,
and one that fails has changed nothing.  A snapshot is never empty, so `len(snapshot) > 0` asks
whether there is one.  The flag `dirty` is left out.
-/

namespace CollabEditor.Relay

open Support SharedText List

variable {K : Type}

inductive EngineError
  | unknownDoc
  | applyFailed
  | sidecarUnavailable

/-- Why the state store or the provider gave no answer: an error of its own, the load
timeout, or the connection of the client whose context the calls use. -/
inductive ReadError
  | failed
  | timeout
  | cancelled

def engineOpen (fault : Option EngineError) (doc : Option (Doc K)) :
    Except EngineError (Option (Doc K)) :=
  match fault with
  | some e => .error e
  | none => .ok (some (doc.getD (bootstrapContent [])))

/-- An engine call that changes the doc; the doc has to be open. -/
def onDoc (fault : Option EngineError) (doc : Option (Doc K)) (change : Doc K → Doc K) :
    Except EngineError (Option (Doc K)) :=
  match fault, doc with
  | some e, _ => .error e
  | none, none => .error .unknownDoc
  | none, some d => .ok (some (change d))

def orLogged (doc : Option (Doc K)) : Except EngineError (Option (Doc K)) → Option (Doc K)
  | .error _ => doc
  | .ok doc' => doc'

/-- What the calls that create a room return, in the order in which they may come. -/
structure CreationCalls (K : Type) where
  openFault : Option EngineError
  readSnapshot : Except ReadError (Option (List (Update K)) × Int)
  getTextFault : Option EngineError
  snapshotFault : Option EngineError
  readLogTail : Int → Except ReadError (List (Update K))
  entryFault : Nat → Option EngineError
  load : Except ReadError (Option (List K))
  textFault : Option EngineError

/-- The engine's part in `NewRoom`, on a document that is not open. -/
def newRoom (c : CreationCalls K) : Option (Doc K) := orLogged none (engineOpen c.openFault none)

/-- `ApplyLogEntry` on each entry of the log tail; `fault i` is the error of the `i`-th
call. -/
def replayLogTail (fault : Nat → Option EngineError) (doc : Option (Doc K)) :
    List (Update K) → Option (Doc K)
  | [] => doc
  | entry :: rest =>
    let applied := onDoc (fault 0) doc fun d => d.apply entry
    replayLogTail (fun i => fault (i + 1)) (orLogged doc applied) rest

section

variable [DecidableEq K]

def hasText (fault : Option EngineError) (doc : Option (Doc K)) : Bool :=
  match fault, doc with
  | none, some d => !d.visible.isEmpty
  | _, _ => false

/-- `BootstrapFromSnapshot`, which leaves a doc with text alone. -/
def bootstrapFromSnapshot (c : CreationCalls K) (doc : Option (Doc K))
    (snapshot : List (Update K)) : Except EngineError (Option (Doc K)) :=
  if hasText c.getTextFault doc then .ok doc
  else onDoc c.snapshotFault doc fun d => d.applyAll snapshot

/-- `BootstrapText` for a doc that the server has not keystroke in yet. -/
def bootstrapText (content : List K) (d : Doc K) : Doc K :=
  if d.visible = [] then { d with content } else d

/-- `BootstrapContent`, given what the provider returned: no response counts as no
text. -/
def bootstrapFromProvider (c : CreationCalls K) (doc : Option (Doc K))
    (resp : Option (List K)) : Option (Doc K) :=
  match resp.getD [] with
  | [] => doc
  | content => orLogged doc (onDoc c.textFault doc (bootstrapText content))

def bootstrapRoom (c : CreationCalls K) (doc : Option (Doc K)) : Option (Doc K) :=
  match c.readSnapshot with
  | .ok (some snapshot, snapOff) =>
    let doc := orLogged doc (bootstrapFromSnapshot c doc snapshot)
    match c.readLogTail snapOff with
    | .ok tail => replayLogTail c.entryFault doc tail
    | .error _ => doc
  | _ =>
    match c.load with
    | .error _ => doc
    | .ok resp => bootstrapFromProvider c doc resp

/-- The doc of a room once the bootstrap callback is through. -/
def createdDoc (c : CreationCalls K) : Option (Doc K) := bootstrapRoom c (newRoom c)

end

/-! ## A cold start on what the store holds -/

/-- A call of the store for one document. `WriteSnapshot` gets the encoded state of a
doc; an `AppendUpdate` without bytes returns at once and is left out. -/
inductive StoreCall (K : Type)
  | appendUpdate (u : Update K)
  | writeSnapshot (d : Doc K)

namespace StoreCall

def run (keys : StateKeys (Update K)) : StoreCall K → StateKeys (Update K)
  | appendUpdate u => keys.appendUpdate u
  | writeSnapshot d => keys.writeSnapshot [d.asUpdate] keys.readCounter

def appended : StoreCall K → Option (Update K)
  | appendUpdate u => some u
  | writeSnapshot _ => none

end StoreCall

/-- The keys after the calls of `history`, which go from the oldest to the latest. -/
def keysAfter (history : List (StoreCall K)) : StateKeys (Update K) :=
  history.foldl StoreCall.run .empty

def appendedIn (history : List (StoreCall K)) : List (Update K) :=
  history.filterMap StoreCall.appended

/-- Each snapshot encodes a doc that contains all updates appended before it. -/
def SnapshotsComplete (history : List (StoreCall K)) : Prop :=
  ∀ before d after, history = before ++ .writeSnapshot d :: after →
    ∀ u ∈ appendedIn before, d.Contains u

/-- The calls of a fresh pod that all succeed, with the keys as they are and the text of
the provider. -/
def coldStartCalls (keys : StateKeys (Update K)) (text : List K) : CreationCalls K where
  openFault := none
  readSnapshot := .ok keys.readSnapshot
  getTextFault := none
  snapshotFault := none
  readLogTail := fun snapOff => .ok (keys.readLogTail snapOff).1
  entryFault := fun _ => none
  load := .ok (some text)
  textFault := none

/-- The store after a history: every update is in the log or in the snapshot, and there
is a snapshot once one has been written. -/
structure HistoryInv (history : List (StoreCall K)) (keys : StateKeys (Update K)) : Prop where
  offset : keys.OffsetBehindTrim
  snapshot : keys.snapshot = none ↔ ∀ d, .writeSnapshot d ∉ history
  kept : ∀ u ∈ appendedIn history, u ∈ keys.log ∨
    ∃ d : Doc K, keys.snapshot = some [d.asUpdate] ∧ d.Contains u

lemma appendedIn_append (history more : List (StoreCall K)) :
    appendedIn (history ++ more) = appendedIn history ++ appendedIn more :=
  filterMap_append

lemma historyInv_nil : HistoryInv ([] : List (StoreCall K)) .empty where
  offset := StateKeys.offsetBehindTrim_empty
  snapshot := by simp [StateKeys.empty]
  kept := by simp [appendedIn]

variable {history : List (StoreCall K)} {keys : StateKeys (Update K)}

lemma HistoryInv.appendUpdate (h : HistoryInv history keys) (u : Update K) :
    HistoryInv (history ++ [.appendUpdate u]) (keys.appendUpdate u) where
  offset := h.offset.appendUpdate u
  snapshot := by
    rw [show (keys.appendUpdate u).snapshot = keys.snapshot from rfl, h.snapshot]
    simp
  kept v hv := by
    rw [appendedIn_append, mem_append] at hv
    rcases hv with hold | hnew
    · exact (h.kept v hold).imp_left (mem_append_left _)
    · exact .inl (mem_append_right _ hnew)

lemma HistoryInv.writeSnapshot (d : Doc K) (hd : ∀ u ∈ appendedIn history, d.Contains u) :
    HistoryInv (history ++ [.writeSnapshot d])
      (keys.writeSnapshot [d.asUpdate] keys.readCounter) where
  offset := StateKeys.OffsetBehindTrim.writeSnapshot _ (Nat.le_refl _)
  snapshot := by
    simp only [StateKeys.writeSnapshot, reduceCtorEq, false_iff, not_forall, not_not]
    exact ⟨d, mem_concat_self⟩
  kept u hu := by
    rw [appendedIn_append] at hu
    exact .inr ⟨d, rfl, hd u (by simpa [appendedIn, StoreCall.appended] using hu)⟩

lemma SnapshotsComplete.of_append {more : List (StoreCall K)}
    (h : SnapshotsComplete (history ++ more)) : SnapshotsComplete history := by
  intro before d after heq
  refine h before d (after ++ more) ?_
  rw [heq, append_assoc, cons_append]

lemma historyInv_keysAfter (h : SnapshotsComplete history) :
    HistoryInv history (keysAfter history) := by
  induction history using List.reverseRecOn with
  | nil => exact historyInv_nil
  | append_singleton history call ih =>
    rw [keysAfter, foldl_append]
    cases call with
    | appendUpdate u => exact (ih h.of_append).appendUpdate u
    | writeSnapshot d => exact .writeSnapshot d (h history d [] rfl)

lemma replayLogTail_no_fault (d : Doc K) (tail : List (Update K)) :
    replayLogTail (fun _ => none) (some d) tail = some (d.applyAll tail) := by
  induction tail generalizing d with
  | nil => rw [replayLogTail, Doc.applyAll_nil]
  | cons entry rest ih =>
    rw [d.applyAll_cons, ← ih]
    rfl

lemma coldStartCalls_readSnapshot {snap : Option (List (Update K))} (h : keys.snapshot = snap)
    {text : List K} :
    (coldStartCalls keys text).readSnapshot = .ok (snap, keys.readSnapshot.2) := by
  have hread : keys.readSnapshot = (snap, keys.readSnapshot.2) :=
    Prod.ext ((StateKeys.readSnapshot_fst keys).trans h) rfl
  exact congrArg Except.ok hread

lemma HistoryInv.contains_of_snapshot (h : HistoryInv history keys) {snap : List (Update K)}
    (hsnap : keys.snapshot = some snap) {u : Update K} (hu : u ∈ appendedIn history) :
    ((bootstrapContent []).applyAll
      (snap ++ (keys.readLogTail keys.readSnapshot.2).1)).Contains u := by
  rw [StateKeys.readSnapshot_tail_eq_log h.offset]
  rcases h.kept u hu with hlog | ⟨d, hd, hcontains⟩
  · exact Doc.contains_of_mem_updates (mem_append_right _ (mem_append_right _ hlog))
  · obtain rfl := Option.some.inj (hsnap.symm.trans hd)
    exact hcontains.of_asUpdate (mem_append_right _ mem_cons_self)

variable [DecidableEq K]

lemma createdDoc_coldStartCalls_some {snap : List (Update K)} (h : keys.snapshot = some snap)
    (text : List K) : createdDoc (coldStartCalls keys text) =
      some ((bootstrapContent []).applyAll (snap ++ (keys.readLogTail keys.readSnapshot.2).1)) := by
  rw [createdDoc, bootstrapRoom, coldStartCalls_readSnapshot h, Doc.applyAll_append,
    ← replayLogTail_no_fault]
  rfl

lemma createdDoc_coldStartCalls_none (h : keys.snapshot = none) (text : List K) :
    createdDoc (coldStartCalls keys text) = some (bootstrapContent text) := by
  rw [createdDoc, bootstrapRoom, coldStartCalls_readSnapshot h]
  cases text <;> rfl

def RebuildsLog (history : List (StoreCall K)) (text : List K) : Prop :=
  ∃ d ∈ createdDoc (coldStartCalls (keysAfter history) text), ∀ u ∈ appendedIn history, d.Contains u
  deriving Decidable

/-- A cold start rebuilds the log exactly when a snapshot has been written, or when the
appended updates add nothing to the text that the provider returns. -/
theorem rebuildsLog_iff {history : List (StoreCall K)} (h : SnapshotsComplete history)
    (text : List K) : RebuildsLog history text ↔ (∃ d, .writeSnapshot d ∈ history) ∨
        ∀ u ∈ appendedIn history, u.items ⊆ seed serverClientID text ∧ u.deletes = [] := by
  have hinv := historyInv_keysAfter h
  cases hsnap : (keysAfter history).snapshot with
  | some snap =>
    have hwritten : ∃ d, StoreCall.writeSnapshot d ∈ history := by
      by_contra hnot
      have hnone := hinv.snapshot.2 fun d hd => hnot ⟨d, hd⟩
      exact absurd (hsnap.symm.trans hnone) (Option.some_ne_none _)
    refine iff_of_true ⟨_, createdDoc_coldStartCalls_some hsnap text, ?_⟩ (.inl hwritten)
    exact fun u hu => hinv.contains_of_snapshot hsnap hu
  | none =>
    have hnever := hinv.snapshot.1 hsnap
    have hdoc := createdDoc_coldStartCalls_none hsnap text
    constructor
    · rintro ⟨d, hd, hall⟩
      obtain rfl := Option.mem_unique hdoc hd
      exact .inr fun u hu => (Doc.contains_iff_of_updates_eq_nil rfl u).1 (hall u hu)
    · rintro (⟨d, hd⟩ | hall)
      · exact absurd hd (hnever d)
      · exact ⟨_, hdoc, fun u hu =>
          (Doc.contains_iff_of_updates_eq_nil rfl u).2 (hall u hu)⟩

def keystroke (clock : Nat) (c : Char) : Update Char :=
  ⟨[⟨7, clock, match clock with | 0 => [] | k + 1 => [(7, k)], some c⟩], []⟩

def historyWithSnapshot : List (StoreCall Char) :=
  [.appendUpdate (keystroke 0 'a'), .writeSnapshot (.started serverClientID [keystroke 0 'a']),
    .appendUpdate (keystroke 1 'b')]

lemma snapshotsComplete_historyWithSnapshot : SnapshotsComplete historyWithSnapshot := by
  intro before d after heq u hu
  match before, heq with
  | [_], heq =>
    simp only [historyWithSnapshot, cons_append, nil_append, List.cons.injEq,
      StoreCall.writeSnapshot.injEq] at heq
    obtain ⟨rfl, rfl, -⟩ := heq
    obtain rfl : u = keystroke 0 'a' := by simpa [appendedIn, StoreCall.appended] using hu
    decide
  | [_, _, _], heq => simp [historyWithSnapshot] at heq

theorem rebuildsLog_historyWithSnapshot :
    SnapshotsComplete historyWithSnapshot ∧ RebuildsLog historyWithSnapshot [] :=
  ⟨snapshotsComplete_historyWithSnapshot,
    (rebuildsLog_iff snapshotsComplete_historyWithSnapshot []).2
      (.inl ⟨_, mem_cons_of_mem _ mem_cons_self⟩)⟩

/-- A pod that dies after the first append and before the first flush leaves a log that
the next pod does not read. -/
theorem log_without_snapshot_not_rebuilt :
    ¬ ∀ (history : List (StoreCall Char)) (text : List Char), SnapshotsComplete history →
      RebuildsLog history text := by
  intro hevery
  have hcomplete : SnapshotsComplete [.appendUpdate (keystroke 0 'a')] := by
    intro before d after heq
    rcases before with _ | ⟨_, _ | _⟩ <;> simp at heq
  have hnot : ¬ RebuildsLog [.appendUpdate (keystroke 0 'a')] [] := by decide
  exact hnot (hevery _ [] hcomplete)

end CollabEditor.Relay

import CollabEditor.Support.CausalOps
import CollabEditor.Relay.Room
/-!
# The sync protocol on op sets

A doc is the list of operations it has received, and a sync message carries a state vector or
operations.  The last section says when a room with a byte-level engine does what `readSyncMessage`
of y-protocols does.
-/

namespace CollabEditor.Relay

open Support.CausalOps SyncMsg Option

variable {χ : Type} [DecidableEq χ]

/-- Per client the clock up to which it is integrated; of several entries for a
client the largest counts. -/
abbrev StateVector := List (Nat × Nat)

def StateVector.covers (sv : StateVector) (o : Op χ) : Bool :=
  sv.any fun entry => decide (entry.1 = o.client ∧ o.clock < entry.2)

def stateVector (doc : List (Op χ)) : StateVector :=
  (integrate doc).map fun o => (o.client, o.clock + 1)

/-- The update that answers a state vector: what is integrated and not covered. -/
def missing (doc : List (Op χ)) (sv : StateVector) : List (Op χ) :=
  (integrate doc).filter fun o => !sv.covers o

inductive SyncBody (χ : Type)
  | syncStep1 (sv : StateVector)
  | syncStep2 (ops : List (Op χ))
  | update (ops : List (Op χ))

def SyncBody.ops : SyncBody χ → List (Op χ)
  | syncStep1 _ => []
  | syncStep2 ops => ops
  | update ops => ops

/-- `readSyncMessage` of y-protocols, and `ApplySyncMessage` of the engine: the doc
afterwards and the reply. -/
def readSyncMessage (doc : List (Op χ)) : SyncBody χ → List (Op χ) × Option (SyncBody χ)
  | .syncStep1 sv => (doc, some (.syncStep2 (missing doc sv)))
  | .syncStep2 ops => (doc ++ ops, none)
  | .update ops => (doc ++ ops, none)

variable {doc : List (Op χ)} {m : SyncBody χ}

lemma mem_readSyncMessage_fst {o : Op χ} :
    o ∈ (readSyncMessage doc m).1 ↔ o ∈ doc ∨ o ∈ m.ops := by
  cases m <;> simp [readSyncMessage, SyncBody.ops]

lemma reply_ops_subset {reply : SyncBody χ} (h : (readSyncMessage doc m).2 = some reply) :
    ∀ o ∈ reply.ops, o ∈ doc := by
  cases m with
  | syncStep1 sv =>
    cases h
    intro o ho
    exact (mem_integrate_iff.1 (List.mem_filter.1 ho).1).mem
  | syncStep2 ops => cases h
  | update ops => cases h

/-! ## Rooms at this level -/

structure PayloadCodec (χ : Type) where
  stateVector : List UInt8 → Option StateVector
  update : List UInt8 → Option (List (Op χ))

def PayloadCodec.body (codec : PayloadCodec χ) (bytes : List UInt8) : Option (SyncBody χ) :=
  match readSyncSubMessage bytes with
  | .value (t, payload) =>
    if t = msgSyncStep1 then (codec.stateVector payload).map .syncStep1
    else if t = msgSyncStep2 then (codec.update payload).map .syncStep2
    else if t = msgUpdate then (codec.update payload).map .update
    else none
  | _ => none

/-- The engine answers `bytes` on `doc` as `readSyncMessage` does, where `known` gives
the operations a doc of the engine has received. -/
structure Answers {D : Type} (engine : Engine D) (known : D → List (Op χ))
    (codec : PayloadCodec χ) (doc : D) (bytes : List UInt8) (m : SyncBody χ) (doc' : D)
    (reply : List UInt8) : Prop where
  body_eq : codec.body bytes = some m
  call_eq : ∃ t, engine.syncMessage doc bytes = (doc', .ok (t, reply))
  known_eq : known doc' = (readSyncMessage (known doc) m).1
  reply_eq : match (readSyncMessage (known doc) m).2 with
    | none => reply = []
    | some r => reply ≠ [] ∧ codec.body reply = some r

omit [DecidableEq χ] in
lemma PayloadCodec.body_eq_some {codec : PayloadCodec χ} {bytes : List UInt8}
    (h : codec.body bytes = some m) : ∃ t payload, readSyncSubMessage bytes = .value (t, payload) ∧
      (t = msgUpdate ↔ ∃ ops, m = .update ops) := by
  unfold PayloadCodec.body at h
  split at h
  · rename_i t payload hparse
    refine ⟨t, payload, hparse, ?_⟩
    split_ifs at h with h1 h2 h3
    · obtain ⟨sv, -, rfl⟩ := map_eq_some_iff.1 h
      simp [h1, msgSyncStep1, msgUpdate]
    · obtain ⟨ops, -, rfl⟩ := map_eq_some_iff.1 h
      simp [h2, msgSyncStep2, msgUpdate]
    · obtain ⟨ops, -, rfl⟩ := map_eq_some_iff.1 h
      simp [h3]
  · cases h

/-- A room whose engine answers so handles the frame as `readSyncMessage` handles the
message: the reply goes to the sender, an update to everybody else. -/
lemma Room.handleMessage_of_answers {D : Type} {engine : Engine D} {known : D → List (Op χ)}
    {codec : PayloadCodec χ} (r : Room D) (sender now : Nat) {bytes reply : List UInt8} {doc' : D}
    (h : Answers engine known codec r.doc bytes m doc' reply) :
    ∃ r', r.handleMessage engine sender now (msgTypeSync :: bytes) = some r' ∧
      known r'.doc = (readSyncMessage (known r.doc) m).1 ∧ r'.peers = match m with
        | .syncStep1 _ => (r.sendTo sender (msgTypeSync :: reply)).peers
        | .syncStep2 _ => r.peers
        | .update _ => (r.broadcast sender (msgTypeSync :: bytes)).peers := by
  obtain ⟨t, payload, hparse, htype⟩ := PayloadCodec.body_eq_some h.body_eq
  obtain ⟨engineType, hcall⟩ := h.call_eq
  have hlength : ¬ (msgTypeSync :: bytes).length < 2 := by
    cases bytes with
    | nil => cases hparse
    | cons b rest => simp
  have hreply := h.reply_eq
  rw [← h.known_eq]
  simp only [handleMessage, if_true, handleSyncMessage, syncSection, hlength, if_false,
    List.tail_cons, hparse, hcall, map_some, some.injEq, exists_eq_left',
    foldl_perform_doc, true_and]
  cases m with
  | syncStep1 sv =>
    have ht : t ≠ msgUpdate := fun hu => by simpa using htype.1 hu
    simp only [readSyncMessage] at hreply
    simp [ht, replyEffects, hreply.1, perform, sendTo]
  | syncStep2 ops =>
    have ht : t ≠ msgUpdate := fun hu => by simpa using htype.1 hu
    simp only [readSyncMessage] at hreply
    simp [ht, replyEffects, hreply]
  | update ops =>
    have ht : t = msgUpdate := htype.2 ⟨ops, rfl⟩
    simp only [readSyncMessage] at hreply
    simp [ht, replyEffects, hreply, foldl_updateEffects_peers, broadcast]

end CollabEditor.Relay

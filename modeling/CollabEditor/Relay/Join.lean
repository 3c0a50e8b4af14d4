import CollabEditor.Support.Execution
import CollabEditor.Relay.Room
import Mathlib.Data.List.Nodup
/-!
# A peer that joins while others edit

`HandleConnection` adds the peer to the room and starts its read loop.  A handler calls the engine
under `engMu` and broadcasts later under the room's lock, so handlers interleave in between.
-/

namespace CollabEditor.Relay

open Support.Execution SyncMsg Room List Function

/-- What the room relies on in its engine, in terms of the operations in a doc: an
applied update is in the doc, nothing leaves the doc, and the reply to a SyncStep1
contains every operation of the doc that the state vector lacks. -/
structure EngineOps {D : Type} (engine : Engine D) (ω : Type) where
  holds : D → ω → Prop
  inUpdate : List UInt8 → ω → Prop
  covered : List UInt8 → ω → Prop
  inReply : List UInt8 → ω → Prop
  applied : ∀ {d d' body payload t reply op},
    readSyncSubMessage body = .value (msgUpdate, payload) →
      engine.syncMessage d body = (d', .ok (t, reply)) → inUpdate body op → holds d' op
  kept : ∀ {d op} (body : List UInt8), holds d op → holds (engine.syncMessage d body).1 op
  answered : ∀ {d d' body payload t reply op},
    readSyncSubMessage body = .value (msgSyncStep1, payload) →
      engine.syncMessage d body = (d', .ok (t, reply)) → holds d op → ¬ covered body op →
        inReply reply op
  inReply_nil : ∀ op, ¬ inReply [] op

/-- A room with the handlers that are past their engine call, the frames each write loop has sent,
the Update frames of other peers that the engine has applied, and the body and reply of the joiner's
SyncStep1. -/
structure JoinState (D : Type) where
  room : Room D
  pending : Nat → List Effect
  written : Nat → List (List UInt8)
  applied : List (Nat × List UInt8)
  handshake : Option (List UInt8 × List UInt8)

def JoinState.initial {D : Type} (room : Room D) : JoinState D :=
  ⟨{ room with peers := [] }, fun _ => [], fun _ => [], [], none⟩

inductive JoinAction
  | addPeer (p : Nat)
  | removePeer (p : Nat)
  | receive (p : Nat) (frame : List UInt8)
  | perform (p : Nat) (now : Nat)
  | write (p : Nat)

variable {D : Type}

def accepted (engine : Engine D) (doc : D) (frame : List UInt8) :
    Option (UInt8 × List UInt8) :=
  match frame with
  | [] => none
  | b :: body =>
    if b = msgTypeSync then
      match readSyncSubMessage body, engine.syncMessage doc body with
      | .value (t, _), (_, .ok (_, reply)) => some (t, reply)
      | _, _ => none
    else none

/-- The frames of other peers that count as applied, after `p` has sent `frame`. -/
def recordApplied (engine : Engine D) (joiner : Nat) (s : JoinState D) (p : Nat)
    (frame : List UInt8) : List (Nat × List UInt8) :=
  match accepted engine s.room.doc frame with
  | some (t, _) => if t = msgUpdate ∧ p ≠ joiner then s.applied ++ [(p, frame)] else s.applied
  | none => s.applied

/-- The joiner's first SyncStep1, after `p` has sent `frame`. -/
def recordHandshake (engine : Engine D) (joiner : Nat) (s : JoinState D) (p : Nat)
    (frame : List UInt8) : Option (List UInt8 × List UInt8) :=
  match s.handshake, accepted engine s.room.doc frame with
  | none, some (t, reply) =>
    if t = msgSyncStep1 ∧ p = joiner then some (frame.tail, reply) else none
  | handshake, _ => handshake

/-- One step. A read loop takes the next frame when its last handler is done, and a
peer is removed after its read loop has ended; the joiner stays. -/
def joinStep (engine : Engine D) (joiner : Nat) (s : JoinState D) :
    JoinAction → Option (JoinState D)
  | .addPeer p =>
    if s.room.HasPeer p then none else some { s with room := s.room.addPeer p }
  | .removePeer p =>
    if p ≠ joiner ∧ s.pending p = [] then some { s with room := s.room.removePeer p }
    else none
  | .receive p frame =>
    if s.room.HasPeer p ∧ s.pending p = [] then
      (messageSection engine s.room frame).map fun (room, effects) =>
        { s with
          room
          pending := update s.pending p effects
          applied := recordApplied engine joiner s p frame
          handshake := recordHandshake engine joiner s p frame }
    else none
  | .perform p now =>
    match s.pending p with
    | [] => none
    | e :: rest =>
      some { s with
        room := Room.perform p now s.room e
        pending := update s.pending p rest }
  | .write p =>
    match s.room.peers.find? fun q => q.id = p with
    | some ⟨_, frame :: _⟩ =>
      some { s with
        room := s.room.writeNext p
        written := update s.written p (s.written p ++ [frame]) }
    | _ => none

def NoQueueFull (s : JoinState D) : JoinAction → Prop
  | .perform _ _ => s.room.QueuesHaveRoom
  | _ => True

instance (s : JoinState D) (a : JoinAction) : Decidable (NoQueueFull s a) := by
  unfold NoQueueFull
  split <;> infer_instance

def JoinState.Sent (s : JoinState D) (p : Nat) (frame : List UInt8) : Prop :=
  frame ∈ s.written p ∨ s.room.Queued p frame
  deriving Decidable

/-- Once the reply to the joiner's SyncStep1 is out, every update of another peer that
has been applied and broadcast is in the joiner's queue, or every operation of it that
the joiner's state vector lacks is in the reply. -/
def JoinerServed {engine : Engine D} {ω : Type} (ops : EngineOps engine ω) (joiner : Nat)
    (s : JoinState D) : Prop :=
  ∀ body reply, s.handshake = some (body, reply) →
    .reply (msgTypeSync :: reply) ∉ s.pending joiner →
      ∀ sent ∈ s.applied, .broadcast sent.2 ∉ s.pending sent.1 →
        s.Sent joiner sent.2 ∨
          ∀ op, ops.inUpdate sent.2.tail op → ¬ ops.covered body op →
            ops.inReply reply op ∧ s.Sent joiner (msgTypeSync :: reply)

/-! ## One handler -/

lemma messageSection_of_accepted {engine : Engine D} {r r' : Room D} {frame : List UInt8}
    {effects : List Effect} {t : UInt8} {reply : List UInt8}
    (h : messageSection engine r frame = some (r', effects))
    (hok : accepted engine r.doc frame = some (t, reply)) :
    ∃ payload et, readSyncSubMessage frame.tail = .value (t, payload) ∧
      engine.syncMessage r.doc frame.tail = (r'.doc, .ok (et, reply)) ∧
      effects = replyEffects reply ++
        if t = msgUpdate then updateEffects frame payload else [] := by
  unfold accepted at hok
  split at hok
  · cases hok
  · rename_i b body
    split at hok
    · rename_i hb
      subst hb
      split at hok
      · rename_i t' payload doc' et reply' hparse hcall
        obtain ⟨rfl, rfl⟩ := Prod.mk.inj (Option.some.inj hok)
        have hlength : ¬ (msgTypeSync :: body).length < 2 := by
          cases body with
          | nil => cases hparse
          | cons c rest => simp
        simp only [messageSection, if_true, syncSection, if_neg hlength, tail_cons,
          hparse, hcall, Option.some.injEq, Prod.mk.injEq] at h
        obtain ⟨rfl, rfl⟩ := h
        exact ⟨payload, et, hparse, hcall, rfl⟩
      · cases hok
    · cases hok

/-! ## The invariant -/

section

variable {engine : Engine D} {ω : Type} {ops : EngineOps engine ω} {joiner : Nat}
  {s t : JoinState D}

/-- Where the reply to the handshake and the updates of the other peers are. An update
applied before the handshake is in the reply as far as the joiner lacks it; one applied
later is broadcast after the joiner was added. -/
structure HandshakeInv (ops : EngineOps engine ω) (joiner : Nat) (s : JoinState D)
    (body reply : List UInt8) : Prop where
  joined : s.room.HasPeer joiner
  replied : reply = [] ∨ s.Sent joiner (msgTypeSync :: reply) ∨
    .reply (msgTypeSync :: reply) ∈ s.pending joiner
  updates : ∀ sent ∈ s.applied, s.Sent joiner sent.2 ∨ .broadcast sent.2 ∈ s.pending sent.1 ∨
    ∀ op, ops.inUpdate sent.2.tail op → ¬ ops.covered body op → ops.inReply reply op

structure JoinInv (ops : EngineOps engine ω) (joiner : Nat) (s : JoinState D) : Prop where
  unique : (s.room.peers.map Peer.id).Nodup
  others : ∀ sent ∈ s.applied, sent.1 ≠ joiner
  held : ∀ sent ∈ s.applied, ∀ op, ops.inUpdate sent.2.tail op → ops.holds s.room.doc op
  handshake : ∀ body reply, s.handshake = some (body, reply) →
    HandshakeInv ops joiner s body reply

lemma joinInv_initial (room : Room D) : JoinInv ops joiner (.initial room) where
  unique := nodup_nil
  others := by simp [JoinState.initial]
  held := by simp [JoinState.initial]
  handshake := by simp [JoinState.initial]

lemma JoinInv.setRoom (h : JoinInv ops joiner s) {room : Room D}
    {written : Nat → List (List UInt8)} (hunique : (room.peers.map Peer.id).Nodup)
    (hdoc : room.doc = s.room.doc) (hpeer : s.room.HasPeer joiner → room.HasPeer joiner)
    (hsent : ∀ frame, s.Sent joiner frame → JoinState.Sent { s with room, written } joiner frame) :
    JoinInv ops joiner { s with room, written } where
  unique := hunique
  others := h.others
  held := by
    rw [hdoc]
    exact h.held
  handshake := by
    intro body reply hshake
    have hold := h.handshake body reply hshake
    exact ⟨hpeer hold.joined, hold.replied.imp_right (Or.imp_left (hsent _)),
      fun sent hmem => (hold.updates sent hmem).imp_left (hsent _)⟩

variable {p : Nat} {frame : List UInt8}

section

variable (h : JoinInv ops joiner s)
include h

lemma JoinInv.addPeer (hnew : ¬ s.room.HasPeer p) :
    JoinInv ops joiner { s with room := s.room.addPeer p } := by
  refine h.setRoom ?_ rfl ?_ ?_
  · simp only [Room.addPeer, map_append, map_cons, map_nil]
    refine nodup_append.2 ⟨h.unique, by simp, ?_⟩
    rintro a ha b hb rfl
    obtain ⟨q, hq, rfl⟩ := mem_map.1 ha
    exact hnew ⟨q, hq, mem_singleton.1 hb⟩
  · rintro ⟨q, hq, hid⟩
    exact ⟨q, mem_append_left _ hq, hid⟩
  · rintro frame (hwritten | ⟨q, hq, hid⟩)
    · exact .inl hwritten
    · exact .inr ⟨q, mem_append_left _ hq, hid⟩

lemma JoinInv.removePeer (hne : p ≠ joiner) :
    JoinInv ops joiner { s with room := s.room.removePeer p } := by
  have hstays : ∀ q ∈ s.room.peers, q.id = joiner → q ∈ (s.room.removePeer p).peers := by
    intro q hq hid
    exact mem_filter.2 ⟨hq, by simp [hid, hne.symm]⟩
  refine h.setRoom ?_ rfl ?_ ?_
  · exact h.unique.sublist (List.Sublist.map _ filter_sublist)
  · rintro ⟨q, hq, hid⟩
    exact ⟨q, hstays q hq hid, hid⟩
  · rintro frame (hwritten | ⟨q, hq, hid, hframe⟩)
    · exact .inl hwritten
    · exact .inr ⟨q, hstays q hq hid, hid, hframe⟩

lemma JoinInv.write {q : Peer} {rest : List (List UInt8)} (hq : q ∈ s.room.peers) (hid : q.id = p)
    (hqueue : q.writeCh = frame :: rest) :
    JoinInv ops joiner { s with
      room := s.room.writeNext p
      written := update s.written p (s.written p ++ [frame]) } := by
  have hids : ∀ x : Peer,
      (if x.id = p then { x with writeCh := x.writeCh.tail } else x).id = x.id := by
    intro x
    split <;> rfl
  refine h.setRoom ?_ rfl ?_ ?_
  · simp only [Room.writeNext, map_map]
    have : Peer.id ∘ (fun x : Peer =>
        if x.id = p then { x with writeCh := x.writeCh.tail } else x) = Peer.id := by
      funext x
      exact hids x
    rw [this]
    exact h.unique
  · rintro ⟨x, hx, hxid⟩
    exact ⟨_, mem_map_of_mem hx, (hids x).trans hxid⟩
  · rintro f (hwritten | ⟨x, hx, hxid, hf⟩)
    · left
      by_cases hp : joiner = p
      · subst hp
        simp only [update_self]
        exact mem_append_left _ hwritten
      · simpa only [update_of_ne hp] using hwritten
    · by_cases hp : joiner = p
      · subst hp
        obtain rfl := inj_on_of_nodup_map h.unique hx hq (hxid.trans hid.symm)
        rw [hqueue] at hf
        rcases mem_cons.1 hf with rfl | hrest
        · left
          simp only [update_self]
          exact mem_concat_self
        · right
          refine ⟨_, mem_map_of_mem hx, (hids x).trans hxid, ?_⟩
          rw [if_pos hxid]
          simpa only [hqueue, tail_cons] using hrest
      · right
        refine ⟨_, mem_map_of_mem hx, (hids x).trans hxid, ?_⟩
        rwa [if_neg (fun hx' => hp (hxid.symm.trans hx'))]

lemma JoinInv.perform (hroom : s.room.QueuesHaveRoom) {now : Nat} {e : Effect}
    {rest : List Effect} (hpending : s.pending p = e :: rest) :
    JoinInv ops joiner { s with
      room := Room.perform p now s.room e
      pending := update s.pending p rest } := by
  have hids : (Room.perform p now s.room e).peers.map Peer.id = s.room.peers.map Peer.id :=
    Room.perform_peers_id p now s.room e
  have hdoc : (Room.perform p now s.room e).doc = s.room.doc :=
    Room.foldl_perform_doc p now [e] s.room
  refine ⟨hids ▸ h.unique, h.others, by simp only [hdoc]; exact h.held, ?_⟩
  intro body reply hshake
  have hold := h.handshake body reply hshake
  -- an effect that was waiting is still waiting, or it is the one performed now
  have hwait : ∀ q e', e' ∈ s.pending q →
      e' ∈ update s.pending p rest q ∨ (q = p ∧ e' = e) := by
    intro q e' he'
    by_cases hq : q = p
    · subst hq
      rw [hpending] at he'
      rw [update_self]
      rcases mem_cons.1 he' with rfl | hrest
      · exact .inr ⟨rfl, rfl⟩
      · exact .inl hrest
    · exact .inl (by rwa [update_of_ne hq])
  have hsent : ∀ frame, s.Sent joiner frame →
      JoinState.Sent { s with room := Room.perform p now s.room e,
                              pending := update s.pending p rest } joiner frame :=
    fun frame hs => hs.imp_right fun hq => hq.perform p now e
  refine ⟨hold.joined.perform p now e, ?_, ?_⟩
  · rcases hold.replied with hnil | hdone | hpend
    · exact .inl hnil
    · exact .inr (.inl (hsent _ hdone))
    · rcases hwait joiner _ hpend with hstill | ⟨rfl, rfl⟩
      · exact .inr (.inr hstill)
      · exact .inr (.inl (.inr (Room.queued_sendTo hold.joined hroom _)))
  · intro sent hmem
    rcases hold.updates sent hmem with hdone | hpend | hreply
    · exact .inl (hsent _ hdone)
    · rcases hwait sent.1 _ hpend with hstill | ⟨rfl, rfl⟩
      · exact .inr (.inl hstill)
      · exact .inl (.inr (Room.queued_broadcast hold.joined hroom (h.others sent hmem).symm _))
    · exact .inr (.inr hreply)

end

lemma mem_recordApplied {sent : Nat × List UInt8}
    (h : sent ∈ recordApplied engine joiner s p frame) :
    sent ∈ s.applied ∨ sent = (p, frame) ∧ p ≠ joiner ∧
      ∃ reply, accepted engine s.room.doc frame = some (msgUpdate, reply) := by
  unfold recordApplied at h
  split at h
  · rename_i t reply hacc
    split at h
    · rename_i hnew
      rcases mem_append.1 h with hold | hsent
      · exact .inl hold
      · exact .inr ⟨mem_singleton.1 hsent, hnew.2, reply, by rw [hacc, hnew.1]⟩
    · exact .inl h
  · exact .inl h

lemma recordHandshake_eq_some {body reply : List UInt8}
    (h : recordHandshake engine joiner s p frame = some (body, reply)) :
    s.handshake = some (body, reply) ∨ p = joiner ∧ body = frame.tail ∧
        accepted engine s.room.doc frame = some (msgSyncStep1, reply) := by
  unfold recordHandshake at h
  split at h
  · rename_i t reply' hacc
    obtain ⟨hnew, h⟩ := Option.ite_none_right_eq_some.1 h
    obtain ⟨rfl, rfl⟩ := Prod.mk.inj (Option.some.inj h)
    exact .inr ⟨hnew.2, rfl, by rw [hacc, hnew.1]⟩
  · exact .inl h

section

variable (h : JoinInv ops joiner s)
include h

/-- A frame is received: an update is in the doc from now on and waits to be
broadcast; the reply to the handshake has everything applied so far. -/
lemma JoinInv.receive {room : Room D} {effects : List Effect} (hpeer : s.room.HasPeer p)
    (hidle : s.pending p = [])
    (hsection : messageSection engine s.room frame = some (room, effects)) :
    JoinInv ops joiner { s with
      room
      pending := update s.pending p effects
      applied := recordApplied engine joiner s p frame
      handshake := recordHandshake engine joiner s p frame } := by
  obtain ⟨hpeers, -, hdoc⟩ := messageSection_room hsection
  have hheld : ∀ op, ops.holds s.room.doc op → ops.holds room.doc op := by
    intro op hop
    rcases hdoc with hsame | hcall
    · rwa [hsame]
    · rw [hcall]
      exact ops.kept _ hop
  have hwait : ∀ q e, e ∈ s.pending q → e ∈ update s.pending p effects q := by
    intro q e he
    by_cases hq : q = p
    · rw [hq, hidle] at he
      cases he
    · rwa [update_of_ne hq]
  have hsent : ∀ f, s.Sent joiner f → f ∈ s.written joiner ∨ room.Queued joiner f := by
    intro f hf
    rwa [Room.Queued, hpeers]
  have hpeer' : ∀ q, s.room.HasPeer q → room.HasPeer q := by
    intro q hq
    rwa [Room.HasPeer, hpeers]
  refine ⟨by rw [hpeers]; exact h.unique, ?_, ?_, ?_⟩
  · intro sent hmem
    rcases mem_recordApplied hmem with hold | ⟨rfl, hne, -⟩
    · exact h.others sent hold
    · exact hne
  · intro sent hmem op hop
    rcases mem_recordApplied hmem with hold | ⟨rfl, -, reply, hacc⟩
    · exact hheld op (h.held sent hold op hop)
    · obtain ⟨payload, et, hparse, hcall, -⟩ := messageSection_of_accepted hsection hacc
      exact ops.applied hparse hcall hop
  · intro body reply hshake
    rcases recordHandshake_eq_some hshake with hold | ⟨rfl, rfl, hacc⟩
    · have hinv := h.handshake body reply hold
      refine ⟨hpeer' _ hinv.joined, ?_, ?_⟩
      · exact hinv.replied.imp_right (Or.imp (hsent _) (hwait joiner _))
      · intro sent hmem
        rcases mem_recordApplied hmem with hprev | ⟨rfl, -, reply', hacc⟩
        · exact (hinv.updates sent hprev).imp (hsent _) (Or.imp_left (hwait sent.1 _))
        · -- applied after the handshake: the broadcast is still to come
          obtain ⟨payload, et, -, -, rfl⟩ := messageSection_of_accepted hsection hacc
          exact .inr (.inl (by simp [updateEffects]))
    · obtain ⟨payload, et, hparse, hcall, rfl⟩ := messageSection_of_accepted hsection hacc
      refine ⟨hpeer' _ hpeer, ?_, ?_⟩
      · by_cases hnil : reply = []
        · exact .inl hnil
        · exact .inr (.inr (by simp [replyEffects, hnil]))
      · intro sent hmem
        rcases mem_recordApplied hmem with hprev | ⟨-, hne, -⟩
        · exact .inr (.inr fun op hop hlacks =>
            ops.answered hparse hcall (h.held sent hprev op hop) hlacks)
        · exact absurd rfl hne

lemma joinInv_step {a : JoinAction} (hok : NoQueueFull s a)
    (hs : joinStep engine joiner s a = some t) : JoinInv ops joiner t := by
  cases a with
  | addPeer p =>
    obtain ⟨hnew, ⟨⟩⟩ := Option.ite_none_left_eq_some.1 hs
    exact h.addPeer hnew
  | removePeer p =>
    obtain ⟨hleaves, rfl⟩ := Option.ite_some_none_eq_some.1 hs
    exact h.removePeer hleaves.1
  | receive p frame =>
    obtain ⟨hready, hs⟩ := Option.ite_none_right_eq_some.1 hs
    obtain ⟨⟨room, effects⟩, hsection, rfl⟩ := Option.map_eq_some_iff.1 hs
    exact h.receive hready.1 hready.2 hsection
  | perform p now =>
    simp only [joinStep] at hs
    split at hs <;> cases hs
    rename_i e rest hpending
    exact h.perform hok hpending
  | write p =>
    simp only [joinStep] at hs
    split at hs <;> cases hs
    rename_i id frame rest hfind
    have hid := find?_some hfind
    exact h.write (mem_of_find?_eq_some hfind) (by simpa using hid) rfl

lemma JoinInv.joinerServed : JoinerServed ops joiner s := by
  intro body reply hshake hreplied sent hmem hbroadcast
  have hinv := h.handshake body reply hshake
  rcases hinv.updates sent hmem with hsent | hpend | hreply
  · exact .inl hsent
  · exact absurd hpend hbroadcast
  · refine .inr fun op hop hlacks => ⟨hreply op hop hlacks, ?_⟩
    rcases hinv.replied with rfl | hdone | hpend
    · exact absurd (hreply op hop hlacks) (ops.inReply_nil op)
    · exact hdone
    · exact absurd hpend hreplied

end

/-- A joiner misses nothing it lacks, in every interleaving of the handlers of any number
of peers. -/
theorem joiner_served_of_noQueueFull (ops : EngineOps engine ω) (joiner : Nat) (room : Room D)
    {s : JoinState D} (hrun : Run (joinStep engine joiner) NoQueueFull (.initial room) s) :
    JoinerServed ops joiner s :=
  (hrun.invariant (joinInv_initial room)
    (fun _ _ _ h hok hs => joinInv_step h hok hs)).joinerServed

end

/-- An engine on stored update payloads. It answers the empty state vector with what
it has stored, and any other with the empty update. -/
def storedUpdates : Engine (List (List UInt8)) where
  syncMessage d body :=
    match readSyncSubMessage body with
    | .value (t, payload) =>
      if t = msgSyncStep1 then
        let update := if payload = [0] then d.flatten else [0, 0]
        (d, .ok (t, msgSyncStep2 :: UInt8.ofNat update.length :: update))
      else (d ++ [payload], .ok (t, []))
    | _ => (d, .error "invalid sync message")

def storedUpdatesOps : EngineOps storedUpdates (List UInt8) where
  holds d p := p ∈ d
  inUpdate body p := readSyncSubMessage body = .value (msgUpdate, p)
  covered body _ := readSyncSubMessage body ≠ .value (msgSyncStep1, [0])
  inReply reply p := reply ≠ [] ∧ p <:+: reply
  applied := by
    intro d d' body payload t reply op hparse hcall hop
    rw [hparse] at hop
    simp only [storedUpdates, hparse, show msgUpdate ≠ msgSyncStep1 by decide, if_false,
      Prod.mk.injEq] at hcall
    rw [← hcall.1]
    obtain ⟨-, rfl⟩ := Prod.mk.inj (Outcome.value.inj hop)
    exact mem_append_right _ mem_cons_self
  kept := by
    intro d op body hop
    simp only [storedUpdates]
    split
    · split
      · exact hop
      · exact mem_append_left _ hop
    · exact hop
  answered := by
    intro d d' body payload t reply op hparse hcall hop hlacks
    have hzero := not_not.1 hlacks
    simp only [storedUpdates, hzero, if_true, Prod.mk.injEq, Except.ok.injEq] at hcall
    obtain ⟨-, -, rfl⟩ := hcall
    refine ⟨by simp, ?_⟩
    exact (infix_of_mem_flatten hop).trans (suffix_append [_, _] d.flatten).isInfix
  inReply_nil := fun op h => h.1 rfl

def emptyRoom : Room (List (List UInt8)) := ⟨[], [], false, .new, false, 1024, []⟩

def insertFrame : List UInt8 :=
  [0, 2, 16, 1, 1, 5, 0, 4, 1, 6, 115, 111, 117, 114, 99, 101, 1, 97, 0]

def joinDuringUpdate : List JoinAction :=
  [.addPeer 1, .receive 1 insertFrame, .addPeer 2, .receive 2 [0, 0, 1, 0], .perform 2 0,
    .perform 1 0, .perform 1 0, .perform 1 0, .write 2]

theorem joiner_served_joinDuringUpdate :
    ∃ s, exec (joinStep storedUpdates 2) NoQueueFull (.initial emptyRoom) joinDuringUpdate =
        some s ∧ s.applied = [(1, insertFrame)] ∧ s.Sent 2 insertFrame ∧
          JoinerServed storedUpdatesOps 2 s :=
  exec_imp (P := fun s => s.applied = [(1, insertFrame)] ∧ s.Sent 2 insertFrame) (by decide +kernel)
    fun _ hrun ⟨happlied, hsent⟩ =>
      ⟨happlied, hsent, joiner_served_of_noQueueFull storedUpdatesOps 2 emptyRoom hrun⟩

def rejoinAfterUpdate : List JoinAction :=
  [.addPeer 1, .receive 1 insertFrame, .perform 1 0, .perform 1 0, .perform 1 0, .addPeer 2,
    .receive 2 [0, 0, 3, 1, 5, 1], .perform 2 0]

/-- The reply leaves out what the joiner has, so the update is neither in it nor in the
joiner's queue. -/
theorem covered_update_not_queued :
    ¬ ∀ s, Run (joinStep storedUpdates 2) NoQueueFull (.initial emptyRoom) s →
      ∀ body reply, s.handshake = some (body, reply) → .reply (msgTypeSync :: reply) ∉ s.pending 2 →
          ∀ sent ∈ s.applied, .broadcast sent.2 ∉ s.pending sent.1 →
            s.Sent 2 sent.2 ∨ s.Sent 2 (msgTypeSync :: reply) ∧
              ∀ op, storedUpdatesOps.inUpdate sent.2.tail op →
                storedUpdatesOps.inReply reply op := by
  intro hevery
  have hrun : ∃ s ∈ exec (joinStep storedUpdates 2) NoQueueFull (.initial emptyRoom)
      rejoinAfterUpdate, s.handshake = some ([0, 3, 1, 5, 1], [1, 2, 0, 0]) ∧
        s.pending 1 = [] ∧ s.pending 2 = [] ∧ s.applied = [(1, insertFrame)] ∧
          ¬ s.Sent 2 insertFrame := by
    decide +kernel
  obtain ⟨s, hs, hshake, hidle, hreplied, happlied, hnot⟩ := hrun
  have hqueued := hevery s (run_of_exec hs) _ _ hshake (by simp [hreplied]) (1, insertFrame)
    (by simp [happlied]) (by simp [hidle])
  rcases hqueued with hsent | ⟨-, hreply⟩
  · exact hnot hsent
  · have hparse : readSyncSubMessage insertFrame.tail =
        .value (msgUpdate, insertFrame.drop 3) := by decide +kernel
    exact absurd (hreply _ hparse).2 (by decide +kernel)

end CollabEditor.Relay

import CollabEditor.Support.Execution
import CollabEditor.Relay.RoomText
/-!
# The stream of frames to a peer

`Peer.Send` and `writeLoop` of `internal/relay/peer.go`, under `Broadcast` and `BroadcastAll` of
`room.go`.  Broadcasts, replies and write loops interleave; peers are added and removed only while
no broadcast is under way.  `Send` drops the frame when the queue is full.
-/

namespace CollabEditor.Relay

open Support Execution List

/-- A peer with the frames given to `Send` since it was added and those its write loop has
taken from the queue. `writing` says that the write loop has not returned. -/
structure PeerStream extends Peer where
  sent : List (List UInt8)
  taken : List (List UInt8)
  closed : Bool
  writing : Bool

namespace PeerStream

def added (id : Nat) : PeerStream := ⟨⟨id, []⟩, [], [], false, true⟩

def send (data : List UInt8) (p : PeerStream) : PeerStream :=
  { p with toPeer := p.toPeer.send data, sent := p.sent ++ [data] }

def close (p : PeerStream) : PeerStream := { p with closed := true }

def stop (p : PeerStream) : PeerStream := { p with writing := false }

/-- One round of `writeLoop`. It may be taken after `Close`, since `select` chooses among the
channels that are ready. -/
def writeNext (p : PeerStream) : PeerStream :=
  match p.writing, p.writeCh with
  | true, frame :: rest => { p with writeCh := rest, taken := p.taken ++ [frame] }
  | _, _ => p

end PeerStream

/-- A broadcast under way: the peers still to come, in any order as with every Go map. -/
structure Broadcasting where
  data : List UInt8
  remaining : List Nat

structure Streams where
  peers : List PeerStream
  broadcasting : List Broadcasting

inductive StreamStep
  | addPeer (id : Nat)
  | removePeer (id : Nat)
  /-- `Broadcast`, or `BroadcastAll` if there is no sender -/
  | beginBroadcast (sender : Option Nat) (data : List UInt8)
  /-- the `k`-th of the broadcasts under way comes to a peer -/
  | sendNext (k id : Nat)
  | endBroadcast (k : Nat)
  | reply (id : Nat) (framed : List UInt8)
  | writeNext (id : Nat)
  | stopWriting (id : Nat)
  | close (id : Nat)

namespace Streams

def initial : Streams := ⟨[], []⟩

def update (s : Streams) (id : Nat) (f : PeerStream → PeerStream) : Streams :=
  { s with peers := s.peers.map fun p => if p.id = id then f p else p }

def step (s : Streams) : StreamStep → Option Streams
  | .addPeer id =>
    if s.broadcasting = [] ∧ id ∉ s.peers.map (·.id) then
      some { s with peers := s.peers ++ [.added id] }
    else none
  | .removePeer id =>
    if s.broadcasting = [] then some { s with peers := s.peers.filter (·.id ≠ id) } else none
  | .beginBroadcast sender data =>
    let targets := (s.peers.map (·.id)).filter (some · ≠ sender)
    some { s with broadcasting := s.broadcasting ++ [⟨data, targets⟩] }
  | .sendNext k id =>
    match s.broadcasting[k]? with
    | some b =>
      if id ∈ b.remaining then
        let broadcasting := s.broadcasting.set k { b with remaining := b.remaining.erase id }
        some { s.update id (.send b.data) with broadcasting }
      else none
    | none => none
  | .endBroadcast k =>
    match s.broadcasting[k]? with
    | some b =>
      if b.remaining = [] then some { s with broadcasting := s.broadcasting.eraseIdx k }
      else none
    | none => none
  | .reply id framed => some (s.update id (.send framed))
  | .writeNext id => some (s.update id .writeNext)
  | .stopWriting id => some (s.update id .stop)
  | .close id => some (s.update id .close)

/-! ## One broadcast after the other -/

/-- The peers as the handlers of a room see them. -/
def room {D : Type} (r : Room D) (s : Streams) : Room D :=
  { r with peers := s.peers.map (·.toPeer) }

def sendAll (s : Streams) (data : List UInt8) (ids : List Nat) : Streams :=
  ids.foldl (fun s id => s.update id (.send data)) s

/-- A broadcast goes to what remains of its peers in any order, once each. -/
lemma exec_sendNext (s : Streams) (rest : List Broadcasting) (data : List UInt8)
    {ids remaining : List Nat} (hids : ids.Perm remaining) :
    exec step anyStep { s with broadcasting := rest ++ [⟨data, remaining⟩] }
        (ids.map (.sendNext rest.length)) =
      some { s.sendAll data ids with broadcasting := rest ++ [⟨data, []⟩] } := by
  induction ids generalizing s remaining with
  | nil =>
    obtain rfl := hids.nil_eq
    rfl
  | cons id ids ih =>
    have hid : id ∈ remaining := hids.subset mem_cons_self
    have hrest : ids.Perm (remaining.erase id) := by simpa using hids.erase id
    simpa [exec, anyStep, step, update, hid, sendAll] using ih (s.update id (.send data)) hrest

lemma sendAll_peers (s : Streams) (data : List UInt8) {ids : List Nat} (hids : ids.Nodup) :
    (s.sendAll data ids).peers = s.peers.map fun p => if p.id ∈ ids then p.send data else p := by
  induction ids generalizing s with
  | nil => simp [sendAll]
  | cons id ids ih =>
    obtain ⟨hid, hids⟩ := nodup_cons.1 hids
    have hrest := ih (s.update id (.send data)) hids
    rw [sendAll] at hrest ⊢
    rw [foldl_cons, hrest, update, map_map]
    refine map_congr_left fun p _ => ?_
    by_cases hp : p.id = id
    · -- this one has had its turn and does not come again
      simp [PeerStream.send, hp, hid]
    · simp [hp]

/-- A broadcast that nothing interrupts does what the room's `Broadcast` does, in whatever order it
goes to the peers. -/
theorem exec_broadcast {D : Type} (r : Room D) (s : Streams) (hs : (s.peers.map (·.id)).Nodup)
    (sender : Nat) (data : List UInt8) (ids : List Nat)
    (hids : ids.Perm ((s.peers.map (·.id)).filter (some · ≠ some sender))) :
    ∃ t, exec step anyStep s (.beginBroadcast (some sender) data ::
        (ids.map (.sendNext s.broadcasting.length) ++ [.endBroadcast s.broadcasting.length])) =
          some t ∧
      t.room r = (s.room r).broadcast sender data ∧ t.broadcasting = s.broadcasting := by
  refine ⟨{ s.sendAll data ids with broadcasting := s.broadcasting }, ?_, ?_, rfl⟩
  · simp only [exec, anyStep, step, Option.bind_some]
    rw [exec_append, exec_sendNext s s.broadcasting data hids]
    simp [exec, anyStep, step, eraseIdx_append_of_length_le]
  · have hnodup : ids.Nodup := hids.nodup_iff.2 (hs.filter _)
    simp only [room, Room.broadcast, s.sendAll_peers data hnodup, map_map]
    congr 1
    refine map_congr_left fun p hp => ?_
    have hmem : p.id ∈ ids ↔ p.id ≠ sender := by
      rw [hids.mem_iff, mem_filter, and_iff_right (mem_map_of_mem hp)]
      simp
    simp only [Function.comp_apply, hmem]
    by_cases hsender : p.id = sender <;> simp [hsender, PeerStream.send]

theorem exec_broadcast_to_others :
    ∃ t, exec step anyStep ⟨[.added 0, .added 1, .added 2], []⟩
        [.beginBroadcast (some 1) [7], .sendNext 0 2, .sendNext 0 0, .endBroadcast 0] = some t ∧
      (t.room ⟨[], (), false, .new, false, 0, []⟩).peers = [⟨0, [[7]]⟩, ⟨1, []⟩, ⟨2, [[7]]⟩] := by
  obtain ⟨t, hexec, hroom, -⟩ := exec_broadcast ⟨[], (), false, .new, false, 0, []⟩
    ⟨[.added 0, .added 1, .added 2], []⟩ (by decide) 1 [7] [2, 0] (by decide)
  exact ⟨t, hexec, hroom ▸ rfl⟩

end Streams

/-! ## Holes -/

def StreamStep.recipient : StreamStep → Option Nat
  | .sendNext _ id => some id
  | .reply id _ => some id
  | _ => none

/-- Whenever `Send` is called on a peer that is not closed and whose write loop runs, its queue
has a free slot. -/
def SendsFit (s : Streams) (a : StreamStep) : Prop :=
  ∀ id ∈ a.recipient, ∀ p ∈ s.peers, p.id = id →
    p.closed = true ∨ p.writing = false ∨ p.writeCh.length < writeChCap
  deriving Decidable

/-- What has been taken from the queue of a peer is a first part of what was sent to it, unless
the peer is closed. -/
def NoHoles (s : Streams) : Prop :=
  ∀ p ∈ s.peers, p.closed = false → p.taken <+: p.sent
  deriving Decidable

/-- Each peer of the next state was just added, or is a peer of this one after at most one call
or one round of its write loop. -/
lemma Streams.mem_peers_step {s t : Streams} {a : StreamStep} {q : PeerStream}
    (h : s.step a = some t) (hq : q ∈ t.peers) :
    (∃ id, q = .added id) ∨ ∃ p ∈ s.peers, q = p ∨ q = p.writeNext ∨ q = p.stop ∨ q = p.close ∨
      a.recipient = some p.id ∧ ∃ data, q = p.send data := by
  have hupdate {id : Nat} {f : PeerStream → PeerStream} (hq : q ∈ (s.update id f).peers) :
      ∃ p ∈ s.peers, q = p ∨ p.id = id ∧ q = f p := by
    obtain ⟨p, hp, rfl⟩ := mem_map.1 hq
    refine ⟨p, hp, ?_⟩
    split
    · exact .inr ⟨‹_›, rfl⟩
    · exact .inl rfl
  cases a with
  | addPeer id =>
    obtain ⟨-, ⟨⟩⟩ := Option.ite_none_right_eq_some.1 h
    rcases mem_append.1 hq with hold | hnew
    · exact .inr ⟨q, hold, .inl rfl⟩
    · exact .inl ⟨id, mem_singleton.1 hnew⟩
  | removePeer id =>
    obtain ⟨-, ⟨⟩⟩ := Option.ite_none_right_eq_some.1 h
    exact .inr ⟨q, mem_of_mem_filter hq, .inl rfl⟩
  | beginBroadcast sender data =>
    cases h
    exact .inr ⟨q, hq, .inl rfl⟩
  | sendNext k id =>
    simp only [step] at h
    split at h
    · obtain ⟨-, ⟨⟩⟩ := Option.ite_none_right_eq_some.1 h
      obtain ⟨p, hp, rfl | ⟨rfl, rfl⟩⟩ := hupdate hq
      · exact .inr ⟨q, hp, .inl rfl⟩
      · exact .inr ⟨p, hp, .inr (.inr (.inr (.inr ⟨rfl, _, rfl⟩)))⟩
    · cases h
  | endBroadcast k =>
    simp only [step] at h
    split at h
    · obtain ⟨-, ⟨⟩⟩ := Option.ite_none_right_eq_some.1 h
      exact .inr ⟨q, hq, .inl rfl⟩
    · cases h
  | reply id framed =>
    cases h
    obtain ⟨p, hp, rfl | ⟨rfl, rfl⟩⟩ := hupdate hq
    · exact .inr ⟨q, hp, .inl rfl⟩
    · exact .inr ⟨p, hp, .inr (.inr (.inr (.inr ⟨rfl, _, rfl⟩)))⟩
  | writeNext id | stopWriting id | close id =>
    cases h
    obtain ⟨p, hp, heq⟩ := hupdate hq
    refine .inr ⟨p, hp, ?_⟩
    rcases heq with rfl | ⟨-, rfl⟩ <;> simp

namespace PeerStream

/-- All that was sent has been taken or is in the queue, as long as that can matter: a write loop
that has returned takes nothing more. -/
def Intact (p : PeerStream) : Prop :=
  p.closed = true ∨ p.writing = false ∧ p.taken <+: p.sent ∨ p.taken ++ p.writeCh = p.sent

variable {p : PeerStream} (h : p.Intact)
include h

lemma Intact.taken_prefix_sent (hopen : p.closed = false) : p.taken <+: p.sent := by
  rcases h with hclosed | ⟨-, hpre⟩ | hall
  · rw [hopen] at hclosed
    cases hclosed
  · exact hpre
  · exact ⟨p.writeCh, hall⟩

lemma Intact.send (data : List UInt8)
    (hfit : p.closed = true ∨ p.writing = false ∨ p.writeCh.length < writeChCap) :
    (p.send data).Intact := by
  by_cases hclosed : p.closed = true
  · exact .inl hclosed
  have hpre : p.taken <+: p.sent := h.taken_prefix_sent (by simpa using hclosed)
  have hpre' : p.taken <+: p.sent ++ [data] := hpre.trans (prefix_append _ _)
  rcases h with habs | ⟨hwriting, -⟩ | hall
  · exact absurd habs hclosed
  · exact .inr (.inl ⟨hwriting, hpre'⟩)
  · rcases hfit with habs | hwriting | hfree
    · exact absurd habs hclosed
    · exact .inr (.inl ⟨hwriting, hpre'⟩)
    · refine .inr (.inr ?_)
      simp only [PeerStream.send, Peer.send, if_pos hfree, ← hall, append_assoc]

lemma Intact.writeNext : p.writeNext.Intact := by
  unfold PeerStream.writeNext
  split
  · rename_i frame rest hwriting hqueue
    rcases h with hclosed | ⟨hstopped, -⟩ | hall
    · exact .inl hclosed
    · rw [hwriting] at hstopped
      cases hstopped
    · refine .inr (.inr ?_)
      rw [hqueue] at hall
      simpa using hall
  · exact h

lemma Intact.stop : p.stop.Intact := by
  by_cases hclosed : p.closed = true
  · exact .inl hclosed
  · exact .inr (.inl ⟨rfl, h.taken_prefix_sent (by simpa using hclosed)⟩)

end PeerStream

lemma Streams.intact_step {s t : Streams} {a : StreamStep} (h : ∀ p ∈ s.peers, p.Intact)
    (hok : SendsFit s a) (hs : s.step a = some t) : ∀ q ∈ t.peers, q.Intact := by
  intro q hq
  obtain ⟨id, rfl⟩ | ⟨p, hp, heq⟩ := mem_peers_step hs hq
  · exact .inr (.inr rfl)
  have hold := h p hp
  rcases heq with rfl | rfl | rfl | rfl | ⟨hrecipient, data, rfl⟩
  · exact hold
  · exact hold.writeNext
  · exact hold.stop
  · exact .inl rfl
  · exact hold.send data (hok p.id hrecipient p hp rfl)

/-- In every run in which no `Send` finds a full queue, no peer's stream has a hole. -/
theorem noHoles_of_sendsFit {s : Streams} (hrun : Run Streams.step SendsFit .initial s) :
    NoHoles s := by
  have hintact : ∀ p ∈ s.peers, p.Intact := by
    refine hrun.invariant (P := fun s => ∀ p ∈ s.peers, p.Intact) ?_
      fun _ _ _ h hok hs => Streams.intact_step h hok hs
    intro p hp
    cases hp
  exact fun p hp hopen => (hintact p hp).taken_prefix_sent hopen

/-- The second of two peers sends an Update, which the first one's write loop takes from the queue;
then a frame goes to both. -/
theorem noHoles_two_peers : ∃ s, Run Streams.step SendsFit .initial s ∧ NoHoles s ∧
    ∃ p ∈ s.peers, p.taken = [updateFrame typeA] ∧
      p.sent = [updateFrame typeA, updateFrame typeAB] :=
  exists_run_imp
    [.addPeer 0, .addPeer 1,
      .beginBroadcast (some 1) (updateFrame typeA), .sendNext 0 0, .endBroadcast 0, .writeNext 0,
      .beginBroadcast none (updateFrame typeAB), .sendNext 0 1, .sendNext 0 0, .endBroadcast 0]
    (by decide +kernel) fun _ hrun hp => ⟨noHoles_of_sendsFit hrun, hp⟩

def fullQueueRun : List StreamStep :=
  [.addPeer 0, .addPeer 1] ++ List.replicate writeChCap (.reply 0 [0, 1, 0]) ++
    [.beginBroadcast (some 1) (updateFrame typeA), .sendNext 0 0, .endBroadcast 0] ++
    List.replicate writeChCap (.writeNext 0) ++
    [.beginBroadcast (some 1) (updateFrame typeAB), .sendNext 0 0, .endBroadcast 0, .writeNext 0]

/-- A peer that is connected all the time, and whose queue has been drained, has never been
given an Update that was sent to it before one that it has got. -/
theorem update_dropped : ∃ s, Run Streams.step anyStep .initial s ∧ ¬ NoHoles s ∧
    ∃ p ∈ s.peers, p.closed = false ∧ p.writing = true ∧ p.writeCh = [] ∧
      updateFrame typeA ∈ p.sent ∧ updateFrame typeA ∉ p.taken ∧ updateFrame typeAB ∈ p.taken :=
  exists_run fullQueueRun (by decide +kernel)

/-! ## Full queues -/

/-- What was taken and what is in the queue was sent in this order, and the queue is bounded. -/
structure PeerStream.InOrder (p : PeerStream) : Prop where
  sublist : p.taken ++ p.writeCh <+ p.sent
  bounded : p.writeCh.length ≤ writeChCap

lemma Streams.inOrder_step {s t : Streams} {a : StreamStep} (h : ∀ p ∈ s.peers, p.InOrder)
    (hs : s.step a = some t) : ∀ q ∈ t.peers, q.InOrder := by
  intro q hq
  obtain ⟨id, rfl⟩ | ⟨p, hp, heq⟩ := mem_peers_step hs hq
  · exact ⟨.refl [], Nat.zero_le _⟩
  have hold := h p hp
  rcases heq with rfl | rfl | rfl | rfl | ⟨-, data, rfl⟩
  · exact hold
  · unfold PeerStream.writeNext
    split
    · rename_i hqueue
      have hlen := hold.bounded
      rw [hqueue, length_cons] at hlen
      exact ⟨by simpa [hqueue] using hold.sublist, Nat.le_of_succ_le hlen⟩
    · exact hold
  · exact { hold with }
  · exact { hold with }
  · by_cases hfree : p.writeCh.length < writeChCap
    · simp only [PeerStream.send, Peer.send, if_pos hfree]
      exact ⟨by simpa using hold.sublist.append (.refl [data]), by simp; omega⟩
    · simp only [PeerStream.send, Peer.send, if_neg hfree]
      exact ⟨hold.sublist.trans (sublist_append_left ..), hold.bounded⟩

/-- Whatever full queues make `Send` drop, the frames taken for a peer are some of those sent to
it, in their order and none twice, and no more than `writeChCap` wait for it. -/
theorem frames_taken_in_order {s : Streams} (hrun : Run Streams.step anyStep .initial s) :
    ∀ p ∈ s.peers, p.taken <+ p.sent ∧ p.writeCh.length ≤ writeChCap := by
  have horder : ∀ p ∈ s.peers, p.InOrder :=
    hrun.invariant (P := fun s => ∀ p ∈ s.peers, p.InOrder) (by simp [Streams.initial])
      fun _ _ _ h _ hs => Streams.inOrder_step h hs
  intro p hp
  exact ⟨(sublist_append_left ..).trans (horder p hp).sublist, (horder p hp).bounded⟩

theorem frames_taken_after_drop : ∃ s, Run Streams.step anyStep .initial s ∧
    (∃ p ∈ s.peers, updateFrame typeA ∈ p.sent ∧ updateFrame typeA ∉ p.taken) ∧
      ∀ p ∈ s.peers, p.taken <+ p.sent ∧ p.writeCh.length ≤ writeChCap :=
  exists_run_and fullQueueRun (by decide +kernel) fun _ hrun => frames_taken_in_order hrun

end CollabEditor.Relay

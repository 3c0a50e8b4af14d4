import CollabEditor.Support.Execution
import CollabEditor.Relay.SyncProtocol
/-!
# The Socket.io provider and the relay

`frontend/src/collab/socketio-provider.ts` against a room of the relay, which never asks for the
client's state.  Messages in flight when the connection drops are lost.  Awareness messages are left
out.
-/

namespace CollabEditor.Frontend

open Support.CausalOps Support.Execution CollabEditor.Relay List Option

variable {χ : Type}

structure SocketIOProvider (χ : Type) where
  doc : List (Op χ)
  wsconnected : Bool
  synced : Bool

namespace SocketIOProvider

/-- `_updateHandler` for a change that did not come from the provider: the message to
send, if any. -/
def updateHandler (p : SocketIOProvider χ) (ops : List (Op χ)) : List (SyncBody χ) :=
  if p.wsconnected then [.update ops] else []

def onConnect [DecidableEq χ] (p : SocketIOProvider χ) : SocketIOProvider χ × List (SyncBody χ) :=
  ({ p with wsconnected := true }, [.syncStep1 (stateVector p.doc)])

def onDisconnect (p : SocketIOProvider χ) : SocketIOProvider χ :=
  { p with wsconnected := false, synced := false }

def handleMessage [DecidableEq χ] (p : SocketIOProvider χ) (m : SyncBody χ) :
    SocketIOProvider χ × List (SyncBody χ) :=
  let (doc, reply) := readSyncMessage p.doc m
  let synced :=
    match m with
    | .update _ => true
    | _ => p.synced
  ({ p with doc, synced }, reply.toList)

@[simp] lemma handleMessage_doc [DecidableEq χ] (p : SocketIOProvider χ) (m : SyncBody χ) :
    (p.handleMessage m).1.doc = (readSyncMessage p.doc m).1 := rfl

end SocketIOProvider

structure SessionState (χ : Type) where
  client : SocketIOProvider χ
  server : List (Op χ)
  toServer : List (SyncBody χ)
  toClient : List (SyncBody χ)

def SessionState.initial (server : List (Op χ)) : SessionState χ :=
  ⟨⟨[], false, false⟩, server, [], []⟩

inductive SessionAction (χ : Type)
  | edit (ops : List (Op χ))
  | connect
  | disconnect
  | serverReceive
  | clientReceive
  | peerUpdate (ops : List (Op χ))

/-- One event. The operations of a local transaction take effect on the client at
once; another peer's update is applied by the room and broadcast to the client. -/
def sessionStep [DecidableEq χ] (s : SessionState χ) : SessionAction χ → Option (SessionState χ)
  | .edit ops =>
    if ∀ o ∈ ops, Integrated (s.client.doc ++ ops) o then
      some { s with
        client := { s.client with doc := s.client.doc ++ ops }
        toServer := s.toServer ++ s.client.updateHandler ops }
    else none
  | .connect =>
    if s.client.wsconnected then none
    else
      some { s with
        client := s.client.onConnect.1
        toServer := s.client.onConnect.2
        toClient := [] }
  | .disconnect =>
    if s.client.wsconnected then
      some { s with client := s.client.onDisconnect, toServer := [], toClient := [] }
    else none
  | .serverReceive =>
    match s.toServer with
    | [] => none
    | m :: rest =>
      some { s with
        server := (readSyncMessage s.server m).1
        toServer := rest
        toClient := s.toClient ++ (readSyncMessage s.server m).2.toList }
  | .clientReceive =>
    match s.toClient with
    | [] => none
    | m :: rest =>
      some { s with
        client := (s.client.handleMessage m).1
        toServer := s.toServer ++ (s.client.handleMessage m).2
        toClient := rest }
  | .peerUpdate ops =>
    some { s with
      server := s.server ++ ops
      toClient := s.toClient ++ if s.client.wsconnected then [.update ops] else [] }

/-- Connected and at rest, the room has integrated whatever the client has. -/
def EditsReachServer (s : SessionState χ) : Prop :=
  s.client.wsconnected = true → s.toServer = [] → s.toClient = [] →
    ∀ o, Integrated s.client.doc o → Integrated s.server o

/-- Local edits are made while connected, and the connection does not drop while an
operation that the room lacks is on its way to it. -/
def EditsOnline (s : SessionState χ) : SessionAction χ → Prop
  | .edit _ => s.client.wsconnected = true
  | .disconnect => ∀ m ∈ s.toServer, ∀ o ∈ m.ops, o ∈ s.server
  | _ => True

instance [DecidableEq χ] (s : SessionState χ) (a : SessionAction χ) :
    Decidable (EditsOnline s a) := by
  cases a <;> unfold EditsOnline <;> infer_instance

/-! ## What reaches the room -/

/-- The invariant: what the client has received or made is in the room or on its way
there, what is on its way to the client is in the room, and nothing is in flight
without a connection. -/
structure SessionInv (s : SessionState χ) : Prop where
  client : ∀ o ∈ s.client.doc, o ∈ s.server ∨ ∃ m ∈ s.toServer, o ∈ m.ops
  toClient : ∀ m ∈ s.toClient, ∀ o ∈ m.ops, o ∈ s.server
  down : s.client.wsconnected = false → s.toServer = [] ∧ s.toClient = []

lemma sessionInv_initial (server : List (Op χ)) : SessionInv (.initial server) where
  client := by simp [SessionState.initial]
  toClient := by simp [SessionState.initial]
  down := by simp [SessionState.initial]

variable {s t : SessionState χ} {a : SessionAction χ}

section

variable (h : SessionInv s)
include h

lemma sessionInv_edit {ops : List (Op χ)} (hconnected : s.client.wsconnected = true) :
    SessionInv { s with
      client := { s.client with doc := s.client.doc ++ ops }
      toServer := s.toServer ++ s.client.updateHandler ops } where
  client := by
    intro o ho
    rw [SocketIOProvider.updateHandler, if_pos hconnected]
    rcases mem_append.1 ho with hold | hnew
    · refine (h.client o hold).imp_right ?_
      rintro ⟨m, hm, hom⟩
      exact ⟨m, mem_append_left _ hm, hom⟩
    · exact .inr ⟨.update ops, mem_concat_self, hnew⟩
  toClient := h.toClient
  down := by simp [hconnected]

lemma sessionInv_reset {client : SocketIOProvider χ} {toServer : List (SyncBody χ)}
    (hdoc : client.doc = s.client.doc) (hlost : ∀ m ∈ s.toServer, ∀ o ∈ m.ops, o ∈ s.server)
    (hdown : client.wsconnected = false → toServer = []) :
    SessionInv { s with client, toServer, toClient := [] } where
  client := by
    intro o ho
    rw [hdoc] at ho
    rcases h.client o ho with hserver | ⟨m, hm, hom⟩
    · exact .inl hserver
    · exact .inl (hlost m hm o hom)
  toClient := by simp
  down := fun hclosed => ⟨hdown hclosed, rfl⟩

lemma sessionInv_serverReceive [DecidableEq χ] {m : SyncBody χ} {rest : List (SyncBody χ)}
    (hqueue : s.toServer = m :: rest) :
    SessionInv { s with
      server := (readSyncMessage s.server m).1
      toServer := rest
      toClient := s.toClient ++ (readSyncMessage s.server m).2.toList } where
  client := by
    intro o ho
    rw [mem_readSyncMessage_fst]
    rcases h.client o ho with hserver | ⟨m', hm', hom⟩
    · exact .inl (.inl hserver)
    · rw [hqueue] at hm'
      rcases mem_cons.1 hm' with rfl | hrest
      · exact .inl (.inr hom)
      · exact .inr ⟨m', hrest, hom⟩
  toClient := by
    intro m' hm' o ho
    rw [mem_readSyncMessage_fst]
    rcases mem_append.1 hm' with hold | hreply
    · exact .inl (h.toClient m' hold o ho)
    · exact .inl (reply_ops_subset (mem_toList.1 hreply) o ho)
  down := by
    intro hclosed
    have := (h.down hclosed).1
    rw [hqueue] at this
    cases this

lemma sessionInv_clientReceive [DecidableEq χ] {m : SyncBody χ} {rest : List (SyncBody χ)}
    (hqueue : s.toClient = m :: rest) :
    SessionInv { s with
      client := (s.client.handleMessage m).1
      toServer := s.toServer ++ (s.client.handleMessage m).2
      toClient := rest } where
  client := by
    intro o ho
    rw [SocketIOProvider.handleMessage_doc, mem_readSyncMessage_fst] at ho
    rcases ho with hold | hnew
    · refine (h.client o hold).imp_right ?_
      rintro ⟨m', hm', hom⟩
      exact ⟨m', mem_append_left _ hm', hom⟩
    · exact .inl (h.toClient m (hqueue ▸ mem_cons_self) o hnew)
  toClient := fun m' hm' => h.toClient m' (hqueue ▸ mem_cons_of_mem _ hm')
  down := by
    intro hclosed
    have := (h.down hclosed).2
    rw [hqueue] at this
    cases this

lemma sessionInv_peerUpdate (ops : List (Op χ)) :
    SessionInv { s with
      server := s.server ++ ops
      toClient := s.toClient ++ if s.client.wsconnected then [.update ops] else [] } where
  client := fun o ho => (h.client o ho).imp_left (mem_append_left _)
  toClient := by
    intro m hm o ho
    rcases mem_append.1 hm with hold | hnew
    · exact mem_append_left _ (h.toClient m hold o ho)
    · split at hnew
      · obtain rfl := mem_singleton.1 hnew
        exact mem_append_right _ ho
      · cases hnew
  down := by
    intro hclosed
    replace hclosed : s.client.wsconnected = false := hclosed
    simpa [hclosed] using h.down hclosed

lemma sessionInv_step [DecidableEq χ] (hok : EditsOnline s a) (hs : sessionStep s a = some t) :
    SessionInv t := by
  cases a with
  | edit ops =>
    obtain ⟨-, rfl⟩ := ite_some_none_eq_some.1 hs
    exact sessionInv_edit h hok
  | connect =>
    obtain ⟨hclosed, ⟨⟩⟩ := ite_none_left_eq_some.1 hs
    refine sessionInv_reset h rfl ?_ (by simp [SocketIOProvider.onConnect])
    rw [(h.down (by simpa using hclosed)).1]
    simp
  | disconnect =>
    obtain ⟨-, rfl⟩ := ite_some_none_eq_some.1 hs
    exact sessionInv_reset h rfl hok (fun _ => rfl)
  | serverReceive =>
    simp only [sessionStep] at hs
    split at hs <;> cases hs
    rename_i m rest hqueue
    exact sessionInv_serverReceive h hqueue
  | clientReceive =>
    simp only [sessionStep] at hs
    split at hs <;> cases hs
    rename_i m rest hqueue
    exact sessionInv_clientReceive h hqueue
  | peerUpdate ops =>
    cases hs
    exact sessionInv_peerUpdate h ops

lemma SessionInv.editsReachServer : EditsReachServer s := by
  intro _ hempty _ o ho
  refine ho.mono ?_
  intro p hp
  rcases h.client p hp with hserver | ⟨m, hm, -⟩
  · exact hserver
  · rw [hempty] at hm
    cases hm

end

/-- Everything the client has reaches the room in every history of connects,
disconnects and deliveries in which edits are made online and none is cut off on its
way. -/
theorem edits_reach_server_of_editsOnline [DecidableEq χ] {server : List (Op χ)}
    {s : SessionState χ} (hrun : Run sessionStep EditsOnline (.initial server) s) :
    EditsReachServer s :=
  (hrun.invariant (sessionInv_initial server)
    (fun _ _ _ h hok hs => sessionInv_step h hok hs)).editsReachServer

def onlineSession : List (SessionAction Char) :=
  [.connect, .serverReceive, .clientReceive, .edit [⟨7, 0, [(1, 0)], 'b'⟩], .serverReceive,
    .disconnect, .connect, .serverReceive, .clientReceive]

theorem edits_reach_server_onlineSession :
    ∃ s, exec sessionStep EditsOnline (.initial [⟨1, 0, [], 'a'⟩]) onlineSession = some s ∧
      s.client.doc = [⟨1, 0, [], 'a'⟩, ⟨7, 0, [(1, 0)], 'b'⟩] ∧ EditsReachServer s :=
  exec_and (by decide +kernel) fun _ hrun => edits_reach_server_of_editsOnline hrun

def offlineSession : List (SessionAction Char) :=
  [.edit [⟨7, 0, [], 'a'⟩], .connect, .serverReceive, .clientReceive,
    .edit [⟨7, 1, [(7, 0)], 'b'⟩], .serverReceive]

/-- The handshake asks the client for nothing, so the first character never reaches
the room, and the second stays pending there. -/
theorem offline_edit_never_reaches_server : ¬ ∀ (server : List (Op Char)) (s : SessionState Char),
      Run sessionStep anyStep (.initial server) s → EditsReachServer s := by
  intro hevery
  have hrun : ∃ s ∈ exec sessionStep anyStep (.initial []) offlineSession,
      s.client.wsconnected = true ∧ s.toServer = [] ∧ s.toClient = [] ∧
        s.server = [⟨7, 1, [(7, 0)], 'b'⟩] ∧ Integrated s.client.doc ⟨7, 0, [], 'a'⟩ := by
    decide +kernel
  obtain ⟨s, hs, hconnected, hup, hdown, hserver, hclient⟩ := hrun
  have hreached := hevery [] s (run_of_exec hs) hconnected hup hdown _ hclient
  rw [hserver] at hreached
  exact absurd hreached (by decide +kernel)

end CollabEditor.Frontend

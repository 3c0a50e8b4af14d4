import CollabEditor.Support.Execution
/-!
# The flag that says the document is there

`socketio-provider.ts`: the handlers of the socket's events, in any sequence.  The decoder, the docs
and the awareness states are those of any library; a function that gives nothing throws.
-/

namespace CollabEditor.Frontend.SyncedFlag

open Support Execution Option

variable {D A : Type}

structure Library (D A : Type) where
  readVarUint : List UInt8 → Option (Nat × List UInt8)
  readVarUint8Array : List UInt8 → Option (List UInt8)
  applyUpdate : D → List UInt8 → Option D
  encodeStateVector : D → List UInt8
  encodeStateAsUpdate : D → List UInt8 → Option (List UInt8)
  applyAwarenessUpdate : A → List UInt8 → Option A
  encodeAwarenessUpdate : A → Option (List UInt8)
  removeRemoteStates : A → A

def messageSync : Nat := 0

def messageAwareness : Nat := 1

def messageYjsSyncStep1 : Nat := 0

def messageYjsSyncStep2 : Nat := 1

def messageYjsUpdate : Nat := 2

inductive Status
  | connected
  | disconnected
  deriving DecidableEq

inductive Emitted
  | status (status : Status)
  | synced
  deriving DecidableEq

inductive Sent
  | syncStep1 (stateVector : List UInt8)
  | syncStep2 (update : List UInt8)
  | awareness (update : List UInt8)

structure Provider (D A : Type) where
  doc : D
  awareness : A
  wsconnected : Bool
  synced : Bool
  sent : List Sent

section

variable (lib : Library D A)

def applied (doc : D) (rest : List UInt8) : Option D :=
  (lib.readVarUint8Array rest).bind (lib.applyUpdate doc)

def readSyncMessage (doc : D) (bytes : List UInt8) : Option (Nat × D × Option (List UInt8)) :=
  (lib.readVarUint bytes).bind fun (messageType, rest) =>
    if messageType = messageYjsSyncStep1 then
      (lib.readVarUint8Array rest).bind fun stateVector =>
        (lib.encodeStateAsUpdate doc stateVector).map fun update => (messageType, doc, some update)
    else if messageType = messageYjsSyncStep2 ∨ messageType = messageYjsUpdate then
      some (messageType, (applied lib doc rest).getD doc, none)
    else none

namespace Provider

def onConnect (p : Provider D A) : Provider D A × List Emitted :=
  ({ p with
      wsconnected := true
      sent := p.sent ++ .syncStep1 (lib.encodeStateVector p.doc) ::
        (lib.encodeAwarenessUpdate p.awareness).toList.map .awareness },
    [.status .connected])

def onDisconnect (p : Provider D A) : Provider D A × List Emitted :=
  ({ p with
      wsconnected := false
      synced := false
      awareness := lib.removeRemoteStates p.awareness },
    [.status .disconnected])

def onConnectError (p : Provider D A) : Provider D A × List Emitted :=
  ({ p with wsconnected := false }, [.status .disconnected])

/-- The method of the provider, apart from what the socket makes of it. -/
def disconnect (p : Provider D A) : Provider D A × List Emitted :=
  ({ p with wsconnected := false, synced := false }, [])

def handleMessage (p : Provider D A) (data : List UInt8) : Provider D A × List Emitted :=
  match lib.readVarUint data with
  | none => (p, [])
  | some (messageType, rest) =>
    if messageType = messageSync then
      match readSyncMessage lib p.doc rest with
      | none => (p, [])
      | some (syncMessageType, doc, reply) =>
        let p := { p with doc := doc, sent := p.sent ++ reply.toList.map .syncStep2 }
        if syncMessageType = 2 ∧ p.synced = false then ({ p with synced := true }, [.synced])
        else (p, [])
    else if messageType = messageAwareness then
      ({ p with awareness := ((lib.readVarUint8Array rest).bind
          (lib.applyAwarenessUpdate p.awareness)).getD p.awareness }, [])
    else (p, [])

end Provider

def syncMessage (data : List UInt8) : Option (Nat × List UInt8) :=
  (lib.readVarUint data).bind fun (messageType, rest) =>
    if messageType = messageSync then lib.readVarUint rest else none

def appliesSyncStep2 (doc : D) (data : List UInt8) : Bool :=
  (syncMessage lib data).any fun (messageType, rest) =>
    messageType == messageYjsSyncStep2 && (applied lib doc rest).isSome

def isUpdate (data : List UInt8) : Bool :=
  (syncMessage lib data).any fun (messageType, _) => messageType == messageYjsUpdate

end

/-- The provider, whether a SyncStep2 has been applied since the connection was made, and how many
times `synced` has been fired since. No handler reads the last two. -/
structure Watched (D A : Type) where
  provider : Provider D A
  caughtUp : Bool
  syncedEvents : Nat

inductive SocketEvent
  | connect
  | disconnect
  | connectError
  | callDisconnect
  | message (data : List UInt8)

section

variable (lib : Library D A)

def Watched.new (doc : D) (awareness : A) : Watched D A :=
  ⟨⟨doc, awareness, false, false, []⟩, false, 0⟩

def step (s : Watched D A) : SocketEvent → Option (Watched D A)
  | .connect => some ⟨(s.provider.onConnect lib).1, false, 0⟩
  | .disconnect => some ⟨(s.provider.onDisconnect lib).1, false, 0⟩
  | .connectError => some { s with provider := s.provider.onConnectError.1 }
  | .callDisconnect => some ⟨s.provider.disconnect.1, false, 0⟩
  | .message data =>
    let (provider, emitted) := s.provider.handleMessage lib data
    some {
      provider
      caughtUp := s.caughtUp || appliesSyncStep2 lib s.provider.doc data
      syncedEvents := s.syncedEvents + emitted.count .synced }

/-- The flag is set exactly if a SyncStep2 has been applied, and `synced` has then been fired
once. -/
structure Truthful (s : Watched D A) : Prop where
  flag : s.provider.synced = s.caughtUp
  fired : s.syncedEvents = if s.caughtUp then 1 else 0

def BringsNothing (s : Watched D A) : SocketEvent → Prop
  | .message data => isUpdate lib data = false ∧ appliesSyncStep2 lib s.provider.doc data = false
  | _ => True

instance (s : Watched D A) (a : SocketEvent) : Decidable (BringsNothing lib s a) := by
  rcases a with ⟨⟩ <;> dsimp only [BringsNothing] <;> infer_instance

end

/-! ## What sets the flag -/

section

variable {lib : Library D A}

lemma not_appliesSyncStep2_of_isUpdate {doc : D} {data : List UInt8}
    (h : isUpdate lib data = true) : appliesSyncStep2 lib doc data = false := by
  rw [isUpdate, any_eq_true] at h
  obtain ⟨⟨messageType, rest⟩, hmessage, htype⟩ := h
  obtain rfl : messageType = messageYjsUpdate := by simpa using htype
  rw [appliesSyncStep2, hmessage]
  rfl

lemma readSyncMessage_eq_some {doc doc' : D} {bytes : List UInt8} {messageType : Nat}
    {reply : Option (List UInt8)}
    (h : readSyncMessage lib doc bytes = some (messageType, doc', reply)) :
    ∃ rest, lib.readVarUint bytes = some (messageType, rest) := by
  obtain ⟨⟨messageType', rest⟩, hread, h⟩ := bind_eq_some_iff.1 h
  refine ⟨rest, hread.trans ?_⟩
  dsimp only at h
  split at h
  · obtain ⟨stateVector, -, update, -, ⟨⟩⟩ := bind_map_eq_some.1 h
    rfl
  · split at h <;> cases h
    rfl

lemma isUpdate_eq {data rest : List UInt8} {messageType : Nat}
    (h : lib.readVarUint data = some (messageType, rest)) : isUpdate lib data =
      (decide (messageType = messageSync) &&
        (lib.readVarUint rest).any fun (subType, _) => subType == messageYjsUpdate) := by
  rw [isUpdate, syncMessage, h, bind_some]
  dsimp only
  split <;> simp_all

lemma not_isUpdate_of_readSyncMessage_eq_none {doc : D} {bytes : List UInt8}
    (h : readSyncMessage lib doc bytes = none) :
    ((lib.readVarUint bytes).any fun (subType, _) => subType == messageYjsUpdate) = false := by
  rw [any_eq_false]
  rintro ⟨subType, rest⟩ hread
  refine beq_eq_false_iff_ne.2 fun htype => ?_
  rw [readSyncMessage, hread, bind_some, htype] at h
  cases h

/-- It is an Update that sets the flag, with an event if the flag was not set. -/
lemma handleMessage_synced (lib : Library D A) (p : Provider D A) (data : List UInt8) :
    (p.handleMessage lib data).1.synced = (p.synced || isUpdate lib data) ∧
      (p.handleMessage lib data).2.count .synced =
        if isUpdate lib data = true ∧ p.synced = false then 1 else 0 := by
  cases hread : lib.readVarUint data with
  | none =>
    have hnot : isUpdate lib data = false := by rw [isUpdate, syncMessage, hread]; rfl
    simp [Provider.handleMessage, hread, hnot]
  | some message =>
    obtain ⟨messageType, rest⟩ := message
    rw [isUpdate_eq hread, Provider.handleMessage, hread]
    by_cases hsync : messageType = messageSync
    · cases hmessage : readSyncMessage lib p.doc rest with
      | none =>
        simp [hsync, hmessage, not_isUpdate_of_readSyncMessage_eq_none hmessage]
      | some result =>
        obtain ⟨subType, doc, reply⟩ := result
        obtain ⟨rest', hsub⟩ := readSyncMessage_eq_some hmessage
        by_cases hupdate : subType = 2 <;> cases hsynced : p.synced <;>
          simp [hsync, hmessage, hsub, hupdate, messageYjsUpdate]
    · dsimp only
      rw [if_neg hsync]
      split <;> simp [hsync]

lemma step_message {s t : Watched D A} {data : List UInt8}
    (h : step lib s (.message data) = some t) :
    t.provider.synced = (s.provider.synced || isUpdate lib data) ∧
      t.caughtUp = (s.caughtUp || appliesSyncStep2 lib s.provider.doc data) ∧
      t.syncedEvents = s.syncedEvents +
        if isUpdate lib data = true ∧ s.provider.synced = false then 1 else 0 := by
  obtain ⟨hflag, hcount⟩ := handleMessage_synced lib s.provider data
  rw [← Option.some.inj h]
  exact ⟨hflag, rfl, congrArg (s.syncedEvents + ·) hcount⟩

end

/-! ## What the flag says -/

section

variable {lib : Library D A} {s t : Watched D A} {a : SocketEvent}

structure Untouched (s : Watched D A) : Prop where
  synced : s.provider.synced = false
  caughtUp : s.caughtUp = false
  syncedEvents : s.syncedEvents = 0

lemma Untouched.truthful (h : Untouched s) : Truthful s :=
  ⟨h.synced.trans h.caughtUp.symm, by rw [h.syncedEvents, h.caughtUp]; rfl⟩

lemma Untouched.next (h : Untouched s) (hok : BringsNothing lib s a)
    (hs : step lib s a = some t) : Untouched t := by
  cases a with
  | connect =>
    cases hs
    exact ⟨h.synced, rfl, rfl⟩
  | disconnect | callDisconnect =>
    cases hs
    exact ⟨rfl, rfl, rfl⟩
  | connectError =>
    cases hs
    exact { h with }
  | message data =>
    obtain ⟨hflag, hcaught, hevents⟩ := step_message hs
    exact {
      synced := by rw [hflag, h.synced, hok.1]; rfl
      caughtUp := by rw [hcaught, h.caughtUp, hok.2]; rfl
      syncedEvents := by rw [hevents, h.syncedEvents, hok.1]; rfl }

lemma Untouched.bringsNothing (h : Untouched s) (hs : step lib s a = some t)
    (ht : Truthful t) : BringsNothing lib s a := by
  cases a with
  | connect | disconnect | connectError | callDisconnect => exact trivial
  | message data =>
    obtain ⟨hflag, hcaught, -⟩ := step_message hs
    have heq : isUpdate lib data = appliesSyncStep2 lib s.provider.doc data := by
      rw [h.synced, Bool.false_or] at hflag
      rw [h.caughtUp, Bool.false_or] at hcaught
      rw [← hflag, ← hcaught, ht.flag]
    cases hupdate : isUpdate lib data with
    | false => exact ⟨hupdate, heq ▸ hupdate⟩
    | true =>
      rw [hupdate, not_appliesSyncStep2_of_isUpdate hupdate] at heq
      cases heq

/-- As long as nothing comes in the flag says what it ought to. The first Update sets it though no
SyncStep2 has been applied, and the first SyncStep2 that is applied leaves it as it was. -/
theorem synced_means_caught_up_iff (lib : Library D A) (doc : D) (awareness : A) (s : Watched D A)
    (hrun : Run (step lib) (BringsNothing lib) (.new doc awareness) s) :
    Truthful s ∧ ∀ a t, step lib s a = some t → (Truthful t ↔ BringsNothing lib s a) := by
  have hs : Untouched s :=
    hrun.invariant (P := Untouched) ⟨rfl, rfl, rfl⟩ fun _ _ _ h hok hnext => h.next hok hnext
  refine ⟨hs.truthful, fun a t hnext => ⟨fun ht => hs.bringsNothing hnext ht, fun hok => ?_⟩⟩
  exact (hs.next hok hnext).truthful

/-- The numbers of one byte, and arrays behind their length. -/
def bytes : Library (List UInt8) Unit where
  readVarUint
    | [] => none
    | byte :: rest => if byte < 128 then some (byte.toNat, rest) else none
  readVarUint8Array
    | [] => none
    | length :: rest =>
      if length < 128 ∧ length.toNat ≤ rest.length then some (rest.take length.toNat) else none
  applyUpdate doc update := some (doc ++ update)
  encodeStateVector _ := []
  encodeStateAsUpdate doc _ := some doc
  applyAwarenessUpdate _ _ := some ()
  encodeAwarenessUpdate _ := some []
  removeRemoteStates := id

/-- The request of the other side is answered, and a SyncStep2 comes next. -/
theorem synced_means_caught_up_asked : ∃ s, Truthful s ∧ s.provider.sent ≠ [] ∧
      ∀ t, step bytes s (.message [0, 1, 1, 5]) = some t →
        (Truthful t ↔ BringsNothing bytes s (.message [0, 1, 1, 5])) := by
  obtain ⟨s, hexec, hsent⟩ :
      ∃ s ∈ exec (step bytes) (BringsNothing bytes) (.new [] ()) [.connect, .message [0, 0, 0]],
        s.provider.sent ≠ [] := by decide +kernel
  obtain ⟨htruthful, hnext⟩ :=
    synced_means_caught_up_iff bytes [] () s (run_of_exec hexec)
  exact ⟨s, htruthful, hsent, fun t => hnext (.message [0, 1, 1, 5]) t⟩

/-- A SyncStep2 leaves the flag unset, and an Update sets it with no SyncStep2 before it. -/
theorem synced_set_by_update :
    (∃ s ∈ exec (step bytes) anyStep (.new [] ()) [.connect, .message [0, 1, 1, 5]],
      s.provider.doc = [5] ∧ s.caughtUp = true ∧ s.provider.synced = false ∧ s.syncedEvents = 0) ∧
    (∃ s ∈ exec (step bytes) anyStep (.new [] ()) [.connect, .message [0, 2, 1, 5]],
      s.provider.doc = [5] ∧ s.caughtUp = false ∧ s.provider.synced = true ∧
        s.syncedEvents = 1) := by
  decide +kernel

end

end CollabEditor.Frontend.SyncedFlag

import CollabEditor.Support.Changes
import CollabEditor.Support.Execution
import CollabEditor.Relay.SidecarSync
/-!
# What of a room's doc is made durable

A room decides by the type of a sync frame whether it broadcasts, buffers and logs it; the engine
decides by its own reading whether the frame changes the doc.
-/

namespace CollabEditor.Relay

open Support CausalOps SharedText Execution SyncMsg List Sidecar

variable {K : Type}

/-- A room with what its handlers have done with the frames so far, each effect with the peer that
the frame came from. -/
structure FrameHistory (K : Type) where
  room : Room (Doc K)
  performed : List (Nat × Effect)

structure ReceivedFrame where
  sender : Nat
  now : Nat
  data : List UInt8

def frameStep (engine : Engine (Doc K)) (s : FrameHistory K) (f : ReceivedFrame) :
    Option (FrameHistory K) :=
  if f.data.length ≤ readLimit then
    (s.room.messageSection engine f.data).map fun (r, effects) =>
      ⟨effects.foldl (Room.perform f.sender f.now) r, s.performed ++ effects.map (f.sender, ·)⟩
  else none

lemma frameStep_room {engine : Engine (Doc K)} {s : FrameHistory K} {f : ReceivedFrame}
    (h : f.data.length ≤ readLimit) :
    (frameStep engine s f).map (·.room) = s.room.handleMessage engine f.sender f.now f.data := by
  rw [Room.handleMessage_eq_messageSection, frameStep, if_pos h, Option.map_map]
  rfl

/-! ## Durable changes -/

/-- Some Update frame with the content asked for has been broadcast to the other peers and put in
the flush buffer, and its payload handed to `AppendUpdate`. -/
def MadeDurable (read : List UInt8 → Update K) (performed : List (Nat × Effect))
    (holds : Update K → Prop) : Prop :=
  ∃ sender frame payload, readSyncSubMessage frame.tail = .value (msgUpdate, payload) ∧
    holds (read payload) ∧ (sender, .broadcast frame) ∈ performed ∧
    (sender, .buffer frame) ∈ performed ∧ (sender, .append payload) ∈ performed

structure ChangesDurable (read : List UInt8 → Update K) (d : Doc K) (s : FrameHistory K) :
    Prop where
  items : ∀ o, Integrated s.room.doc.items o → ¬ Integrated d.items o →
    MadeDurable read s.performed (o ∈ ·.items)
  deletes : ∀ i, s.room.doc.Deleted i → ¬ d.Deleted i → MadeDurable read s.performed (i ∈ ·.deletes)

def syncStep2Payload (data : List UInt8) : Option (List UInt8) :=
  match readSyncSubMessage data.tail with
  | .value (t, payload) => if t = msgSyncStep2 then some payload else none
  | .error _ => none
  | .panicked => none

def CatchUpKnown (read : List UInt8 → Update K) (s : FrameHistory K) (f : ReceivedFrame) : Prop :=
  ∀ payload ∈ syncStep2Payload f.data,
    (∀ o ∈ (read payload).items, ∃ p ∈ s.room.doc.items, p.id = o.id) ∧
      (read payload).deletes ⊆ s.room.doc.deletes
  deriving Decidable

/-- The engine applies nothing but the payload that the relay has read, and that only for
messages that carry an update. -/
def AppliesPayload (engine : Engine (Doc K)) (read : List UInt8 → Update K) : Prop :=
  ∀ doc body t payload, readSyncSubMessage body = .value (t, payload) → body.length ≤ readLimit →
    (engine.syncMessage doc body).1 = doc ∨
      t ≠ msgSyncStep1 ∧ payload ≠ [] ∧ (engine.syncMessage doc body).1 = doc.receive (read payload)

lemma Sidecar.appliesPayload (yjs : Sidecar.Yjs K) :
    AppliesPayload (engine yjs) fun payload => (yjs.read payload).1 := by
  intro doc body t payload hread hlen
  refine handleSyncMessage_doc yjs doc hread ?_
  rw [readLimit] at hlen
  omega

section

variable {read : List UInt8 → Update K} {performed performed' : List (Nat × Effect)}
  {holds : Update K → Prop} {d : Doc K} {s t : FrameHistory K} {f : ReceivedFrame}

lemma MadeDurable.mono (h : MadeDurable read performed holds) (hsub : performed ⊆ performed') :
    MadeDurable read performed' holds := by
  obtain ⟨sender, frame, payload, hread, hholds, hbroadcast, hbuffer, happend⟩ := h
  exact ⟨sender, frame, payload, hread, hholds, hsub hbroadcast, hsub hbuffer, hsub happend⟩

lemma madeDurable_updateEffects {frame payload : List UInt8} (sender : Nat)
    (hread : readSyncSubMessage frame.tail = .value (msgUpdate, payload)) (hpayload : payload ≠ [])
    (hholds : holds (read payload)) :
    MadeDurable read ((Room.updateEffects frame payload).map (sender, ·)) holds := by
  refine ⟨sender, frame, payload, hread, hholds, ?_, ?_, ?_⟩ <;>
    simp [Room.updateEffects, hpayload]

structure DurableInv (read : List UInt8 → Update K) (d : Doc K) (s : FrameHistory K) : Prop where
  items : ∀ o ∈ s.room.doc.items, o ∈ d.items ∨ MadeDurable read s.performed (o ∈ ·.items)
  deletes : ∀ i ∈ s.room.doc.deletes, i ∈ d.deletes ∨ MadeDurable read s.performed (i ∈ ·.deletes)

namespace DurableInv

section

variable (h : DurableInv read d s)
include h

lemma changesDurable (hd : d.NothingWaiting) : ChangesDurable read d s where
  items o ho hnew := (h.items o ho.mem).resolve_left fun hmem => hnew (hd.items o hmem)
  deletes i hi hnew := (h.deletes i hi.mem).resolve_left fun hmem => hnew (hd.deletes i hmem)

lemma extend {r : Room (Doc K)} {new : List (Nat × Effect)}
    (hitems : ∀ o ∈ r.doc.items, o ∈ s.room.doc.items ∨ MadeDurable read new (o ∈ ·.items))
    (hdeletes : ∀ i ∈ r.doc.deletes, i ∈ s.room.doc.deletes ∨
      MadeDurable read new (i ∈ ·.deletes)) : DurableInv read d ⟨r, s.performed ++ new⟩ where
  items o ho := by
    rcases hitems o ho with hold | hnew
    · exact (h.items o hold).imp_right (·.mono (subset_append_left _ _))
    · exact .inr (hnew.mono (subset_append_right _ _))
  deletes i hi := by
    rcases hdeletes i hi with hold | hnew
    · exact (h.deletes i hold).imp_right (·.mono (subset_append_left _ _))
    · exact .inr (hnew.mono (subset_append_right _ _))

lemma applied {r : Room (Doc K)} {ty : UInt8} {payload : List UInt8} (reply : List Effect)
    (hread : readSyncSubMessage f.data.tail = .value (ty, payload)) (hok : CatchUpKnown read s f)
    (hdoc : r.doc = s.room.doc ∨
      ty ≠ msgSyncStep1 ∧ payload ≠ [] ∧ r.doc = s.room.doc.receive (read payload)) :
    DurableInv read d ⟨r, s.performed ++ (reply ++
      if ty = msgUpdate then Room.updateEffects f.data payload else []).map (f.sender, ·)⟩ := by
  rcases hdoc with hdoc | ⟨hstep1, hpayload, hdoc⟩
  · exact h.extend (fun o ho => .inl (hdoc ▸ ho)) fun i hi => .inl (hdoc ▸ hi)
  by_cases hupdate : ty = msgUpdate
  · subst hupdate
    rw [if_pos rfl, map_append]
    have hdurable {holds : Update K → Prop} (hholds : holds (read payload)) :
        MadeDurable read (reply.map (f.sender, ·) ++
          (Room.updateEffects f.data payload).map (f.sender, ·)) holds :=
      (madeDurable_updateEffects f.sender hread hpayload hholds).mono
        (subset_append_right _ _)
    refine h.extend (fun o ho => ?_) fun i hi => ?_
    · rw [hdoc, Doc.mem_items_receive] at ho
      exact ho.imp_right fun hnew => hdurable hnew.1
    · rw [hdoc, Doc.mem_deletes_receive] at hi
      exact hi.imp_right hdurable
  · -- a SyncStep2, of which the condition says that it brings nothing
    have hstep2 := ((subType_of_value hread).resolve_left hstep1).resolve_right hupdate
    have hknown := hok payload (by rw [syncStep2Payload, hread, hstep2]; rfl)
    refine h.extend (fun o ho => .inl ?_) fun i hi => .inl ?_
    · rw [hdoc, Doc.mem_items_receive] at ho
      refine ho.resolve_right ?_
      rintro ⟨hnew, hunknown⟩
      obtain ⟨p, hp, hid⟩ := hknown.1 o hnew
      exact hunknown p hp hid
    · rw [hdoc, Doc.mem_deletes_receive] at hi
      exact hi.elim id fun hnew => hknown.2 hnew

end

lemma step {engine : Engine (Doc K)} (hengine : AppliesPayload engine read)
    (h : DurableInv read d s) (hok : CatchUpKnown read s f)
    (hs : frameStep engine s f = some t) : DurableInv read d t := by
  obtain ⟨hlen, hs⟩ := Option.ite_none_right_eq_some.1 hs
  obtain ⟨⟨r, effects⟩, hsection, rfl⟩ := Option.map_eq_some_iff.1 hs
  have htail : f.data.tail.length ≤ readLimit := by
    rw [length_tail]
    omega
  have hperform (r' : Room (Doc K)) (hr' : r'.doc = r.doc)
      (hinv : DurableInv read d ⟨r', s.performed ++ effects.map (f.sender, ·)⟩) :
      DurableInv read d ⟨effects.foldl (Room.perform f.sender f.now) r,
        s.performed ++ effects.map (f.sender, ·)⟩ := by
    refine ⟨fun o ho => hinv.items o ?_, fun i hi => hinv.deletes i ?_⟩
    · rwa [Room.foldl_perform_doc, ← hr'] at ho
    · rwa [Room.foldl_perform_doc, ← hr'] at hi
  rcases Room.messageSection_cases hsection with ⟨rfl, -⟩ |
    ⟨ty, payload, hread, ⟨doc, e, hcall, rfl, rfl⟩ | ⟨doc, et, reply, hcall, rfl, rfl⟩⟩
  · exact hperform s.room rfl (h.extend (fun o ho => .inl ho) fun i hi => .inl hi)
  · have hdoc := hengine s.room.doc _ ty payload hread htail
    rw [hcall] at hdoc
    exact hperform _ rfl (h.applied [] hread hok hdoc)
  · have hdoc := hengine s.room.doc _ ty payload hread htail
    rw [hcall] at hdoc
    exact hperform _ rfl (h.applied _ hread hok hdoc)

end DurableInv

/-- Every change that frames make to the doc of a room is durable, in every run in which SyncStep2
frames bring nothing new, from every room whose doc has nothing waiting. -/
theorem changes_durable_of_catchUpKnown (yjs : Sidecar.Yjs K) {r : Room (Doc K)}
    (hr : r.doc.NothingWaiting) {s : FrameHistory K}
    (hrun : Run (frameStep (engine yjs)) (CatchUpKnown fun p => (yjs.read p).1) ⟨r, []⟩ s) :
    ChangesDurable (fun p => (yjs.read p).1) r.doc s := by
  have hinv : DurableInv (fun p => (yjs.read p).1) r.doc s :=
    hrun.invariant ⟨fun _ => .inl, fun _ => .inl⟩
      fun _ _ _ h hok hs => h.step (appliesPayload yjs) hok hs
  exact hinv.changesDurable hr

end

def typedYjs : Sidecar.Yjs Nat where
  read payload := match decodeTyped payload with
    | some u => (u, none)
    | none => (⟨[], []⟩, some "ERR: Unexpected end of array")
  encodeStateAsUpdate _ _ := .ok []

def pairRoom : Room (Doc Nat) :=
  ⟨[⟨5, []⟩, ⟨6, []⟩], bootstrapContent [], false, .new, false, 1024, []⟩

lemma nothingWaiting_pairRoom : pairRoom.doc.NothingWaiting :=
  ⟨fun _ h => absurd h not_mem_nil, fun _ h => absurd h not_mem_nil⟩

def syncStep2Frame (payload : List UInt8) : List UInt8 :=
  msgTypeSync :: msgSyncStep2 :: (VarUint.encode payload.length ++ payload)

/-- Client 5 types two characters; after the first, client 6 sends it back in a SyncStep2. -/
theorem changes_durable_typed : ∃ s : FrameHistory Nat,
      Run (frameStep (engine typedYjs)) (CatchUpKnown fun p => (typedYjs.read p).1)
        ⟨pairRoom, []⟩ s ∧ Integrated s.room.doc.items ⟨5, 1, [(5, 0)], some 0x62⟩ ∧
      ChangesDurable (fun p => (typedYjs.read p).1) pairRoom.doc s :=
  exists_run_and
    [⟨5, 0, updateFrame typeA⟩, ⟨6, 1, syncStep2Frame typeA⟩, ⟨5, 2, updateFrame typeAB⟩]
    (by decide +kernel) fun _ hrun =>
      changes_durable_of_catchUpKnown typedYjs nothingWaiting_pairRoom hrun

/-- A character that a client brings in a SyncStep2 is in the doc, and nothing has been done
with the frame. -/
theorem syncStep2_not_durable :
    ¬ ∀ (yjs : Sidecar.Yjs Nat) (r : Room (Doc Nat)) (s : FrameHistory Nat), r.doc.NothingWaiting →
      Run (frameStep (engine yjs)) anyStep ⟨r, []⟩ s →
      ChangesDurable (fun p => (yjs.read p).1) r.doc s := by
  intro hevery
  have hrun : ∃ s ∈ exec (frameStep (engine typedYjs)) anyStep ⟨pairRoom, []⟩
      [⟨5, 0, syncStep2Frame typeA⟩],
      Integrated s.room.doc.items ⟨5, 0, [], some 0x61⟩ ∧
        ¬ Integrated pairRoom.doc.items ⟨5, 0, [], some 0x61⟩ ∧ s.performed = [] := by
    decide +kernel
  obtain ⟨s, hs, hnow, hbefore, hnone⟩ := hrun
  have hdurable := (hevery typedYjs pairRoom s nothingWaiting_pairRoom (run_of_exec hs)).items
    _ hnow hbefore
  obtain ⟨sender, frame, payload, -, -, hbroadcast, -⟩ := hdurable
  rw [hnone] at hbroadcast
  exact absurd hbroadcast not_mem_nil

end CollabEditor.Relay

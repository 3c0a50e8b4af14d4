import CollabEditor.ProviderSdk.Processor
import CollabEditor.Support.Execution
/-!
# What the TypeScript and Python provider SDKs store

The relay seeds a room's doc with the stored text, and flushes the updates to a processor whose
cache may evict the doc in between.
-/

namespace CollabEditor.ProviderSdk

open Support SharedText CausalOps Execution CollabEditor.Relay Function

variable {K : Type}

/-- A room: the text it was seeded with and the updates its clients have made on it. -/
structure OpenRoom (K : Type) where
  content : List K
  updates : List (Update K)
  made : MadeInOrder (bootstrapContent content) updates

namespace OpenRoom

def doc (room : OpenRoom K) : Doc K := (bootstrapContent room.content).applyAll room.updates

def bootstrap (content : List K) : OpenRoom K := ⟨content, [], trivial⟩

def apply (room : OpenRoom K) (us : List (Update K)) (h : MadeInOrder room.doc us) :
    OpenRoom K :=
  ⟨room.content, room.updates ++ us, MadeInOrder.append_iff.2 ⟨room.made, h⟩⟩

end OpenRoom

structure Write (K : Type) where
  documentId : String
  content : List K
  roomText : List K
  deriving DecidableEq

structure World (K : Type) where
  processor : Processor K
  rooms : String → Option (OpenRoom K)
  writes : List (Write K)

def World.initial (p : Processor K) : World K := ⟨p, fun _ => none, []⟩

inductive WorldAction
  /-- The relay opens a room for the document. -/
  | load (documentId : String)
  | close (documentId : String)
  /-- The next updates of the room's clients are flushed. -/
  | store (documentId : String) (batch : List BufferedUpdate) (mimeType : Option String)

def writesOf (documentId : String) (roomText : List K) :
    Except SdkError (StoreResult K) → List (Write K)
  | .error _ => []
  | .ok result => result.written.toList.map fun c => ⟨documentId, c.content, roomText⟩

section

variable {P : Type} [LinearOrder P] [DecidableEq K]

def worldStep (sdk : Sdk) (lib : Libraries) (decode : List UInt8 → Option (Update K))
    (order : String → DocOrder K P) (fresh : Nat → Nat) (w : World K) :
    WorldAction → Option (World K)
  | .load id =>
    -- the room is seeded with the text that `processLoad` hands out
    match w.rooms id with
    | some _ => none
    | none =>
      let (processor, loaded) := w.processor.processLoad fresh id
      some { w with
        processor
        rooms := update w.rooms id (some (.bootstrap loaded.content)) }
  | .close id =>
    match w.rooms id with
    | none => none
    | some _ => some { w with rooms := update w.rooms id none }
  | .store id batch mimeType =>
    match w.rooms id with
    | none => none
    | some room =>
      if h : (∀ u ∈ batch, ClientFrame u.data) ∧
          MadeInOrder room.doc (batchUpdates decode batch) then
        let room := room.apply (batchUpdates decode batch) h.2
        let (processor, result) := w.processor.processStore sdk lib decode (order id) fresh id
          (toPayloads batch) mimeType
        some ⟨processor, update w.rooms id (some room),
          w.writes ++ writesOf id (room.doc.text (order id)) result⟩
      else none

/-- A doc that was created from the empty text and has been given only updates of this
room, where these and the new updates are all that the characters shown depend on. -/
@[mk_iff]
structure Covers (doc room : Doc K) (us : List (Update K)) : Prop where
  content : doc.content = []
  updates : doc.updates <:+ room.updates
  visible : ∀ o ∈ (room.applyAll us).visible,
    Integrated ((doc.updates ++ us).flatMap Update.items) o

instance (doc room : Doc K) (us : List (Update K)) : Decidable (Covers doc room us) :=
  decidable_of_iff' _ (covers_iff ..)

/-- The requests that a run may contain: the document's doc covers the room's text, or
the new updates change nothing in it and leave the room with the text it shows. -/
def Resolvable (decode : List UInt8 → Option (Update K)) (order : String → DocOrder K P)
    (fresh : Nat → Nat) (w : World K) : WorldAction → Prop
  | .store id batch _ =>
    match w.rooms id with
    | none => True
    | some room =>
      let doc := w.processor.docFor fresh id
      let us := batchUpdates decode batch
      Covers doc room.doc us ∨
        StayPending doc us ∧ doc.text (order id) = (room.doc.applyAll us).text (order id)
  | _ => True

instance (decode : List UInt8 → Option (Update K)) (order : String → DocOrder K P)
    (fresh : Nat → Nat) (w : World K) (a : WorldAction) :
    Decidable (Resolvable decode order fresh w a) := by
  cases a with
  | load | close => exact inferInstanceAs (Decidable True)
  | store id batch mimeType =>
    simp only [Resolvable]
    cases w.rooms id <;> infer_instance

end

/-! ## The text written -/

section

variable {P : Type} [LinearOrder P] [DecidableEq K] {order : DocOrder K P} {doc : Doc K}
  {room : OpenRoom K} {us : List (Update K)}

lemma Covers.text_eq (h : Covers doc room.doc us) (hmade : MadeInOrder room.doc us) :
    (doc.applyAll us).text order = (room.doc.applyAll us).text order := by
  obtain ⟨missed, hmissed⟩ := h.updates
  have hupdates : missed ++ (doc.updates ++ us) = room.updates ++ us := by
    rw [← List.append_assoc]
    exact congrArg (· ++ us) hmissed
  have hroom : room.doc.applyAll us =
      (bootstrapContent room.content).applyAll (missed ++ (doc.updates ++ us)) := by
    rw [hupdates, Doc.applyAll_append, OpenRoom.doc]
  have hdoc : doc.applyAll us = Doc.started doc.client (doc.updates ++ us) := by
    rw [Doc.applyAll, Doc.started, ← h.content]
  have hall : MadeInOrder (bootstrapContent room.content) (missed ++ (doc.updates ++ us)) := by
    rw [hupdates]
    exact (room.apply us hmade).made
  have hvisible := h.visible
  rw [hroom] at hvisible ⊢
  rw [hdoc]
  exact (text_started_eq_iff order rfl hall).2
    fun o ho => hvisible o (Doc.mem_visible.2 ho)

end

section

variable {P : Type} [LinearOrder P] [DecidableEq K] {sdk : Sdk} {lib : Libraries}
  {decode : List UInt8 → Option (Update K)} {order : String → DocOrder K P} {fresh : Nat → Nat}
  {w w' : World K} {a : WorldAction}

def StoresRoomText (w : World K) : Prop := ∀ e ∈ w.writes, e.content = e.roomText

instance (w : World K) : Decidable (StoresRoomText w) :=
  inferInstanceAs (Decidable (∀ e ∈ w.writes, e.content = e.roomText))

lemma storesRoomText_store {id : String} {batch : List BufferedUpdate}
    {mimeType : Option String} {room : OpenRoom K} (h : StoresRoomText w)
    (hroom : w.rooms id = some room)
    (hok : Resolvable decode order fresh w (.store id batch mimeType))
    (hframes : ∀ u ∈ batch, ClientFrame u.data)
    (hmade : MadeInOrder room.doc (batchUpdates decode batch)) : ∀ e ∈ w.writes ++ writesOf id
        ((room.apply (batchUpdates decode batch) hmade).doc.text (order id))
        (w.processor.processStore sdk lib decode (order id) fresh id (toPayloads batch)
          mimeType).2, e.content = e.roomText := by
  intro e he
  rcases List.mem_append.1 he with he | he
  · exact h e he
  · cases hresult : (w.processor.processStore sdk lib decode (order id) fresh id
        (toPayloads batch) mimeType).2 with
    | error err =>
      rw [hresult] at he
      cases he
    | ok result =>
      rw [hresult] at he
      obtain ⟨c, hc, rfl⟩ := List.mem_map.1 he
      have hcontent := Processor.processStore_written hframes hresult (Option.mem_toList.1 hc)
      have hafter : (room.apply (batchUpdates decode batch) hmade).doc =
          room.doc.applyAll (batchUpdates decode batch) := by
        rw [OpenRoom.apply, OpenRoom.doc, OpenRoom.doc, Doc.applyAll_append]
      simp only [Resolvable, hroom] at hok
      simp only [hcontent, hafter]
      rcases hok with hcovers | ⟨hpending, htext⟩
      · exact hcovers.text_eq hmade
      · rw [hpending.text_applyAll, htext]

lemma storesRoomText_step (h : StoresRoomText w) (hok : Resolvable decode order fresh w a)
    (hs : worldStep sdk lib decode order fresh w a = some w') : StoresRoomText w' := by
  cases a with
  | load id | close id =>
    simp only [worldStep] at hs
    split at hs <;> cases hs
    exact h
  | store id batch mimeType =>
    simp only [worldStep] at hs
    split at hs
    · cases hs
    · rename_i room hroom
      split at hs <;> cases hs
      rename_i hmade
      exact storesRoomText_store h hroom hok hmade.1 hmade.2

end

/-- In every history of any number of documents, from any state of the processor, in
which each request is resolvable, the texts written are those of the rooms. -/
theorem stored_text_of_resolvable {P : Type} [LinearOrder P] [DecidableEq K] (sdk : Sdk)
    (lib : Libraries) (decode : List UInt8 → Option (Update K))
    (order : String → DocOrder K P) (fresh : Nat → Nat) (p : Processor K) {w : World K}
    (hrun : Run (worldStep sdk lib decode order fresh) (Resolvable decode order fresh)
      (.initial p) w) : StoresRoomText w := by
  apply hrun.invariant (P := StoresRoomText)
  · intro e he
    cases he
  · intro _ _ _ h hok hs
    exact storesRoomText_step h hok hs

def newProcessor (content : List Nat) : Processor Nat :=
  ⟨fun _ => ⟨content, "text/plain"⟩, false, true, .empty 1 (by decide), 0⟩

def sdkClientID (n : Nat) : Nat := 1000 + n

def typedAfterEviction : List WorldAction :=
  [.load "a", .load "b", .store "a" [typed typeA] none, .store "a" [typed typeAB] none]

theorem stored_text_typedAfterEviction :
    ∃ w, exec (worldStep .typescript .standard decodeTyped (fun _ => DocOrder.byId) sdkClientID)
        (Resolvable decodeTyped (fun _ => DocOrder.byId) sdkClientID)
        (.initial (newProcessor [])) typedAfterEviction = some w ∧
      w.writes = [⟨"a", [0x61], [0x61]⟩, ⟨"a", [0x61, 0x62], [0x61, 0x62]⟩] ∧ StoresRoomText w :=
  exec_and (by decide +kernel) fun _ hrun => stored_text_of_resolvable .typescript .standard
    decodeTyped (fun _ => DocOrder.byId) sdkClientID (newProcessor []) hrun

/-- The doc that an SDK creates from the stored `a` has other ids than the room's seed, so that the
`b` typed behind the seed stays pending there. -/
theorem pending_character_not_stored : ¬ ∃ sdk : Sdk, ∀ (p : Processor Nat) (w : World Nat),
      Run (worldStep sdk .standard decodeTyped (fun _ => DocOrder.byId) sdkClientID) anyStep
        (.initial p) w → StoresRoomText w := by
  rintro ⟨sdk, hevery⟩
  refine not_forall_run [.load "doc", .store "doc" [typed typeAfterSeed] none] ?_
    (hevery (newProcessor [0x61]))
  cases sdk <;> decide +kernel

end CollabEditor.ProviderSdk

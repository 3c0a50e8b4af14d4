import CollabEditor.Spi.Processor
/-!
# What the Go provider SDK stores

A room is seeded with the stored text; its clients' updates are flushed to a processor that also
serves other documents and may be restarted.
-/

namespace CollabEditor.Spi

open Support SharedText CausalOps CollabEditor.Relay List

variable {K : Type}

/-- What happens to the processor: a request with a batch of a document's updates, or
a restart of its process. -/
inductive ProviderEvent
  | store (documentID : String) (batch : List BufferedUpdate)
  | restart

def storeRequest (batch : List BufferedUpdate) : StoreRequest K := ⟨toPayloads batch, [], ""⟩

/-- The room of `documentID` after the updates of the requests. -/
def roomStep (decode : List UInt8 → Option (Update K)) (documentID : String) (room : Doc K) :
    ProviderEvent → Doc K
  | .store id batch => if id = documentID then room.applyAll (batchUpdates decode batch) else room
  | .restart => room

def roomAfter (decode : List UInt8 → Option (Update K)) (documentID : String) (content : List K)
    (events : List ProviderEvent) : Doc K :=
  events.foldl (roomStep decode documentID) (bootstrapContent content)

/-- The updates of `documentID` in requests since the last restart. -/
def sinceRestartStep (decode : List UInt8 → Option (Update K)) (documentID : String)
    (updates : List (Update K)) : ProviderEvent → List (Update K)
  | .store id batch => if id = documentID then updates ++ batchUpdates decode batch else updates
  | .restart => []

def sinceRestart (decode : List UInt8 → Option (Update K)) (documentID : String)
    (events : List ProviderEvent) : List (Update K) :=
  events.foldl (sinceRestartStep decode documentID) []

/-- The frames of `documentID` in the requests are frames of clients. -/
def FromClients (documentID : String) (events : List ProviderEvent) : Prop :=
  ∀ batch, .store documentID batch ∈ events → ∀ u ∈ batch, ClientFrame u.data

section

variable {P : Type} [LinearOrder P] [DecidableEq K]

def processorStep (decode : List UInt8 → Option (Update K)) (order : DocOrder K P)
    (pp : ProviderProcessor K) : ProviderEvent → ProviderProcessor K
  | .store id batch => (resolveStore decode order pp id (storeRequest batch)).1
  | .restart => .new

def processorAfter (decode : List UInt8 → Option (Update K)) (order : DocOrder K P)
    (events : List ProviderEvent) : ProviderProcessor K :=
  events.foldl (processorStep decode order) .new

variable {decode : List UInt8 → Option (Update K)} {order : DocOrder K P}

lemma engine_resolveStore {pp : ProviderProcessor K} {documentID id : String}
    {batch : List BufferedUpdate} (hframes : id = documentID → ∀ u ∈ batch, ClientFrame u.data) :
    (resolveStore decode order pp id (storeRequest batch)).1.engine documentID =
      if id = documentID then (pp.engine documentID).applyAll (batchUpdates decode batch)
      else pp.engine documentID := by
  by_cases hempty : batch = []
  · subst hempty
    simp [resolveStore, storeRequest, toPayloads, batchUpdates]
  · have hlength : (toPayloads batch).length ≠ 0 := by
      simpa [toPayloads] using hempty
    rw [resolveStore, storeRequest, if_neg hlength]
    by_cases hid : id = documentID
    · subst hid
      simp only [ProviderProcessor.engine, ProviderProcessor.setEngine, Function.update_self,
        Option.getD_some, if_true]
      exact foldl_applyPayload decode _ (hframes rfl)
    · rw [if_neg hid]
      simp only [ProviderProcessor.engine, ProviderProcessor.setEngine,
        Function.update_of_ne (Ne.symm hid)]

lemma engine_step {pp : ProviderProcessor K} {documentID : String}
    {updates : List (Update K)} {e : ProviderEvent}
    (hengine : pp.engine documentID = Doc.started 0 updates)
    (hframes : ∀ batch, e = .store documentID batch → ∀ u ∈ batch, ClientFrame u.data) :
    (processorStep decode order pp e).engine documentID =
      Doc.started 0 (sinceRestartStep decode documentID updates e) := by
  cases e with
  | store id batch =>
    rw [processorStep, engine_resolveStore (by rintro rfl; exact hframes batch rfl), hengine,
      sinceRestartStep]
    split <;> rfl
  | restart => rfl

lemma engine_processorAfter {documentID : String} {events : List ProviderEvent}
    (hframes : FromClients documentID events) :
    (processorAfter decode order events).engine documentID =
      Doc.started 0 (sinceRestart decode documentID events) := by
  have hfold : ∀ (pp : ProviderProcessor K) (updates : List (Update K)),
      pp.engine documentID = Doc.started 0 updates →
      (events.foldl (processorStep decode order) pp).engine documentID =
        Doc.started 0 (events.foldl (sinceRestartStep decode documentID) updates) := by
    induction events with
    | nil => exact fun _ _ h => h
    | cons e events ih =>
      intro pp updates h
      apply ih (fun batch hb => hframes batch (mem_cons_of_mem _ hb))
      apply engine_step h
      rintro batch rfl
      exact hframes batch mem_cons_self
  exact hfold .new [] rfl

end

lemma roomAfter_eq_applyAll (decode : List UInt8 → Option (Update K)) (documentID : String)
    (content : List K) (events : List ProviderEvent) :
    ∃ missed, roomAfter decode documentID content events =
      (bootstrapContent content).applyAll (missed ++ sinceRestart decode documentID events) := by
  -- a restart moves the updates so far to the missed ones
  have hfold : ∀ missed updates, ∃ missed', events.foldl (roomStep decode documentID)
          ((bootstrapContent content).applyAll (missed ++ updates)) =
        (bootstrapContent content).applyAll
          (missed' ++ events.foldl (sinceRestartStep decode documentID) updates) := by
    induction events with
    | nil => exact fun missed _ => ⟨missed, rfl⟩
    | cons e events ih =>
      intro missed updates
      cases e with
      | store id batch =>
        by_cases hid : id = documentID
        · obtain ⟨missed', h⟩ := ih missed (updates ++ batchUpdates decode batch)
          refine ⟨missed', ?_⟩
          simp only [foldl_cons, roomStep, sinceRestartStep, if_pos hid]
          rw [← h, ← Doc.applyAll_append, append_assoc]
        · obtain ⟨missed', h⟩ := ih missed updates
          refine ⟨missed', ?_⟩
          simpa only [foldl_cons, roomStep, sinceRestartStep, if_neg hid] using h
      | restart =>
        obtain ⟨missed', h⟩ := ih (missed ++ updates) []
        refine ⟨missed', ?_⟩
        simpa only [foldl_cons, roomStep, sinceRestartStep, append_nil] using h
  simpa [roomAfter, sinceRestart] using hfold [] []

/-- The content of a request is the room's text exactly when every character the room
shows, with all it depends on, was inserted by the updates since the last restart. -/
theorem resolveStore_content_eq_text_iff {P : Type} [LinearOrder P] [DecidableEq K]
    (decode : List UInt8 → Option (Update K)) (order : DocOrder K P) (documentID : String)
    (content : List K) (events : List ProviderEvent) (batch : List BufferedUpdate)
    (hbatch : batch ≠ []) (hframes : FromClients documentID (events ++ [.store documentID batch]))
    (hmade : MadeInOrder (bootstrapContent content)
      (roomAfter decode documentID content (events ++ [.store documentID batch])).updates) :
    (resolveStore decode order (processorAfter decode order events) documentID
        (storeRequest batch)).2.content =
        (roomAfter decode documentID content (events ++ [.store documentID batch])).text order ↔
      ∀ o, (roomAfter decode documentID content (events ++ [.store documentID batch])).Shows o →
        Integrated ((sinceRestart decode documentID (events ++ [.store documentID batch])).flatMap
            Update.items) o := by
  have hlength : (toPayloads batch).length ≠ 0 := by
    simpa [toPayloads] using hbatch
  have hbefore : FromClients documentID events :=
    fun b hb => hframes b (mem_append_left _ hb)
  have hlast : ∀ u ∈ batch, ClientFrame u.data :=
    hframes batch (mem_concat_self)
  have hsince : sinceRestart decode documentID (events ++ [.store documentID batch]) =
      sinceRestart decode documentID events ++ batchUpdates decode batch := by
    simp [sinceRestart, sinceRestartStep]
  have hcontent : (resolveStore decode order (processorAfter decode order events) documentID
      (storeRequest batch)).2.content =
      (Doc.started 0
        (sinceRestart decode documentID (events ++ [.store documentID batch]))).text order := by
    rw [resolveStore, storeRequest, if_neg hlength, hsince]
    simp only [foldl_applyPayload decode _ hlast, engine_processorAfter hbefore]
    rfl
  obtain ⟨missed, hroom⟩ :=
    roomAfter_eq_applyAll decode documentID content (events ++ [.store documentID batch])
  rw [hroom] at hmade ⊢
  rw [hcontent]
  exact text_started_eq_iff order rfl hmade

theorem resolveStore_content_typeAB :
    FromClients "doc" [.store "doc" [typed typeA], .store "doc" [typed typeAB]] ∧
    (resolveStore decodeTyped DocOrder.byId
        (processorAfter decodeTyped DocOrder.byId [.store "doc" [typed typeA]]) "doc"
        (storeRequest [typed typeAB])).2.content = (roomAfter decodeTyped "doc" []
        [.store "doc" [typed typeA], .store "doc" [typed typeAB]]).text DocOrder.byId := by
  have hframes : FromClients "doc"
      [.store "doc" [typed typeA], .store "doc" [typed typeAB]] := by
    intro batch hb
    simp only [mem_cons, not_mem_nil, or_false, ProviderEvent.store.injEq, true_and] at hb
    rcases hb with rfl | rfl <;> decide +kernel
  have hvisible : ∀ o ∈ (roomAfter decodeTyped "doc" []
        [.store "doc" [typed typeA], .store "doc" [typed typeAB]]).visible,
      Integrated ((sinceRestart decodeTyped "doc"
        [.store "doc" [typed typeA], .store "doc" [typed typeAB]]).flatMap Update.items) o := by
    decide +kernel
  refine ⟨hframes, ?_⟩
  exact (resolveStore_content_eq_text_iff decodeTyped DocOrder.byId "doc" []
    [.store "doc" [typed typeA]] [typed typeAB] (by simp) hframes (by decide +kernel)).2
    fun o ho => hvisible o (Doc.mem_visible.2 ho)

/-- The stored text is `a`. A client of the room seeded with it types `b` behind; the
engine lacks the seed, so that the `b` stays pending, and the content stored is empty. -/
theorem seeded_text_not_stored :
    ¬ ∀ (content : List Nat) (events : List ProviderEvent) (batch : List BufferedUpdate),
      batch ≠ [] → FromClients "doc" (events ++ [.store "doc" batch]) →
      MadeInOrder (bootstrapContent content)
        (roomAfter decodeTyped "doc" content (events ++ [.store "doc" batch])).updates →
      (resolveStore decodeTyped DocOrder.byId
          (processorAfter decodeTyped DocOrder.byId events) "doc" (storeRequest batch)).2.content =
        (roomAfter decodeTyped "doc" content (events ++ [.store "doc" batch])).text
          DocOrder.byId := by
  intro h
  have hframes : FromClients "doc" ([] ++ [.store "doc" [typed typeAfterSeed]]) := by
    intro batch hb
    simp only [nil_append, mem_singleton, ProviderEvent.store.injEq, true_and] at hb
    subst hb
    decide +kernel
  have hstored := h [0x61] [] [typed typeAfterSeed] (by simp) hframes (by decide +kernel)
  have hcontent : (resolveStore decodeTyped DocOrder.byId
      (processorAfter decodeTyped DocOrder.byId []) "doc"
      (storeRequest [typed typeAfterSeed])).2.content = [] := by decide +kernel
  have htext : (roomAfter decodeTyped "doc" [0x61]
      [.store "doc" [typed typeAfterSeed]]).text DocOrder.byId = [0x61, 0x62] := by decide +kernel
  rw [hcontent, nil_append, htext] at hstored
  cases hstored

end CollabEditor.Spi

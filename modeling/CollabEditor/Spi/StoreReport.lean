import CollabEditor.Relay.Flush
import CollabEditor.Spi.Processor
import CollabEditor.StorageDemo.FileStore
/-!
# What the demo provider reports of a request

The handler of `POST /documents/updates` in `pkg/spi/provider.go` with the demo store behind it,
which builds the response from the request.
-/

namespace CollabEditor.Spi

open Support SharedText CollabEditor.Relay CollabEditor.StorageDemo List

variable {K : Type}

structure DemoProvider (K : Type) where
  processor : ProviderProcessor K
  files : FileStore K

structure CallContext where
  now : Nat
  versionID : Nat
  entryID : Nat

/-- The response as the relay gets it. `Store` leaves `DuplicatesIgnored` and `Failed` at their
zero values. -/
def toStoreResponse (entryJson : Nat → List UInt8) (resp : StorageDemo.StoreResponse) :
    Relay.StoreResponse where
  stored := resp.stored
  duplicatesIgnored := 0
  failed := []
  versionCreated := resp.versionCreated.map entryJson

section

variable {P : Type} [LinearOrder P] [DecidableEq K]

/-- The handler of `POST /documents/updates`; an error of `Store` is answered with status 500. -/
def postUpdates (decode : List UInt8 → Option (Update K)) (order : DocOrder K P)
    (entryJson : Nat → List UInt8) (s : DemoProvider K) (documentID : String) (ctx : CallContext)
    (req : StoreRequest K) : DemoProvider K × Except FileStoreError Relay.StoreResponse :=
  let resolved := resolveStore decode order s.processor documentID req
  let result := s.files.store documentID.toList ctx.now
    ⟨resolved.2.content, resolved.2.updates.length, ctx.versionID, ctx.entryID⟩
  (⟨resolved.1, result.1⟩, result.2.map (toStoreResponse entryJson))

end

/-- The response names every update that was not applied, its number is that of the updates by
which the document has grown, and a flush of these updates requeues those that were not applied. -/
structure Reported (decode : List UInt8 → Option (Update K)) (documentID : String)
    (s t : DemoProvider K) (req : StoreRequest K) (resp : Relay.StoreResponse) : Prop where
  failed : ∀ u ∈ req.updates, appliedUpdate decode u = none → u.sequence ∈ resp.failedSeqs
  stored : (t.processor.engine documentID).updates.length =
    (s.processor.engine documentID).updates.length + resp.stored
  requeued : ∀ batch, toPayloads batch = req.updates → flushResult batch (some resp) =
      .result (batch.filter fun u => (appliedUpdate decode (toPayload u)).isNone)
        resp.versionCreated

section

variable {P : Type} [LinearOrder P] [DecidableEq K]

lemma engine_postUpdates (decode : List UInt8 → Option (Update K)) (order : DocOrder K P)
    (entryJson : Nat → List UInt8) (s : DemoProvider K) (documentID : String) (ctx : CallContext)
    (req : StoreRequest K) :
    (postUpdates decode order entryJson s documentID ctx req).1.processor.engine documentID =
      (s.processor.engine documentID).applyAll (req.updates.filterMap (appliedUpdate decode)) := by
  simp only [postUpdates, resolveStore]
  split
  · rename_i hempty
    rw [length_eq_zero_iff.1 hempty]
    simp
  · rw [← foldl_applyPayload_eq]
    simp [ProviderProcessor.engine, ProviderProcessor.setEngine]

lemma updates_resolveStore (decode : List UInt8 → Option (Update K)) (order : DocOrder K P)
    (pp : ProviderProcessor K) (documentID : String) (req : StoreRequest K) :
    (resolveStore decode order pp documentID req).2.updates = req.updates := by
  unfold resolveStore
  split <;> rfl

lemma store_response (fs : FileStore K) (docID : DocID) (now : Nat)
    (req : StorageDemo.StoreRequest K) : (fs.store docID now req).2 = if validateDocID docID then
        .ok ⟨req.updates, (fs.store docID now req).2.toOption.bind (·.versionCreated)⟩
      else .error .invalidDocumentID := by
  unfold FileStore.store
  split
  · split
    · rfl
    · dsimp only
      split <;> rfl
  · rfl

lemma postUpdates_response {decode : List UInt8 → Option (Update K)} {order : DocOrder K P}
    {entryJson : Nat → List UInt8} {s : DemoProvider K} {documentID : String} {ctx : CallContext}
    {req : StoreRequest K} {resp : Relay.StoreResponse}
    (hresp : (postUpdates decode order entryJson s documentID ctx req).2 = .ok resp) :
    resp.stored = req.updates.length ∧ resp.failed = [] := by
  simp only [postUpdates] at hresp
  rw [store_response] at hresp
  split at hresp <;> cases hresp
  simp [toStoreResponse, updates_resolveStore]

/-- The response is right exactly if there is nothing to report. -/
theorem reported_iff_all_applied (decode : List UInt8 → Option (Update K)) (order : DocOrder K P)
    (entryJson : Nat → List UInt8) (s : DemoProvider K) (documentID : String) (ctx : CallContext)
    (req : StoreRequest K) (resp : Relay.StoreResponse)
    (hresp : (postUpdates decode order entryJson s documentID ctx req).2 = .ok resp) :
    Reported decode documentID s (postUpdates decode order entryJson s documentID ctx req).1 req
        resp ↔ ∀ u ∈ req.updates, appliedUpdate decode u ≠ none := by
  obtain ⟨hstored, hfailed⟩ := postUpdates_response hresp
  have hseqs : resp.failedSeqs = [] := by rw [StoreResponse.failedSeqs, hfailed, map_nil]
  constructor
  · intro h u hu hnone
    have hmem := h.failed u hu hnone
    rw [hseqs] at hmem
    cases hmem
  · intro hall
    refine ⟨fun u hu hnone => absurd hnone (hall u hu), ?_, fun batch hbatch => ?_⟩
    · rw [engine_postUpdates, hstored]
      have hcount : (req.updates.filterMap (appliedUpdate decode)).length = req.updates.length := by
        rw [length_filterMap_eq_countP, countP_eq_length]
        exact fun u hu => Option.isSome_iff_ne_none.2 (hall u hu)
      rw [Doc.applyAll, length_append, hcount]
    · rw [flushResult, if_pos hfailed, filter_eq_nil_iff.2]
      intro u hu
      rw [Option.isNone_iff_eq_none]
      exact hall _ (hbatch ▸ mem_map_of_mem hu)

end

def emptyStore : FileStore Nat := ⟨fun _ => ⟨none, none, [], []⟩, false⟩

def halfBroken : StoreRequest Nat := ⟨[toPayload (typed typeA), ⟨2, ['!'], 5, 0⟩], [], ""⟩

lemma postUpdates_doc_ok (req : StoreRequest Nat) :
    ∃ resp, (postUpdates decodeTyped DocOrder.byId (fun _ => []) ⟨.new, emptyStore⟩ "doc"
      ⟨1, 1, 2⟩ req).2 = .ok resp := by
  have hvalid : validateDocID "doc".toList = true := by decide
  simp only [postUpdates]
  rw [store_response, if_pos hvalid]
  exact ⟨_, rfl⟩

theorem reported_typeAB :
    ∃ resp, (postUpdates decodeTyped DocOrder.byId (fun _ => []) ⟨.new, emptyStore⟩ "doc"
        ⟨1, 1, 2⟩ ⟨toPayloads [typed typeA, typed typeAB], [], ""⟩).2 = .ok resp ∧
      Reported decodeTyped "doc" ⟨.new, emptyStore⟩
        (postUpdates decodeTyped DocOrder.byId (fun _ => []) ⟨.new, emptyStore⟩ "doc" ⟨1, 1, 2⟩
          ⟨toPayloads [typed typeA, typed typeAB], [], ""⟩).1
        ⟨toPayloads [typed typeA, typed typeAB], [], ""⟩ resp := by
  obtain ⟨resp, hresp⟩ := postUpdates_doc_ok ⟨toPayloads [typed typeA, typed typeAB], [], ""⟩
  exact ⟨resp, hresp, (reported_iff_all_applied decodeTyped DocOrder.byId (fun _ => []) _ "doc" _ _
    resp hresp).2 (by decide +kernel)⟩

/-- The second update is skipped, and the response says that two are stored and none has failed. -/
theorem broken_update_not_reported : ¬ ∀ (req : StoreRequest Nat) (resp : Relay.StoreResponse),
      (postUpdates decodeTyped DocOrder.byId (fun _ => []) ⟨.new, emptyStore⟩ "doc" ⟨1, 1, 2⟩
          req).2 = .ok resp → Reported decodeTyped "doc" ⟨.new, emptyStore⟩
        (postUpdates decodeTyped DocOrder.byId (fun _ => []) ⟨.new, emptyStore⟩ "doc" ⟨1, 1, 2⟩
          req).1 req resp := by
  intro hevery
  obtain ⟨resp, hresp⟩ := postUpdates_doc_ok halfBroken
  have hskipped : appliedUpdate decodeTyped ⟨2, ['!'], 5, 0⟩ = none := by decide +kernel
  have hmem := (hevery halfBroken resp hresp).failed ⟨2, ['!'], 5, 0⟩
    (by simp [halfBroken]) hskipped
  rw [StoreResponse.failedSeqs, (postUpdates_response hresp).2] at hmem
  cases hmem

end CollabEditor.Spi

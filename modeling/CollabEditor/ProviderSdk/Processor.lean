import CollabEditor.ProviderSdk.DocCache
import CollabEditor.ProviderSdk.Engine
/-!
# The processors of the TypeScript and Python provider SDKs

`ProviderProcessor` of `provider.ts` and `provider.py`.  `processStore` applies a request to the doc
in the cache, or to one created from the stored text, and writes the doc's text back.
-/

namespace CollabEditor.ProviderSdk

open Support SharedText CollabEditor.Relay

variable {K : Type}

structure Content (K : Type) where
  content : List K
  mimeType : String
  deriving DecidableEq

/-- The processor with the documents its provider stores and the optional methods the
provider has. `created` counts the docs created. -/
structure Processor (K : Type) where
  contents : String → Content K
  hasStoreRawUpdates : Bool
  hasWriteContent : Bool
  cache : DocCache (Doc K)
  created : Nat

/-- The calls that a `processStore` makes to the provider, and the count it returns. -/
structure StoreResult (K : Type) where
  stored : Nat
  rawUpdates : Option (List UpdatePayload)
  written : Option (Content K)

namespace Processor

/-- The doc that a request for the document is applied to. `fresh n` is the client id
that the `n`-th new doc draws. -/
def docFor (fresh : Nat → Nat) (p : Processor K) (documentId : String) : Doc K :=
  (p.cache.lookup documentId).getD
    (createDocWithContent (fresh p.created) (p.contents documentId).content)

/-- Getting the doc from the cache, or creating it and putting it there. -/
def getOrCreate (fresh : Nat → Nat) (p : Processor K) (documentId : String) :
    Doc K × Processor K :=
  match p.cache.get documentId with
  | (some doc, cache) => (doc, { p with cache })
  | (none, cache) =>
    let doc := createDocWithContent (fresh p.created) (p.contents documentId).content
    (doc, { p with cache := cache.set documentId doc, created := p.created + 1 })

def processLoad (fresh : Nat → Nat) (p : Processor K) (documentId : String) :
    Processor K × Content K :=
  ((p.getOrCreate fresh documentId).2, p.contents documentId)

section

variable {P : Type} [LinearOrder P] [DecidableEq K]

/-- `processStore` and `process_store`. The Python version takes the MIME type from the
request if it has one. -/
def processStore (sdk : Sdk) (lib : Libraries) (decode : List UInt8 → Option (Update K))
    (order : DocOrder K P) (fresh : Nat → Nat) (p : Processor K) (documentId : String)
    (updates : List UpdatePayload) (mimeType : Option String) :
    Processor K × Except SdkError (StoreResult K) :=
  if updates.length = 0 then (p, .ok ⟨0, none, none⟩)
  else
    let (doc, p) := p.getOrCreate fresh documentId
    let (doc, result) := applyUpdates sdk lib decode doc 0 updates
    -- the doc in the cache has been changed in place
    let p := { p with cache := p.cache.set documentId doc }
    match result with
    | .error e => (p, .error e)
    | .ok applied =>
      let stored := (p.contents documentId).mimeType
      let resolved : Content K :=
        ⟨doc.text order, match sdk with
          | .typescript => stored
          | .python => mimeType.getD stored⟩
      ({ p with contents :=
          if p.hasWriteContent then Function.update p.contents documentId resolved
          else p.contents },
        .ok ⟨applied, if p.hasStoreRawUpdates then some updates else none,
          if p.hasWriteContent then some resolved else none⟩)

end

lemma getOrCreate_fst (fresh : Nat → Nat) (p : Processor K) (documentId : String) :
    (p.getOrCreate fresh documentId).1 = p.docFor fresh documentId := by
  rw [getOrCreate, docFor, DocCache.get]
  cases p.cache.lookup documentId <;> rfl

section

variable {P : Type} [LinearOrder P] [DecidableEq K] {sdk : Sdk} {lib : Libraries}
  {decode : List UInt8 → Option (Update K)} {order : DocOrder K P} {fresh : Nat → Nat}
  {p : Processor K} {documentId : String} {batch : List BufferedUpdate}
  {mimeType : Option String} {result : StoreResult K}

/-- What a request with frames of clients writes: the text of the document's doc with
the updates these frames brought to the room. -/
lemma processStore_written {c : Content K} (hframes : ∀ u ∈ batch, ClientFrame u.data)
    (hok : (p.processStore sdk lib decode order fresh documentId (toPayloads batch)
      mimeType).2 = .ok result) (hwritten : result.written = some c) :
    c.content = ((p.docFor fresh documentId).applyAll (batchUpdates decode batch)).text order := by
  rw [processStore] at hok
  split at hok
  · obtain rfl := Except.ok.inj hok
    cases hwritten
  · simp only [getOrCreate_fst] at hok
    split at hok
    · cases hok
    · rename_i applied happlied
      have hdoc := applyUpdates_toPayloads hframes happlied
      obtain rfl := Except.ok.inj hok
      simp only at hwritten
      obtain ⟨-, rfl⟩ := Option.ite_some_none_eq_some.1 hwritten
      exact congrArg (Doc.text order) hdoc

end

end Processor

end CollabEditor.ProviderSdk

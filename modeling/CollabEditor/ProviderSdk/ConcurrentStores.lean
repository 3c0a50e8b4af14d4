import CollabEditor.ProviderSdk.Processor
import CollabEditor.Support.Execution
/-!
# Overlapping requests of one document

`processStore` of `provider.ts`, cut at its `await`s.  Calls for one document share its doc through
the cache, and each writes the text that it has read some `await`s before.
-/

namespace CollabEditor.ProviderSdk

open Support SharedText Execution CollabEditor.Relay List Function Option

variable {K : Type}

def requestUpdates (lib : Libraries) (decode : List UInt8 → Option (Update K))
    (updates : List UpdatePayload) : List (Update K) :=
  (applyUpdates .typescript lib decode (.started 0 []) 0 updates).1.updates

lemma applyBase64Update_cases (sdk : Sdk) (lib : Libraries)
    (decode : List UInt8 → Option (Update K)) (data : List Char) :
    (∃ e, ∀ doc, applyBase64Update sdk lib decode doc data = .error e) ∨
      (∀ doc, applyBase64Update sdk lib decode doc data = .ok (doc, false)) ∨
      ∃ u, ∀ doc, applyBase64Update sdk lib decode doc data = .ok (doc.apply u, true) := by
  simp only [applyBase64Update]
  cases lib.base64Decode data with
  | none => exact .inl ⟨_, fun _ => rfl⟩
  | some raw =>
    cases hextract : sdk.extractYjsUpdate lib raw with
    | error e => exact .inl ⟨e, fun _ => by simp only [hextract]⟩
    | ok update =>
      cases update with
      | none => exact .inr (.inl fun _ => by simp only [hextract])
      | some bytes =>
        cases hdecode : decode bytes with
        | none => exact .inl ⟨.invalidUpdate, fun _ => by simp only [hextract, hdecode]⟩
        | some u => exact .inr (.inr ⟨u, fun _ => by simp only [hextract, hdecode]⟩)

lemma applyUpdates_fst (lib : Libraries) (decode : List UInt8 → Option (Update K))
    (doc : Doc K) (updates : List UpdatePayload) :
    (applyUpdates .typescript lib decode doc 0 updates).1 =
      doc.applyAll (requestUpdates lib decode updates) := by
  have hany (doc₁ doc₂ : Doc K) (n₁ n₂ : Nat) :
      ∃ us, (applyUpdates .typescript lib decode doc₁ n₁ updates).1 = doc₁.applyAll us ∧
        (applyUpdates .typescript lib decode doc₂ n₂ updates).1 = doc₂.applyAll us := by
    induction updates generalizing doc₁ doc₂ n₁ n₂ with
    | nil => exact ⟨[], by simp [applyUpdates], by simp [applyUpdates]⟩
    | cons u updates ih =>
      simp only [applyUpdates]
      obtain ⟨e, herror⟩ | hskip | ⟨v, happly⟩ :=
        applyBase64Update_cases .typescript lib decode u.data
      · exact ⟨[], by simp [herror], by simp [herror]⟩
      · simp only [hskip]
        exact ih _ _ _ _
      · simp only [happly]
        obtain ⟨us, h₁, h₂⟩ := ih (doc₁.apply v) (doc₂.apply v) _ _
        exact ⟨v :: us, by rw [h₁, Doc.applyAll_cons], by rw [h₂, Doc.applyAll_cons]⟩
  obtain ⟨us, hdoc, hstarted⟩ := hany doc (.started 0 []) 0 0
  rw [hdoc, requestUpdates, hstarted]
  simp [Doc.applyAll, Doc.started]

/-! ## Calls -/

/-- The text that a call has read from its doc, with the doc as it was then. `turn` counts the
texts read before. -/
structure Resolved (K : Type) where
  text : List K
  doc : Doc K
  turn : Nat
  deriving DecidableEq

/-- Where a call is: at the `await` of a request, with what the provider has answered so far, or
at its end. -/
inductive StorePhase (K : Type)
  | readingContent (answer : Option (Content K))
  | readingType (resolved : Resolved K) (answer : Option String)
  | storingRaw (resolved : Resolved K) (mimeType : String) (stored : Bool)
  | writing (resolved : Resolved K) (mimeType : String) (written : Bool)
  | done
  | failed
  deriving DecidableEq

def StorePhase.resolved : StorePhase K → Option (Resolved K)
  | .readingType r _ => some r
  | .storingRaw r _ _ => some r
  | .writing r _ _ => some r
  | _ => none

structure StoreCall (K : Type) where
  updates : List UpdatePayload
  phase : StorePhase K

structure StoreSetting (K P : Type) [LinearOrder P] where
  lib : Libraries
  decode : List UInt8 → Option (Update K)
  order : DocOrder K P
  fresh : Nat → Nat
  hasStoreRawUpdates : Bool
  hasWriteContent : Bool
  documentId : String

/-- The document with the calls that store it. `docs` are the docs created so far, to which the
cache and the calls refer; `resolved` and `writes` are the texts read from docs and written, in
order. -/
structure Stores (K : Type) where
  contents : Content K
  cache : DocCache Nat
  docs : Nat → Doc K
  created : Nat
  calls : List (StoreCall K)
  resolved : List (Resolved K)
  writes : List (Resolved K)

inductive StoreStep
  | call (updates : List UpdatePayload)
  /-- the provider does what the call waits for -/
  | answer (i : Nat)
  /-- the call goes on after an answer -/
  | resume (i : Nat)
  /-- the provider rejects what the call waits for -/
  | reject (i : Nat)

namespace Stores

variable {P : Type} [LinearOrder P]

def initial (contents : Content K) (cache : DocCache Nat) (docs : Nat → Doc K) (created : Nat) :
    Stores K :=
  ⟨contents, cache, docs, created, [], [], []⟩

def setPhase (s : Stores K) (i : Nat) (c : StoreCall K) (phase : StorePhase K) : Stores K :=
  { s with calls := s.calls.set i { c with phase } }

section

variable [DecidableEq K] (setting : StoreSetting K P)

def resolve (s : Stores K) (updates : List UpdatePayload) (ref : Nat) : Stores K × StorePhase K :=
  let result := applyUpdates .typescript setting.lib setting.decode (s.docs ref) 0 updates
  let s := { s with docs := update s.docs ref result.1 }
  match result.2 with
  | .error _ => (s, .failed)
  | .ok _ =>
    let r : Resolved K := ⟨result.1.text setting.order, result.1, s.resolved.length⟩
    ({ s with resolved := s.resolved ++ [r] }, .readingType r none)

def beginCall (s : Stores K) (updates : List UpdatePayload) : Stores K × StorePhase K :=
  if updates.length = 0 then (s, .done)
  else
    match s.cache.get setting.documentId with
    | (some ref, cache) => resolve setting { s with cache } updates ref
    | (none, cache) => ({ s with cache }, .readingContent none)

def afterRaw (r : Resolved K) (mimeType : String) : StorePhase K :=
  if setting.hasWriteContent then .writing r mimeType false else .done

def afterType (r : Resolved K) (mimeType : String) : StorePhase K :=
  if setting.hasStoreRawUpdates then .storingRaw r mimeType false
  else afterRaw setting r mimeType

def answer (s : Stores K) (i : Nat) (c : StoreCall K) : Option (Stores K) :=
  match c.phase with
  | .readingContent none => some (s.setPhase i c (.readingContent (some s.contents)))
  | .readingType r none => some (s.setPhase i c (.readingType r (some s.contents.mimeType)))
  | .storingRaw r mimeType false => some (s.setPhase i c (.storingRaw r mimeType true))
  | .writing r mimeType false =>
    some { s.setPhase i c (.writing r mimeType true) with
      contents := ⟨r.text, mimeType⟩, writes := s.writes ++ [r] }
  | _ => none

/-- The first `readContent` has been answered: the doc made from the text takes the place of
whatever the cache has by now. -/
def createDoc (s : Stores K) (updates : List UpdatePayload) (content : List K) :
    Stores K × StorePhase K :=
  let ref := s.created
  let doc := createDocWithContent (setting.fresh ref) content
  resolve setting { s with
    docs := update s.docs ref doc
    cache := s.cache.set setting.documentId ref
    created := ref + 1 } updates ref

def resume (s : Stores K) (i : Nat) (c : StoreCall K) : Option (Stores K) :=
  match c.phase with
  | .readingContent (some content) =>
    let next := createDoc setting s c.updates content.content
    some (next.1.setPhase i c next.2)
  | .readingType r (some mimeType) => some (s.setPhase i c (afterType setting r mimeType))
  | .storingRaw r mimeType true => some (s.setPhase i c (afterRaw setting r mimeType))
  | .writing _ _ true => some (s.setPhase i c .done)
  | _ => none

def reject (s : Stores K) (i : Nat) (c : StoreCall K) : Option (Stores K) :=
  match c.phase with
  | .done => none
  | .failed => none
  | _ => some (s.setPhase i c .failed)

def step (s : Stores K) : StoreStep → Option (Stores K)
  | .call updates =>
    let next := beginCall setting s updates
    some { next.1 with calls := next.1.calls ++ [⟨updates, next.2⟩] }
  | .answer i => s.calls[i]?.bind (s.answer i)
  | .resume i => s.calls[i]?.bind (resume setting s i)
  | .reject i => s.calls[i]?.bind (s.reject i)

end

end Stores

/-! ## What the last write reflects -/

section

variable {P : Type} [LinearOrder P] {setting : StoreSetting K P} {s t : Stores K}
  {c : StoreCall K} {i : Nat}

def StorePhase.creates : StorePhase K → Bool
  | .readingContent (some _) => true
  | _ => false

def StorePhase.toWrite : StorePhase K → Option (Resolved K)
  | .writing r _ false => some r
  | _ => none

/-- A call creates a doc only while the cache has none, and texts are written in the order in
which they were read from the doc. -/
def KeepsOrder (setting : StoreSetting K P) (s : Stores K) : StoreStep → Prop
  | .resume i => ∀ c ∈ s.calls[i]?, c.phase.creates = true →
      s.cache.lookup setting.documentId = none
  | .answer i => ∀ c ∈ s.calls[i]?, ∀ r ∈ c.phase.toWrite, ∀ w ∈ s.writes, w.turn < r.turn
  | .call _ => True
  | .reject _ => True

instance (setting : StoreSetting K P) (s : Stores K) (a : StoreStep) :
    Decidable (KeepsOrder setting s a) := by
  rcases a with ⟨⟩ <;> dsimp only [KeepsOrder] <;> infer_instance

structure CallOk (setting : StoreSetting K P) (s : Stores K) (c : StoreCall K) : Prop where
  held : ∀ r ∈ c.phase.resolved, r ∈ s.resolved ∧
    requestUpdates setting.lib setting.decode c.updates ⊆ r.doc.updates
  written : ∀ r mimeType, c.phase = .writing r mimeType true → r ∈ s.writes
  finished : c.phase = .done → c.updates ≠ [] → setting.hasWriteContent = true →
    ∃ w ∈ s.writes, requestUpdates setting.lib setting.decode c.updates ⊆ w.doc.updates

lemma CallOk.mono (h : CallOk setting s c) (hresolved : s.resolved ⊆ t.resolved)
    (hwrites : s.writes ⊆ t.writes) : CallOk setting t c where
  held r hr := ⟨hresolved (h.held r hr).1, (h.held r hr).2⟩
  written r m hphase := hwrites (h.written r m hphase)
  finished hdone hne hwrite :=
    (h.finished hdone hne hwrite).imp fun _ hw => ⟨hwrites hw.1, hw.2⟩

lemma callOk_of_idle (hresolved : c.phase.resolved = none) (hdone : c.phase ≠ .done) :
    CallOk setting s c where
  held r hr := by
    rw [hresolved] at hr
    cases hr
  written r m hphase := by
    rw [hphase] at hresolved
    cases hresolved
  finished h := absurd h hdone

section

variable (h : CallOk setting s c)
include h

lemma CallOk.move {phase : StorePhase K} (hresolved : ∀ r ∈ phase.resolved, r ∈ c.phase.resolved)
    (hwritten : ∀ r mimeType, phase ≠ .writing r mimeType true)
    (hdone : phase = .done → setting.hasWriteContent = false) :
    CallOk setting s { c with phase } where
  held r hr := h.held r (hresolved r hr)
  written r m hphase := absurd hphase (hwritten r m)
  finished hphase _ hwrite := by
    rw [hdone hphase] at hwrite
    cases hwrite

lemma CallOk.afterRaw {r : Resolved K} (hr : c.phase.resolved = some r) (mimeType : String) :
    CallOk setting s { c with phase := Stores.afterRaw setting r mimeType } := by
  unfold Stores.afterRaw
  split
  · exact h.move (by rw [hr]; exact fun _ hr' => hr') (by simp) (by simp)
  · rename_i hwrite
    exact h.move (by simp [StorePhase.resolved]) (by simp) fun _ => Bool.eq_false_iff.2 hwrite

lemma CallOk.afterType {r : Resolved K} (hr : c.phase.resolved = some r) (mimeType : String) :
    CallOk setting s { c with phase := Stores.afterType setting r mimeType } := by
  unfold Stores.afterType
  split
  · exact h.move (by rw [hr]; exact fun _ hr' => hr') (by simp) (by simp)
  · exact h.afterRaw hr mimeType

end

variable [DecidableEq K]

/-- The text stored last was read from a doc that had been given the updates of every call that
has finished. -/
def Reflected (setting : StoreSetting K P) (s : Stores K) : Prop :=
  ∀ c ∈ s.calls, c.phase = .done → c.updates ≠ [] → setting.hasWriteContent = true →
    ∃ w ∈ s.writes.getLast?, s.contents.content = w.text ∧ w.text = w.doc.text setting.order ∧
      requestUpdates setting.lib setting.decode c.updates ⊆ w.doc.updates
  deriving Decidable

/-- One doc is behind all texts, each of which was read from it when it had all that it had at the
turns before. -/
structure OneDoc (setting : StoreSetting K P) (s : Stores K) : Prop where
  current : ∀ r ∈ s.resolved, ∃ ref, s.cache.lookup setting.documentId = some ref ∧
    r.doc.updates <+: (s.docs ref).updates
  text : ∀ r ∈ s.resolved, r.text = r.doc.text setting.order
  turn : ∀ r ∈ s.resolved, r.turn < s.resolved.length
  chain : ∀ a ∈ s.resolved, ∀ b ∈ s.resolved, a.turn < b.turn → a.doc.updates <+: b.doc.updates
  written : s.writes ⊆ s.resolved
  sorted : s.writes.Pairwise (·.turn < ·.turn)
  contents : ∀ w ∈ s.writes.getLast?, s.contents.content = w.text

structure StoreInv (setting : StoreSetting K P) (s : Stores K) : Prop where
  doc : OneDoc setting s
  calls : ∀ c ∈ s.calls, CallOk setting s c

lemma StoreInv.reflected (h : StoreInv setting s) : Reflected setting s := by
  intro c hc hdone hne hwrite
  obtain ⟨w, hw, hsub⟩ := (h.calls c hc).finished hdone hne hwrite
  obtain ⟨earlier, last, heq⟩ :=
    (eq_nil_or_concat' s.writes).resolve_left (ne_nil_of_mem hw)
  have hlast : last ∈ s.writes := by simp [heq]
  refine ⟨last, by simp [heq], h.doc.contents last (by simp [heq]),
    h.doc.text last (h.doc.written hlast), fun u hu => ?_⟩
  have hle : w = last ∨ w.turn < last.turn := by
    have hsorted := h.doc.sorted
    rw [heq] at hw hsorted
    rcases mem_append.1 hw with hearlier | hsame
    · exact .inr ((pairwise_append.1 hsorted).2.2 w hearlier last (mem_singleton_self _))
    · exact .inl (mem_singleton.1 hsame)
  rcases hle with rfl | hlt
  · exact hsub hu
  · exact (h.doc.chain w (h.doc.written hw) last (h.doc.written hlast) hlt).subset (hsub hu)

/-! ### One step -/

structure Resolves (setting : StoreSetting K P) (s : Stores K) (updates : List UpdatePayload)
    (next : Stores K × StorePhase K) : Prop where
  doc : OneDoc setting next.1
  call : CallOk setting next.1 ⟨updates, next.2⟩
  resolved : s.resolved ⊆ next.1.resolved
  writes : s.writes ⊆ next.1.writes
  calls : next.1.calls = s.calls

section

variable (h : OneDoc setting s)
include h

lemma OneDoc.grow {ref : Nat} {doc : Doc K}
    (hcached : s.cache.lookup setting.documentId = some ref)
    (hpre : (s.docs ref).updates <+: doc.updates) :
    OneDoc setting { s with docs := update s.docs ref doc } := by
  refine { h with current := fun r hr => ?_ }
  obtain ⟨ref', hcached', hold⟩ := h.current r hr
  obtain rfl : ref = ref' := mem_unique hcached hcached'
  exact ⟨ref, hcached, by simpa using hold.trans hpre⟩

lemma OneDoc.read {ref : Nat} (hcached : s.cache.lookup setting.documentId = some ref) :
    OneDoc setting { s with resolved := s.resolved ++
      [⟨(s.docs ref).text setting.order, s.docs ref, s.resolved.length⟩] } where
  current r hr := by
    rcases mem_snoc.1 hr with hold | rfl
    · exact h.current r hold
    · exact ⟨ref, hcached, prefix_refl _⟩
  text r hr := by
    rcases mem_snoc.1 hr with hold | rfl
    · exact h.text r hold
    · rfl
  turn r hr := by
    rw [length_append, length_singleton]
    rcases mem_snoc.1 hr with hold | rfl
    · exact Nat.lt_succ_of_lt (h.turn r hold)
    · exact Nat.lt_succ_self _
  chain a ha b hb hlt := by
    rcases mem_append.1 ha with ha | ha <;> rcases mem_append.1 hb with hb | hb
    · exact h.chain a ha b hb hlt
    · obtain rfl := mem_singleton.1 hb
      obtain ⟨ref', hcached', hpre⟩ := h.current a ha
      obtain rfl : ref = ref' := mem_unique hcached hcached'
      exact hpre
    · -- no text has been read after the new one
      obtain rfl := mem_singleton.1 ha
      exact absurd (h.turn b hb) (Nat.not_lt_of_lt hlt)
    · obtain rfl := mem_singleton.1 ha
      obtain rfl := mem_singleton.1 hb
      exact absurd hlt (Nat.lt_irrefl _)
  written _ hw := mem_append_left _ (h.written hw)
  sorted := h.sorted
  contents := h.contents

lemma OneDoc.resolve (updates : List UpdatePayload) {ref : Nat}
    (hcached : s.cache.lookup setting.documentId = some ref) :
    Resolves setting s updates (Stores.resolve setting s updates ref) := by
  have hdoc := applyUpdates_fst setting.lib setting.decode (s.docs ref) updates
  have hpre : (s.docs ref).updates <+: ((s.docs ref).applyAll
      (requestUpdates setting.lib setting.decode updates)).updates := prefix_append _ _
  have hgrown := h.grow hcached hpre
  simp only [Stores.resolve, hdoc]
  split
  · exact ⟨hgrown, callOk_of_idle rfl (by simp), List.Subset.refl _, List.Subset.refl _, rfl⟩
  · have hread := hgrown.read hcached
    simp only [update_self] at hread
    refine ⟨hread, ⟨fun r hr => ?_, by simp, by simp⟩, subset_append_left _ _,
      List.Subset.refl _, rfl⟩
    cases hr
    exact ⟨by simp, subset_append_right _ _⟩

lemma OneDoc.beginCall (updates : List UpdatePayload) :
    Resolves setting s updates (Stores.beginCall setting s updates) := by
  simp only [Stores.beginCall]
  split
  · rename_i hempty
    have hnil : updates = [] := length_eq_zero_iff.1 hempty
    exact ⟨h, ⟨by simp [StorePhase.resolved], by simp, fun _ hne => absurd hnil hne⟩,
      List.Subset.refl _, List.Subset.refl _, rfl⟩
  · simp only [DocCache.get]
    cases hcached : s.cache.lookup setting.documentId with
    | none => exact ⟨h, callOk_of_idle rfl (by simp), List.Subset.refl _, List.Subset.refl _, rfl⟩
    | some ref =>
      have hused : OneDoc setting { s with cache := s.cache.set setting.documentId ref } := by
        refine { h with current := fun r hr => ?_ }
        obtain ⟨ref', hcached', hpre⟩ := h.current r hr
        obtain rfl : ref = ref' := mem_unique hcached hcached'
        exact ⟨ref, s.cache.lookup_set_self _ _, hpre⟩
      have hresolves := hused.resolve updates (s.cache.lookup_set_self _ _)
      exact { hresolves with }

lemma OneDoc.createDoc (updates : List UpdatePayload) (content : List K)
    (hnone : s.cache.lookup setting.documentId = none) :
    Resolves setting s updates (Stores.createDoc setting s updates content) := by
  have hresolved : s.resolved = [] := by
    refine eq_nil_iff_forall_not_mem.2 fun r hr => ?_
    obtain ⟨ref, hcached, -⟩ := h.current r hr
    rw [hnone] at hcached
    cases hcached
  have hcreated : OneDoc setting { s with
      docs := update s.docs s.created
        (createDocWithContent (setting.fresh s.created) content)
      cache := s.cache.set setting.documentId s.created
      created := s.created + 1 } := by
    refine { h with current := fun r hr => ?_ }
    rw [hresolved] at hr
    cases hr
  have hresolves := hcreated.resolve updates (s.cache.lookup_set_self _ _)
  exact { hresolves with }

/-- The provider writes the text that a call holds, after all those read before it. -/
lemma OneDoc.write {r : Resolved K} (hr : r ∈ s.resolved)
    (hturn : ∀ w ∈ s.writes, w.turn < r.turn) (mimeType : String) :
    OneDoc setting { s with contents := ⟨r.text, mimeType⟩, writes := s.writes ++ [r] } where
  current := h.current
  text := h.text
  turn := h.turn
  chain := h.chain
  written := append_subset.2 ⟨h.written, cons_subset.2 ⟨hr, nil_subset _⟩⟩
  sorted := by
    refine pairwise_append.2 ⟨h.sorted, pairwise_singleton _ _, fun w hw r' hr' => ?_⟩
    obtain rfl := mem_singleton.1 hr'
    exact hturn w hw
  contents w hw := by
    simp only [getLast?_concat, mem_def, some.injEq] at hw
    exact hw ▸ rfl

end

section

variable (h : StoreInv setting s)
include h

lemma StoreInv.setPhase {next : Stores K × StorePhase K}
    (hnext : Resolves setting s c.updates next) :
    StoreInv setting (next.1.setPhase i c next.2) where
  doc := { hnext.doc with }
  calls c' hc' := by
    rcases mem_or_eq_of_mem_set hc' with hold | rfl
    · exact (h.calls c' (hnext.calls ▸ hold)).mono hnext.resolved hnext.writes
    · exact hnext.call.mono (List.Subset.refl _) (List.Subset.refl _)

lemma StoreInv.move {phase : StorePhase K} (hcall : CallOk setting s { c with phase }) :
    StoreInv setting (s.setPhase i c phase) := by
  have hnext : Resolves setting s c.updates (s, phase) :=
    ⟨h.doc, hcall, List.Subset.refl _, List.Subset.refl _, rfl⟩
  exact h.setPhase hnext

lemma StoreInv.answer (hc : c ∈ s.calls)
    (hturn : ∀ r ∈ c.phase.toWrite, ∀ w ∈ s.writes, w.turn < r.turn) (hs : s.answer i c = some t) :
    StoreInv setting t := by
  have hcall := h.calls c hc
  simp only [Stores.answer] at hs
  split at hs
  · cases hs
    exact h.move (callOk_of_idle rfl (by simp))
  · rename_i r hphase
    cases hs
    exact h.move (hcall.move (by simp [hphase, StorePhase.resolved]) (by simp) (by simp))
  · rename_i r mimeType hphase
    cases hs
    exact h.move (hcall.move (by simp [hphase, StorePhase.resolved]) (by simp) (by simp))
  · rename_i r mimeType hphase
    cases hs
    have hheld := hcall.held r (by rw [hphase]; rfl)
    have hdoc := h.doc.write hheld.1 (hturn r (by rw [hphase]; rfl)) mimeType
    have hnext : Resolves setting s c.updates ({ s with
        contents := ⟨r.text, mimeType⟩, writes := s.writes ++ [r] }, .writing r mimeType true) := by
      refine ⟨hdoc, ⟨fun r' hr' => ?_, fun r' m hphase' => ?_, by simp⟩, List.Subset.refl _,
        subset_append_left _ _, rfl⟩
      · cases hr'
        exact hheld
      · obtain ⟨rfl, -, -⟩ := StorePhase.writing.inj hphase'
        exact mem_concat_self
    exact h.setPhase hnext
  · cases hs

lemma StoreInv.resume (hc : c ∈ s.calls)
    (hcreates : c.phase.creates = true → s.cache.lookup setting.documentId = none)
    (hs : Stores.resume setting s i c = some t) : StoreInv setting t := by
  have hcall := h.calls c hc
  simp only [Stores.resume] at hs
  split at hs
  · rename_i content hphase
    cases hs
    exact h.setPhase (h.doc.createDoc c.updates content.content (hcreates (by rw [hphase]; rfl)))
  · rename_i r mimeType hphase
    cases hs
    exact h.move (hcall.afterType (by rw [hphase]; rfl) mimeType)
  · rename_i r mimeType hphase
    cases hs
    exact h.move (hcall.afterRaw (by rw [hphase]; rfl) mimeType)
  · rename_i r mimeType hphase
    cases hs
    -- the call has written the text it holds
    refine h.move ⟨by simp [StorePhase.resolved], by simp, fun _ _ _ => ?_⟩
    exact ⟨r, hcall.written r mimeType hphase, (hcall.held r (by rw [hphase]; rfl)).2⟩
  · cases hs

lemma StoreInv.step {a : StoreStep} (hok : KeepsOrder setting s a)
    (hs : Stores.step setting s a = some t) : StoreInv setting t := by
  cases a with
  | call updates =>
    cases hs
    have hbegin := h.doc.beginCall updates
    refine ⟨{ hbegin.doc with }, fun c hc => ?_⟩
    rcases mem_snoc.1 hc with hold | rfl
    · exact (h.calls c (hbegin.calls ▸ hold)).mono hbegin.resolved hbegin.writes
    · exact hbegin.call.mono (List.Subset.refl _) (List.Subset.refl _)
  | answer i =>
    obtain ⟨c, hc, hs⟩ := bind_eq_some_iff.1 hs
    exact h.answer (mem_of_getElem? hc) (hok c hc) hs
  | resume i =>
    obtain ⟨c, hc, hs⟩ := bind_eq_some_iff.1 hs
    exact h.resume (mem_of_getElem? hc) (hok c hc) hs
  | reject i =>
    obtain ⟨c, -, hs⟩ := bind_eq_some_iff.1 hs
    simp only [Stores.reject] at hs
    split at hs <;> cases hs
    exact h.move (callOk_of_idle rfl (by simp))

end

/-- For every document and provider, from every state of the cache: in every run in which calls
keep the order, the text stored last reflects the updates of all calls that have finished. -/
theorem reflected_of_keepsOrder (setting : StoreSetting K P) (contents : Content K)
    (cache : DocCache Nat) (docs : Nat → Doc K) (created : Nat) {s : Stores K}
    (hrun : Run (Stores.step setting) (KeepsOrder setting)
      (.initial contents cache docs created) s) : Reflected setting s := by
  have hinv : StoreInv setting s := by
    refine hrun.invariant (P := StoreInv setting) ?_ fun _ _ _ h hok hs => h.step hok hs
    exact ⟨⟨by simp [Stores.initial], by simp [Stores.initial], by simp [Stores.initial],
      by simp [Stores.initial], List.Subset.refl _, .nil, by simp [Stores.initial]⟩,
      by simp [Stores.initial]⟩
  exact hinv.reflected

end

def textSetting : StoreSetting Nat (Nat ×ₗ Nat ×ₗ Nat) :=
  ⟨.standard, decodeTyped, .byId, (1000 + ·), false, true, "doc"⟩

def emptyDocument : Stores Nat :=
  .initial ⟨[], "text/plain"⟩ (.empty 1 Nat.one_pos) (fun _ => .started 0 []) 0

def storeTyped (payload : List UInt8) : StoreStep := .call [toPayload (typed payload)]

/-- The second call begins while the provider has still to answer the second `readContent` of the
first one. -/
theorem reflected_overlapping :
    ∃ s, Run (Stores.step textSetting) (KeepsOrder textSetting) emptyDocument s ∧
      (∀ c ∈ s.calls, c.phase = .done) ∧ s.contents.content = [0x61, 0x62] ∧
      Reflected textSetting s :=
  exists_run_imp
    [storeTyped typeA, .answer 0, .resume 0, storeTyped typeAB, .answer 1, .answer 0, .resume 0,
      .answer 0, .resume 1, .answer 1, .resume 1, .resume 0]
    (P := fun s => (∀ c ∈ s.calls, c.phase = .done) ∧ s.contents.content = [0x61, 0x62])
    (by decide +kernel) fun _ hrun ⟨hdone, hcontent⟩ =>
      ⟨hdone, hcontent, reflected_of_keepsOrder textSetting _ _ _ _ hrun⟩

/-- Both calls change one doc, and the text that was read first is written last; or both find no doc
in the cache and create one each. -/
theorem overlapping_store_lost : (∃ s, Run (Stores.step textSetting) anyStep emptyDocument s ∧
      (∀ c ∈ s.calls, c.phase = .done) ∧ s.writes.map (·.text) = [[0x61, 0x62], [0x61]] ∧
      s.contents.content = [0x61] ∧ ¬ Reflected textSetting s) ∧
    ∃ s, Run (Stores.step textSetting) anyStep emptyDocument s ∧
      (∀ c ∈ s.calls, c.phase = .done) ∧ s.contents.content = [] ∧ ¬ Reflected textSetting s :=
  ⟨exists_run
      [storeTyped typeA, .answer 0, .resume 0, storeTyped typeAB, .answer 0, .answer 1, .resume 0,
        .resume 1, .answer 1, .answer 0, .resume 0, .resume 1]
      (by decide +kernel),
    exists_run
      [storeTyped typeA, storeTyped typeAB, .answer 0, .answer 1, .resume 0, .resume 1, .answer 0,
        .answer 1, .resume 0, .resume 1, .answer 0, .answer 1, .resume 0, .resume 1]
      (by decide +kernel)⟩

end CollabEditor.ProviderSdk

import CollabEditor.Support.Execution
import CollabEditor.Relay.StateStore
/-!
# Creating a room while siblings edit

The callback that `HandleConnection` in `internal/relay/server.go` passes to `GetOrCreate`.  Sibling
pods apply updates meanwhile, publish each as a frame, write it to the log and publish it once more,
unframed.  A doc is the list of updates applied to it, and no channel buffer fills.
-/

namespace CollabEditor.Relay

open Support.Execution List

variable {α : Type}

/-- What travels on the document's channel: a client's frame, or the bare payload
that `AppendUpdate` publishes. -/
inductive ChannelMessage (α : Type)
  | frame (u : α)
  | payload (u : α)

inductive CreationPhase
  | start
  | snapshotRead (snapOff : Int)
  | tailRead
  | flushLoopStarted
  | subscribed
  | peerAdded
  deriving DecidableEq

def CreationPhase.receives : CreationPhase → Bool
  | .subscribed => true
  | .peerAdded => true
  | _ => false

/-- `logged` remembers what had been appended when the log tail was read. -/
structure CreationState (α : Type) where
  keys : StateKeys α
  applied : List α
  published : List α
  appended : List α
  phase : CreationPhase
  doc : List α
  logged : List α
  channel : List (ChannelMessage α)

def CreationState.initial (keys : StateKeys α) : CreationState α :=
  ⟨keys, [], [], [], .start, [], [], []⟩

inductive CreationAction (α : Type)
  | siblingApply (u : α)
  | siblingPublish (u : α)
  | siblingAppend (u : α)
  | siblingPublishPayload (u : α)
  | readSnapshot
  | readLogTail
  | startFlushLoop
  | subscribe
  | addBrokerPeer
  | deliver

def CreationState.publish (s : CreationState α) (m : ChannelMessage α) : CreationState α :=
  { s with channel := if s.phase.receives then s.channel ++ [m] else s.channel }

/-- `handleMessage` of the new pod on a delivered message. A bare payload starts with
the number of clients in the update: it is taken for a frame of another type and
only broadcast, or, for a count of zero, fails to parse as a sync frame. -/
def handleDelivery (doc : List α) : ChannelMessage α → List α
  | .frame u => doc ++ [u]
  | .payload _ => doc

/-- One step of the callback, of a sibling, or of the new pod's broker read loop. -/
def creationStep [DecidableEq α] (s : CreationState α) :
    CreationAction α → Option (CreationState α)
  | .siblingApply u => some { s with applied := s.applied ++ [u] }
  | .siblingPublish u =>
    if u ∈ s.applied then
      some { s.publish (.frame u) with published := s.published ++ [u] }
    else none
  | .siblingAppend u =>
    if u ∈ s.applied then
      some { s with keys := s.keys.appendUpdate u, appended := s.appended ++ [u] }
    else none
  | .siblingPublishPayload u =>
    if u ∈ s.appended then some (s.publish (.payload u)) else none
  | .readSnapshot =>
    match s.phase, s.keys.readSnapshot with
    | .start, (some snap, snapOff) =>
      some { s with doc := s.doc ++ snap, phase := .snapshotRead snapOff }
    | _, _ => none
  | .readLogTail =>
    match s.phase with
    | .snapshotRead snapOff =>
      some { s with
        doc := s.doc ++ (s.keys.readLogTail snapOff).1
        logged := s.appended
        phase := .tailRead }
    | _ => none
  | .startFlushLoop =>
    match s.phase with
    | .tailRead => some { s with phase := .flushLoopStarted }
    | _ => none
  | .subscribe =>
    match s.phase with
    | .flushLoopStarted => some { s with phase := .subscribed }
    | _ => none
  | .addBrokerPeer =>
    match s.phase with
    | .subscribed => some { s with phase := .peerAdded }
    | _ => none
  | .deliver =>
    match s.phase, s.channel with
    | .peerAdded, m :: rest => some { s with doc := handleDelivery s.doc m, channel := rest }
    | _, _ => none

/-- Once the callback is done and all deliveries are handled, the new pod's doc has
every update that a sibling has published and appended. -/
def CaughtUp (s : CreationState α) : Prop :=
  s.phase = .peerAdded → s.channel = [] → ∀ u ∈ s.published, u ∈ s.appended → u ∈ s.doc

instance [DecidableEq α] (s : CreationState α) : Decidable (CaughtUp s) :=
  inferInstanceAs (Decidable (_ → _ → _))

/-- The two delivery paths overlap: whatever is published before the subscription was
appended before the log tail is read. -/
def WindowsOverlap (s : CreationState α) : CreationAction α → Prop
  | .readLogTail => ∀ u ∈ s.published, u ∈ s.appended
  | .siblingPublish u => s.phase = .tailRead ∨ s.phase = .flushLoopStarted → u ∈ s.logged
  | _ => True

instance [DecidableEq α] (s : CreationState α) (a : CreationAction α) :
    Decidable (WindowsOverlap s a) := by
  unfold WindowsOverlap
  split <;> infer_instance

/-! ## The store as the callback sees it -/

/-- The log keeps what is appended, and the offset read with the snapshot stays
behind the trimmed part. -/
structure CreationStoreInv (s : CreationState α) : Prop where
  logged : ∀ u ∈ s.appended, u ∈ s.keys.log
  offset : s.keys.OffsetBehindTrim
  snapOff : ∀ off, s.phase = .snapshotRead off → ∃ n : Nat, off = n ∧ n ≤ s.keys.snapOff.getD 0

/-- What has been published is on its way: it was in the log that was read, or it is
in the doc or still in the channel. -/
def PublishedInv (s : CreationState α) : Prop :=
  match s.phase with
  | .start | .snapshotRead _ => True
  | .tailRead | .flushLoopStarted => ∀ u ∈ s.published, u ∈ s.logged
  | .subscribed | .peerAdded => ∀ u ∈ s.published, u ∈ s.doc ∨ .frame u ∈ s.channel

structure CreationInv (s : CreationState α) : Prop where
  store : CreationStoreInv s
  replayed : ∀ u ∈ s.logged, u ∈ s.doc
  published : PublishedInv s

variable {s t : CreationState α} {a : CreationAction α}

section

variable (h : CreationStoreInv s)
include h

lemma CreationStoreInv.publish (m : ChannelMessage α) (published : List α) :
    CreationStoreInv { s.publish m with published } :=
  { h with }

lemma CreationStoreInv.append (u : α) :
    CreationStoreInv { s with keys := s.keys.appendUpdate u, appended := s.appended ++ [u] } where
  logged := by
    intro v hv
    rcases mem_append.1 hv with hold | hnew
    · exact mem_append_left _ (h.logged v hold)
    · exact mem_append_right _ hnew
  offset := h.offset.appendUpdate u
  snapOff := h.snapOff

lemma CreationStoreInv.appended_in_tail {off : Int} (hphase : s.phase = .snapshotRead off) :
    ∀ u ∈ s.appended, u ∈ (s.keys.readLogTail off).1 := by
  obtain ⟨n, rfl, hn⟩ := h.snapOff off hphase
  rw [StateKeys.readLogTail_eq_log h.offset hn]
  exact h.logged

end

lemma PublishedInv.publish (h : PublishedInv s) (m : ChannelMessage α) {published : List α}
    (hnew : ∀ u ∈ published, u ∈ s.published ∨
      m = .frame u ∧ (s.phase = .tailRead ∨ s.phase = .flushLoopStarted → u ∈ s.logged)) :
    PublishedInv { s.publish m with published } := by
  unfold PublishedInv CreationState.publish at *
  simp only
  cases hphase : s.phase
  case start | snapshotRead => trivial
  case tailRead | flushLoopStarted =>
    rw [hphase] at h
    intro u hu
    rcases hnew u hu with hold | ⟨-, hlogged⟩
    · exact h u hold
    · exact hlogged (by simp [hphase])
  case subscribed | peerAdded =>
    rw [hphase] at h
    intro u hu
    rcases hnew u hu with hold | ⟨rfl, -⟩
    · exact (h u hold).imp_right (mem_append_left _)
    · exact .inr (mem_concat_self)

lemma CreationInv.publish (h : CreationInv s) (m : ChannelMessage α) {published : List α}
    (hnew : ∀ u ∈ published, u ∈ s.published ∨
      m = .frame u ∧ (s.phase = .tailRead ∨ s.phase = .flushLoopStarted → u ∈ s.logged)) :
    CreationInv { s.publish m with published } where
  store := h.store.publish m published
  replayed := h.replayed
  published := h.published.publish m hnew

/-- The read of the log tail finds everything appended, and by the condition on the
run that includes everything published. -/
lemma CreationInv.readLogTail (h : CreationInv s) {off : Int}
    (hphase : s.phase = .snapshotRead off) (hok : ∀ u ∈ s.published, u ∈ s.appended) :
    CreationInv { s with
      doc := s.doc ++ (s.keys.readLogTail off).1
      logged := s.appended
      phase := .tailRead } where
  store := { h.store with snapOff := by simp }
  replayed := fun u hu => mem_append_right _ (h.store.appended_in_tail hphase u hu)
  published := hok

lemma PublishedInv.logged (h : PublishedInv s)
    (hphase : s.phase = .tailRead ∨ s.phase = .flushLoopStarted) :
    ∀ u ∈ s.published, u ∈ s.logged := by
  unfold PublishedInv at h
  obtain hphase | hphase := hphase <;> rwa [hphase] at h

lemma PublishedInv.delivered (h : PublishedInv s)
    (hphase : s.phase = .subscribed ∨ s.phase = .peerAdded) :
    ∀ u ∈ s.published, u ∈ s.doc ∨ .frame u ∈ s.channel := by
  unfold PublishedInv at h
  obtain hphase | hphase := hphase <;> rwa [hphase] at h

lemma CreationInv.deliver (h : CreationInv s) (hphase : s.phase = .peerAdded)
    {m : ChannelMessage α} {rest : List (ChannelMessage α)} (hchannel : s.channel = m :: rest) :
    CreationInv { s with doc := handleDelivery s.doc m, channel := rest } := by
  have hdoc : ∀ u ∈ s.doc, u ∈ handleDelivery s.doc m := by
    intro u hu
    cases m with
    | frame v => exact mem_append_left _ hu
    | payload v => exact hu
  refine ⟨{ h.store with }, fun u hu => hdoc u (h.replayed u hu),
    ?_⟩
  have hpublished := h.published.delivered (.inr hphase)
  rw [hchannel] at hpublished
  unfold PublishedInv
  rw [hphase]
  intro u hu
  rcases hpublished u hu with hmem | hmem
  · exact .inl (hdoc u hmem)
  · rcases mem_cons.1 hmem with rfl | hrest
    · exact .inl (mem_concat_self)
    · exact .inr hrest

lemma CreationInv.enter (h : CreationInv s) {phase : CreationPhase}
    (hphase : ∀ off, phase ≠ .snapshotRead off) (hpublished : PublishedInv { s with phase }) :
    CreationInv { s with phase } :=
  ⟨{ h.store with snapOff := fun off hoff => absurd hoff (hphase off) }, h.replayed,
    hpublished⟩

lemma creationInv_initial {keys : StateKeys α} (hkeys : keys.OffsetBehindTrim) :
    CreationInv (.initial keys) where
  store := ⟨by simp [CreationState.initial], hkeys, by simp [CreationState.initial]⟩
  replayed := by simp [CreationState.initial]
  published := trivial

lemma creationInv_step [DecidableEq α] (h : CreationInv s) (hok : WindowsOverlap s a)
    (hs : creationStep s a = some t) : CreationInv t := by
  cases a with
  | siblingApply u =>
    cases hs
    exact { h with store := ⟨h.store.logged, h.store.offset, h.store.snapOff⟩ }
  | siblingPublish u =>
    obtain ⟨-, rfl⟩ := Option.ite_some_none_eq_some.1 hs
    refine h.publish (.frame u) ?_
    intro v hv
    rcases mem_snoc.1 hv with hold | rfl
    · exact .inl hold
    · exact .inr ⟨rfl, hok⟩
  | siblingAppend u =>
    obtain ⟨-, rfl⟩ := Option.ite_some_none_eq_some.1 hs
    exact { h with store := h.store.append u }
  | siblingPublishPayload u =>
    obtain ⟨-, rfl⟩ := Option.ite_some_none_eq_some.1 hs
    exact h.publish (.payload u) (fun v hv => .inl hv)
  | readSnapshot =>
    simp only [creationStep] at hs
    split at hs <;> cases hs
    rename_i snap off hphase hread
    refine ⟨{ h.store with snapOff := ?_ },
      fun u hu => mem_append_left _ (h.replayed u hu), trivial⟩
    rintro _ hoff
    obtain rfl := CreationPhase.snapshotRead.inj hoff
    exact StateKeys.readSnapshot_offset hread
  | readLogTail =>
    simp only [creationStep] at hs
    split at hs <;> cases hs
    rename_i off hphase
    exact h.readLogTail hphase hok
  | startFlushLoop =>
    simp only [creationStep] at hs
    split at hs <;> cases hs
    rename_i hphase
    exact h.enter (by simp) (h.published.logged (.inl hphase))
  | subscribe =>
    simp only [creationStep] at hs
    split at hs <;> cases hs
    rename_i hphase
    have hlogged := h.published.logged (.inr hphase)
    exact h.enter (by simp) fun u hu => .inl (h.replayed u (hlogged u hu))
  | addBrokerPeer =>
    simp only [creationStep] at hs
    split at hs <;> cases hs
    rename_i hphase
    exact h.enter (by simp) (h.published.delivered (.inl hphase))
  | deliver =>
    simp only [creationStep] at hs
    split at hs <;> cases hs
    rename_i m rest hphase hchannel
    exact h.deliver hphase hchannel

lemma CreationInv.caughtUp (h : CreationInv s) : CaughtUp s := by
  intro hphase hchannel u hu _
  have hpublished := h.published
  simp only [PublishedInv, hphase, hchannel, not_mem_nil, or_false] at hpublished
  exact hpublished u hu

/-- The new pod catches up in every interleaving in which whatever is published before
the subscription was appended before the log tail was read. -/
theorem caught_up_of_windowsOverlap [DecidableEq α] {keys : StateKeys α}
    (hkeys : keys.OffsetBehindTrim) {s : CreationState α}
    (hrun : Run creationStep WindowsOverlap (.initial keys) s) : CaughtUp s :=
  (hrun.invariant (creationInv_initial hkeys)
    (fun _ _ _ h hok hs => creationInv_step h hok hs)).caughtUp

def flushedKeys : StateKeys Nat := ⟨[8], some 3, some [7], some 2⟩

def overlappingWindows : List (CreationAction Nat) :=
  [.siblingApply 1, .siblingAppend 1, .siblingPublish 1, .readSnapshot, .readLogTail,
    .siblingPublish 1, .startFlushLoop, .siblingApply 2, .siblingAppend 2, .subscribe,
    .siblingPublish 2, .siblingPublishPayload 2, .addBrokerPeer, .deliver, .deliver]

theorem caught_up_overlappingWindows : flushedKeys.OffsetBehindTrim ∧ ∃ s,
      exec creationStep WindowsOverlap (.initial flushedKeys) overlappingWindows = some s ∧
        s.phase = .peerAdded ∧ s.channel = [] ∧ s.doc = [7, 8, 1, 2] ∧ CaughtUp s := by
  have hkeys : flushedKeys.OffsetBehindTrim := by unfold StateKeys.OffsetBehindTrim; decide
  have hrun : ∃ s ∈ exec creationStep WindowsOverlap (.initial flushedKeys) overlappingWindows,
      s.phase = .peerAdded ∧ s.channel = [] ∧ s.doc = [7, 8, 1, 2] := by decide +kernel
  obtain ⟨s, hs, hphase, hchannel, hdoc⟩ := hrun
  exact ⟨hkeys, s, hs, hphase, hchannel, hdoc,
    caught_up_of_windowsOverlap hkeys (run_of_exec hs)⟩

def gapBetweenReadAndSubscribe : List (CreationAction Nat) :=
  [.siblingApply 1, .siblingPublish 1, .readSnapshot, .readLogTail, .siblingAppend 1,
    .siblingPublishPayload 1, .startFlushLoop, .subscribe, .addBrokerPeer]

/-- The pod reads the log before it subscribes, so the update reaches it on neither
path. -/
theorem update_between_read_and_subscribe_missed :
    ¬ ∀ (keys : StateKeys Nat) (s : CreationState Nat), keys.snapshot.isSome →
      keys.OffsetBehindTrim → Run creationStep anyStep (.initial keys) s → CaughtUp s := by
  intro hevery
  have hkeys : flushedKeys.OffsetBehindTrim := by unfold StateKeys.OffsetBehindTrim; decide
  exact not_forall_run gapBetweenReadAndSubscribe (by decide +kernel) fun s =>
    hevery flushedKeys s rfl hkeys

end CollabEditor.Relay

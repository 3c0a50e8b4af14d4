import CollabEditor.Support.Execution
import CollabEditor.Relay.SidecarSocket
/-!
# Concurrent calls to the sidecar

`SidecarEngine` of `internal/relay/yjsengine/sidecar_client.go`.  A call registers a channel under a
32-bit sequence number, writes its request and waits; the read loop takes the channel out of the
table and fills its slot.  When a read fails, it fails all registered calls and ends, but the
connection stays in place.
-/

namespace CollabEditor.Relay.SidecarCalls

open Support Execution Socket List Option Function

/-! ## The client -/

structure Reply where
  origin : Nat
  frame : Frame
  deriving DecidableEq

/-- What can be in the slot of a call's channel: a response, or the frame that `failAllPending`
makes up. -/
inductive Notice
  | reply (r : Reply)
  | failed

/-- What a call returns: the payload, or one of its errors. -/
inductive Result
  | payload (bytes : List UInt8)
  | error
  deriving DecidableEq

def Notice.result : Notice → Result
  | reply r => if r.frame.status ≠ statusOK then .error else .payload r.frame.payload
  | failed => .error

/-- How far a call has come; `leaving` is before the deferred function. -/
inductive Phase
  | idle
  | entered
  | connected
  | numbered (seq : UInt32)
  | registered (seq : UInt32)
  | waiting (seq : UInt32)
  | leaving (seq : UInt32) (result : Result)
  | done (result : Result)
  deriving DecidableEq

structure Call where
  phase : Phase
  slot : Option Notice

/-- The read loop. `delivering` is between the two halves of `deliverResponse`, `failing` within
`failAllPending`, with the calls that are still to be notified. -/
inductive Loop
  | absent
  | reading
  | delivering (call : Nat) (r : Reply)
  | failing (left : List Nat)
  | exited
  deriving DecidableEq

/-- The `Shutdown` that has set `closed`; `taken` and `closing` know whether there was a
connection. -/
inductive Shutdown
  | idle
  | claimed
  | taken (had : Bool)
  | closing (had : Bool)
  | failing (left : List Nat)
  | finished
  deriving DecidableEq

/-- `connecting` says that `Connect` holds `connMu`, `writable` that a write on the connection
succeeds; `wire` are the requests not yet answered, `inbox` the responses not yet read, and
`answered` all that were ever written. -/
structure Client where
  closed : Bool
  connecting : Bool
  conn : Bool
  writable : Bool
  seq : UInt32
  pending : List (UInt32 × Nat)
  calls : Nat → Call
  started : Nat
  wire : List (UInt32 × Nat)
  inbox : List Reply
  answered : List Reply
  loop : Loop
  shutdown : Shutdown

def Client.new : Client where
  closed := false
  connecting := false
  conn := false
  writable := false
  seq := 0
  pending := []
  calls _ := ⟨.idle, none⟩
  started := 0
  wire := []
  inbox := []
  answered := []
  loop := .absent
  shutdown := .idle

def Client.setPhase (s : Client) (i : Nat) (p : Phase) : Client :=
  { s with calls := update s.calls i ⟨p, (s.calls i).slot⟩ }

def Client.offer (s : Client) (i : Nat) (n : Notice) : Client :=
  { s with calls := update s.calls i ⟨(s.calls i).phase, some ((s.calls i).slot.getD n)⟩ }

def Client.unregister (s : Client) (seq : UInt32) : Client :=
  { s with pending := s.pending.filter (·.1 ≠ seq) }

inductive Action
  | connectBegin
  | connectEnd (dialed : Bool)
  | start
  | takeConn (i : Nat)
  | takeSeq (i : Nat)
  | register (i : Nat)
  | write (i : Nat)
  | cancel (i : Nat)
  | receive (i : Nat)
  | leave (i : Nat)
  | respond (k : Nat) (op status : UInt8) (payload : List UInt8)
  | breakConn
  | readFrame
  | deliver
  | readError
  | notify (i : Nat)
  | exitLoop
  | shutdownBegin
  | shutdownTake
  | shutdownClose
  | shutdownFail
  | shutdownNotify (i : Nat)
  | shutdownEnd

def callStep (s : Client) : Action → Option Client
  | .start =>
    let phase := if s.closed then .done .error else .entered
    some { s with
      calls := update s.calls s.started ⟨phase, none⟩, started := s.started + 1 }
  | .takeConn i =>
    if (s.calls i).phase = .entered ∧ s.connecting = false then
      some (s.setPhase i (if s.conn then .connected else .done .error))
    else none
  | .takeSeq i =>
    if (s.calls i).phase = .connected then
      some { s.setPhase i (.numbered (s.seq + 1)) with seq := s.seq + 1 }
    else none
  | .register i =>
    match (s.calls i).phase with
    | .numbered q =>
      let s := (s.setPhase i (.registered q)).unregister q
      some { s with pending := (q, i) :: s.pending }
    | _ => none
  | .write i =>
    match (s.calls i).phase with
    | .registered q =>
      if s.writable then
        some { s.setPhase i (.waiting q) with wire := s.wire ++ [(q, i)] }
      else some (s.setPhase i (.leaving q .error))
    | _ => none
  | .cancel i =>
    match (s.calls i).phase with
    | .waiting q => some (s.setPhase i (.leaving q .error))
    | _ => none
  | .receive i =>
    match (s.calls i).phase, (s.calls i).slot with
    | .waiting q, some n => some (s.setPhase i (.leaving q n.result))
    | _, _ => none
  | .leave i =>
    match (s.calls i).phase with
    | .leaving q r => some ((s.setPhase i (.done r)).unregister q)
    | _ => none
  | _ => none

def loopStep (s : Client) : Action → Option Client
  | .readFrame =>
    match s.loop, s.inbox with
    | .reading, r :: rest =>
      match s.pending.lookup r.frame.seq with
      | none => some { s with inbox := rest }
      | some i =>
        some { s.unregister r.frame.seq with inbox := rest, loop := .delivering i r }
    | _, _ => none
  | .deliver =>
    match s.loop with
    | .delivering i r => some { s.offer i (.reply r) with loop := .reading }
    | _ => none
  | .readError =>
    match s.loop with
    | .reading => some { s with pending := [], loop := .failing (s.pending.map (·.2)) }
    | _ => none
  | .notify i =>
    match s.loop with
    | .failing left =>
      if i ∈ left then some { s.offer i .failed with loop := .failing (left.erase i) } else none
    | _ => none
  | .exitLoop => if s.loop = .failing [] then some { s with loop := .exited } else none
  | _ => none

def shutdownStep (s : Client) : Action → Option Client
  | .shutdownBegin =>
    if s.closed then some s else some { s with closed := true, shutdown := .claimed }
  | .shutdownTake =>
    if s.shutdown = .claimed ∧ s.connecting = false then
      some { s with conn := false, shutdown := .taken s.conn }
    else none
  | .shutdownClose =>
    match s.shutdown with
    | .taken had => some { s with writable := s.writable && !had, shutdown := .closing had }
    | _ => none
  | .shutdownFail =>
    match s.shutdown with
    | .closing had =>
      if had = true → s.loop = .exited then
        some { s with pending := [], shutdown := .failing (s.pending.map (·.2)) }
      else none
    | _ => none
  | .shutdownNotify i =>
    match s.shutdown with
    | .failing left =>
      if i ∈ left then some { s.offer i .failed with shutdown := .failing (left.erase i) }
      else none
    | _ => none
  | .shutdownEnd =>
    if s.shutdown = .failing [] then some { s with shutdown := .finished } else none
  | _ => none

/-- The steps of `Connect`, and what happens at the other end of the socket. -/
def connStep (s : Client) : Action → Option Client
  | .connectBegin =>
    if s.connecting then none
    else if s.closed ∨ s.conn then some s else some { s with connecting := true }
  | .connectEnd dialed =>
    if s.connecting then
      if dialed then
        some { s with connecting := false, conn := true, writable := true, loop := .reading }
      else some { s with connecting := false }
    else none
  | .respond k op status payload =>
    match s.wire[k]? with
    | some (q, i) =>
      some { s with
        wire := s.wire.eraseIdx k
        inbox := s.inbox ++ [⟨i, ⟨q, op, status, payload⟩⟩]
        answered := ⟨i, ⟨q, op, status, payload⟩⟩ :: s.answered }
    | none => none
  | .breakConn => some { s with writable := false }
  | _ => none

def step (s : Client) (a : Action) : Option Client :=
  (callStep s a).or ((loopStep s a).or ((shutdownStep s a).or (connStep s a)))

def Loop.left : Loop → List Nat
  | absent | reading | exited => []
  | delivering i _ => [i]
  | failing left => left

def Shutdown.left : Shutdown → List Nat
  | idle | claimed | taken _ | closing _ | finished => []
  | failing left => left

/-! ## Sequence numbers -/

def Phase.seq? : Phase → Option UInt32
  | numbered q | registered q | waiting q | leaving q _ => some q
  | idle | entered | connected | done _ => none

/-- The sequence number is in use nowhere: no call holds it, nothing on the socket carries it. -/
def FreshSeq (s : Client) (q : UInt32) : Prop :=
  (∀ i < s.started, (s.calls i).phase.seq? ≠ some q) ∧ (∀ e ∈ s.wire, e.1 ≠ q) ∧
    ∀ r ∈ s.inbox, r.frame.seq ≠ q

instance (s : Client) (q : UInt32) : Decidable (FreshSeq s q) :=
  inferInstanceAs (Decidable (_ ∧ _ ∧ _))

/-- A call gets a sequence number that is not in use, and a read fails only on a connection that
can no longer be written to. -/
def Orderly (s : Client) : Action → Prop
  | .takeSeq _ => FreshSeq s (s.seq + 1)
  | .readError => s.writable = false
  | _ => True

instance (s : Client) (a : Action) : Decidable (Orderly s a) := by
  rcases a with ⟨⟩ <;> dsimp only [Orderly] <;> infer_instance

/-! ## What a step can do -/

/-- The effects of the steps, with what is known when they happen. -/
inductive Effect (s : Client) : Client → Prop
  | refuse : Effect s s
  | connectBegin (hclosed : s.closed = false) (hconn : s.conn = false) :
      Effect s { s with connecting := true }
  | connect (h : s.connecting = true) :
      Effect s { s with connecting := false, conn := true, writable := true, loop := .reading }
  | dialFailed : Effect s { s with connecting := false }
  | start {p : Phase} (hp : p = .entered ∨ p = .done .error) :
      Effect s { s with
        calls := update s.calls s.started ⟨p, none⟩, started := s.started + 1 }
  | takeConn {i : Nat} {p : Phase} (h : (s.calls i).phase = .entered)
      (hp : p = .connected ∨ p = .done .error) : Effect s (s.setPhase i p)
  | takeSeq {i : Nat} (h : (s.calls i).phase = .connected) (hfresh : FreshSeq s (s.seq + 1)) :
      Effect s { s.setPhase i (.numbered (s.seq + 1)) with seq := s.seq + 1 }
  | register {i : Nat} {q : UInt32} (h : (s.calls i).phase = .numbered q) :
      Effect s { s.setPhase i (.registered q) with
        pending := (q, i) :: s.pending.filter (·.1 ≠ q) }
  | write {i : Nat} {q : UInt32} (h : (s.calls i).phase = .registered q)
      (hwritable : s.writable = true) :
      Effect s { s.setPhase i (.waiting q) with wire := s.wire ++ [(q, i)] }
  | resolve {i : Nat} {q : UInt32} {r : Result}
      (h : (s.calls i).phase = .registered q ∨ (s.calls i).phase = .waiting q)
      (hr : r = .error ∨ ∃ n, (s.calls i).slot = some n ∧ r = n.result) :
      Effect s (s.setPhase i (.leaving q r))
  | leave {i : Nat} {q : UInt32} {r : Result} (h : (s.calls i).phase = .leaving q r) :
      Effect s { s.setPhase i (.done r) with pending := s.pending.filter (·.1 ≠ q) }
  | respond {k i : Nat} {f : Frame} (h : s.wire[k]? = some (f.seq, i)) :
      Effect s { s with
        wire := s.wire.eraseIdx k, inbox := s.inbox ++ [⟨i, f⟩], answered := ⟨i, f⟩ :: s.answered }
  | degrade {writable : Bool} {shutdown : Shutdown} (hw : writable = true → s.writable = true)
      (hidle : shutdown ≠ .idle → s.shutdown ≠ .idle) (hleft : shutdown.left = s.shutdown.left) :
      Effect s { s with writable := writable, shutdown := shutdown }
  | drop {r : Reply} {rest : List Reply} (h : s.inbox = r :: rest) :
      Effect s { s with inbox := rest }
  | take {r : Reply} {rest : List Reply} {i : Nat} (hloop : s.loop = .reading)
      (h : s.inbox = r :: rest) (hi : (r.frame.seq, i) ∈ s.pending) :
      Effect s { s with pending := s.pending.filter (·.1 ≠ r.frame.seq), inbox := rest,
                        loop := .delivering i r }
  | deliver {i : Nat} {r : Reply} (h : s.loop = .delivering i r) :
      Effect s { s.offer i (.reply r) with loop := .reading }
  | readError (h : s.loop = .reading) (hw : s.writable = false) :
      Effect s { s with pending := [], loop := .failing (s.pending.map (·.2)) }
  | notify {left : List Nat} {i : Nat} (h : s.loop = .failing left) :
      Effect s { s.offer i .failed with loop := .failing (left.erase i) }
  | exitLoop (h : s.loop = .failing []) : Effect s { s with loop := .exited }
  | shutdownBegin (h : s.closed = false) : Effect s { s with closed := true, shutdown := .claimed }
  | shutdownTake (h : s.shutdown = .claimed) {had : Bool} :
      Effect s { s with conn := false, shutdown := .taken had }
  | shutdownFail {had : Bool} (h : s.shutdown = .closing had) :
      Effect s { s with pending := [], shutdown := .failing (s.pending.map (·.2)) }
  | shutdownNotify {left : List Nat} {i : Nat} (h : s.shutdown = .failing left) :
      Effect s { s.offer i .failed with shutdown := .failing (left.erase i) }

lemma mem_of_lookup_eq_some {pending : List (UInt32 × Nat)} {q : UInt32} {i : Nat}
    (h : pending.lookup q = some i) : (q, i) ∈ pending := by
  induction pending with
  | nil => cases h
  | cons e pending ih =>
    rw [lookup_cons] at h
    split at h
    · rename_i heq
      cases h
      rw [beq_iff_eq.1 heq]
      exact mem_cons_self
    · exact mem_cons_of_mem _ (ih h)

variable {a : Action} {s t : Client}

lemma effect_of_callStep (h : callStep s a = some t) (hok : Orderly s a) : Effect s t := by
  cases a with
  | start =>
    cases h
    exact .start (by split <;> simp)
  | takeConn i =>
    obtain ⟨hphase, rfl⟩ := ite_some_none_eq_some.1 h
    cases s.conn with
    | true => exact .takeConn hphase.1 (.inl rfl)
    | false => exact .takeConn hphase.1 (.inr rfl)
  | takeSeq i =>
    obtain ⟨hphase, rfl⟩ := ite_some_none_eq_some.1 h
    exact .takeSeq hphase hok
  | register i =>
    rw [callStep] at h
    split at h <;> cases h
    case h_1 q hphase => exact .register hphase
  | write i =>
    rw [callStep] at h
    split at h
    case h_1 q hphase =>
      split at h <;> cases h
      case isTrue hwritable => exact .write hphase hwritable
      case isFalse => exact .resolve (.inl hphase) (.inl rfl)
    case h_2 => cases h
  | cancel i =>
    rw [callStep] at h
    split at h <;> cases h
    case h_1 q hphase => exact .resolve (.inr hphase) (.inl rfl)
  | receive i =>
    rw [callStep] at h
    split at h <;> cases h
    case h_1 q n hphase hslot => exact .resolve (.inr hphase) (.inr ⟨n, hslot, rfl⟩)
  | leave i =>
    rw [callStep] at h
    split at h <;> cases h
    case h_1 q r hphase => exact .leave hphase
  | _ => cases h

lemma effect_of_loopStep (h : loopStep s a = some t) (hok : Orderly s a) : Effect s t := by
  cases a with
  | readFrame =>
    rw [loopStep] at h
    split at h
    case h_1 r rest hloop hinbox =>
      split at h <;> cases h
      case h_1 => exact .drop hinbox
      case h_2 i hlookup => exact .take hloop hinbox (mem_of_lookup_eq_some hlookup)
    case h_2 => cases h
  | deliver =>
    rw [loopStep] at h
    split at h <;> cases h
    case h_1 i r hloop => exact .deliver hloop
  | readError =>
    rw [loopStep] at h
    split at h <;> cases h
    case h_1 hloop => exact .readError hloop hok
  | notify i =>
    rw [loopStep] at h
    split at h
    case h_1 left hloop =>
      obtain ⟨-, rfl⟩ := ite_some_none_eq_some.1 h
      exact .notify hloop
    case h_2 => cases h
  | exitLoop =>
    obtain ⟨hloop, rfl⟩ := ite_some_none_eq_some.1 h
    exact .exitLoop hloop
  | _ => cases h

lemma effect_of_shutdownStep (h : shutdownStep s a = some t) : Effect s t := by
  cases a with
  | shutdownBegin =>
    rw [shutdownStep] at h
    split at h <;> cases h
    case isTrue.refl => exact .refuse
    case isFalse.refl hclosed => exact .shutdownBegin (Bool.eq_false_iff.2 hclosed)
  | shutdownTake =>
    obtain ⟨hshutdown, rfl⟩ := ite_some_none_eq_some.1 h
    exact .shutdownTake hshutdown.1
  | shutdownClose =>
    rw [shutdownStep] at h
    split at h <;> cases h
    case h_1 had hshutdown =>
      exact .degrade (fun hw => (Bool.and_eq_true_iff.1 hw).1) (by simp [hshutdown])
        (by rw [hshutdown]; rfl)
  | shutdownFail =>
    rw [shutdownStep] at h
    split at h
    case h_1 had hshutdown =>
      obtain ⟨-, rfl⟩ := ite_some_none_eq_some.1 h
      exact .shutdownFail hshutdown
    case h_2 => cases h
  | shutdownNotify i =>
    rw [shutdownStep] at h
    split at h
    case h_1 left hshutdown =>
      obtain ⟨-, rfl⟩ := ite_some_none_eq_some.1 h
      exact .shutdownNotify hshutdown
    case h_2 => cases h
  | shutdownEnd =>
    obtain ⟨hshutdown, rfl⟩ := ite_some_none_eq_some.1 h
    exact .degrade id (by simp [hshutdown]) (by rw [hshutdown]; rfl)
  | _ => cases h

lemma effect_of_connStep (h : connStep s a = some t) : Effect s t := by
  cases a with
  | connectBegin =>
    obtain ⟨-, h⟩ := ite_none_left_eq_some.1 h
    split at h <;> cases h
    case isTrue.refl => exact .refuse
    case isFalse.refl hfree =>
      obtain ⟨hclosed, hconn⟩ := not_or.1 hfree
      exact .connectBegin (Bool.eq_false_iff.2 hclosed) (Bool.eq_false_iff.2 hconn)
  | connectEnd dialed =>
    obtain ⟨hconnecting, h⟩ := ite_none_right_eq_some.1 h
    split at h <;> cases h
    case isTrue.refl => exact .connect hconnecting
    case isFalse.refl => exact .dialFailed
  | respond k op status payload =>
    rw [connStep] at h
    split at h <;> cases h
    case h_1 q i hwire => exact .respond (f := ⟨q, op, status, payload⟩) hwire
  | breakConn =>
    cases h
    exact .degrade (by simp) (by simp) rfl
  | _ => cases h

lemma effect_of_step (h : step s a = some t) (hok : Orderly s a) : Effect s t := by
  rw [step, or_eq_some_iff, or_eq_some_iff, or_eq_some_iff] at h
  obtain h | ⟨-, h | ⟨-, h | ⟨-, h⟩⟩⟩ := h
  · exact effect_of_callStep h hok
  · exact effect_of_loopStep h hok
  · exact effect_of_shutdownStep h
  · exact effect_of_connStep h

/-! ## Who a sequence number belongs to -/

lemma setPhase_calls (s : Client) (i : Nat) (p : Phase) (j : Nat) :
    (s.setPhase i p).calls j = if j = i then ⟨p, (s.calls i).slot⟩ else s.calls j :=
  update_apply _ _ _ _

lemma offer_calls (s : Client) (i : Nat) (n : Notice) (j : Nat) : (s.offer i n).calls j =
      if j = i then ⟨(s.calls i).phase, some ((s.calls i).slot.getD n)⟩ else s.calls j :=
  update_apply _ _ _ _

attribute [local grind =] setPhase_calls offer_calls update_apply Phase.seq?

/-- Every use of a sequence number is by one call, the one that holds it if any does. -/
structure Owned (s : Client) : Prop where
  idle : ∀ i, s.started ≤ i → (s.calls i).phase = .idle
  pending : ∀ q i, (q, i) ∈ s.pending → (s.calls i).phase.seq? = some q
  unique : ∀ q i j, (s.calls i).phase.seq? = some q → (s.calls j).phase.seq? = some q → i = j
  wire : ∀ q i j, (q, i) ∈ s.wire → (s.calls j).phase.seq? = some q → j = i
  inbox : ∀ r ∈ s.inbox, ∀ j, (s.calls j).phase.seq? = some r.frame.seq → j = r.origin

/-- Where a number in use comes from: a use before the step, or the counter, which has not been in
use. -/
lemma Effect.seq? (he : Effect s t) :
    (∀ i q, (t.calls i).phase.seq? = some q → (s.calls i).phase.seq? = some q ∨
      q = t.seq ∧ FreshSeq s q ∧
        ∀ j, (t.calls j).phase.seq? = some q → (s.calls j).phase.seq? = some q ∨ j = i) ∧
    (∀ e ∈ t.wire, e ∈ s.wire ∨ (s.calls e.2).phase.seq? = some e.1) ∧
    (∀ r ∈ t.inbox, r ∈ s.inbox ∨ (r.frame.seq, r.origin) ∈ s.wire) := by
  refine ⟨?_, ?_, ?_⟩
  · -- only `takeSeq` gives a call a number that it has not had
    cases he with
    | start | takeConn | takeSeq | register | write | resolve | leave | deliver | notify
    | shutdownNotify => grind
    | _ => exact fun _ _ hq => .inl hq
  · cases he with
    | write hi hwritable => grind [Client.setPhase]
    | respond hk => exact fun e he => .inl ((eraseIdx_sublist _ _).subset he)
    | _ => exact fun _ he => .inl he
  · cases he with
    | respond hk =>
      have hmem := mem_of_getElem? hk
      grind
    | drop hinbox | take _ hinbox => exact fun r hr => .inl (hinbox ▸ mem_cons_of_mem _ hr)
    | _ => exact fun _ hr => .inl hr

namespace Owned

variable {s t : Client} (h : Owned s)
include h

lemma not_held {q : UInt32} (hfresh : FreshSeq s q) (i : Nat) :
    (s.calls i).phase.seq? ≠ some q := by
  by_cases hi : i < s.started
  · exact hfresh.1 i hi
  · rw [h.idle i (by omega)]
    exact nofun

variable (he : Effect s t)
include he

lemma idle_of_effect (i : Nat) (hi : t.started ≤ i) : (t.calls i).phase = .idle := by
  have hidle := h.idle i
  cases he with
  | start | takeConn | takeSeq | register | write | resolve | leave => grind [Client.setPhase]
  | deliver | notify | shutdownNotify => grind [Client.offer]
  | _ => exact hidle hi

lemma pending_of_effect (q : UInt32) (i : Nat) (hmem : (q, i) ∈ t.pending) :
    (t.calls i).phase.seq? = some q := by
  have hpending := h.pending q i
  cases he with
  | start hp =>
    have hidle := h.idle s.started
    grind
  | takeConn | takeSeq | register | write | resolve | leave => grind [Client.setPhase]
  | deliver | notify | shutdownNotify => grind [Client.offer]
  | take => exact hpending (mem_filter.1 hmem).1
  | readError | shutdownFail => exact absurd hmem not_mem_nil
  | _ => exact hpending hmem

lemma effect : Owned t := by
  obtain ⟨hcalls, hwire, hinbox⟩ := he.seq?
  have hwireOwner {q : UInt32} {i j : Nat} (hmem : (q, i) ∈ s.wire)
      (hj : (t.calls j).phase.seq? = some q) : j = i := by
    obtain hj | ⟨-, hfresh, -⟩ := hcalls j q hj
    · exact h.wire q i j hmem hj
    · exact absurd rfl (hfresh.2.1 _ hmem)
  refine ⟨h.idle_of_effect he, h.pending_of_effect he, fun q i j hi hj => ?_,
    fun q i j hmem hj => ?_, fun r hr j hj => ?_⟩
  · obtain hi | ⟨-, hfresh, honly⟩ := hcalls i q hi
    · obtain hj | ⟨-, hfresh, -⟩ := hcalls j q hj
      · exact h.unique q i j hi hj
      · exact absurd hi (h.not_held hfresh i)
    · exact ((honly j hj).resolve_left (h.not_held hfresh j)).symm
  · obtain hmem | hi := hwire _ hmem
    · exact hwireOwner hmem hj
    · obtain hj | ⟨-, hfresh, -⟩ := hcalls j q hj
      · exact h.unique q j i hj hi
      · exact absurd hi (h.not_held hfresh i)
  · obtain hr | hmem := hinbox r hr
    · obtain hj | ⟨-, hfresh, -⟩ := hcalls j _ hj
      · exact h.inbox r hr j hj
      · exact absurd rfl (hfresh.2.2 r hr)
    · exact hwireOwner hmem hj

end Owned

/-! ## Whose response a call returns -/

def Phase.result? : Phase → Option Result
  | leaving _ r | done r => some r
  | idle | entered | connected | numbered _ | registered _ | waiting _ => none

lemma Notice.eq_reply_of_result {n : Notice} {bytes : List UInt8}
    (h : n.result = .payload bytes) :
    ∃ r, n = .reply r ∧ r.frame.status = statusOK ∧ r.frame.payload = bytes := by
  cases n with
  | failed => cases h
  | reply r =>
    rw [Notice.result] at h
    split at h
    · cases h
    · rename_i hstatus
      exact ⟨r, rfl, not_not.1 hstatus, Result.payload.inj h⟩

def Client.AnsweredWith (s : Client) (i : Nat) (bytes : List UInt8) : Prop :=
  ∃ r ∈ s.answered, r.origin = i ∧ r.frame.status = statusOK ∧ r.frame.payload = bytes

/-- Responses are on their way to the calls whose requests they answer, and so is what has
arrived. -/
structure Truthful (s : Client) : Prop where
  inbox : ∀ r ∈ s.inbox, r ∈ s.answered
  delivering : ∀ i r, s.loop = .delivering i r → r ∈ s.answered ∧ r.origin = i
  slot : ∀ i r, (s.calls i).slot = some (.reply r) → r ∈ s.answered ∧ r.origin = i
  result : ∀ i bytes, (s.calls i).phase.result? = some (.payload bytes) → s.AnsweredWith i bytes

lemma slot_of_offer {i j : Nat} {n m : Notice} (h : ((s.offer i n).calls j).slot = some m) :
    (s.calls j).slot = some m ∨ j = i ∧ m = n := by
  rw [offer_calls] at h
  cases hslot : (s.calls i).slot <;> grind

lemma Truthful.effect (h : Truthful s) (ho : Owned s) (he : Effect s t) : Truthful t := by
  obtain ⟨hinbox, hdelivering, hslot, hresult⟩ := h
  cases he with
  | refuse | connectBegin | dialFailed | degrade | shutdownBegin | shutdownTake | shutdownFail
  | connect | exitLoop | readError | respond | drop =>
    constructor <;> grind -linarith [Client.AnsweredWith]
  | start => constructor <;> grind -linarith [Phase.result?, Client.AnsweredWith]
  | takeConn | takeSeq | register | write | leave =>
    constructor <;> grind -linarith [Client.setPhase, Phase.result?, Client.AnsweredWith]
  | resolve =>
    constructor <;>
      grind -linarith [Client.setPhase, Phase.result?, Client.AnsweredWith,
        → Notice.eq_reply_of_result]
  | @take r rest i hloop hinbox hi =>
    -- the call registered under the number is the one whose request is answered
    have horigin := ho.inbox r (hinbox ▸ mem_cons_self) i (ho.pending _ i hi)
    constructor <;> grind -linarith [Client.AnsweredWith]
  | deliver | notify | shutdownNotify =>
    constructor <;> grind -linarith [Client.offer, Client.AnsweredWith, → slot_of_offer]

/-! ## Who completes a call -/

def Loop.stopped : Loop → Bool
  | absent | reading | delivering _ _ => false
  | failing _ | exited => true

def Phase.Open (p : Phase) (q : UInt32) : Prop := p = .registered q ∨ p = .waiting q

/-- A call without an answer is registered or about to be notified; and once the read loop has
stopped, no call that has been written is registered. -/
structure Attended (s : Client) : Prop where
  connecting : s.connecting = true → s.loop = .absent
  used : s.loop ≠ .absent → s.conn = true ∨ s.closed = true
  closed : s.shutdown ≠ .idle → s.closed = true
  notified : ∀ i q, (s.calls i).phase.Open q → (s.calls i).slot = none →
    (q, i) ∈ s.pending ∨ i ∈ s.loop.left ∨ i ∈ s.shutdown.left
  stopped : s.loop.stopped = true → s.writable = false ∧
    ∀ i q, (s.calls i).phase = .waiting q → (q, i) ∉ s.pending

attribute [local grind =] Loop.left Shutdown.left Loop.stopped Phase.Open

lemma Attended.effect (h : Attended s) (ho : Owned s) (he : Effect s t) : Attended t := by
  obtain ⟨hconnecting, hused, hclosed, hnotified, hstopped⟩ := h
  cases he with
  | refuse | connectBegin | connect | dialFailed | degrade | exitLoop | shutdownBegin | shutdownTake
  | start | respond | drop | readError | shutdownFail => constructor <;> grind -linarith
  | takeConn | takeSeq | write | resolve =>
    -- a request is written only as long as the read loop has not stopped
    constructor <;> grind -linarith [Client.setPhase]
  | register | leave | take =>
    -- the entry that goes is that of the call itself: no other one has its number
    have hpending := ho.pending
    have hunique := ho.unique
    constructor <;> grind -linarith [Client.setPhase]
  | deliver | notify | shutdownNotify => constructor <;> grind -linarith [Client.offer]

/-! ## Runs -/

/-- `Shutdown` has set `closed` and has not yet come to fail the registered calls. -/
def Shutdown.willFail : Shutdown → Bool
  | claimed | taken _ | closing _ => true
  | idle | failing _ | finished => false

def Phase.unwritten : Phase → Bool
  | entered | connected | numbered _ | registered _ => true
  | idle | waiting _ | leaving _ _ | done _ => false

instance : (p : Phase) → Decidable (∃ q, p = .waiting q)
  | .waiting q => isTrue ⟨q, rfl⟩
  | .idle | .entered | .connected | .numbered _ | .registered _ | .leaving _ _ | .done _ =>
    isFalse (by simp)

/-- The read loop has ended, and a call waits that nobody will complete, or one can still write its
request and then wait like that. -/
def Stranded (s : Client) : Prop :=
  s.loop = .exited ∧ s.shutdown.willFail = false ∧
    ∃ i < s.started, (s.calls i).slot = none ∧ i ∉ s.shutdown.left ∧
      ((∃ q, (s.calls i).phase = .waiting q) ∨
        (s.calls i).phase.unwritten = true ∧ s.writable = true ∧
          ((s.calls i).phase = .entered → s.conn = true))

instance (s : Client) : Decidable (Stranded s) := inferInstanceAs (Decidable (_ ∧ _ ∧ _))

structure Inv (s : Client) : Prop where
  owned : Owned s
  truthful : Truthful s
  attended : Attended s

lemma inv_new : Inv .new where
  owned := ⟨fun _ _ => rfl, by simp [Client.new], by simp [Client.new, Phase.seq?],
    by simp [Client.new], by simp [Client.new]⟩
  truthful := ⟨by simp [Client.new], by simp [Client.new], by simp [Client.new],
    by simp [Client.new, Phase.result?]⟩
  attended := ⟨by simp [Client.new], by simp [Client.new], by simp [Client.new],
    by simp [Client.new, Phase.Open], by simp [Client.new, Loop.stopped]⟩

lemma inv_of_run (hrun : Run step Orderly .new s) : Inv s := by
  refine hrun.invariant (P := Inv) inv_new fun t u a ht hok hstep => ?_
  have he := effect_of_step hstep hok
  exact ⟨ht.owned.effect he, ht.truthful.effect ht.owned he, ht.attended.effect ht.owned he⟩

lemma Inv.not_stranded (h : Inv s) : ¬ Stranded s := by
  rintro ⟨hloop, -, i, -, hslot, hleft, ⟨q, hi⟩ | ⟨-, hwritable, -⟩⟩
  · obtain ⟨-, hwaiting⟩ := h.attended.stopped (by rw [hloop]; rfl)
    obtain hp | hl | hs := h.attended.notified i q (.inr hi) hslot
    · exact hwaiting i q hi hp
    · rw [hloop] at hl
      exact absurd hl not_mem_nil
    · exact hleft hs
  · obtain ⟨hw, -⟩ := h.attended.stopped (by rw [hloop]; rfl)
    cases hw.symm.trans hwritable

/-! ## Fewer than `2 ^ 32` calls -/

/-- The counter does not wrap, and a read fails only on a connection that can no longer be
written to. -/
def Unwrapped (s : Client) : Action → Prop
  | .takeSeq _ => s.seq.toNat + 1 < 2 ^ 32
  | .readError => s.writable = false
  | _ => True

structure Low (s : Client) : Prop where
  calls : ∀ i q, (s.calls i).phase.seq? = some q → q.toNat ≤ s.seq.toNat
  wire : ∀ e ∈ s.wire, e.1.toNat ≤ s.seq.toNat
  inbox : ∀ r ∈ s.inbox, r.frame.seq.toNat ≤ s.seq.toNat

lemma seq_of_step (h : step s a = some t) :
    t.seq = s.seq ∨ (∃ i, a = .takeSeq i) ∧ t.seq = s.seq + 1 := by
  rw [step, or_eq_some_iff, or_eq_some_iff, or_eq_some_iff] at h
  obtain h | ⟨-, h | ⟨-, h | ⟨-, h⟩⟩⟩ := h
  · cases a <;> simp only [callStep] at h <;> (repeat' split at h) <;> cases h <;>
      first | exact .inl rfl | exact .inr ⟨⟨_, rfl⟩, rfl⟩
  · cases a <;> simp only [loopStep] at h <;> (repeat' split at h) <;> cases h <;> exact .inl rfl
  · cases a <;> simp only [shutdownStep] at h <;> (repeat' split at h) <;> cases h <;>
      exact .inl rfl
  · cases a <;> simp only [connStep] at h <;> (repeat' split at h) <;> cases h <;> exact .inl rfl

lemma Low.effect (h : Low s) (he : Effect s t) (hseq : s.seq.toNat ≤ t.seq.toNat) : Low t := by
  obtain ⟨hcalls, hwire, hinbox⟩ := he.seq?
  refine ⟨fun i q hq => ?_, fun e he => ?_, fun r hr => ?_⟩
  · obtain hq | ⟨rfl, -⟩ := hcalls i q hq
    · exact (h.calls i q hq).trans hseq
    · exact Nat.le_refl _
  · obtain he | hq := hwire e he
    · exact (h.wire e he).trans hseq
    · exact (h.calls e.2 e.1 hq).trans hseq
  · obtain hr | he := hinbox r hr
    · exact (h.inbox r hr).trans hseq
    · exact (h.wire _ he).trans hseq

lemma Low.freshSeq (h : Low s) (hseq : s.seq.toNat + 1 < 2 ^ 32) : FreshSeq s (s.seq + 1) := by
  have hnext : (s.seq + 1).toNat = s.seq.toNat + 1 := by
    rw [UInt32.toNat_add, show (1 : UInt32).toNat = 1 from rfl, Nat.mod_eq_of_lt hseq]
  have hne {q : UInt32} (hq : q.toNat ≤ s.seq.toNat) : q ≠ s.seq + 1 := by
    rintro rfl
    omega
  exact ⟨fun i _ hi => hne (h.calls i _ hi) rfl, fun e he => hne (h.wire e he),
    fun r hr => hne (h.inbox r hr)⟩

lemma orderly_of_unwrapped (hrun : Run step Unwrapped .new s) :
    Run step Orderly .new s ∧ Low s := by
  induction hrun with
  | refl =>
    exact ⟨.refl, by simp [Client.new, Phase.seq?], by simp [Client.new], by simp [Client.new]⟩
  | @tail t u a _ hok hstep ih =>
    obtain ⟨hrun, hlow⟩ := ih
    have horderly : Orderly t a := by
      cases a with
      | takeSeq i => exact hlow.freshSeq hok
      | readError => exact hok
      | _ => exact trivial
    have hseq : t.seq.toNat ≤ u.seq.toNat := by
      obtain heq | ⟨⟨i, rfl⟩, heq⟩ := seq_of_step hstep
      · rw [heq]
      · have hlt : t.seq.toNat + 1 < 2 ^ 32 := hok
        rw [heq, UInt32.toNat_add, show (1 : UInt32).toNat = 1 from rfl, Nat.mod_eq_of_lt hlt]
        omega
    exact ⟨.tail a hrun horderly hstep, hlow.effect (effect_of_step hstep horderly) hseq⟩

/-! ## Calls are answered -/

/-- In an orderly run, and in one with fewer than `2 ^ 32` calls in which reads fail on broken
connections only, a call that returns a payload returns that of the response to its own request,
and no call is left behind by a read loop that has ended. -/
theorem calls_answered_or_failed {s : Client}
    (hrun : Run step Orderly .new s ∨ Run step Unwrapped .new s) :
    (∀ i bytes, (s.calls i).phase = .done (.payload bytes) → s.AnsweredWith i bytes) ∧
      ¬ Stranded s := by
  have hinv : Inv s := by
    obtain hrun | hrun := hrun
    · exact inv_of_run hrun
    · exact inv_of_run (orderly_of_unwrapped hrun).1
  refine ⟨fun i bytes hi => hinv.truthful.result i bytes ?_, hinv.not_stranded⟩
  rw [hi]
  rfl

def request (i : Nat) : List Action :=
  [.start, .takeConn i, .takeSeq i, .register i, .write i]

def response (i : Nat) : List Action := [.receive i, .leave i]

def crossedCalls : List Action :=
  let answered : List Action := [.respond 1 7 statusOK [0x62], .respond 0 7 statusOK [0x61],
    .readFrame, .deliver, .readFrame, .deliver]
  let gone : List Action := [.breakConn, .readError, .exitLoop]
  .connectBegin :: .connectEnd true ::
    (request 0 ++ request 1 ++ answered ++ response 0 ++ response 1 ++ gone)

theorem crossed_calls_answered : ∃ s, Run step Orderly .new s ∧ s.loop = .exited ∧
      (s.calls 0).phase = .done (.payload [0x61]) ∧ s.AnsweredWith 0 [0x61] ∧ ¬ Stranded s :=
  exists_run_imp crossedCalls
    (P := fun s => s.loop = .exited ∧ (s.calls 0).phase = .done (.payload [0x61]))
    (by decide +kernel) fun _ hrun ⟨hloop, hdone⟩ =>
      have ⟨hanswers, hstranded⟩ := calls_answered_or_failed (.inl hrun)
      ⟨hloop, hdone, hanswers 0 _ hdone, hstranded⟩

def badFrame : List Action :=
  .connectBegin :: .connectEnd true :: .readError :: .exitLoop :: request 0

theorem call_stranded_after_bad_frame : ¬ ∀ s, Run step anyStep .new s → ¬ Stranded s :=
  not_forall_run badFrame (by decide +kernel)

end CollabEditor.Relay.SidecarCalls

import CollabEditor.Support.Execution
import CollabEditor.Relay.StateStore
/-!
# The bootstrap read of a cold-starting pod

`bootstrapRoom` in `internal/relay/server.go` reads the snapshot and the log tail with five
commands.  Other pods append and compact between any two of them.
-/

namespace CollabEditor.Relay

open Support Support.Execution List StateKeys Option

variable {α : Type}

/-- How far the read has come, with the values it has read. -/
inductive Reader (α : Type)
  | start
  | gotSnapshot (snap : List α)
  | gotOffset (snap : List α) (off : Nat)
  | gotCounter (snap : List α) (off counter : Nat)
  | gotLen (snap : List α) (relativeStart : Int)
  | done (snap tail : List α)
  | noSnapshot
  deriving DecidableEq

namespace Reader

def snapshot : Reader α → Option (List α)
  | gotSnapshot snap => some snap
  | gotOffset snap _ => some snap
  | gotCounter snap _ _ => some snap
  | gotLen snap _ => some snap
  | _ => none

/-- The next command of the read. `ReadLogTail` returns early when there is no
counter or the counter is not past the offset. -/
def next (k : StateKeys α) : Reader α → Option (Reader α)
  | start =>
    match k.snapshot with
    | none => some noSnapshot
    | some snap => some (gotSnapshot snap)
  | gotSnapshot snap => some (gotOffset snap (k.snapOff.getD 0))
  | gotOffset snap off =>
    match k.counter with
    | none => some (done snap [])
    | some counter =>
      if counter ≤ off then some (done snap []) else some (gotCounter snap off counter)
  | gotCounter snap off counter =>
    some (gotLen snap (StateKeys.relativeStart off counter k.log.length))
  | gotLen snap first => some (done snap (RedisList.range k.log first (-1)))
  | done _ _ => none
  | noSnapshot => none

def finish (k : StateKeys α) : Nat → Reader α → Reader α
  | 0, r => r
  | n + 1, r =>
    match next k r with
    | some r' => finish k n r'
    | none => r

/-- Undisturbed, the five commands return what `ReadSnapshot` and `ReadLogTail`
return in one piece. -/
lemma finish_start (k : StateKeys α) : finish k 5 start = match k.readSnapshot with
      | (none, _) => noSnapshot
      | (some snap, off) => done snap (k.readLogTail off).1 := by
  cases hsnap : k.snapshot with
  | none => simp [finish, next, readSnapshot, hsnap]
  | some snap =>
    cases hcounter : k.counter with
    | none => simp [finish, next, readSnapshot, readLogTail, hsnap, hcounter]
    | some counter =>
      by_cases hle : counter ≤ k.snapOff.getD 0 <;>
        simp [finish, next, readSnapshot, readLogTail, hsnap, hcounter, hle]

end Reader

/-- The keys, what has been appended, the counters that pods in `WriteSnapshot` have
read and not yet used, the one read, and what had been appended when it began. -/
structure ColdStartState (α : Type) where
  keys : StateKeys α
  appended : List α
  counters : List Nat
  reader : Reader α
  before : List α
  deriving DecidableEq

def ColdStartState.initial : ColdStartState α := ⟨.empty, [], [], .start, []⟩

inductive ColdStartAction (α : Type)
  | append (u : α)
  | snapshotCounter
  | snapshotWrite (counter : Nat) (state : List α)
  | read

/-- One command or MULTI block. A snapshot that is written contains all updates
appended before its transaction. -/
def coldStartStep [DecidableEq α] (s : ColdStartState α) :
    ColdStartAction α → Option (ColdStartState α)
  | .append u =>
    some { s with keys := s.keys.appendUpdate u, appended := s.appended ++ [u] }
  | .snapshotCounter => some { s with counters := s.counters ++ [s.keys.readCounter] }
  | .snapshotWrite counter state =>
    if counter ∈ s.counters ∧ ∀ u ∈ s.appended, u ∈ state then
      some { s with keys := s.keys.writeSnapshot state counter }
    else none
  | .read =>
    (s.reader.next s.keys).map fun reader =>
      { s with reader, before := if s.reader = .start then s.appended else s.before }

/-- Snapshot and tail together hold every update appended before the read. -/
def ReadComplete (s : ColdStartState α) : Prop :=
  match s.reader with
  | .done snap tail => ∀ u ∈ s.before, u ∈ snap ∨ u ∈ tail
  | _ => True

instance [DecidableEq α] (s : ColdStartState α) : Decidable (ReadComplete s) := by
  unfold ReadComplete
  split <;> infer_instance

/-- An update the read does not depend on any more: it came after the read began,
or it is in the snapshot that has been read. -/
def Spared (s : ColdStartState α) (snap : List α) (u : α) : Prop :=
  u ∈ s.before → u ∈ snap

instance [DecidableEq α] (s : ColdStartState α) (snap : List α) (u : α) :
    Decidable (Spared s snap u) :=
  inferInstanceAs (Decidable (_ → _))

/-- What the other pods may do during the read: trim only a log that the read has
no need of, and append between GET counter and LLEN only if the entries that the
read then starts too late for are not needed. -/
def SparesReader (s : ColdStartState α) : ColdStartAction α → Prop
  | .snapshotWrite _ _ => ∀ snap ∈ s.reader.snapshot, ∀ u ∈ s.keys.log, Spared s snap u
  | .append _ =>
    match s.reader with
    | .gotCounter snap off counter =>
      ∀ u ∈ s.keys.log.take (off + (s.keys.log.length + 1) - counter), Spared s snap u
    | _ => True
  | _ => True

instance [DecidableEq α] (s : ColdStartState α) (a : ColdStartAction α) :
    Decidable (SparesReader s a) := by
  unfold SparesReader
  split
  · infer_instance
  · split <;> infer_instance
  · infer_instance

/-! ## The store during the read -/

structure StoreInv (s : ColdStartState α) : Prop where
  retained : ∀ u ∈ s.appended, u ∈ s.keys.snapshot.getD [] ∨ u ∈ s.keys.log
  offset : s.keys.OffsetBehindTrim
  counters : ∀ c ∈ s.counters, c ≤ s.keys.readCounter

lemma storeInv_initial : StoreInv (ColdStartState.initial : ColdStartState α) where
  retained := by simp [ColdStartState.initial]
  offset := offsetBehindTrim_empty
  counters := by simp [ColdStartState.initial]

variable {s : ColdStartState α} {n : Nat} {snap rest : List α}

lemma storeInv_step [DecidableEq α] {t : ColdStartState α} {a : ColdStartAction α}
    (h : StoreInv s) (hs : coldStartStep s a = some t) : StoreInv t := by
  cases a with
  | append u =>
    cases hs
    refine ⟨?_, h.offset.appendUpdate u, fun c hc => Nat.le_succ_of_le (h.counters c hc)⟩
    intro v hv
    rcases mem_append.1 hv with hold | hnew
    · exact (h.retained v hold).imp_right (mem_append_left _)
    · exact .inr (mem_append_right _ hnew)
  | snapshotCounter =>
    cases hs
    refine { h with counters := ?_ }
    intro c hc
    rcases mem_append.1 hc with hold | hnew
    · exact h.counters c hold
    · exact Nat.le_of_eq (mem_singleton.1 hnew)
  | snapshotWrite counter state =>
    obtain ⟨hwrite, rfl⟩ := ite_some_none_eq_some.1 hs
    exact ⟨fun u hu => .inl (hwrite.2 u hu), .writeSnapshot state (h.counters _ hwrite.1),
      h.counters⟩
  | read =>
    obtain ⟨reader, -, rfl⟩ := map_eq_some_iff.1 hs
    exact { h with }

/-! ## The read -/

def Covered (s : ColdStartState α) (snap rest : List α) : Prop :=
  ∀ u ∈ s.before, u ∈ snap ∨ u ∈ rest

/-- What the values read so far promise for the commands to come: the part of the
log that LRANGE will return still covers what the snapshot lacks. -/
def ReaderInv (s : ColdStartState α) : Prop :=
  match s.reader with
  | .start | .noSnapshot => True
  | .gotSnapshot snap => Covered s snap s.keys.log
  | .gotOffset snap off =>
    Covered s snap s.keys.log ∧ off + s.keys.log.length ≤ s.keys.readCounter
  | .gotCounter snap off counter =>
    Covered s snap (s.keys.log.drop (off + s.keys.log.length - counter)) ∧ off < counter
  | .gotLen snap first => Covered s snap (s.keys.log.drop first.toNat) ∧ 0 ≤ first
  | .done snap tail => Covered s snap tail

lemma Covered.append (h : Covered s snap (s.keys.log.drop n)) (u : α) :
    Covered s snap ((s.keys.log ++ [u]).drop n) := by
  intro v hv
  refine (h v hv).imp_right fun hmem => ?_
  rw [drop_append]
  exact mem_append_left _ hmem

lemma Covered.skip (h : Covered s snap rest) (hskip : ∀ u ∈ rest.take n, Spared s snap u) :
    Covered s snap (rest.drop n) := by
  intro u hu
  rcases h u hu with hsnap | hrest
  · exact .inl hsnap
  · rw [← take_append_drop n rest] at hrest
    exact (mem_append.1 hrest).imp (fun hmem => hskip u hmem hu) id

lemma Covered.of_drop (h : Covered s snap (rest.drop n)) : Covered s snap rest :=
  fun u hu => (h u hu).imp_right mem_of_mem_drop

lemma Covered.trim (h : Covered s snap rest) (hspared : ∀ u ∈ rest, Spared s snap u)
    (rest' : List α) : Covered s snap rest' :=
  fun u hu => .inl ((h u hu).elim id fun hmem => hspared u hmem hu)

lemma readerInv_append (h : ReaderInv s) (u : α) (hok : SparesReader s (.append u))
    (appended : List α) : ReaderInv { s with keys := s.keys.appendUpdate u, appended } := by
  unfold ReaderInv at h ⊢
  simp only [SparesReader] at hok
  simp only [appendUpdate_log, length_append, length_singleton, appendUpdate_readCounter]
  cases hreader : s.reader with
  | start => trivial
  | noSnapshot => trivial
  | gotSnapshot snap =>
    rw [hreader] at h
    exact fun v hv => (h v hv).imp_right (mem_append_left _)
  | gotOffset snap off =>
    rw [hreader] at h
    exact ⟨fun v hv => (h.1 v hv).imp_right (mem_append_left _), by omega⟩
  | gotCounter snap off counter =>
    -- LLEN will be one larger than when the counter was read, and LRANGE starts later
    rw [hreader] at h hok
    exact ⟨(h.1.of_drop.skip hok).append u, h.2⟩
  | gotLen snap first =>
    rw [hreader] at h
    exact ⟨h.1.append u, h.2⟩
  | done snap tail =>
    rw [hreader] at h
    exact h

lemma readerInv_snapshotWrite (h : ReaderInv s) {c : Nat} {state : List α}
    (hok : SparesReader s (.snapshotWrite c state)) :
    ReaderInv { s with keys := s.keys.writeSnapshot state c } := by
  unfold ReaderInv at h ⊢
  simp only [SparesReader] at hok
  simp only [writeSnapshot_log, writeSnapshot_readCounter]
  cases hreader : s.reader with
  | start => trivial
  | noSnapshot => trivial
  | gotSnapshot snap =>
    rw [hreader] at h hok
    exact h.trim (hok snap rfl) _
  | gotOffset snap off =>
    rw [hreader] at h hok
    exact ⟨h.1.trim (hok snap rfl) _, Nat.le_trans (Nat.le_add_right _ _) h.2⟩
  | gotCounter snap | gotLen snap =>
    rw [hreader] at h hok
    exact ⟨h.1.of_drop.trim (hok snap rfl) _, h.2⟩
  | done snap tail =>
    rw [hreader] at h
    exact h

lemma relativeStart_toNat {off counter len : Nat} :
    (StateKeys.relativeStart off counter len).toNat = off + len - counter ∧
      0 ≤ StateKeys.relativeStart off counter len := by
  unfold relativeStart
  simp only
  split_ifs <;> omega

lemma readerInv_read [DecidableEq α] (hstore : StoreInv s) (h : ReaderInv s) {reader : Reader α}
    (hnext : s.reader.next s.keys = some reader) :
    ReaderInv { s with reader, before := if s.reader = .start then s.appended else s.before } := by
  unfold ReaderInv at h
  cases hreader : s.reader with
  | start =>
    rw [hreader] at hnext
    simp only [Reader.next] at hnext
    split at hnext
    · cases hnext
      trivial
    · rename_i snap hsnap
      cases hnext
      intro u hu
      simpa only [hsnap, getD_some] using hstore.retained u hu
  | gotSnapshot snap =>
    rw [hreader] at hnext h
    cases hnext
    exact ⟨h, hstore.offset⟩
  | gotOffset snap off =>
    rw [hreader] at hnext h
    simp only [Reader.next] at hnext
    obtain ⟨hcovered, hoff⟩ := h
    -- an early return finds the log empty
    have hearly : s.keys.readCounter ≤ off → Covered s snap [] := by
      intro hle
      have hempty : s.keys.log = [] := length_eq_zero_iff.1 (by omega)
      rwa [hempty] at hcovered
    split at hnext
    · rename_i hnone
      cases hnext
      exact hearly (by simp [readCounter, hnone])
    · rename_i counter hsome
      have hcounter : s.keys.readCounter = counter := by
        rw [readCounter, hsome, getD_some]
      split at hnext
      · rename_i hle
        cases hnext
        exact hearly (hcounter ▸ hle)
      · rename_i hlt
        cases hnext
        refine ⟨?_, Nat.lt_of_not_le hlt⟩
        have hzero : off + s.keys.log.length - counter = 0 := by omega
        simp only [hzero, drop_zero]
        exact hcovered
  | gotCounter snap off counter =>
    rw [hreader] at hnext h
    cases hnext
    refine ⟨?_, relativeStart_toNat.2⟩
    rw [relativeStart_toNat.1]
    exact h.1
  | gotLen snap first =>
    rw [hreader] at hnext h
    cases hnext
    intro u hu
    rw [RedisList.range_to_end _ h.2]
    exact h.1 u hu
  | done | noSnapshot =>
    rw [hreader] at hnext
    cases hnext

lemma readerInv_step [DecidableEq α] {t : ColdStartState α} {a : ColdStartAction α}
    (hstore : StoreInv s) (h : ReaderInv s) (hok : SparesReader s a)
    (hs : coldStartStep s a = some t) : ReaderInv t := by
  cases a with
  | append u =>
    cases hs
    exact readerInv_append h u hok _
  | snapshotCounter =>
    cases hs
    exact h
  | snapshotWrite counter state =>
    obtain ⟨-, rfl⟩ := ite_some_none_eq_some.1 hs
    exact readerInv_snapshotWrite h hok
  | read =>
    obtain ⟨reader, hnext, rfl⟩ := map_eq_some_iff.1 hs
    exact readerInv_read hstore h hnext

lemma ReaderInv.readComplete (h : ReaderInv s) : ReadComplete s := by
  unfold ReaderInv at h
  unfold ReadComplete
  split
  · rename_i hreader
    rw [hreader] at h
    exact h
  · trivial

/-- The bootstrap read misses nothing in any interleaving in which the other pods
spare what it has still to read. -/
theorem read_complete_of_sparesReader [DecidableEq α] {s : ColdStartState α}
    (hrun : Run coldStartStep SparesReader .initial s) : ReadComplete s :=
  (hrun.invariant (P := fun s => StoreInv s ∧ ReaderInv s) ⟨storeInv_initial, trivial⟩
    (fun _ _ _ h hok hs =>
      ⟨storeInv_step h.1 hs, readerInv_step h.1 h.2 hok hs⟩)).2.readComplete

/-- A read of a snapshot and a tail of one entry, with an append and a compaction
of what the snapshot already held in between. -/
def sparedRead : List (ColdStartAction Nat) :=
  [.append 1, .snapshotCounter, .snapshotWrite 1 [1], .read, .snapshotCounter,
    .snapshotWrite 1 [1], .read, .append 2, .read, .read, .read]

theorem read_complete_sparedRead :
    ∃ s, exec coldStartStep SparesReader .initial sparedRead = some s ∧
      s.reader = .done [1] [2] ∧ ReadComplete s :=
  exec_and (by decide +kernel) fun _ hrun => read_complete_of_sparesReader hrun

def compactionDuringRead : List (ColdStartAction Nat) :=
  [.snapshotCounter, .snapshotWrite 0 [], .append 1, .read, .snapshotCounter,
    .snapshotWrite 1 [1], .read, .read]

def appendDuringRead : List (ColdStartAction Nat) :=
  [.snapshotCounter, .snapshotWrite 0 [], .append 1, .read, .read, .read, .append 2, .read, .read]

/-- Both interleavings miss an update that was in the log when the read began: the
first reads the old snapshot with the new offset, the second starts LRANGE one
entry too late. -/
theorem interleaved_read_misses_update :
    (∃ s, Run coldStartStep anyStep (.initial : ColdStartState Nat) s ∧
        s = ⟨⟨[], some 1, some [1], some 1⟩, [1], [0, 1], .done [] [], [1]⟩ ∧ ¬ ReadComplete s) ∧
      ∃ s, Run coldStartStep anyStep (.initial : ColdStartState Nat) s ∧
        s = ⟨⟨[1, 2], some 2, some [], some 0⟩, [1, 2], [0], .done [] [2], [1]⟩ ∧
          ¬ ReadComplete s :=
  ⟨exists_run compactionDuringRead (by decide +kernel),
    exists_run appendDuringRead (by decide +kernel)⟩

end CollabEditor.Relay

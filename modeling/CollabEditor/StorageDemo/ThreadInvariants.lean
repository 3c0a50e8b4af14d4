import CollabEditor.StorageDemo.ThreadChanges
/-!
# Threads stay well formed

A resolved thread has a time at which it was, nobody has the same reaction twice, and comments are
only added: if no write fails once it has begun, and nobody reacts under two ids that are stored as
the same.
-/

namespace CollabEditor.StorageDemo.ThreadFiles

open Support FaultyFiles Execution List Function

/-! ## Runs -/

/-- The files, and for each thread what its comments have been since it was created. -/
structure StoreState where
  files : Files Key CommentThread
  earlier : Key → List (List CommentHeader)

namespace StoreState

def empty : StoreState := ⟨fun _ => none, fun _ => []⟩

def next (s : StoreState) (files : Files Key CommentThread) : StoreState where
  files := files
  earlier key :=
    if (files key).isNone then []
    else s.earlier key ++ (stored s.files key).toList.map CommentThread.headers

def WellFormed (s : StoreState) : Prop :=
  ∀ key file, s.files key = some file →
    ∃ t, file = .whole t ∧ t.WellFormed ∧ ∀ old ∈ s.earlier key, old <+: t.headers

end StoreState

def step (json : Json) (s : StoreState) (call : Call) : Option StoreState :=
  some (s.next (perform json s.files call).1)

/-- A call that fails changes no thread, and no call changes another thread. -/
structure Framed (json : Json) (s : StoreState) (call : Call) (t : StoreState) : Prop where
  failed : ∀ e, (perform json s.files call).2 = .error e → t.files = s.files
  others : ∀ key, key ≠ call.op.key → t.files key = s.files key

def toWrite (files : Files Key CommentThread) (call : Call) : Option CommentThread :=
  match plan files call.io call.now call.op with
  | .ok (.write thread, _) => some thread
  | _ => none

/-- A write that has begun comes to its end, or writes what was there; and who adds a reaction is
known by the id that is stored. -/
def WriteSound (json : Json) (files : Files Key CommentThread) (op : Op) (new : CommentThread) :
    WriteOutcome → Prop
  | .done => ∀ old ∈ stored files op.key, op.Recognises json old
  | .refused => True
  | .torn => False
  | .unsynced => files op.key = some (.whole (new.clean json))

def Sound (json : Json) (s : StoreState) (call : Call) : Prop :=
  ∀ new ∈ toWrite s.files call, WriteSound json s.files call.op new call.io.write

instance (json : Json) (files : Files Key CommentThread) (op : Op) (new : CommentThread)
    (outcome : WriteOutcome) : Decidable (WriteSound json files op new outcome) := by
  rcases outcome with ⟨⟩ <;> dsimp only [WriteSound] <;> infer_instance

instance (json : Json) (s : StoreState) (call : Call) : Decidable (Sound json s call) :=
  inferInstanceAs (Decidable (∀ new ∈ toWrite s.files call, _))

section

variable {json : Json} {s : StoreState} {call : Call} {files : Files Key CommentThread}

structure StoreState.Consistent (json : Json) (s : StoreState) : Prop where
  files : ThreadFiles.Consistent json s.files
  earlier : ∀ key, s.files key = none → s.earlier key = []

lemma StoreState.consistent_empty : empty.Consistent json where
  files := ⟨nofun, nofun⟩
  earlier _ _ := rfl

lemma StoreState.Consistent.step {t : StoreState} (h : s.Consistent json)
    (hstep : step json s call = some t) : t.Consistent json := by
  cases hstep
  refine ⟨h.files.perform, fun key hnone => ?_⟩
  exact if_pos (Option.isNone_iff_eq_none.2 hnone)

namespace StoreState

variable {file : File CommentThread} {key : Key}

lemma earlier_next (h : files key = some file) : (s.next files).earlier key =
      s.earlier key ++ (stored s.files key).toList.map CommentThread.headers :=
  if_neg (by rw [h]; exact Bool.false_ne_true)

variable (hcons : s.Consistent json)
include hcons

variable (hwf : s.WellFormed)
include hwf

lemma prefix_next_iff (h : files key = some file) {headers : List CommentHeader} :
    (∀ old ∈ (s.next files).earlier key, old <+: headers) ↔
      ∀ old, s.files key = some (.whole old) → old.headers <+: headers := by
  rw [earlier_next h]
  constructor
  · intro hall old hold
    refine hall _ (mem_append_right _ (mem_map_of_mem ?_))
    rw [Option.mem_toList]
    exact stored_eq_some.2 hold
  · intro hlast old hold
    obtain hold | hold := mem_append.1 hold
    · cases hfile : s.files key with
      | none =>
        rw [hcons.earlier key hfile] at hold
        cases hold
      | some file =>
        obtain ⟨t, rfl, -, hearlier⟩ := hwf key file hfile
        exact (hearlier old hold).trans (hlast t hfile)
    · obtain ⟨t, ht, rfl⟩ := mem_map.1 hold
      exact hlast t (stored_eq_some.1 (Option.mem_toList.1 ht))

lemma next_unchanged (hsame : files key = s.files key) (h : files key = some file) :
    ∃ t, file = .whole t ∧ t.WellFormed ∧ ∀ old ∈ (s.next files).earlier key,
      old <+: t.headers := by
  rw [hsame] at h
  obtain ⟨t, rfl, hformed, -⟩ := hwf key file h
  refine ⟨t, rfl, hformed, (prefix_next_iff hcons hwf (hsame.trans h)).2 fun old hold => ?_⟩
  rw [h] at hold
  cases hold
  exact prefix_rfl

lemma next_self_wellFormed : (s.next s.files).WellFormed :=
  fun _ _ h => next_unchanged hcons hwf rfl h

lemma next_wellFormed_iff (hother : ∀ k, k ≠ key → files k = s.files k) :
    (s.next files).WellFormed ↔ ∀ file, files key = some file → ∃ t, file = .whole t ∧
      t.WellFormed ∧ ∀ old, s.files key = some (.whole old) → old.headers <+: t.headers := by
  constructor
  · intro h file hfile
    obtain ⟨t, ht, hformed, hearlier⟩ := h key file hfile
    exact ⟨t, ht, hformed, (prefix_next_iff hcons hwf hfile).1 hearlier⟩
  · intro h k file hfile
    by_cases hk : k = key
    · subst hk
      obtain ⟨t, ht, hformed, hlast⟩ := h file hfile
      exact ⟨t, ht, hformed, (prefix_next_iff hcons hwf hfile).2 hlast⟩
    · exact next_unchanged hcons hwf (hother k hk) hfile

end StoreState

lemma sound_of_toWrite_none (h : toWrite s.files call = none) : Sound json s call := by
  intro new hnew
  rw [h] at hnew
  cases hnew

variable {new : CommentThread} {response : Response}

lemma CommentThread.IsNew.wellFormed_clean (h : new.IsNew) : (new.clean json).WellFormed where
  resolved := by simp [CommentThread.clean, h.status, h.resolvedAt]
  distinct := by
    rw [new.allReactions_clean, forall_mem_map]
    intro list hlist
    obtain rfl | hlist := mem_cons.1 hlist
    · rw [h.reactions]
      exact .nil
    · obtain ⟨c, hc, rfl⟩ := mem_map.1 hlist
      rw [h.comments c hc]
      exact .nil

variable (hcons : s.Consistent json)
include hcons

lemma written_wellFormed_iff (hwf : s.WellFormed)
    (hplan : plan s.files call.io call.now call.op = .ok (.write new, response)) :
    ((new.clean json).WellFormed ∧ ∀ old, s.files call.op.key = some (.whole old) →
      old.headers <+: (new.clean json).headers) ↔
    ∀ old ∈ stored s.files call.op.key, call.op.Recognises json old := by
  obtain hremove | ⟨_, hwrite, -, -, hnone, hnew⟩ | ⟨old, _, hwrite, hold, hchange⟩ :=
    plan_eq_ok hplan
  · cases hremove
  · cases hwrite
    refine iff_of_true ⟨hnew.wellFormed_clean, fun old hold => ?_⟩ fun old hold => ?_
    · rw [hnone] at hold
      cases hold
    · rw [stored, hnone] at hold
      cases hold
  · cases hwrite
    obtain ⟨_, hfile, hformed, -⟩ := hwf _ _ hold
    cases hfile
    have hclean := hcons.files.clean _ old hold
    have hdistinct := hchange.distinct_iff hclean hformed.distinct
    have hinitial := headers_prefix_clean hclean hchange.continues.headers
    have hresolved := hchange.continues.resolved hformed.resolved
    simp only [hold, stored_eq_some.2 hold, Option.mem_some_iff, forall_eq', Option.some.injEq,
      File.whole.injEq]
    rw [← hdistinct]
    exact ⟨fun h => h.1.distinct, fun h => ⟨⟨hresolved, h⟩, hinitial⟩⟩

lemma framed_of_write_iff
    (hplan : plan s.files call.io call.now call.op = .ok (.write new, response)) :
    Framed json s call (s.next (perform json s.files call).1) ↔
      FailsUnchanged s.files call.op.key (new.clean json) call.io.write := by
  rw [failsUnchanged_iff]
  have hperform := perform_of_write hcons.files hplan
  constructor
  · intro h hfailed
    have hfiles : (perform json s.files call).1 = s.files :=
      h.failed .writeThread (by rw [hperform, hfailed]; rfl)
    rwa [hperform] at hfiles
  · refine fun h => ⟨fun e he => ?_, fun key hkey => perform_of_ne hcons.files hkey⟩
    change (perform json s.files call).1 = s.files
    rw [hperform] at he ⊢
    cases hwritten : (write s.files call.op.key (new.clean json) call.io.write).2 with
    | true =>
      rw [hwritten] at he
      cases he
    | false => exact h hwritten

variable (hwf : s.WellFormed)
include hwf

lemma wellFormed_framed_of_unchanged {e : StoreError}
    (h : perform json s.files call = (s.files, .error e)) :
    (s.next (perform json s.files call).1).WellFormed ∧
      Framed json s call (s.next (perform json s.files call).1) := by
  rw [h]
  exact ⟨StoreState.next_self_wellFormed hcons hwf, fun _ _ => rfl, fun _ _ => rfl⟩

lemma wellFormed_framed_of_removed
    (h : perform json s.files call = (update s.files call.op.key none, .ok response)) :
    (s.next (perform json s.files call).1).WellFormed ∧
      Framed json s call (s.next (perform json s.files call).1) := by
  have hothers : ∀ key, key ≠ call.op.key → update s.files call.op.key none key = s.files key :=
    fun key hkey => update_of_ne hkey ..
  refine ⟨?_, fun e he => ?_, ?_⟩
  · rw [h, StoreState.next_wellFormed_iff hcons hwf hothers]
    intro file hfile
    rw [update_self] at hfile
    cases hfile
  · rw [h] at he
    cases he
  · rw [h]
    exact hothers

lemma wellFormed_framed_of_write_iff
    (hplan : plan s.files call.io call.now call.op = .ok (.write new, response)) :
    ((s.next (perform json s.files call).1).WellFormed ∧
      Framed json s call (s.next (perform json s.files call).1)) ↔
    WriteSound json s.files call.op new call.io.write := by
  have hothers : ∀ key, key ≠ call.op.key → (perform json s.files call).1 key = s.files key :=
    fun key hkey => perform_of_ne hcons.files hkey
  have hfiles : (perform json s.files call).1 =
      (write s.files call.op.key (new.clean json) call.io.write).1 :=
    congrArg Prod.fst (perform_of_write hcons.files hplan)
  have hself : (s.next s.files).WellFormed := StoreState.next_self_wellFormed hcons hwf
  rw [framed_of_write_iff hcons hplan]
  cases hio : call.io.write with
  | done =>
    rw [StoreState.next_wellFormed_iff hcons hwf hothers, hfiles, hio]
    refine (and_iff_left trivial).trans (Iff.trans ?_ (written_wellFormed_iff hcons hwf hplan))
    simp only [write, update_self, Option.some.injEq, forall_eq', File.whole.injEq, exists_eq_left']
  | refused =>
    rw [hfiles, hio]
    exact iff_of_true ⟨hself, trivial⟩ trivial
  | torn =>
    -- no file of a well-formed store is damaged
    refine iff_of_false (fun h => ?_) id
    obtain ⟨_, hwhole, -⟩ := hwf _ _ h.2
    cases hwhole
  | unsynced =>
    refine and_iff_right_of_imp fun hsame => ?_
    have hunchanged := update_eq_self_iff.2 (Eq.symm hsame)
    rw [hfiles, hio, write, hunchanged]
    exact hself

/-- One call: the threads stay well formed and in their frame exactly if it is sound. -/
lemma wellFormed_framed_iff {t : StoreState} (hstep : step json s call = some t) :
    t.WellFormed ∧ Framed json s call t ↔ Sound json s call := by
  cases hstep
  match hplan : plan s.files call.io call.now call.op with
  | .error e =>
    have hsound : Sound json s call := sound_of_toWrite_none (by rw [toWrite, hplan])
    exact iff_of_true (wellFormed_framed_of_unchanged hcons hwf (perform_of_error hplan)) hsound
  | .ok (.remove threadID, response) =>
    have hsound : Sound json s call := sound_of_toWrite_none (by rw [toWrite, hplan])
    refine iff_of_true ?_ hsound
    obtain hremove | ⟨_, hwrite, -⟩ | ⟨_, _, hwrite, -⟩ := plan_eq_ok hplan
    · cases hremove
      have hperform : perform json s.files call = _ := perform_of_remove hplan
      split at hperform
      · exact wellFormed_framed_of_removed hcons hwf hperform
      · exact wellFormed_framed_of_unchanged hcons hwf hperform
    · cases hwrite
    · cases hwrite
  | .ok (.write new, response) =>
    have hsound : Sound json s call ↔ WriteSound json s.files call.op new call.io.write := by
      simp [Sound, toWrite, hplan]
    rw [hsound]
    exact wellFormed_framed_of_write_iff hcons hwf hplan

end

/-- As long as every write that begins comes to its end and nobody reacts under two ids that are
stored as one, every thread is well formed and calls keep to their thread. The first call that is
not sound breaks this. -/
theorem threads_well_formed_iff (json : Json) (s : StoreState)
    (hrun : Run (step json) (Sound json) .empty s) :
    s.WellFormed ∧ ∀ call t, step json s call = some t →
      (t.WellFormed ∧ Framed json s call t ↔ Sound json s call) := by
  have hs : s.Consistent json ∧ s.WellFormed := by
    refine hrun.invariant (P := fun s => s.Consistent json ∧ s.WellFormed)
      ⟨StoreState.consistent_empty, nofun⟩ fun t u call ht hsound hstep => ?_
    exact ⟨ht.1.step hstep, ((wellFormed_framed_iff ht.1 ht.2 hstep).2 hsound).1⟩
  exact ⟨hs.2, fun call t hstep => wellFormed_framed_iff hs.1 hs.2 hstep⟩

def sampleKey : Key := (bytesOf "d", bytesOf "00000000-0000-0000-0000-000000000000")

def sampleComment : NewComment where
  id := bytesOf "11111111-1111-1111-1111-111111111111"
  authorID := bytesOf "a"
  authorName := bytesOf "A"
  content := bytesOf "hello"
  mentions := []

def createSample : Call where
  op := .createCommentThread sampleKey.1
    (some ⟨sampleKey.2, ⟨0, 1, bytesOf "x"⟩, some sampleComment, none⟩)
  now := 1

def replySample (write : WriteOutcome) : Call where
  op := .addReply sampleKey.1 sampleKey.2 (some sampleComment)
  io := { write := write }
  now := 2

def reactSample (userID : Text) : Call where
  op := .addReaction sampleKey.1 sampleKey.2 (some ⟨[], userID, [], bytesOf "heart"⟩)
  now := 3

/-- A user with an ASCII id reacts twice, and a reply is refused. -/
theorem threads_well_formed_reacted :
    ∃ s, (stored s.files sampleKey).map (·.reactions.length) = some 1 ∧ s.WellFormed ∧
      ∀ call t, step .encoding s call = some t →
        (t.WellFormed ∧ Framed .encoding s call t ↔ Sound .encoding s call) := by
  obtain ⟨s, hexec, hs⟩ :
      ∃ s ∈ exec (step .encoding) (Sound .encoding) .empty
        [createSample, replySample .done, reactSample (bytesOf "u"), reactSample (bytesOf "u"),
          replySample .refused],
        (stored s.files sampleKey).map (·.reactions.length) = some 1 := by decide +kernel
  exact ⟨s, hs, threads_well_formed_iff .encoding s (run_of_exec hexec)⟩

/-- A reply fails while the file is written, and the thread can no longer be read. A user whose id
is the byte `0xff` reacts twice, and both reactions are stored. -/
theorem reply_damages_and_reaction_repeats :
    (∃ s t, Run (step .encoding) anyStep .empty s ∧ step .encoding s (replySample .torn) = some t ∧
      (perform .encoding s.files (replySample .torn)).2 = .error .writeThread ∧
      (stored s.files sampleKey).isSome ∧ t.files sampleKey = some .damaged ∧
      ¬Framed .encoding s (replySample .torn) t) ∧ ∃ s, Run (step .encoding) anyStep .empty s ∧
      (stored s.files sampleKey).map (·.reactions.map fun r => (r.userID, r.emoji)) =
        some [([0xef, 0xbf, 0xbd], bytesOf "heart"), ([0xef, 0xbf, 0xbd], bytesOf "heart")] ∧
      ¬s.WellFormed := by
  constructor
  · obtain ⟨s, hexec, hsome, herror, hdamaged, hwhole⟩ :
        ∃ s ∈ exec (step .encoding) anyStep .empty [createSample],
          (stored s.files sampleKey).isSome ∧
          (perform .encoding s.files (replySample .torn)).2 = .error .writeThread ∧
          (perform .encoding s.files (replySample .torn)).1 sampleKey = some .damaged ∧
          s.files sampleKey ≠ some .damaged := by decide +kernel
    refine ⟨s, _, run_of_exec hexec, rfl, herror, hsome, hdamaged, fun hframed => ?_⟩
    have hsame := congrFun (hframed.failed _ herror) sampleKey
    exact hwhole (hsame.symm.trans hdamaged)
  · obtain ⟨s, hexec, hstored⟩ :
        ∃ s ∈ exec (step .encoding) anyStep .empty
          [createSample, reactSample [0xff], reactSample [0xff]],
          (stored s.files sampleKey).map (·.reactions.map fun r => (r.userID, r.emoji)) =
            some [([0xef, 0xbf, 0xbd], bytesOf "heart"),
              ([0xef, 0xbf, 0xbd], bytesOf "heart")] := by
      decide +kernel
    refine ⟨s, run_of_exec hexec, hstored, fun hformed => ?_⟩
    obtain ⟨t, ht, hreactions⟩ := Option.map_eq_some_iff.1 hstored
    obtain ⟨_, hwhole, hwf, -⟩ := hformed _ _ (stored_eq_some.1 ht)
    cases hwhole
    have hdistinct : (t.reactions.map fun r => (r.userID, r.emoji)).Pairwise
        fun a b => ¬(a.1 = b.1 ∧ a.2 = b.2) :=
      pairwise_map.2 (hwf.distinct _ mem_cons_self)
    rw [hreactions] at hdistinct
    simp at hdistinct

end CollabEditor.StorageDemo.ThreadFiles

import CollabEditor.StorageDemo.Disk
/-!
# The zone of a document

Every path that a store computes for a document lies in the zone of that document.  Where a store
takes a path or an id from a file, it relies on what the stores write into such files.
-/

namespace CollabEditor.StorageDemo.Disk

open Support FilePath FileTree FileProgram List

/-! ## Names -/

variable {c : Char} {suffix id : Text} {d : DocID}

lemma ne_of_class {p : Char → Bool} (h : p c) (hp : ['.', '/', '\n', '\r'].all (!p ·)) :
    c ≠ '.' ∧ c ≠ '/' ∧ c ≠ '\n' ∧ c ≠ '\r' := by
  refine ⟨?_, ?_, ?_, ?_⟩ <;> rintro rfl <;> simp [h] at hp

/-- The characters of an id that the journal's format depends on. -/
def Tidy (name : Text) : Prop := ∀ c ∈ name, c ≠ '/' ∧ c ≠ '\n' ∧ c ≠ '\r'

lemma plain_append {first : Char} {rest : Text} (hdot : first ≠ '.')
    (htidy : Tidy (first :: rest)) (hsuffix : '/' ∉ suffix) : Plain (first :: rest ++ suffix) := by
  refine plain_of_head hdot fun hmem => ?_
  rcases mem_append.1 (show '/' ∈ (first :: rest) ++ suffix from hmem) with hmem | hmem
  · exact (htidy '/' hmem).1 rfl
  · exact hsuffix hmem

lemma tidy_of_validateDocID (hd : validateDocID d) : Tidy d := by
  match d with
  | [] => exact absurd hd (by decide)
  | first :: rest =>
    simp only [validateDocID, Bool.and_eq_true, all_eq_true, Bool.or_eq_true,
      decide_eq_true_eq] at hd
    intro c hc
    rcases mem_cons.1 hc with rfl | hc
    · exact (ne_of_class hd.1.2 (by decide)).2
    · rcases hd.2 c hc with ((halnum | rfl) | rfl) | rfl
      · exact (ne_of_class halnum (by decide)).2
      · decide
      · decide
      · decide

lemma plain_append_of_validateDocID (hd : validateDocID d) (hsuffix : '/' ∉ suffix) :
    Plain (d ++ suffix) := by
  have htidy := tidy_of_validateDocID hd
  match d with
  | [] => exact absurd hd (by decide)
  | first :: rest =>
    have hfirst : isAlphanumeric first := by
      simp only [validateDocID, Bool.and_eq_true] at hd
      exact hd.1.2
    exact plain_append (ne_of_class hfirst (by decide)).1 htidy hsuffix

lemma plain_of_validateDocID (hd : validateDocID d) : Plain d := by
  have h : Plain (d ++ []) := plain_append_of_validateDocID hd not_mem_nil
  rwa [append_nil] at h

lemma tidy_of_validUUID (hid : validUUID id) : Tidy id := by
  simp only [validUUID, Bool.and_eq_true, decide_eq_true_eq, all_eq_true] at hid
  intro c hc
  obtain ⟨i, hi, rfl⟩ := mem_iff_getElem.1 hc
  have hchar := hid.2 (id[i], i) (mk_mem_zipIdx_iff_getElem?.2 (getElem?_eq_getElem hi))
  dsimp only at hchar
  split at hchar
  · rw [of_decide_eq_true hchar]
    decide
  · exact (ne_of_class (p := isHexDigit) hchar (by decide)).2

lemma plain_append_of_validUUID (hid : validUUID id) (hsuffix : '/' ∉ suffix) :
    Plain (id ++ suffix) := by
  have htidy := tidy_of_validUUID hid
  simp only [validUUID, Bool.and_eq_true, decide_eq_true_eq, all_eq_true] at hid
  match id with
  | [] => exact absurd hid.1 (by decide)
  | first :: rest =>
    have hfirst : isHexDigit first := by simpa using hid.2 (first, 0) (by simp)
    exact plain_append (ne_of_class hfirst (by decide)).1 htidy hsuffix

lemma plain_of_validUUID (hid : validUUID id) : Plain id := by
  have h : Plain (id ++ []) := plain_append_of_validUUID hid not_mem_nil
  rwa [append_nil] at h

/-! ## Paths -/

section

variable (base : Path) {d : DocID} (hd : validateDocID d)

include hd

lemma filePath_names : (filePath base d).names = base.names ++ [d] :=
  base.names_join (by simpa using plain_of_validateDocID hd)

lemma yjsPath_names :
    (yjsPath base d).names = base.names ++ [".yjs".toList, d ++ ".yjs".toList] :=
  base.names_join (forall_mem_cons.2 ⟨by decide,
    forall_mem_singleton.2 (plain_append_of_validateDocID hd (by decide))⟩)

lemma versionsDir_names : (versionsDir base d).names = base.names ++ [".versions".toList, d] :=
  base.names_join (forall_mem_cons.2 ⟨by decide,
    forall_mem_singleton.2 (plain_of_validateDocID hd)⟩)

lemma clientMappingsPath_names :
    (clientMappingsPath base d).names = base.names ++ [".clients".toList, d ++ ".json".toList] :=
  base.names_join (forall_mem_cons.2 ⟨by decide,
    forall_mem_singleton.2 (plain_append_of_validateDocID hd (by decide))⟩)

lemma commentsDir_names : (commentsDir base d).names = base.names ++ [".comments".toList, d] :=
  base.names_join (forall_mem_cons.2 ⟨by decide,
    forall_mem_singleton.2 (plain_of_validateDocID hd)⟩)

lemma threadsDir_names :
    (threadsDir base d).names = base.names ++ [".comments".toList, d] ++ ["threads".toList] := by
  rw [threadsDir, Path.names_join _ (forall_mem_singleton.2 (by decide)),
    commentsDir_names base hd]

lemma changeLogPath_names :
    (changeLogPath base d).names = base.names ++ [".comments".toList, d] ++
      ["changes.log".toList] := by
  rw [changeLogPath, Path.names_join _ (forall_mem_singleton.2 (by decide)),
    commentsDir_names base hd]

variable {id : Text} (hid : validUUID id)
include hid

lemma threadPath_names : (threadPath base d id).names =
      base.names ++ [".comments".toList, d] ++ ["threads".toList, id ++ ".json".toList] := by
  rw [threadPath, Path.names_join _ (forall_mem_singleton.2 (plain_append_of_validUUID hid
    (by decide))), threadsDir_names base hd, append_assoc _ _ [_]]
  rfl

lemma versionPath_names : ((versionsDir base d).join [id ++ ".json".toList]).names =
      base.names ++ [".versions".toList, d] ++ [id ++ ".json".toList] := by
  rw [Path.names_join _ (forall_mem_singleton.2 (plain_append_of_validUUID hid (by decide))),
    versionsDir_names base hd]

lemma versionDir_names : (base.join [".versions".toList, d, id]).names =
      base.names ++ [".versions".toList, d] ++ [id] := by
  have hplain : ∀ name ∈ [".versions".toList, d, id], Plain name :=
    forall_mem_cons.2 ⟨by decide, forall_mem_cons.2
      ⟨plain_of_validateDocID hd, forall_mem_singleton.2 (plain_of_validUUID hid)⟩⟩
  rw [Path.names_join _ hplain, append_assoc]
  rfl

lemma textPath_names : ((base.join [".versions".toList, d, id]).join [d]).names =
      base.names ++ [".versions".toList, d] ++ [id, d] := by
  rw [Path.names_join _ (forall_mem_singleton.2 (plain_of_validateDocID hd)),
    versionDir_names base hd hid, append_assoc]
  rfl

end

/-! ## The zone of a document -/

/-- The directories that the stores make, and what the name of a document has after its id there. -/
def ownDirs : List (Name × Text) :=
  [(".yjs".toList, ".yjs".toList), (".versions".toList, []), (".clients".toList, ".json".toList),
   (".comments".toList, [])]

def zone (base : Path) (d : DocID) : List (List Name) :=
  (base.names ++ [d]) :: ownDirs.map fun dir => base.names ++ [dir.1, d ++ dir.2]

/-- What the stores rely on in the files that they have written: the journal of a document points
to texts of that document, and the ids of versions and threads are UUIDs. -/
structure Good {β σ : Type} (codec : Codec β σ) (base : Path) (path : List Name)
    (content : Content) : Prop where
  journal : ∀ d, path = base.names ++ [".yjs".toList, d ++ ".yjs".toList] →
    ∃ ids : List Text, (∀ id ∈ ids, validUUID id) ∧ content = ids.flatMap (journalLine d)
  version : ∀ d name, path = base.names ++ [".versions".toList, d] ++ [name] →
    ∀ entry, codec.decodeVersion content = .ok entry → validUUID entry.id
  thread : ∀ d name, path = base.names ++ [".comments".toList, d] ++ ["threads".toList, name] →
    ∀ thread, codec.decodeThread content = .ok thread → validUUID thread.id

def discipline {β σ : Type} (codec : Codec β σ) (base : Path) (d : DocID) (readOnly : Bool) :
    Discipline where
  root := base.names
  zone := zone base d
  good := Good codec base
  fresh := fun id => validUUID id
  readOnly := readOnly

section

variable {β σ : Type} {codec : Codec β σ} {base : Path} {d : DocID} {readOnly : Bool}

lemma yjsPath_mem : base.names ++ [".yjs".toList, d ++ ".yjs".toList] ∈ zone base d := by
  simp [zone, ownDirs]

lemma versionsDir_mem : base.names ++ [".versions".toList, d] ∈ zone base d := by
  simp [zone, ownDirs]

lemma clientMappingsPath_mem :
    base.names ++ [".clients".toList, d ++ ".json".toList] ∈ zone base d := by
  simp [zone, ownDirs]

lemma commentsDir_mem : base.names ++ [".comments".toList, d] ∈ zone base d := by
  simp [zone, ownDirs]

variable {r : List Name}

lemma mem_zone_iff : r ∈ zone base d ↔
    r = base.names ++ [d] ∨ ∃ dir ∈ ownDirs, r = base.names ++ [dir.1, d ++ dir.2] := by
  simp only [zone, mem_cons, mem_map, eq_comm]

lemma inside_of_mem_zone (hd : validateDocID d) (hr : r ∈ zone base d) : Inside base.names r := by
  rcases mem_zone_iff.1 hr with rfl | ⟨dir, hdir, rfl⟩
  · exact ⟨_, rfl, by simp, forall_mem_singleton.2 (plain_of_validateDocID hd)⟩
  · obtain ⟨hname, hsuffix⟩ : Plain dir.1 ∧ '/' ∉ dir.2 :=
      (by decide : ∀ dir ∈ ownDirs, Plain dir.1 ∧ '/' ∉ dir.2) dir hdir
    exact ⟨_, rfl, by simp, forall_mem_cons.2
      ⟨hname, forall_mem_singleton.2 (plain_append_of_validateDocID hd hsuffix)⟩⟩

lemma length_le_of_mem_zone (hbase : ∀ name ∈ base.names, name.length ≤ nameMax)
    (hlength : d.length ≤ 250) (hr : r ∈ zone base d) : ∀ name ∈ r, name.length ≤ nameMax := by
  rcases mem_zone_iff.1 hr with rfl | ⟨dir, hdir, rfl⟩
  · refine forall_mem_append.2 ⟨hbase, forall_mem_singleton.2 ?_⟩
    exact hlength.trans (by decide)
  · obtain ⟨hname, hsuffix⟩ : dir.1.length ≤ nameMax ∧ dir.2.length ≤ 5 :=
      (by decide : ∀ dir ∈ ownDirs, dir.1.length ≤ nameMax ∧ dir.2.length ≤ 5) dir hdir
    refine forall_mem_append.2 ⟨hbase, forall_mem_cons.2
      ⟨hname, forall_mem_singleton.2 ?_⟩⟩
    rw [length_append, nameMax]
    omega

variable (hd : validateDocID d)
include hd

lemma at_append {rest : List Name} (hr : r ∈ zone base d) (hrest : ∀ name ∈ rest, Plain name) :
    (discipline codec base d readOnly).At (r ++ rest) :=
  ⟨(inside_of_mem_zone hd hr).append hrest, r, hr, prefix_append r rest⟩

lemma at_of_mem (hr : r ∈ zone base d) : (discipline codec base d readOnly).At r :=
  ⟨inside_of_mem_zone hd hr, r, hr, prefix_rfl⟩

lemma at_filePath : (discipline codec base d readOnly).At (filePath base d).names :=
  filePath_names base hd ▸ at_of_mem hd mem_cons_self

lemma at_yjsPath : (discipline codec base d readOnly).At (yjsPath base d).names :=
  yjsPath_names base hd ▸ at_of_mem hd yjsPath_mem

lemma at_versionsDir : (discipline codec base d readOnly).At (versionsDir base d).names :=
  versionsDir_names base hd ▸ at_of_mem hd versionsDir_mem

lemma at_clientMappingsPath :
    (discipline codec base d readOnly).At (clientMappingsPath base d).names :=
  clientMappingsPath_names base hd ▸ at_of_mem hd clientMappingsPath_mem

lemma at_changeLogPath : (discipline codec base d readOnly).At (changeLogPath base d).names :=
  changeLogPath_names base hd ▸
    at_append hd commentsDir_mem (forall_mem_singleton.2 (by decide))

lemma at_threadsDir : (discipline codec base d readOnly).At (threadsDir base d).names :=
  threadsDir_names base hd ▸ at_append hd commentsDir_mem (forall_mem_singleton.2 (by decide))

lemma at_versionFile {name : Name} (hname : Plain name) :
    (discipline codec base d readOnly).At (child (versionsDir base d) name).names := by
  rw [child, versionsDir_names base hd]
  exact at_append hd versionsDir_mem (forall_mem_singleton.2 hname)

lemma at_threadFile {name : Name} (hname : Plain name) :
    (discipline codec base d readOnly).At (child (threadsDir base d) name).names := by
  rw [child, threadsDir_names base hd, append_assoc]
  exact at_append hd commentsDir_mem
    (forall_mem_cons.2 ⟨by decide, forall_mem_singleton.2 hname⟩)

variable {id : Text} (hid : validUUID id)
include hid

lemma at_versionPath : (discipline codec base d readOnly).At
    ((versionsDir base d).join [id ++ ".json".toList]).names :=
  versionPath_names base hd hid ▸ at_append hd versionsDir_mem
    (forall_mem_singleton.2 (plain_append_of_validUUID hid (by decide)))

lemma at_threadPath : (discipline codec base d readOnly).At (threadPath base d id).names :=
  threadPath_names base hd hid ▸ at_append hd commentsDir_mem (forall_mem_cons.2
    ⟨by decide, forall_mem_singleton.2 (plain_append_of_validUUID hid (by decide))⟩)

lemma at_versionDir :
    (discipline codec base d readOnly).At (base.join [".versions".toList, d, id]).names :=
  versionDir_names base hd hid ▸
    at_append hd versionsDir_mem (forall_mem_singleton.2 (plain_of_validUUID hid))

lemma at_text :
    (discipline codec base d readOnly).At (base.names ++ [".versions".toList, d] ++ [id, d]) :=
  at_append hd versionsDir_mem (forall_mem_cons.2 ⟨plain_of_validUUID hid,
    forall_mem_singleton.2 (plain_of_validateDocID hd)⟩)

end

lemma near_of_at {D : Discipline} {path : List Name} (h : D.At path) : D.Near path := by
  obtain ⟨hin, r, hr, hrp⟩ := h
  exact ⟨hin, r, hr, .inl hrp⟩

lemma near_of_mem {β σ : Type} {codec : Codec β σ} {base : Path} {dir name : Name}
    (hr : base.names ++ [dir, name] ∈ zone base d) (hdir : Plain dir) :
    (discipline codec base d false).Near (base.names ++ [dir]) := by
  refine ⟨⟨[dir], rfl, by simp, forall_mem_singleton.2 hdir⟩, _, hr, .inr ⟨[name], ?_⟩⟩
  rw [append_assoc]
  rfl

/-! ## Zones are apart -/

lemma apart_of_ne (root : List Name) {a b : Name} (h : a ≠ b) (p q : List Name) :
    Apart (root ++ a :: p) (root ++ b :: q) := by
  simp only [Apart, prefix_append_right_inj, cons_prefix_cons, h, h.symm, false_and,
    not_false_eq_true, and_self]

lemma ne_ownDir (hd : validateDocID d) {dir : Name × Text} (hdir : dir ∈ ownDirs) :
    d ≠ dir.1 := by
  rintro rfl
  have hhidden : ∀ dir ∈ ownDirs, validateDocID dir.1 = false := by decide
  exact absurd hd (by rw [hhidden dir hdir]; exact Bool.false_ne_true)

lemma apart_of_mem_zone {base : Path} {d₁ d₂ : DocID} (hd₁ : validateDocID d₁)
    (hd₂ : validateDocID d₂) (hne : d₁ ≠ d₂) {r₁ r₂ : List Name} (hr₁ : r₁ ∈ zone base d₁)
    (hr₂ : r₂ ∈ zone base d₂) : Apart r₁ r₂ := by
  rcases mem_zone_iff.1 hr₁ with rfl | ⟨dir₁, hdir₁, rfl⟩ <;>
    rcases mem_zone_iff.1 hr₂ with rfl | ⟨dir₂, hdir₂, rfl⟩
  · exact apart_of_ne _ hne _ _
  · exact apart_of_ne _ (ne_ownDir hd₁ hdir₂) _ _
  · exact apart_of_ne _ (ne_ownDir hd₂ hdir₁).symm _ _
  · by_cases hdir : dir₁.1 = dir₂.1
    · -- each directory has its own suffix, so the ids decide
      obtain rfl : dir₁ = dir₂ :=
        (by decide : ∀ a ∈ ownDirs, ∀ b ∈ ownDirs, a.1 = b.1 → a = b) dir₁ hdir₁ dir₂ hdir₂ hdir
      have hnames : d₁ ++ dir₁.2 ≠ d₂ ++ dir₁.2 := fun h => hne (append_cancel_right h)
      have h := apart_of_ne (base.names ++ [dir₁.1]) hnames [] []
      rwa [append_assoc, append_assoc] at h
    · exact apart_of_ne _ hdir _ _

/-! ## What is written -/

section

variable {β σ : Type} {codec : Codec β σ} {base : Path} {d : DocID} {content : Content}

lemma good_append {rest : List Name} (hjournal : ∀ d, rest = [".yjs".toList, d ++ ".yjs".toList] →
      ∃ ids : List Text, (∀ id ∈ ids, validUUID id) ∧ content = ids.flatMap (journalLine d))
    (hversion : ∀ d name, rest = [".versions".toList, d, name] →
      ∀ entry, codec.decodeVersion content = .ok entry → validUUID entry.id)
    (hthread : ∀ d name, rest = [".comments".toList, d, "threads".toList, name] →
      ∀ thread, codec.decodeThread content = .ok thread → validUUID thread.id) :
    Good codec base (base.names ++ rest) content := by
  refine ⟨fun d h => hjournal d (append_cancel_left h), fun d name h => hversion d name ?_,
    fun d name h => hthread d name ?_⟩ <;> rw [append_assoc] at h <;> exact append_cancel_left h

lemma good_changeLog :
    Good codec base (base.names ++ [".comments".toList, d] ++ ["changes.log".toList]) content := by
  rw [append_assoc]
  exact good_append (by simp) (by simp) (by simp)

lemma good_journal {ids : List Text} (hids : ∀ id ∈ ids, validUUID id)
    (hcontent : content = ids.flatMap (journalLine d)) :
    Good codec base (base.names ++ [".yjs".toList, d ++ ".yjs".toList]) content := by
  refine good_append (fun d' h => ?_) (by simp) (by simp)
  have hname : d ++ ".yjs".toList = d' ++ ".yjs".toList := by simpa using h
  cases append_cancel_right hname
  exact ⟨ids, hids, hcontent⟩

lemma good_version {entry : VersionEntry} (hid : validUUID entry.id)
    (hencode : codec.encodeVersion entry = .ok content) (name : Name) :
    Good codec base (base.names ++ [".versions".toList, d] ++ [name]) content := by
  rw [append_assoc]
  refine good_append (by simp) (fun _ _ _ decoded hdecode => ?_) (by simp)
  rwa [codec.version_id hencode hdecode]

lemma good_thread {thread : Thread β} (hid : validUUID thread.id)
    (hencode : codec.encodeThread thread = .ok content) (name : Name) :
    Good codec base (base.names ++ [".comments".toList, d] ++ ["threads".toList, name])
      content := by
  rw [append_assoc]
  refine good_append (by simp) (by simp) fun _ _ _ decoded hdecode => ?_
  rwa [codec.thread_id hencode hdecode]

end

/-! ## The journal -/

/-- Where the text of a version is, as the journal has it. -/
def textPointer (d : DocID) (id : Text) : Text :=
  (Path.join ⟨false, []⟩ [".versions".toList, d, id, d]).toText

lemma plain_textPath (hd : validateDocID d) (hid : validUUID id) :
    ∀ name ∈ [".versions".toList, d, id, d], Plain name := by
  simp only [mem_cons, not_mem_nil, or_false]
  rintro name (rfl | rfl | rfl | rfl)
  · decide
  · exact plain_of_validateDocID hd
  · exact plain_of_validUUID hid
  · exact plain_of_validateDocID hd

lemma textPointer_eq (hd : validateDocID d) (hid : validUUID id) :
    textPointer d id = ".versions".toList ++ '/' :: d ++ '/' :: id ++ '/' :: d := by
  rw [textPointer, Path.join_of_plain _ (plain_textPath hd hid)]
  simp [Path.toText, List.intercalate]

lemma ne_of_mem_line (hd : validateDocID d) (hid : validUUID id)
    (hc : c ∈ "VERSION:".toList ++ textPointer d id) : c ≠ '\n' ∧ c ≠ '\r' := by
  have hliteral : ∀ text : Text, '\n' ∉ text → '\r' ∉ text → ∀ c ∈ text, c ≠ '\n' ∧ c ≠ '\r' :=
    fun text hn hr c hc => ⟨fun h => hn (h ▸ hc), fun h => hr (h ▸ hc)⟩
  rw [textPointer_eq hd hid] at hc
  simp only [mem_append, mem_cons] at hc
  rcases hc with hc | ((hc | rfl | hc) | rfl | hc) | rfl | hc
  · exact hliteral _ (by decide) (by decide) c hc
  · exact hliteral _ (by decide) (by decide) c hc
  · decide
  · exact (tidy_of_validateDocID hd c hc).2
  · decide
  · exact (tidy_of_validUUID hid c hc).2
  · decide
  · exact (tidy_of_validateDocID hd c hc).2

lemma journalLine_append (rest : Content) :
    journalLine d id ++ rest = ("VERSION:".toList ++ textPointer d id) ++ '\n' :: rest := by
  have hline : journalLine d id = "VERSION:".toList ++ textPointer d id ++ ['\n'] := rfl
  rw [hline, append_assoc _ ['\n'] rest, singleton_append]

lemma mem_splitOn_journal (hd : validateDocID d) {ids : List Text}
    (hids : ∀ id ∈ ids, validUUID id) {line : Text}
    (hline : line ∈ (ids.flatMap (journalLine d)).splitOn '\n') :
    line = [] ∨ ∃ id ∈ ids, line = "VERSION:".toList ++ textPointer d id := by
  induction ids with
  | nil => exact .inl (mem_singleton.1 hline)
  | cons id ids ih =>
    obtain ⟨hid, hrest⟩ := forall_mem_cons.1 hids
    have hbreak : '\n' ∉ "VERSION:".toList ++ textPointer d id :=
      fun hmem => (ne_of_mem_line hd hid hmem).1 rfl
    rw [flatMap_cons, journalLine_append] at hline
    rw [splitOn_append_cons_of_beq _ _ (BEq.rfl), splitOn_eq_singleton hbreak] at hline
    rcases mem_append.1 hline with hline | hline
    · exact .inr ⟨id, mem_cons_self, mem_singleton.1 hline⟩
    · rcases ih hrest hline with hnil | ⟨id', hid', hid⟩
      · exact .inl hnil
      · exact .inr ⟨id', mem_cons_of_mem id hid', hid⟩

lemma lastVersionPath_of_lines (lines : List Text) (last : Text) :
    lines.foldl (fun last line => if "VERSION:".toList <+: line then line.drop 8 else last) last =
        last ∨ ∃ line ∈ lines, "VERSION:".toList <+: line ∧
        lines.foldl (fun last line => if "VERSION:".toList <+: line then line.drop 8 else last)
          last = line.drop 8 := by
  induction lines generalizing last with
  | nil => exact .inl rfl
  | cons line lines ih =>
    rw [foldl_cons]
    rcases ih (if "VERSION:".toList <+: line then line.drop 8 else last) with h | ⟨l, hl, hpre, h⟩
    · split at h
      · rename_i hpre
        rw [if_pos hpre]
        exact .inr ⟨line, mem_cons_self, hpre, h⟩
      · rename_i hpre
        rw [if_neg hpre]
        exact .inl h
    · exact .inr ⟨l, mem_cons_of_mem line hl, hpre, h⟩

lemma lastVersionPath_journal (hd : validateDocID d) {ids : List Text}
    (hids : ∀ id ∈ ids, validUUID id) : lastVersionPath (ids.flatMap (journalLine d)) = [] ∨
      ∃ id ∈ ids, lastVersionPath (ids.flatMap (journalLine d)) = textPointer d id := by
  rcases lastVersionPath_of_lines (scanLines (ids.flatMap (journalLine d))) [] with
    h | ⟨l, hl, hpre, h⟩
  · exact .inl h
  · obtain ⟨raw, hraw, rfl⟩ := mem_map.1 hl
    have hmem : raw ∈ (ids.flatMap (journalLine d)).splitOn '\n' := by
      have htake := takeWhile_subset _ hraw
      split at htake
      · exact dropLast_subset _ htake
      · exact htake
    rcases mem_splitOn_journal hd hids hmem with rfl | ⟨id, hid, rfl⟩
    · exact absurd hpre (by decide)
    · refine .inr ⟨id, hid, h.trans ?_⟩
      have hcr : ("VERSION:".toList ++ textPointer d id).getLast? ≠ some '\r' := fun hlast =>
        (ne_of_mem_line hd (hids id hid) (mem_of_getLast? hlast)).2 rfl
      rw [if_neg hcr]
      exact drop_left' rfl

lemma pointer_names (base : Path) (hd : validateDocID d) (hid : validUUID id) :
    (base.join [textPointer d id]).names = base.names ++ [".versions".toList, d] ++ [id, d] := by
  have hplain := plain_textPath hd hid
  rw [textPointer, Path.join_of_plain _ hplain, nil_append, Path.join_toText,
    Path.names_join _ hplain, append_assoc]
  rfl

end CollabEditor.StorageDemo.Disk

import CollabEditor.Support.ItemText
import CollabEditor.Support.Utf16
/-!
# Writing a difference into the shared text

`applyStringDiff` of `text-binding.ts` on a `Y.Text` with its items, in UTF-16 units.  A difference
may begin or end between two surrogates; what a split does to them is a parameter.
-/

namespace CollabEditor.Frontend.WriteBack

open Support ItemText TextDiff List

/-- A pair of surrogates that is split is replaced by two U+FFFD. -/
def surrogates : Splitting UInt16 where
  damages u v := Utf16.isHigh u && Utf16.isLow v
  replacement := 0xfffd
  damaged_ne u v h := by
    rintro rfl
    exact absurd h (by simp [Utf16.isHigh])

variable {K : Type} [DecidableEq K]

def prefixLen (oldStr newStr : List K) : Nat := commonPrefix oldStr newStr

def suffixLen (oldStr newStr : List K) : Nat := commonSuffix oldStr newStr

def deleteCount (oldStr newStr : List K) : Nat :=
  oldStr.length - prefixLen oldStr newStr - suffixLen oldStr newStr

def insertText (oldStr newStr : List K) : List K :=
  slice newStr (prefixLen oldStr newStr) (newStr.length - suffixLen oldStr newStr)

/-- `client` and `clock` are for the id of the item that is inserted. -/
def applyStringDiff (sp : Splitting K) (client clock : Nat) (ytext : List (TextItem K))
    (oldStr newStr : List K) : List (TextItem K) :=
  let deleteFrom := prefixLen oldStr newStr
  let ytext :=
    if 0 < deleteCount oldStr newStr then delete sp ytext deleteFrom (deleteCount oldStr newStr)
    else ytext
  let new : TextItem K := ⟨client, clock, insertText oldStr newStr, false⟩
  if 0 < new.content.length then insert sp ytext deleteFrom new else ytext

/-- The text is the new one, and at both ends the characters are those that were there. -/
structure WritesBack (before after : List (TextItem K)) (newStr : List K) : Prop where
  reads : text after = newStr
  starts : (ItemText.chars after).take (prefixLen (text before) newStr) =
    (ItemText.chars before).take (prefixLen (text before) newStr)
  ends : (ItemText.chars after).drop (newStr.length - suffixLen (text before) newStr) =
    (ItemText.chars before).drop ((text before).length - suffixLen (text before) newStr)

section

variable (oldStr newStr : List K)

lemma prefixLen_add_suffixLen_le :
    prefixLen oldStr newStr + suffixLen oldStr newStr ≤ min oldStr.length newStr.length :=
  commonPrefix_add_commonSuffix_le oldStr newStr

lemma prefixLen_add_deleteCount : prefixLen oldStr newStr + deleteCount oldStr newStr =
      oldStr.length - suffixLen oldStr newStr := by
  have hle := prefixLen_add_suffixLen_le oldStr newStr
  rw [deleteCount]
  omega

lemma prefixLen_add_length_insertText :
    prefixLen oldStr newStr + (insertText oldStr newStr).length =
      newStr.length - suffixLen oldStr newStr := by
  have hle := prefixLen_add_suffixLen_le oldStr newStr
  rw [insertText, length_slice (Nat.sub_le _ _)]
  omega

lemma splice_insertText :
    splice oldStr (prefixLen oldStr newStr) (prefixLen oldStr newStr + deleteCount oldStr newStr)
      (insertText oldStr newStr) = newStr := by
  rw [prefixLen_add_deleteCount]
  exact splice_changed oldStr newStr

variable {oldStr newStr}

lemma deleteCount_pos_or_of_ne (h : newStr ≠ oldStr) :
    0 < deleteCount oldStr newStr ∨ insertText oldStr newStr ≠ [] := by
  by_contra hnone
  obtain ⟨hdelete, hinsert⟩ := not_or.1 hnone
  have hsplice := splice_insertText oldStr newStr
  rw [Nat.eq_zero_of_not_pos hdelete, not_not.1 hinsert, splice, Nat.add_zero, append_nil,
    take_append_drop] at hsplice
  exact h hsplice.symm

end

lemma applyStringDiff_eq_replace (sp : Splitting K) (client clock : Nat)
    (ytext : List (TextItem K)) (oldStr newStr : List K) :
    applyStringDiff sp client clock ytext oldStr newStr =
      replace sp ytext (prefixLen oldStr newStr) (deleteCount oldStr newStr)
        ⟨client, clock, insertText oldStr newStr, false⟩ := rfl

lemma applyStringDiff_self (sp : Splitting K) (client clock : Nat) (ytext : List (TextItem K))
    (str : List K) : applyStringDiff sp client clock ytext str str = ytext := by
  have hprefix : prefixLen str str = str.length := commonPrefix_self str
  have hle := prefixLen_add_suffixLen_le str str
  have hdelete : deleteCount str str = 0 := by
    rw [deleteCount, hprefix]
    omega
  have hinsert : (insertText str str).length = 0 := by
    have hadd := prefixLen_add_length_insertText str str
    omega
  simp only [applyStringDiff, hdelete, hinsert, lt_irrefl, if_false]

section

variable {sp : Splitting K} {client clock : Nat} {ytext : List (TextItem K)} {newStr : List K}

lemma text_applyStringDiff_iff (hne : newStr ≠ text ytext) :
    text (applyStringDiff sp client clock ytext (text ytext) newStr) = newStr ↔
      WholeCharacters sp ytext (prefixLen (text ytext) newStr)
        (deleteCount (text ytext) newStr) := by
  have hle : prefixLen (text ytext) newStr + deleteCount (text ytext) newStr ≤
      (text ytext).length := by
    rw [prefixLen_add_deleteCount]
    exact Nat.sub_le _ _
  rw [applyStringDiff_eq_replace, ← text_replace_eq_iff sp
    ⟨client, clock, insertText (text ytext) newStr, false⟩ hle rfl (deleteCount_pos_or_of_ne hne),
    splice_insertText]

lemma WritesBack.of_wholeCharacters (hne : newStr ≠ text ytext)
    (h : WholeCharacters sp ytext (prefixLen (text ytext) newStr)
      (deleteCount (text ytext) newStr)) :
    WritesBack ytext (applyStringDiff sp client clock ytext (text ytext) newStr) newStr := by
  have hend := prefixLen_add_deleteCount (text ytext) newStr
  have hend' := prefixLen_add_length_insertText (text ytext) newStr
  have hle := prefixLen_add_suffixLen_le (text ytext) newStr
  have hchars : ItemText.chars (applyStringDiff sp client clock ytext (text ytext) newStr) =
      (ItemText.chars ytext).take (prefixLen (text ytext) newStr) ++
        TextItem.chars ⟨client, clock, insertText (text ytext) newStr, false⟩ ++
        (ItemText.chars ytext).drop ((text ytext).length - suffixLen (text ytext) newStr) := by
    rw [applyStringDiff_eq_replace, ← hend]
    refine h.chars_replace ?_ rfl (deleteCount_pos_or_of_ne hne)
    rw [hend]
    exact Nat.sub_le _ _
  have htake : ((ItemText.chars ytext).take (prefixLen (text ytext) newStr)).length =
      prefixLen (text ytext) newStr := by
    rw [length_take, length_chars]
    omega
  refine ⟨(text_applyStringDiff_iff hne).2 h, ?_, ?_⟩
  · rw [hchars, append_assoc, take_left' htake]
  · rw [hchars, ← hend', drop_left']
    rw [length_append, htake, TextItem.length_chars rfl]

end

/-- Writing back gives the new text, and keeps the characters it shares with the old one, exactly
if no end of the difference is inside a character. -/
theorem writes_back_iff_whole_characters (sp : Splitting UInt16) (client clock : Nat)
    (ytext : List (TextItem UInt16)) (newStr : List UInt16) :
    WritesBack ytext (applyStringDiff sp client clock ytext (text ytext) newStr) newStr ↔
      (newStr ≠ text ytext → WholeCharacters sp ytext (prefixLen (text ytext) newStr)
        (deleteCount (text ytext) newStr)) := by
  constructor
  · exact fun h hne => (text_applyStringDiff_iff hne).1 h.reads
  · intro h
    by_cases hsame : newStr = text ytext
    · subst hsame
      rw [applyStringDiff_self]
      exact ⟨rfl, rfl, rfl⟩
    · exact .of_wholeCharacters hsame (h hsame)

def grinningFace : List (TextItem UInt16) := [⟨1, 0, [0xd83d, 0xde00], false⟩]

/-- The character is replaced by one with the same high surrogate, and by one with the same low
surrogate. -/
theorem write_back_splits_surrogates :
    text (applyStringDiff surrogates 2 0 grinningFace (text grinningFace) [0xd83d, 0xde01]) =
        [0xfffd, 0xde01] ∧
      text (applyStringDiff surrogates 2 0 grinningFace (text grinningFace) [0xd83e, 0xde00]) =
        [0xd83e, 0xfffd] ∧ ¬WritesBack grinningFace
        (applyStringDiff surrogates 2 0 grinningFace (text grinningFace) [0xd83d, 0xde01])
        [0xd83d, 0xde01] ∧ ¬WritesBack grinningFace
        (applyStringDiff surrogates 2 0 grinningFace (text grinningFace) [0xd83e, 0xde00])
        [0xd83e, 0xde00] := by
  refine ⟨by decide, by decide, fun h => ?_, fun h => ?_⟩
  · exact absurd h.reads (by decide)
  · exact absurd h.reads (by decide)

end CollabEditor.Frontend.WriteBack

import ScriptTypings.Storage.Content

/-!
# Files after writing

A file that was written is read back: the folders on the way to it are where they were, and its text
is the one that was written if line feeds alone end its lines.
-/

namespace ScriptTypings

open Text

namespace Storage

/-- Items with the one at a place exchanged. -/
def exchange (at_ : List String) (item : Item) (items : List (List String × Item)) :
    List (List String × Item) :=
  items.map fun entry => if entry.1 = at_ then (at_, item) else entry

variable {at_ other : List String}

theorem find?_exchange_self (item : Item) {items : List (List String × Item)}
    (h : (items.any fun entry => entry.1 = at_) = true) :
    (exchange at_ item items).find? (fun entry => entry.1 = at_) = some (at_, item) := by
  induction items with
  | nil => cases h
  | cons entry items ih =>
    rw [exchange, List.map_cons]
    by_cases he : entry.1 = at_
    · rw [if_pos he, List.find?_cons_of_pos (by simp)]
    · rw [if_neg he, List.find?_cons_of_neg (by simpa using he)]
      rw [List.any_cons, decide_eq_false he, Bool.false_or] at h
      exact ih h

theorem find?_exchange_of_ne (h : other ≠ at_) (item : Item) (items : List (List String × Item)) :
    (exchange at_ item items).find? (fun entry => entry.1 = other) =
      items.find? fun entry => entry.1 = other := by
  induction items with
  | nil => rfl
  | cons entry items ih =>
    rw [exchange, List.map_cons]
    by_cases he : entry.1 = at_
    · have hother : ¬ entry.1 = other := fun ho => h (ho.symm.trans he)
      rw [if_pos he, List.find?_cons_of_neg (by simpa using h.symm),
        List.find?_cons_of_neg (by simpa using hother)]
      exact ih
    · rw [if_neg he, List.find?_cons, List.find?_cons]
      split
      · rfl
      · exact ih

theorem item?_put_self (h : isGiven at_ = false) (s : Storage) (item : Item) :
    (s.put at_ item).item? at_ = some item := by
  unfold put item?
  rw [h, if_neg Bool.false_ne_true]
  split
  · rename_i hany
    have hfind := find?_exchange_self item hany
    rw [exchange] at hfind
    rw [hfind]
    rfl
  · rename_i hany
    have hnone : s.items.find? (fun entry => decide (entry.1 = at_)) = none := by
      rw [List.find?_eq_none]
      intro entry hentry he
      exact hany (List.any_eq_true.mpr ⟨entry, hentry, he⟩)
    rw [List.find?_append, hnone]
    simp

theorem item?_put_of_ne (h : other ≠ at_) (s : Storage) (item : Item) :
    (s.put at_ item).item? other = s.item? other := by
  unfold put item?
  split
  · rfl
  · split
    · have hfind := find?_exchange_of_ne h item s.items
      rw [exchange] at hfind
      rw [hfind]
    · simp [List.find?_append, h.symm]

variable {s s' : Storage}

/-- A file that takes the place of no folder is in nobody's way. -/
theorem locateFrom_put {item : Item} (h : s.item? at_ ≠ some .folder) {from_ found : List String}
    {parts : List String} (hlocate : s.locateFrom from_ parts = .ok found) :
    (s.put at_ item).locateFrom from_ parts = .ok found := by
  induction parts generalizing from_ with
  | nil => exact hlocate
  | cons part parts ih =>
    rw [locateFrom] at hlocate ⊢
    split
    · rename_i hlong
      rw [if_pos hlong] at hlocate
      cases hlocate
    · rename_i hlong
      rw [if_neg hlong] at hlocate
      split
      · rename_i hlast
        rwa [if_pos hlast] at hlocate
      · rename_i hlast
        rw [if_neg hlast] at hlocate
        cases hitem : s.item? (step from_ part) with
        | none => rw [hitem] at hlocate; cases hlocate
        | some found =>
          cases found with
          | file content => rw [hitem] at hlocate; cases hlocate
          | folder =>
            -- a folder on the way stands elsewhere than the file
            have hne : step from_ part ≠ at_ := fun heq => h (heq ▸ hitem)
            rw [hitem] at hlocate
            rw [item?_put_of_ne hne, hitem]
            exact ih hlocate

/-- A folder that is there already need not be made. -/
theorem makeFolder_of_hasFolder {path : Path} (h : s.hasFolder path = .ok true) :
    s.makeFolder path = (s, none) := by
  have hone : s.makeOne path = (s, none) := by
    have hfolder := h
    rw [hasFolder, leadsTo, itemAt] at hfolder
    rw [makeOne, makeNew]
    cases hlocate : s.locate path with
    | error e =>
      rw [hlocate] at hfolder
      cases e <;> cases hfolder
    | ok at_ =>
      cases hitem : s.item? at_ with
      | none =>
        simp only [hlocate, hitem] at hfolder
        cases hfolder
      | some item => simp only [hitem, Option.isSome_some, if_true, h]
  rw [makeFolder, hone]

/-- A file can be written wherever a path leads to no folder. -/
theorem exists_write {path : Path} (hlocate : s.locate path = .ok at_)
    (hitem : s.item? at_ ≠ some .folder) (content : ByteArray) :
    ∃ s', s.write path content = .ok s' := by
  simp only [write, hlocate]
  cases h : s.item? at_ with
  | none => exact ⟨_, rfl⟩
  | some item =>
    cases item with
    | file old => exact ⟨_, rfl⟩
    | folder => exact absurd h hitem

/-- A file is written where a path leads to no folder. -/
theorem exists_of_write {path : Path} {content : ByteArray} (h : s.write path content = .ok s') :
    ∃ at_, s.locate path = .ok at_ ∧ s.item? at_ ≠ some .folder ∧
      s' = s.put at_ (.file content) := by
  rw [write] at h
  cases hlocate : s.locate path with
  | error e => rw [hlocate] at h; cases h
  | ok at_ =>
    simp only [hlocate] at h
    have hfolder : s.item? at_ ≠ some .folder := by
      intro hfolder
      rw [hfolder] at h
      cases h
    refine ⟨at_, rfl, hfolder, ?_⟩
    split at h
    · cases h
    · exact (Except.ok.inj h).symm

theorem isGiven_of_not_folder (h : s.item? at_ ≠ some .folder) : isGiven at_ = false := by
  refine Bool.eq_false_iff.mpr fun hgiven => h ?_
  rw [item?, if_pos hgiven]

theorem locate_put {path : Path} {found : List String} {item : Item}
    (h : s.item? at_ ≠ some .folder) (hlocate : s.locate path = .ok found) :
    (s.put at_ item).locate path = .ok found := by
  rw [locate] at hlocate ⊢
  by_cases hnull : path.hasNull = true
  · rw [if_pos hnull] at hlocate
    cases hlocate
  · by_cases hlong : longestPath < path.text.utf8ByteSize
    · rw [if_neg hnull, if_pos hlong] at hlocate
      cases hlocate
    · rw [if_neg hnull, if_neg hlong] at hlocate ⊢
      exact locateFrom_put h hlocate

/-- What was written to a file is read from it. -/
theorem read_write {path : Path} {content : ByteArray} (h : s.write path content = .ok s') :
    s'.read path = .ok content := by
  obtain ⟨at_, hlocate, hfolder, rfl⟩ := exists_of_write h
  rw [read, itemAt, locate_put hfolder hlocate]
  simp only [item?_put_self (isGiven_of_not_folder hfolder)]

end Storage

/-! ### Text files -/

theorem normalizeNewlines_eq_self {s : List Char} (h : '\r' ∉ s) : normalizeNewlines s = s := by
  induction s with
  | nil => rfl
  | cons c s ih =>
    simp only [List.mem_cons, not_or] at h
    rw [normalizeNewlines, ih h.2]
    · exact fun _ hc _ => h.1 hc.symm
    · exact fun hc => h.1 hc.symm

theorem textOfBytes?_toUTF8 {text : String} (h : '\r' ∉ text.toList) :
    textOfBytes? text.toUTF8 = some text := by
  have hdecode : String.fromUTF8? text.toUTF8 = some text := dif_pos text.isValidUTF8
  rw [textOfBytes?, hdecode, Option.map_some, normalizeNewlines_eq_self h, String.ofList_toList]

/-- A text without carriage returns is read as it was written. -/
theorem Storage.readText_writeText {s s' : Storage} {path : Path} {text : String}
    (h : s.writeText path text = .ok s') (htext : '\r' ∉ text.toList) :
    s'.readText path = .ok text := by
  rw [readText, read_write h]
  simp only [textOfBytes?_toUTF8 htext]

end ScriptTypings

import ScriptTypings.Proofs.Storage.Written

/-!
# Folders around files

Where a path leads anywhere, the path of its parent leads to a folder. From this follows what an
attempt to write a file leaves at its path: where the folder of a file cannot be made, or the file
cannot be written, there is none, neither before nor behind the attempt.
-/

namespace ScriptTypings

/-- A path without its last name is no longer than the path. -/
theorem Text.utf8ByteSize_join_dropLast (parts : List String) :
    (Text.join "/" parts.dropLast).utf8ByteSize ≤ (Text.join "/" parts).utf8ByteSize := by
  induction parts with
  | nil => exact Nat.le_refl _
  | cons part parts ih =>
    cases parts with
    | nil => exact Nat.zero_le _
    | cons second rest =>
      have hjoin : Text.join "/" (part :: second :: rest) =
          part ++ "/" ++ Text.join "/" (second :: rest) := rfl
      rw [hjoin, List.dropLast_cons_cons, String.utf8ByteSize_append]
      cases hlast : (second :: rest).dropLast with
      | nil =>
        rw [Text.join, String.utf8ByteSize_append]
        omega
      | cons next parts =>
        rw [hlast] at ih
        have hjoin' : Text.join "/" (part :: next :: parts) =
            part ++ "/" ++ Text.join "/" (next :: parts) := rfl
        rw [hjoin', String.utf8ByteSize_append]
        omega

/-- The text of a parent exceeds no bound that a path keeps to. -/
theorem Path.utf8ByteSize_text_parent (path : Path) :
    path.parent.text.utf8ByteSize ≤ max 1 path.text.utf8ByteSize := by
  obtain ⟨slashes, parts⟩ := path
  have hjoin := Text.utf8ByteSize_join_dropLast parts
  cases slashes with
  | zero =>
    cases parts with
    | nil => exact Nat.le_max_left 1 _
    | cons part parts =>
      cases hlast : (part :: parts).dropLast with
      | nil =>
        rw [Path.parent, hlast]
        exact Nat.le_max_left 1 _
      | cons first rest =>
        rw [Path.parent, hlast]
        rw [hlast] at hjoin
        simp only [Path.text, String.utf8ByteSize_append]
        omega
  | succ slashes =>
    simp only [Path.parent, Path.text, String.utf8ByteSize_append]
    omega

theorem Path.hasNull_parent {path : Path} (h : path.hasNull = false) :
    path.parent.hasNull = false := by
  rw [Path.hasNull, List.any_eq_false] at h ⊢
  exact fun part hpart => h part (List.dropLast_subset _ hpart)

namespace Storage

variable {s s' : Storage} {path : Path}

/-- All names before the last one lead to a folder. -/
theorem locateFrom_dropLast {from_ found : List String} {parts : List String}
    (hparts : parts ≠ []) (hfrom : s.item? from_ = some .folder)
    (hlocate : s.locateFrom from_ parts = .ok found) :
    ∃ around, s.locateFrom from_ parts.dropLast = .ok around ∧
      s.item? around = some .folder := by
  induction parts generalizing from_ with
  | nil => exact absurd rfl hparts
  | cons part parts ih =>
    cases parts with
    | nil => exact ⟨from_, rfl, hfrom⟩
    | cons second rest =>
      rw [locateFrom] at hlocate
      split at hlocate
      · cases hlocate
      · rename_i hlong
        rw [List.isEmpty_cons, if_neg Bool.false_ne_true] at hlocate
        split at hlocate
        · rename_i hfolder
          obtain ⟨around, haround, hitem⟩ := ih (List.cons_ne_nil _ _) hfolder hlocate
          refine ⟨around, ?_, hitem⟩
          rw [List.dropLast_cons_cons, locateFrom, if_neg hlong]
          split
          · rename_i hempty
            rw [List.isEmpty_iff.mp hempty] at haround
            exact haround
          · simp only [hfolder]
            exact haround
        · cases hlocate
        · cases hlocate

theorem exists_locate_of_hasFolder (h : s.hasFolder path = .ok true) :
    ∃ found, s.locate path = .ok found ∧ s.item? found = some .folder := by
  rw [hasFolder, leadsTo, itemAt] at h
  cases hlocate : s.locate path with
  | ok found =>
    simp only [hlocate] at h
    cases hitem : s.item? found with
    | none =>
      rw [hitem] at h
      cases h
    | some item =>
      rw [hitem] at h
      cases item with
      | folder => exact ⟨found, rfl, hitem⟩
      | file content => cases h
  | error e =>
    rw [hlocate] at h
    cases e <;> cases h

theorem item?_origin (s : Storage) (path : Path) : s.item? (origin path) = some .folder := by
  have hgiven : isGiven (origin path) = true := by
    rw [origin]
    split <;> rfl
  rw [item?, if_pos hgiven]

/-- The parent of a path that leads to a place is a folder. -/
theorem hasFolder_parent_of_locate {found : List String} (hparts : path.parts ≠ [])
    (hlocate : s.locate path = .ok found) : s.hasFolder path.parent = .ok true := by
  rw [locate] at hlocate
  by_cases hnull : path.hasNull = true
  · rw [if_pos hnull] at hlocate
    cases hlocate
  · by_cases hlong : longestPath < path.text.utf8ByteSize
    · rw [if_neg hnull, if_pos hlong] at hlocate
      cases hlocate
    · rw [if_neg hnull, if_neg hlong] at hlocate
      obtain ⟨around, haround, hitem⟩ :=
        locateFrom_dropLast hparts (item?_origin s path) hlocate
      have hbound := Path.utf8ByteSize_text_parent path
      have hshort : ¬ longestPath < path.parent.text.utf8ByteSize := by
        rw [longestPath] at hlong ⊢
        omega
      have hparent : s.locate path.parent = .ok around := by
        rw [locate, Path.hasNull_parent (Bool.eq_false_iff.mpr hnull), if_neg Bool.false_ne_true,
          if_neg hshort]
        exact haround
      simp only [hasFolder, leadsTo, itemAt, hparent, hitem]
      rfl

theorem hasFolder_parent (hparts : path.parts ≠ []) (h : s.hasFolder path = .ok true) :
    s.hasFolder path.parent = .ok true := by
  obtain ⟨found, hlocate, -⟩ := exists_locate_of_hasFolder h
  exact hasFolder_parent_of_locate hparts hlocate

/-! ### The content of a file -/

/-- The bytes of the file that a path leads to, if it leads to one. -/
def content? (s : Storage) (path : Path) : Option ByteArray :=
  (s.read path).toOption

theorem content?_eq_some {content : ByteArray} :
    s.content? path = some content ↔ s.read path = .ok content := by
  rw [content?]
  cases s.read path <;> simp [Except.toOption]

/-- A text is read from a file that holds it. -/
theorem readText_eq_ok {text : String} : s.readText path = .ok text ↔
    ∃ content, s.content? path = some content ∧ textOfBytes? content = some text := by
  simp only [content?_eq_some, readText]
  cases s.read path with
  | error e => simp
  | ok content =>
    cases hread : textOfBytes? content with
    | none => simp [hread]
    | some found => simp [hread]

/-- A file stands at a place that is no given folder, so that its path has a name. -/
theorem exists_locate_of_content? {content : ByteArray} (h : s.content? path = some content) :
    ∃ found, path.parts ≠ [] ∧ s.locate path = .ok found ∧
      s.item? found = some (.file content) := by
  rw [content?_eq_some, read, itemAt] at h
  cases hlocate : s.locate path with
  | error e => rw [hlocate] at h; cases h
  | ok found =>
    simp only [hlocate] at h
    cases hitem : s.item? found with
    | none => rw [hitem] at h; cases h
    | some item =>
      rw [hitem] at h
      cases item with
      | folder => cases h
      | file stored =>
        refine ⟨found, fun hempty => ?_, rfl, by rw [hitem, ← Except.ok.inj h]⟩
        -- the place where a path begins is a folder
        have hfound : found = origin path := by
          rw [locate, hempty] at hlocate
          split at hlocate
          · cases hlocate
          · split at hlocate
            · cases hlocate
            · exact (Except.ok.inj hlocate).symm
        rw [hfound, item?_origin] at hitem
        cases hitem

theorem hasFolder_parent_of_content? {content : ByteArray} (h : s.content? path = some content) :
    s.hasFolder path.parent = .ok true := by
  obtain ⟨found, hparts, hlocate, -⟩ := exists_locate_of_content? h
  exact hasFolder_parent_of_locate hparts hlocate

theorem has_of_content? {content : ByteArray} (h : s.content? path = some content) :
    s.has path = .ok true := by
  obtain ⟨found, -, hlocate, hitem⟩ := exists_locate_of_content? h
  simp only [has, leadsTo, itemAt, hlocate, hitem]

/-! ### Writing that fails -/

theorem not_hasFolder_of_makeOne {failure : FileError} (h : s.makeOne path = (s', some failure)) :
    s'.hasFolder path ≠ .ok true := by
  rw [makeOne] at h
  split at h
  · cases h
  · split at h
    · cases h
    · rename_i hfolder
      rw [← (Prod.mk.inj h).1, hfolder]
      simp
    · rename_i hfolder
      rw [← (Prod.mk.inj h).1, hfolder]
      simp

/-- Where a folder cannot be made, there is none, whatever was made on the way. -/
theorem not_hasFolder_of_makeFolder {failure : FileError}
    (h : s.makeFolder path = (s', some failure)) : s'.hasFolder path ≠ .ok true := by
  induction s, path using makeFolder.induct with
  | case1 s path s₁ hone hparts =>
    -- there is nothing around the path
    rw [makeFolder, hone] at h
    dsimp only at h
    rw [if_pos hparts] at h
    rw [← (Prod.mk.inj h).1]
    exact not_hasFolder_of_makeOne hone
  | case2 s path s₁ hone hparts s₂ hmade ih =>
    -- the folders around it are there by now, and it fails for another reason
    rw [makeFolder, hone] at h
    dsimp only at h
    rw [if_neg hparts, hmade] at h
    exact not_hasFolder_of_makeOne h
  | case3 s path s₁ hone hparts hfailed ih =>
    rw [makeFolder, hone] at h
    dsimp only at h
    rw [if_neg hparts] at h
    cases hparent : s₁.makeFolder path.parent with
    | mk s₂ error? =>
      cases error? with
      | none => exact absurd hparent (hfailed s₂)
      | some reason =>
        rw [hparent] at h
        obtain ⟨rfl, hfailure⟩ := Prod.mk.inj h
        obtain rfl := Option.some.inj hfailure
        -- a folder at the path would stand in its parent
        exact fun hfolder => ih hparent (hasFolder_parent hparts hfolder)
  | case4 s path hone =>
    rw [makeFolder] at h
    split at h
    · rename_i s₁ hnotFound
      exact absurd hnotFound (hone s₁)
    · exact not_hasFolder_of_makeOne h

/-- If the folder of a file cannot be made, then there was no file, and there is none behind. -/
theorem content?_of_makeFolder {failure : FileError}
    (h : s.makeFolder path.parent = (s', some failure)) : s'.content? path = s.content? path := by
  have hafter : s'.content? path = none := by
    rw [Option.eq_none_iff_forall_ne_some]
    intro content hcontent
    exact not_hasFolder_of_makeFolder h (hasFolder_parent_of_content? hcontent)
  have hbefore : s.content? path = none := by
    rw [Option.eq_none_iff_forall_ne_some]
    intro content hcontent
    rw [makeFolder_of_hasFolder (hasFolder_parent_of_content? hcontent)] at h
    cases h
  rw [hafter, hbefore]

/-- To make the folder of a file leaves the file as it is. -/
theorem content?_of_makeFolder_ok {content : ByteArray}
    (h : s.makeFolder path.parent = (s', none)) (hcontent : s.content? path = some content) :
    s'.content? path = some content := by
  rw [makeFolder_of_hasFolder (hasFolder_parent_of_content? hcontent)] at h
  rw [← (Prod.mk.inj h).1, hcontent]

/-- A file that cannot be written is not there. -/
theorem content?_of_writeText {text : String} {failure : FileError}
    (h : s.writeText path text = .error failure) : s.content? path = none := by
  rw [Option.eq_none_iff_forall_ne_some]
  intro content hcontent
  obtain ⟨found, -, hlocate, hitem⟩ := exists_locate_of_content? hcontent
  have hfile : s.item? found ≠ some .folder := by simp [hitem]
  obtain ⟨written, hwritten⟩ := exists_write hlocate hfile text.toUTF8
  rw [writeText, hwritten] at h
  cases h

theorem content?_writeText {text : String} (h : s.writeText path text = .ok s') :
    s'.content? path = some text.toUTF8 :=
  content?_eq_some.mpr (read_write h)

end Storage

end ScriptTypings

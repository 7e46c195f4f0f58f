import ScriptTypings.Proofs.Json.Document
import ScriptTypings.Proofs.Supplies.Sorting

/-!
# Tables that are loaded for the first time and again

The file of a table holds a document that may name a member more than once, in any order.
`loadTable_normalizes` says which table is loaded from it, what the file holds afterwards, and that
nothing is left to be done when the table is loaded again. If the document has a lone surrogate
instead, its table cannot be written, and the file is left empty; from any other file no table is
loaded, and nothing is changed.
-/

namespace ScriptTypings.Supplies

open NameMap

/-- What a table says of the members of a document: they are in ascending order, each with the value
that stands beside it last. -/
structure IsTableOf (members : List (List Json.CodePoint × Json.Document))
    (table : List (String × Json)) : Prop where
  ascending : (names table).Pairwise (· < ·)
  value : ∀ name, find? name table =
    (lastPair? members (Json.CodePoint.ofString name)).map fun member =>
      member.2.withoutRepeats.value

/-- There is one table of a document. -/
theorem IsTableOf.unique {members : List (List Json.CodePoint × Json.Document)}
    {table table' : List (String × Json)} (h : IsTableOf members table)
    (h' : IsTableOf members table') : table = table' := by
  have hperm : table.Perm table' :=
    perm_of_find? (h.ascending.imp String.ne_of_lt) (h'.ascending.imp String.ne_of_lt)
      fun name => (h.value name).trans (h'.value name).symm
  have hpairwise := List.pairwise_map.mp h.ascending
  refine hperm.eq_of_pairwise (fun a b _ _ hab hba => ?_) hpairwise
    (List.pairwise_map.mp h'.ascending)
  exact absurd hba (String.lt_asymm hab)

/-- A text spells an object without too long a number. -/
structure IsDocumentOf (members : List (List Json.CodePoint × Json.Document)) (text : String) :
    Prop where
  spells : Json.Spells text (.object members)
  short : Json.AreShort (Json.tokens (.object members))

/-- What is read of an object can be written: of the values that stand last beside their names, and
of these names, none has a lone surrogate. -/
def IsWritable (members : List (List Json.CodePoint × Json.Document)) : Prop :=
  (Json.Document.object members).withoutRepeats.isEncodable = true

instance (members : List (List Json.CodePoint × Json.Document)) : Decidable (IsWritable members) :=
  inferInstanceAs (Decidable (_ = true))

variable {path : Path} {text : String} {members : List (List Json.CodePoint × Json.Document)}
  {table : List (String × Json)}

/-- What is read of the members of a document. -/
def membersRead (members : List (List Json.CodePoint × Json.Document)) :
    List (List Json.CodePoint × Json.Document) :=
  ofPairs (mapValues Json.Document.withoutRepeats members)

theorem read_of_isDocumentOf (h : IsDocumentOf members text) :
    Json.read text = .ok (.object (membersRead members)) :=
  Json.read_eq_ok_iff.mpr
    ⟨_, h.spells, h.short, Json.Document.withoutRepeats_object members⟩

theorem isWritable_iff :
    IsWritable members ↔ (Json.Document.object (membersRead members)).isEncodable = true := by
  rw [IsWritable, Json.Document.withoutRepeats_object]
  exact Iff.rfl

theorem IsWritable.isChar (h : IsWritable members) :
    ∀ m ∈ membersRead members, m.1.all Json.CodePoint.isChar = true := by
  rw [isWritable_iff, Json.Document.isEncodable_object, List.all_eq_true] at h
  exact fun m hm => (Bool.and_eq_true_iff.mp (h m hm)).1

theorem IsWritable.nodup (h : IsWritable members) :
    (names (Json.Document.memberValues (membersRead members))).Nodup :=
  Json.Document.nodup_names_memberValues (nodup_names_ofPairs _) h.isChar

theorem isTableOf_sorted (h : IsWritable members) :
    IsTableOf members (sorted (Json.Document.memberValues (membersRead members))) := by
  refine ⟨pairwise_lt_names_sorted h.nodup, fun name => ?_⟩
  rw [find?_sorted h.nodup, Json.Document.find?_memberValues h.isChar, membersRead, find?_ofPairs,
    lastPair?_mapValues, Option.map_map, Option.map_map]
  rfl

theorem tableOfText_of_isWritable (h : IsDocumentOf members text) (hwritable : IsWritable members) :
    tableOfText path text = .ok (sorted (Json.Document.memberValues (membersRead members))) := by
  rw [tableOfText, read_of_isDocumentOf h]
  dsimp only
  rw [if_pos (isWritable_iff.mp hwritable), ofPairs_of_nodup hwritable.nodup]

theorem tableOfText_of_not_isWritable (h : IsDocumentOf members text)
    (hwritable : ¬ IsWritable members) : tableOfText path text = .error .unencodable := by
  rw [tableOfText, read_of_isDocumentOf h]
  exact if_neg (mt isWritable_iff.mpr hwritable)

/-- Only of documents a table is read, or else it is found that it cannot be written. -/
theorem exists_isDocumentOf
    (h : (∃ table, tableOfText path text = .ok table) ∨
      tableOfText path text = .error .unencodable) :
    ∃ members, IsDocumentOf members text := by
  have hobject : ∃ found, Json.read text = .ok (.object found) := by
    rw [tableOfText] at h
    split at h
    · rename_i e _
      rcases h with ⟨table, htable⟩ | hfailure
      · cases htable
      · cases e <;> cases hfailure
    · rename_i found hread
      exact ⟨found, hread⟩
    · rcases h with ⟨table, htable⟩ | hfailure
      · cases htable
      · cases hfailure
  obtain ⟨found, hread⟩ := hobject
  obtain ⟨document, hspells, hshort, hvalue⟩ := Json.read_eq_ok_iff.mp hread
  obtain ⟨members, rfl, -⟩ := Json.Document.exists_of_withoutRepeats_eq_object hvalue
  exact ⟨members, hspells, hshort⟩

/-- A table was loaded from a file with some text: the file holds its canonical text afterwards, and
it was written only if it did not. -/
structure Normalized (path : Path) (text : String) (table : List (String × Json))
    (before after : Session) : Prop where
  stands : after.storage.readText path = .ok (tableText table)
  again : (loadTable path).runOn after = (.ok table, after)
  kept : tableText table = text → after = before
  written : tableText table ≠ text →
    after.storage.content? path = some (tableText table).toUTF8 ∧
      after = rewritten before path after.storage
  others : ∀ other : Path, other.place ≠ path.place →
    after.storage.content? other = before.storage.content? other

/-- The file of a table that cannot be written was emptied, and nothing was put into it. -/
structure Emptied (path : Path) (before after : Session) : Prop where
  content : after.storage.content? path = some .empty
  session : after = rewritten before path after.storage
  others : ∀ other : Path, other.place ≠ path.place →
    after.storage.content? other = before.storage.content? other

variable {before : Session}

theorem exists_normalized (htext : before.storage.readText path = .ok text)
    (htable : tableOfText path text = .ok table) :
    ∃ after, (loadTable path).runOn before = (.ok table, after) ∧
      Normalized path text table before after := by
  obtain ⟨hsame, hrun⟩ | ⟨hother, written, hwrite, hrun⟩ :=
    (loading_loadTable path before).of_table htext htable
  · exact ⟨before, hrun, hsame ▸ htext, hrun, fun _ => rfl, fun hother => absurd hsame hother,
      fun _ _ => rfl⟩
  · obtain ⟨hstands, hothers⟩ := stands_of_loadTable hrun
    exact ⟨_, hrun, hstands.text, hstands.loadTable, fun hsame => absurd hsame hother,
      fun _ => ⟨Storage.content?_writeText hwrite, rfl⟩, hothers⟩

theorem exists_emptied (htext : before.storage.readText path = .ok text)
    (hfailure : tableOfText path text = .error .unencodable) :
    ∃ after, (loadTable path).runOn before = (.error .unencodable, after) ∧
      Emptied path before after := by
  obtain ⟨hother, -⟩ | ⟨-, written, hwrite, hrun⟩ :=
    (loading_loadTable path before).of_failure htext hfailure
  · exact absurd rfl hother
  · obtain ⟨old, hold, -⟩ := Storage.readText_eq_ok.mp htext
    exact ⟨_, hrun, Storage.content?_writeText hwrite, rfl,
      fun other hother => Storage.content?_writeText_of_ne hwrite hold hother⟩

/-- If there is no document to be read, nothing happens. -/
theorem exists_refused
    (h : ∀ text members, before.storage.readText path = .ok text → ¬ IsDocumentOf members text) :
    ∃ failure, (loadTable path).runOn before = (.error failure, before) := by
  have hloading := loading_loadTable path before
  rcases hrun : (loadTable path).runOn before with ⟨result, after⟩
  rw [hrun] at hloading
  cases hloading with
  | unread => exact ⟨_, rfl⟩
  | refused => exact ⟨_, rfl⟩
  | emptied htext hfailure =>
    obtain ⟨members, hdocument⟩ := exists_isDocumentOf (.inr hfailure)
    exact absurd hdocument (h _ members htext)
  | kept htext htable =>
    obtain ⟨members, hdocument⟩ := exists_isDocumentOf (.inl ⟨_, htable⟩)
    exact absurd hdocument (h _ members htext)
  | sorted htext htable =>
    obtain ⟨members, hdocument⟩ := exists_isDocumentOf (.inl ⟨_, htable⟩)
    exact absurd hdocument (h _ members htext)

/-- A table is loaded exactly where the file holds a document of one without lone surrogates, with
the last value of every member and in ascending order. The file then stands in canonical form, and
loading it again gives the same table and changes nothing. If the document has a lone surrogate, the
file is left empty and loading fails. In all other cases it fails and nothing is changed. -/
theorem loadTable_normalizes (path : Path) (before : Session) :
    (∀ text members, before.storage.readText path = .ok text → IsDocumentOf members text →
      (IsWritable members → ∃ table after, (loadTable path).runOn before = (.ok table, after) ∧
        IsTableOf members table ∧ Normalized path text table before after) ∧
      (¬ IsWritable members → ∃ after,
        (loadTable path).runOn before = (.error .unencodable, after) ∧
          Emptied path before after)) ∧
    ((∀ text members, before.storage.readText path = .ok text → ¬ IsDocumentOf members text) →
      ∃ failure, (loadTable path).runOn before = (.error failure, before)) := by
  refine ⟨fun text members htext hdocument => ⟨fun hwritable => ?_, fun hwritable => ?_⟩,
    exists_refused⟩
  · obtain ⟨after, hrun, hnormalized⟩ :=
      exists_normalized htext (tableOfText_of_isWritable hdocument hwritable)
    exact ⟨_, after, hrun, isTableOf_sorted hwritable, hnormalized⟩
  · exact exists_emptied htext (tableOfText_of_not_isWritable hdocument hwritable)

/-- Members out of order, one of which is named again. -/
def unsortedMembers : List (List Json.CodePoint × Json.Document) :=
  Json.memberDocuments [("é", .object [("y", .whole 1), ("x", .whole 2), ("y", .null)]),
    ("a", .whole 1), ("a", .list [.text "\"", .whole 0])]

/-- A file that spells them, with line ends of three kinds. -/
def unsortedText : String :=
  "\x7b\"\\u00e9\": \x7b\"y\": 1,\r\"x\":2, \"y\": null\x7d,\n\"a\": 1,\r\n" ++
    "\"a\": [\"\\u0022\", -0] \x7d"

def unsortedTable : List (String × Json) :=
  [("a", .list [.text "\"", .whole 0]), ("é", .object [("y", .null), ("x", .whole 2)])]

/-- A file that spells one half of a surrogate pair. -/
def tornText : String :=
  "\x7b\"a\": \"\\ud800\"\x7d"

def tornMembers : List (List Json.CodePoint × Json.Document) :=
  [([.char 'a'], .text [.lone 0xD800])]

def tableFolder : Session where
  storage := { items := [(["t.json"], .file unsortedText.toUTF8),
                         (["u.json"], .file tornText.toUTF8)] }

theorem isTableOf_unsortedTable : IsTableOf unsortedMembers unsortedTable := by
  have hsorted : sorted (Json.Document.memberValues (membersRead unsortedMembers)) =
      unsortedTable :=
    (sorted_congr (List.Perm.swap _ _ []) (by decide)).trans
      (List.mergeSort_of_pairwise (by simp [Json.CodePoint.toString_ofString]))
  rw [← hsorted]
  exact isTableOf_sorted (by decide)

/-- The first file is put into canonical form once, and the second one is emptied. -/
theorem loadTable_normalizes_unsorted :
    (∃ after, (loadTable ⟨0, ["t.json"]⟩).runOn tableFolder = (.ok unsortedTable, after) ∧
      after.storage.content? ⟨0, ["t.json"]⟩ = some (tableText unsortedTable).toUTF8 ∧
      (loadTable ⟨0, ["t.json"]⟩).runOn after = (.ok unsortedTable, after)) ∧
    ∃ after, (loadTable ⟨0, ["u.json"]⟩).runOn tableFolder = (.error .unencodable, after) ∧
      after.storage.content? ⟨0, ["u.json"]⟩ = some .empty := by
  have htext : tableFolder.storage.readText ⟨0, ["t.json"]⟩ =
      .ok (.ofList (Text.normalizeNewlines unsortedText.toList)) := rfl
  have hdocument :
      IsDocumentOf unsortedMembers (.ofList (Text.normalizeNewlines unsortedText.toList)) :=
    ⟨rfl, by decide⟩
  have htorn : tableFolder.storage.readText ⟨0, ["u.json"]⟩ =
      .ok (.ofList (Text.normalizeNewlines tornText.toList)) := rfl
  have htornDocument :
      IsDocumentOf tornMembers (.ofList (Text.normalizeNewlines tornText.toList)) :=
    ⟨rfl, by decide⟩
  obtain ⟨hloads, -⟩ := loadTable_normalizes ⟨0, ["t.json"]⟩ tableFolder
  obtain ⟨table, after, hrun, htable, hnormalized⟩ :=
    (hloads _ _ htext hdocument).1 (by decide)
  obtain rfl := isTableOf_unsortedTable.unique htable
  obtain ⟨htears, -⟩ := loadTable_normalizes ⟨0, ["u.json"]⟩ tableFolder
  obtain ⟨emptied, hfailed, hemptied⟩ := (htears _ _ htorn htornDocument).2 (by decide)
  refine ⟨⟨after, hrun, (hnormalized.written ?_).1, hnormalized.again⟩,
    emptied, hfailed, hemptied.content⟩
  decide +kernel

end ScriptTypings.Supplies

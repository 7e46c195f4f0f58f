import ScriptTypings.Proofs.Json.Document
import ScriptTypings.Proofs.Json.Tokens

/-!
# Reading back what was written

`read_write` says that a readable value is read back as it was written, in every layout. Such a
value repeats no name, so that all of its document is read.
-/

namespace ScriptTypings.Json

open Text

theorem withoutRepeats_document {value : Json} (h : value.isReadable = true) :
    value.document.withoutRepeats = value.document := by
  induction value using tree_induction with
  | list items ih =>
    rw [isReadable_list_iff] at h
    rw [document_list, Document.withoutRepeats_list, List.map_map]
    exact congrArg _ (List.map_congr_left fun item hitem => ih item hitem (h item hitem))
  | object members ih =>
    obtain ⟨hnames, hvalues⟩ := isReadable_object_iff.mp h
    have hmembers : NameMap.mapValues Document.withoutRepeats
        (members.map fun m => (CodePoint.ofString m.1, m.2.document)) =
          members.map fun m => (CodePoint.ofString m.1, m.2.document) := by
      rw [NameMap.mapValues, List.map_map]
      exact List.map_congr_left fun m hm => Prod.ext rfl (ih m hm (hvalues m hm))
    rw [document_object, Document.withoutRepeats_object, hmembers, NameMap.ofPairs_of_nodup]
    rw [List.map_map]
    exact List.pairwise_map.mpr ((List.pairwise_map.mp hnames).imp fun hne hsame =>
      hne (CodePoint.ofString_injective hsame))
  | scalar value hscalar =>
    refine Document.withoutRepeats_of_isScalar ?_
    cases value with
    | list items => cases hscalar
    | object members => cases hscalar
    | _ => rfl

theorem areShort_itemTokens {items : List Document}
    (h : ∀ item ∈ items, AreShort (tokens item)) : AreShort (itemTokens items) := by
  induction items with
  | nil => exact nofun
  | cons item items ih =>
    rw [List.forall_mem_cons] at h
    exact List.forall_mem_cons.mpr ⟨rfl, List.forall_mem_append.mpr ⟨h.1, ih h.2⟩⟩

theorem areShort_memberTokens {members : List (List CodePoint × Document)}
    (h : ∀ m ∈ members, AreShort (tokens m.2)) : AreShort (memberTokens members) := by
  induction members with
  | nil => exact nofun
  | cons member members ih =>
    rw [List.forall_mem_cons] at h
    have hrest : AreShort (tokens member.2 ++ memberTokens members) :=
      List.forall_mem_append.mpr ⟨h.1, ih h.2⟩
    simp only [memberTokens, AreShort, List.forall_mem_cons]
    exact ⟨rfl, rfl, rfl, hrest⟩

theorem areShort_list {items : List Document} (h : ∀ item ∈ items, AreShort (tokens item)) :
    AreShort (tokens (.list items)) := by
  cases items with
  | nil => exact List.forall_mem_cons.mpr ⟨rfl, List.forall_mem_singleton.mpr rfl⟩
  | cons item items =>
    rw [List.forall_mem_cons] at h
    simp only [tokens, AreShort, List.forall_mem_cons, List.forall_mem_append]
    exact ⟨rfl, h.1, areShort_itemTokens h.2, rfl, List.forall_mem_nil _⟩

theorem areShort_object {members : List (List CodePoint × Document)}
    (h : ∀ m ∈ members, AreShort (tokens m.2)) : AreShort (tokens (.object members)) := by
  cases members with
  | nil => exact List.forall_mem_cons.mpr ⟨rfl, List.forall_mem_singleton.mpr rfl⟩
  | cons member members =>
    rw [List.forall_mem_cons] at h
    simp only [tokens, AreShort, List.forall_mem_cons, List.forall_mem_append]
    exact ⟨rfl, rfl, rfl, h.1, areShort_memberTokens h.2, rfl, List.forall_mem_nil _⟩

theorem areShort_document {value : Json} (h : value.isReadable = true) :
    AreShort (tokens value.document) := by
  induction value using tree_induction with
  | list items ih =>
    rw [isReadable_list_iff] at h
    rw [document_list]
    exact areShort_list (List.forall_mem_map.mpr fun item hitem => ih item hitem (h item hitem))
  | object members ih =>
    rw [isReadable_object_iff] at h
    rw [document_object]
    exact areShort_object (List.forall_mem_map.mpr fun m hm => ih m hm (h.2 m hm))
  | scalar value hscalar =>
    cases value with
    | list items => cases hscalar
    | object members => cases hscalar
    | whole n => exact List.forall_mem_singleton.mpr h
    | _ => exact List.forall_mem_singleton.mpr rfl

/-- A text that spells a readable value is read as its document. -/
theorem read_of_spells {s : String} {value : Json} (h : Spells s value.document)
    (hvalue : value.isReadable = true) : read s = .ok value.document :=
  read_eq_ok_iff.mpr ⟨_, h, areShort_document hvalue, withoutRepeats_document hvalue⟩

/-- A readable value is read back as it was written, in every layout and with blanks behind it. -/
theorem read_write (layout : Layout) {value : Json} (hvalue : value.isReadable = true)
    {blanks : String} (hblanks : ∀ c ∈ blanks.toList, isGap c = true) :
    read (value.write layout ++ blanks) = .ok value.document := by
  have hends : EndsNumber blanks.toList :=
    fun c hc => .inl (hblanks c (List.mem_of_head? hc))
  have hscans : Scans blanks.toList [] := by
    have h := scans_nil.gaps hblanks
    rwa [List.append_nil] at h
  have hspells : Spells (value.write layout ++ blanks) value.document := by
    have hvalueScans := scans_writeChars layout value hvalue 0 _ _ hends hscans
    rw [List.append_nil] at hvalueScans
    rw [Spells, write, String.toList_append, String.toList_ofList, hvalueScans.scan_eq]
  exact read_of_spells hspells hvalue

/-- Files end with a line feed behind the value. -/
theorem read_write_newline (layout : Layout) {value : Json} (hvalue : value.isReadable = true) :
    read (value.write layout ++ "\n") = .ok value.document := by
  have hblanks : "\n".toList.all isGap = true := by decide
  exact read_write layout hvalue (List.all_eq_true.mp hblanks)

/-- No lone surrogates are read of a text that was written. -/
theorem readsLone_write_newline (layout : Layout) {value : Json}
    (hvalue : value.isReadable = true) :
    readsLone (value.write layout ++ "\n") = false := by
  rw [readsLone, read_write_newline layout hvalue]
  dsimp only
  rw [isEncodable_document, Bool.not_true]

end ScriptTypings.Json

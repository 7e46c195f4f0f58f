import ScriptTypings.Corpus.Cache
import ScriptTypings.Proofs.Entry.Encoding
import ScriptTypings.Proofs.Json.RoundTrip
import ScriptTypings.Proofs.Session.Decoding

/-!
# Reading back the text of a corpus

`reloaded` is what a well-formed corpus is after it was written and read: its entries and their code
samples are in order, and nothing else has changed. `ofText_text` says so.
-/

namespace ScriptTypings

/-! ### Entries -/

theorem Content.sortEntries_mapSnippets (content : Content) :
    Json.sortEntries (content.mapSnippets NameMap.sorted).fields =
      Json.sortEntries content.fields := by
  cases content with
  | delegate signature =>
    simp [mapSnippets, fields, Json.sortEntries, Signature.sortMembers_mapSnippets]
  | function signatures =>
    simp [mapSnippets, fields, Json.sortEntries, Json.sortMembers_list,
      Signature.sortMembers_mapSnippets]
  | _ => rfl

theorem Entry.sortMembers_sortSnippets (entry : Entry) :
    entry.sortSnippets.toJson.sortMembers = entry.toJson.sortMembers := by
  have hkind : (entry.content.mapSnippets NameMap.sorted).kind = entry.content.kind := by
    cases entry.content <;> rfl
  have hfields := entry.content.sortEntries_mapSnippets
  simp only [toJson, sortSnippets, mapSnippets, hkind, Json.sortMembers, List.cons_append,
    List.nil_append, Json.sortEntries, hfields]

theorem Content.isWellTyped_of_mem_signatures {content : Content} (h : content.isWellTyped = true)
    {signature : Signature} (hmem : signature ∈ content.signatures) :
    signature.isWellTyped = true := by
  cases content with
  | delegate other => exact List.mem_singleton.mp hmem ▸ h
  | function signatures => exact List.all_eq_true.mp h signature hmem
  | _ => cases hmem

/-- With its code samples in order, an entry says the same. -/
theorem Entry.agrees_sortSnippets {entry : Entry} (h : entry.isWellTyped = true) :
    entry.Agrees entry.sortSnippets := by
  rw [isWellTyped, Bool.and_eq_true] at h
  refine ⟨entry.withoutSnippets_mapSnippets _, ?_⟩
  rw [sortSnippets, mapSnippets, Content.signatures_mapSnippets, List.map_map]
  refine List.map_congr_left fun signature hsignature => funext fun language => ?_
  have htyped := Content.isWellTyped_of_mem_signatures h.2 hsignature
  simp only [Signature.isWellTyped, Bool.and_eq_true, decide_eq_true_eq] at htyped
  exact NameMap.find?_sorted htyped.1.2 language

theorem Signature.isWellTyped_mapSnippets {signature : Signature}
    (h : signature.isWellTyped = true) :
    (signature.mapSnippets NameMap.sorted).isWellTyped = true := by
  simp only [isWellTyped, mapSnippets, Bool.and_eq_true] at h ⊢
  obtain ⟨⟨⟨⟨⟨hdescription, hparameters⟩, hreturned⟩, hsnippets⟩, hnodup⟩, htypes⟩ := h
  refine ⟨⟨⟨⟨⟨hdescription, hparameters⟩, hreturned⟩, ?_⟩, ?_⟩, htypes⟩
  · rw [List.all_eq_true] at hsnippets ⊢
    exact fun m hm => hsnippets m ((NameMap.sorted_perm _).mem_iff.mp hm)
  · exact decide_eq_true (NameMap.nodup_names_sorted (of_decide_eq_true hnodup))

theorem Entry.isWellTyped_sortSnippets {entry : Entry} (h : entry.isWellTyped = true) :
    entry.sortSnippets.isWellTyped = true := by
  obtain ⟨identifier, description, content⟩ := entry
  simp only [isWellTyped, sortSnippets, mapSnippets, Bool.and_eq_true] at h ⊢
  refine ⟨h.1, ?_⟩
  cases content with
  | delegate signature => exact Signature.isWellTyped_mapSnippets h.2
  | function signatures =>
    refine List.all_eq_true.mpr fun signature hsignature => ?_
    obtain ⟨plain, hplain, rfl⟩ := List.mem_map.mp hsignature
    exact Signature.isWellTyped_mapSnippets (List.all_eq_true.mp h.2 plain hplain)
  | _ => exact h.2

namespace Corpus

/-- The entries in the order of their keys, each with its code samples in order. -/
def reloaded (corpus : Corpus) : Corpus :=
  ⟨NameMap.mapValues Entry.sortSnippets corpus.items⟩

variable {corpus : Corpus}

theorem items_reloaded (corpus : Corpus) :
    corpus.reloaded.items = NameMap.mapValues Entry.sortSnippets corpus.items := by
  rw [items, reloaded, NameMap.sorted_mapValues, items, NameMap.sorted_sorted]

theorem keys_reloaded (corpus : Corpus) : corpus.reloaded.keys = corpus.keys := by
  rw [keys, items_reloaded]
  exact NameMap.names_mapValues _ _

theorem get?_reloaded (h : corpus.WellFormed) (key : String) :
    corpus.reloaded.get? key = (corpus.get? key).map Entry.sortSnippets := by
  rw [get?, reloaded, NameMap.find?_mapValues, items, NameMap.find?_sorted h.nodup, get?]

theorem WellFormed.reloaded (h : corpus.WellFormed) : corpus.reloaded.WellFormed := by
  have hmem : ∀ e ∈ corpus.items, e ∈ corpus.entries :=
    fun e he => (NameMap.sorted_perm _).mem_iff.mp he
  refine ⟨?_, fun e he => ?_, fun e he => ?_⟩
  · rw [Corpus.reloaded, NameMap.names_mapValues]
    exact NameMap.nodup_names_sorted h.nodup
  · obtain ⟨e', he', rfl⟩ := List.mem_map.mp he
    exact h.lowered_key e' (hmem e' he')
  · obtain ⟨e', he', rfl⟩ := List.mem_map.mp he
    exact Entry.isWellTyped_sortSnippets (h.wellTyped e' (hmem e' he'))

/-! ### The text -/

theorem toJson_eq (corpus : Corpus) :
    corpus.toJson = .object (NameMap.mapValues Entry.toJson corpus.items) := rfl

theorem sortMembers_toJson (corpus : Corpus) : corpus.toJson.sortMembers =
    .object (NameMap.mapValues (fun entry => entry.toJson.sortMembers) corpus.items) := by
  rw [toJson_eq, Json.sortMembers_object, NameMap.sorted_mapValues, NameMap.mapValues_mapValues,
    items, NameMap.sorted_sorted]

/-- The text of a corpus does not depend on any order. -/
theorem text_reloaded (corpus : Corpus) : corpus.reloaded.text = corpus.text := by
  rw [text, text, sortMembers_toJson, sortMembers_toJson, items_reloaded,
    NameMap.mapValues_mapValues]
  simp only [Entry.sortMembers_sortSnippets]

theorem isReadable_toJson (h : corpus.WellFormed) : corpus.toJson.isReadable = true := by
  rw [toJson_eq]
  refine Json.isReadable_object_iff.mpr ⟨?_, fun m hm => ?_⟩
  · rw [NameMap.names_mapValues]
    exact NameMap.nodup_names_sorted h.nodup
  · obtain ⟨e, he, rfl⟩ := List.mem_map.mp hm
    exact Entry.isReadable_toJson (h.wellTyped e ((NameMap.sorted_perm _).mem_iff.mp he))

theorem ofJson_toJson (h : corpus.WellFormed) :
    ofJson corpus.toJson.sortMembers = .ok corpus.reloaded := by
  have hentries : ∀ e ∈ corpus.items,
      Entry.ofJson e.2.toJson.sortMembers = .ok e.2.sortSnippets :=
    fun e he => Entry.ofJson_toJson (h.wellTyped e ((NameMap.sorted_perm _).mem_iff.mp he))
  have hpairs : (NameMap.mapValues (fun entry => entry.toJson.sortMembers) corpus.items).mapM
      (fun member => do return (member.1, ← Entry.ofJson member.2)) =
        (.ok corpus.reloaded.entries : Except DecodingError _) := by
    rw [NameMap.mapValues, List.mapM_map]
    refine mapM_eq_ok fun e he => ?_
    simp [hentries e he, bind, Except.bind, pure, Except.pure]
  -- the keys are in lower case and new, so that adding the entries puts them behind each other
  have hreloaded : ofPairs corpus.reloaded.entries = corpus.reloaded :=
    ofPairs_of_nodup h.reloaded.lowered_key h.reloaded.nodup
  rw [sortMembers_toJson]
  refine (congrArg (· >>= fun pairs => pure (ofPairs pairs)) hpairs).trans ?_
  exact congrArg Except.ok hreloaded

/-- The text of a well-formed corpus is read as the same entries, in order. -/
theorem ofText_text (h : corpus.WellFormed) (path : Path) :
    ofText path corpus.text = .ok corpus.reloaded := by
  have hvalue := Json.isReadable_sortMembers _ (isReadable_toJson h)
  exact decodeText_of_read (Json.read_write_newline ⟨some 2⟩ hvalue) hvalue (ofJson_toJson h)

theorem readsLone_text (h : corpus.WellFormed) : Json.readsLone corpus.text = false :=
  Json.readsLone_write_newline ⟨some 2⟩ (Json.isReadable_sortMembers _ (isReadable_toJson h))

end Corpus

end ScriptTypings

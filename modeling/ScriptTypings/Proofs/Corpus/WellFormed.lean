import ScriptTypings.Corpus.Basic
import ScriptTypings.Proofs.NameMap
import ScriptTypings.Proofs.Text.LowerCase

/-!
# Well-formed corpora

An entry is well typed if every value in it that is meant as a text is one, and no language has two
code samples. A corpus is well formed if its keys are in lower case, no key stands twice, and its
entries are well typed. Adding well-typed entries keeps a corpus well formed, under whatever keys
they are added.
-/

namespace ScriptTypings

open Text

def Slot.isWellTyped (slot : Slot) : Bool :=
  slot.name.isText && slot.typeName.isText && slot.description.isText

def Returned.isWellTyped : Returned → Bool
  | .typed typeName description => typeName.isText && description.isText
  | .fields members description => members.all Slot.isWellTyped && description.isText
  | _ => true

def Signature.isWellTyped (signature : Signature) : Bool :=
  signature.description.isText && signature.parameters.all Slot.isWellTyped &&
    signature.returned.isWellTyped && signature.snippets.all (fun s => s.2.isText) &&
    decide signature.snippets.names.Nodup && signature.typeParameters.all Json.isText

def InterfaceListing.isWellTyped (listing : InterfaceListing) : Bool :=
  listing.bases.all Json.isText && listing.typeParameters.all Json.isText &&
    listing.methods.all Json.isText && listing.properties.all Json.isText &&
    listing.extensions.all Json.isText

def NamespaceListing.isWellTyped (listing : NamespaceListing) : Bool :=
  listing.structures.all Json.isText && listing.delegates.all Json.isText &&
    listing.interfaces.all Json.isText

def Content.isWellTyped : Content → Bool
  | .cls interfaces _ => interfaces.all Json.isText
  | .enumeration => true
  | .space listing => listing.isWellTyped
  | .interface listing => listing.isWellTyped
  | .record members => members.all Slot.isWellTyped
  | .delegate signature => signature.isWellTyped
  | .function signatures => signatures.all Signature.isWellTyped
  | .event handler => handler.isText
  | .property typeName => typeName.isText

/-- Whether every value of an entry that is meant as a text is one, and no language has two code
samples. -/
def Entry.isWellTyped (entry : Entry) : Bool :=
  entry.identifier.isText && entry.description.isText && entry.content.isWellTyped

theorem Json.exists_of_isText {value : Json} (h : value.isText = true) :
    ∃ s, value = .text s := by
  cases value with
  | text s => exact ⟨s, rfl⟩
  | _ => cases h

theorem Slot.isWellTyped_iff {slot : Slot} : slot.isWellTyped = true ↔
    slot.name.isText = true ∧ slot.typeName.isText = true ∧ slot.description.isText = true := by
  rw [isWellTyped, Bool.and_eq_true, Bool.and_eq_true, and_assoc]

theorem Signature.isWellTyped_iff {signature : Signature} : signature.isWellTyped = true ↔
    signature.description.isText = true ∧ signature.parameters.all Slot.isWellTyped = true ∧
      signature.returned.isWellTyped = true ∧
      signature.snippets.all (fun s => s.2.isText) = true ∧
      signature.snippets.names.Nodup ∧ signature.typeParameters.all Json.isText = true := by
  simp only [isWellTyped, Bool.and_eq_true, decide_eq_true_eq, and_assoc]

namespace Corpus

/-- Keys in lower case that name one entry each, and well-typed entries. -/
structure WellFormed (corpus : Corpus) : Prop where
  nodup : corpus.entries.names.Nodup
  lowered_key : ∀ e ∈ corpus.entries, lowered e.1 = e.1
  wellTyped : ∀ e ∈ corpus.entries, e.2.isWellTyped = true

/-- Every entry stands under the lower-case form of its identifier. -/
def KeyedByIdentifier (corpus : Corpus) : Prop :=
  ∀ e ∈ corpus.entries, e.1 = lowered e.2.identifier.asText

instance (corpus : Corpus) : Decidable corpus.KeyedByIdentifier :=
  inferInstanceAs (Decidable (∀ e ∈ corpus.entries, e.1 = lowered e.2.identifier.asText))

theorem wellFormed_empty : ({} : Corpus).WellFormed :=
  ⟨List.nodup_nil, nofun, nofun⟩

theorem mem_entries_of_get? {corpus : Corpus} {key : String} {entry : Entry}
    (h : corpus.get? key = some entry) : (lowered key, entry) ∈ corpus.entries :=
  NameMap.mem_of_find?_eq_some h

theorem WellFormed.wellTyped_of_get? {corpus : Corpus} (h : corpus.WellFormed) {key : String}
    {entry : Entry} (hget : corpus.get? key = some entry) : entry.isWellTyped = true :=
  h.wellTyped _ (mem_entries_of_get? hget)

/-- Two entries that are put together are as well typed as each of them. -/
theorem isWellTyped_combine {before : Option Entry} {entry : Entry}
    (hbefore : ∀ e, before = some e → e.isWellTyped = true) (h : entry.isWellTyped = true) :
    (combine before entry).isWellTyped = true := by
  unfold combine
  split
  · rename_i identifier description old new hnew
    have hold := hbefore _ rfl
    simp only [Entry.isWellTyped, Content.isWellTyped, hnew, Bool.and_eq_true,
      List.all_append] at hold h ⊢
    exact ⟨hold.1, hold.2, h.2⟩
  · exact h

theorem WellFormed.add {corpus : Corpus} (h : corpus.WellFormed) (key : String) {entry : Entry}
    (hentry : entry.isWellTyped = true) : (corpus.add key entry).WellFormed := by
  refine ⟨NameMap.nodup_names_put h.nodup _ _, ?_, ?_⟩
  · intro e he
    rcases NameMap.mem_put he with rfl | he
    · exact lowered_lowered key
    · exact h.lowered_key e he
  · intro e he
    rcases NameMap.mem_put he with rfl | he
    · refine isWellTyped_combine (fun old hold => ?_) hentry
      exact h.wellTyped _ (NameMap.mem_of_find?_eq_some hold)
    · exact h.wellTyped e he

theorem WellFormed.addAll {corpus : Corpus} (h : corpus.WellFormed)
    {pairs : List (String × Entry)} (hpairs : ∀ p ∈ pairs, p.2.isWellTyped = true) :
    (corpus.addAll pairs).WellFormed := by
  induction pairs generalizing corpus with
  | nil => exact h
  | cons pair pairs ih =>
    exact ih (h.add pair.1 (hpairs pair List.mem_cons_self))
      fun p hp => hpairs p (List.mem_cons_of_mem _ hp)

/-- Every corpus that is made of well-typed entries is well formed. -/
theorem wellFormed_ofPairs {pairs : List (String × Entry)}
    (h : ∀ p ∈ pairs, p.2.isWellTyped = true) : (ofPairs pairs).WellFormed :=
  wellFormed_empty.addAll h

/-- Entries under different keys in lower case make up a corpus as they stand. -/
theorem ofPairs_of_nodup {pairs : List (String × Entry)}
    (hkeys : ∀ p ∈ pairs, lowered p.1 = p.1) (hnodup : (pairs.map Prod.fst).Nodup) :
    ofPairs pairs = ⟨pairs⟩ := by
  suffices h : ∀ done : NameMap Entry, (done.names ++ pairs.map Prod.fst).Nodup →
      addAll ⟨done⟩ pairs = ⟨done ++ pairs⟩ from h [] hnodup
  clear hnodup
  induction pairs with
  | nil => intro done _; simp [addAll]
  | cons pair pairs ih =>
    intro done hdone
    have hnew : pair.1 ∉ done.names := fun hmem =>
      (List.nodup_append.mp hdone).2.2 _ hmem _ (by simp) rfl
    have hadd : (⟨done⟩ : Corpus).add pair.1 pair.2 = ⟨done ++ [pair]⟩ := by
      simp only [add, hkeys pair List.mem_cons_self, NameMap.find?_eq_none_iff.mpr hnew, combine]
      rw [NameMap.put_of_not_mem hnew]
    have hrest := ih (fun p hp => hkeys p (List.mem_cons_of_mem _ hp)) (done ++ [pair])
      (by simpa using hdone)
    rw [addAll, List.foldl_cons, hadd]
    simpa [addAll] using hrest

end Corpus

end ScriptTypings

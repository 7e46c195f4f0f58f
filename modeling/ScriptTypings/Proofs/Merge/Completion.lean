import ScriptTypings.Proofs.Corpus.WellFormed
import ScriptTypings.Proofs.Merge.Resolution
import ScriptTypings.Proofs.Merge.Worklist
import ScriptTypings.Proofs.Trace

/-!
# Merges that do not stop

A merge stops only where a value that is no text is used as one. Where the entries are well typed
and the overrides are texts there is no such value: `misfit?_merge` shows that every merge comes to
its end.
-/

namespace ScriptTypings

open Text

/-! ### Tables of texts -/

namespace ShortNames

/-- Every name stands for a text, or for nothing. -/
def IsTextual (table : ShortNames) : Prop :=
  ∀ name meaning, NameMap.find? name table = some meaning →
    meaning.isText = true ∨ meaning.isEmpty = true

variable {table : ShortNames}

theorem IsTextual.put (h : table.IsTextual) (name : String) {meaning : Json}
    (hmeaning : meaning.isText = true ∨ meaning.isEmpty = true) :
    IsTextual (NameMap.put name meaning table) := by
  intro other value hfind
  by_cases hsame : other = name
  · subst hsame
    rw [NameMap.find?_put_self] at hfind
    exact Option.some.inj hfind ▸ hmeaning
  · rw [NameMap.find?_put_of_ne hsame] at hfind
    exact h other value hfind

theorem IsTextual.addIdentifier (h : table.IsTextual) (identifier : String) :
    (addIdentifier table identifier).IsTextual := by
  simp only [ShortNames.addIdentifier]
  split
  · exact h.put _ (.inl rfl)
  · split
    · exact h
    · exact h.put _ (.inr rfl)
  · exact h

theorem IsTextual.addAll (h : table.IsTextual) (entries : List Entry) :
    IsTextual (entries.foldl (fun t e => ShortNames.addIdentifier t e.identifier.asText)
      table) := by
  induction entries generalizing table with
  | nil => exact h
  | cons entry entries ih => exact ih (h.addIdentifier _)

theorem IsTextual.update (h : table.IsTextual) {pairs : List (String × Json)}
    (hpairs : ∀ p ∈ pairs, p.2.isText = true ∨ p.2.isEmpty = true) :
    IsTextual (NameMap.update table pairs) := by
  induction pairs generalizing table with
  | nil => exact h
  | cons pair pairs ih =>
    rw [List.forall_mem_cons] at hpairs
    exact ih (h.put _ hpairs.1) hpairs.2

theorem isTextual_ofCorpus_of_isEmpty (corpus : Corpus) {overrides : List (String × Json)}
    (h : ∀ o ∈ overrides, o.2.isText = true ∨ o.2.isEmpty = true) :
    (ofCorpus corpus overrides).IsTextual := by
  have hempty : IsTextual [] := nofun
  refine (hempty.addAll (referable corpus)).update fun p hp => ?_
  obtain ⟨o, ho, rfl⟩ := List.mem_map.mp hp
  exact h o ho

theorem isTextual_ofCorpus (corpus : Corpus) {overrides : List (String × Json)}
    (h : ∀ o ∈ overrides, o.2.isText = true) : (ofCorpus corpus overrides).IsTextual :=
  isTextual_ofCorpus_of_isEmpty corpus fun o ho => .inl (h o ho)

theorem IsTextual.isText_expand (h : table.IsTextual) (name : String) :
    (table.expand name).isText = true := by
  unfold expand
  split
  · rfl
  · split
    · rename_i meaning hfind
      split
      · rfl
      · rename_i hempty
        exact (h _ _ hfind).resolve_right hempty
    · rfl

theorem IsTextual.oddMeaning?_eq_none (h : table.IsTextual) (type : TypeExpr) :
    table.oddMeaning? type = none := by
  unfold oddMeaning?
  split
  · rw [if_pos (h.isText_expand _)]
  · rfl

mutual

theorem IsTextual.combinesOdd_eq_false (h : table.IsTextual) :
    ∀ type, table.combinesOdd type = false
  | .named _ arguments => h.combinesOddAmong_eq_false arguments
  | .array element => h.combinesOdd_eq_false element

theorem IsTextual.combinesOddAmong_eq_false (h : table.IsTextual) :
    ∀ types, table.combinesOddAmong types = false
  | [] => rfl
  | type :: types => by
    rw [combinesOddAmong, h.oddMeaning?_eq_none, h.combinesOdd_eq_false type,
      h.combinesOddAmong_eq_false types]
    rfl

end

end ShortNames

/-! ### Steps over well-typed entries -/

namespace Reference

/-- Whatever is looked up is well typed, and short names stand for texts. -/
structure IsTextual (r : Reference) : Prop where
  entries : ∀ name entry, r.corpus.get? name = some entry → entry.isWellTyped = true
  shortNames : r.shortNames.IsTextual

variable {r : Reference} (h : r.IsTextual)

include h

theorem IsTextual.isText_qualify {type : Json} (htype : type.isText = true) :
    (r.qualify type).isText = true := by
  obtain ⟨s, rfl⟩ := Json.exists_of_isText htype
  rw [qualify, ShortNames.qualify, ShortNames.qualifyExpr, h.shortNames.oddMeaning?_eq_none]
  rfl

theorem IsTextual.misfit?_qualifying {type : Json} (htype : type.isText = true) :
    Trace.misfit? (r.shortNames.qualifying type : MergeTrace) = none := by
  obtain ⟨s, rfl⟩ := Json.exists_of_isText htype
  rw [ShortNames.qualifying, h.shortNames.combinesOdd_eq_false]
  rfl

theorem IsTextual.misfit?_remember {type : Json} (htype : type.isText = true) :
    (MergeTrace.remember (r.qualify type)).misfit? = none := by
  rw [MergeTrace.remember, Trace.misfit?_append_eq_none]
  exact ⟨Trace.misfit?_useFilled (h.isText_qualify htype), Trace.misfit?_map_ok ..⟩

theorem IsTextual.misfit?_typeTrace {type : Json} (htype : type.isText = true) :
    (r.typeTrace type).misfit? = none := by
  rw [typeTrace, Trace.misfit?_append_eq_none]
  exact ⟨h.misfit?_qualifying htype, h.misfit?_remember htype⟩

theorem IsTextual.misfit?_typesTrace {types : List Json} (htypes : types.all Json.isText = true) :
    (r.typesTrace types).misfit? = none := by
  rw [List.all_eq_true] at htypes
  rw [typesTrace, Trace.misfit?_append_eq_none]
  exact ⟨Trace.misfit?_flatMap_eq_none fun type htype => h.misfit?_qualifying (htypes type htype),
    Trace.misfit?_flatMap_eq_none fun type htype => h.misfit?_remember (htypes type htype)⟩

theorem IsTextual.misfit?_slots {slots : List Slot} (hslots : slots.all Slot.isWellTyped = true) :
    Trace.misfit? (slots.flatMap fun slot => r.typeTrace slot.typeName) = none := by
  rw [List.all_eq_true] at hslots
  refine Trace.misfit?_flatMap_eq_none fun slot hslot => h.misfit?_typeTrace ?_
  have hslot := hslots slot hslot
  rw [Slot.isWellTyped, Bool.and_eq_true, Bool.and_eq_true] at hslot
  exact hslot.1.2

theorem IsTextual.misfit?_signatureTrace {signature : Signature}
    (hsignature : signature.isWellTyped = true) :
    (r.signatureTrace signature).misfit? = none := by
  simp only [Signature.isWellTyped, Bool.and_eq_true] at hsignature
  obtain ⟨⟨⟨⟨⟨-, hparameters⟩, hreturned⟩, -⟩, -⟩, -⟩ := hsignature
  rw [signatureTrace, Trace.misfit?_append_eq_none]
  refine ⟨?_, h.misfit?_slots hparameters⟩
  split
  · rename_i type description heq
    rw [heq, Returned.isWellTyped, Bool.and_eq_true] at hreturned
    exact h.misfit?_typeTrace hreturned.1
  · rfl

theorem IsTextual.misfit?_signaturesTrace {signatures : List Signature}
    (hsignatures : signatures.all Signature.isWellTyped = true) :
    (r.signaturesTrace signatures).misfit? = none := by
  rw [List.all_eq_true] at hsignatures
  exact Trace.misfit?_flatMap_eq_none fun signature hmem =>
    h.misfit?_signatureTrace (hsignatures signature hmem)

/-- The content of an entry that is looked up is well typed. -/
theorem IsTextual.content {name : String} {identifier description : Json} {content : Content}
    (hget : r.corpus.get? name = some ⟨identifier, description, content⟩) :
    content.isWellTyped = true := by
  have hentry := h.entries _ _ hget
  rw [Entry.isWellTyped, Bool.and_eq_true] at hentry
  exact hentry.2

theorem IsTextual.function? {name : String} {signatures : List Signature}
    (hget : r.corpus.function? name = some signatures) :
    signatures.all Signature.isWellTyped = true := by
  unfold Corpus.function? at hget
  split at hget
  · rename_i hentry
    exact Option.some.inj hget ▸ h.content hentry
  · cases hget

theorem IsTextual.interface? {name : String} {listing : InterfaceListing}
    (hget : r.corpus.interface? name = some listing) : listing.isWellTyped = true := by
  unfold Corpus.interface? at hget
  split at hget
  · rename_i hentry
    exact Option.some.inj hget ▸ h.content hentry
  · cases hget

/-! ### The resolved tree -/

theorem IsTextual.misfit?_leafTrace (fullname : String) :
    (r.leafTrace fullname).misfit? = none := by
  unfold leafTrace
  split
  · rename_i hget
    exact h.misfit?_signaturesTrace (h.content hget)
  · rename_i hget
    exact h.misfit?_typeTrace (h.content hget)
  · rename_i hget
    exact h.misfit?_typeTrace (h.content hget)
  · rfl

theorem IsTextual.misfit?_spaceTrace (fullname : String) :
    (r.spaceTrace fullname).misfit? = none := by
  unfold spaceTrace
  split
  · rename_i listing hget
    have hlisting := h.content hget
    rw [Trace.misfit?_append_eq_none]
    refine ⟨rfl, Trace.misfit?_flatMap_eq_none fun id hid => Trace.misfit?_use ?_⟩
    simp only [Content.isWellTyped, NamespaceListing.isWellTyped, ← List.all_append] at hlisting
    exact List.all_eq_true.mp hlisting id hid
  · rfl

theorem IsTextual.classInterfaces (fullname : String) :
    (r.classInterfaces fullname).all Json.isText = true := by
  unfold Reference.classInterfaces
  split
  · rename_i hget
    exact h.content hget
  · rfl

theorem IsTextual.constructor? (fullname : String) :
    ((r.constructor? fullname).getD []).all Signature.isWellTyped = true := by
  cases hget : r.constructor? fullname with
  | none => rfl
  | some signatures => exact h.function? hget

theorem IsTextual.misfit?_resolveTrace :
    (∀ node number parent name, (r.resolveTrace number parent name node).misfit? = none) ∧
      ∀ ms number holder parent, (r.resolveTraceOf number holder parent ms).misfit? = none := by
  refine Reflected.tree_induction ?placeholder ?space ?cls ?nil ?cons
  case placeholder =>
    intro word number parent name
    exact h.misfit?_leafTrace _
  case space =>
    intro fullname members ih number parent name
    rw [resolveTrace]
    split
    · exact ih ..
    · rw [Trace.misfit?_append_eq_none]
      exact ⟨h.misfit?_spaceTrace fullname, ih ..⟩
  case cls =>
    intro fullname base statics prototype ihs ihp number parent name
    simp only [resolveTrace, Trace.misfit?_append_eq_none]
    exact ⟨⟨⟨h.misfit?_typesTrace (h.classInterfaces fullname), ihs ..⟩, ihp ..⟩,
      h.misfit?_signaturesTrace (h.constructor? fullname)⟩
  case nil =>
    intro number holder parent
    rfl
  case cons =>
    intro name node members ihn ihm number holder parent
    simp only [resolveTraceOf, Trace.misfit?_append_eq_none]
    refine ⟨⟨ihn .., ?_⟩, ihm ..⟩
    cases holder <;> rfl

/-! ### The declarations -/

theorem IsTextual.misfit?_methodTrace {id : Json} (hid : id.isText = true) :
    (r.methodTrace id).misfit? = none := by
  rw [methodTrace, Trace.misfit?_append_eq_none]
  refine ⟨Trace.misfit?_use hid, ?_⟩
  split
  · rename_i hget
    exact h.misfit?_signaturesTrace (h.function? hget)
  · rfl

theorem IsTextual.misfit?_propertyTrace {id : Json} (hid : id.isText = true) :
    (r.propertyTrace id).misfit? = none := by
  rw [propertyTrace, Trace.misfit?_append_eq_none]
  refine ⟨Trace.misfit?_use hid, ?_⟩
  split
  · rename_i hget
    exact h.misfit?_typeTrace (h.content hget)
  · rfl

theorem IsTextual.family {listing : InterfaceListing} (hlisting : listing.isWellTyped = true) :
    ∀ source ∈ r.family listing, source.isWellTyped = true := by
  intro source hsource
  rcases List.mem_cons.mp hsource with rfl | hsource
  · exact hlisting
  · obtain ⟨id, _, hget⟩ := List.mem_filterMap.mp hsource
    exact h.interface? hget

theorem IsTextual.misfit?_interfaceTrace {listing : InterfaceListing}
    (hlisting : listing.isWellTyped = true) : (r.interfaceTrace listing).misfit? = none := by
  have hfamily := h.family hlisting
  simp only [InterfaceListing.isWellTyped, Bool.and_eq_true] at hlisting
  obtain ⟨⟨⟨⟨hbases, -⟩, -⟩, -⟩, hextensions⟩ := hlisting
  rw [interfaceTrace, Trace.misfit?_append_eq_none, Trace.misfit?_append_eq_none]
  refine ⟨⟨h.misfit?_typesTrace hbases, ?_⟩, ?_⟩
  · exact Trace.misfit?_flatMap_eq_none fun id hid =>
      Trace.misfit?_use (List.all_eq_true.mp hextensions id hid)
  · refine Trace.misfit?_flatMap_eq_none fun source hsource => ?_
    have hsource := hfamily source hsource
    simp only [InterfaceListing.isWellTyped, Bool.and_eq_true] at hsource
    obtain ⟨⟨⟨⟨-, -⟩, hmethods⟩, hproperties⟩, -⟩ := hsource
    rw [Trace.misfit?_append_eq_none]
    exact ⟨Trace.misfit?_flatMap_eq_none fun id hid =>
        h.misfit?_methodTrace (List.all_eq_true.mp hmethods id hid),
      Trace.misfit?_flatMap_eq_none fun id hid =>
        h.misfit?_propertyTrace (List.all_eq_true.mp hproperties id hid)⟩

theorem IsTextual.misfit?_declared {name : String} {entry : Entry} {declared : Declared}
    (hentry : entry.isWellTyped = true) (hdeclared : r.declare? name entry = some declared) :
    declared.trace.misfit? = none := by
  obtain ⟨identifier, description, content⟩ := entry
  rw [Entry.isWellTyped, Bool.and_eq_true] at hentry
  cases content with
  | record members => cases hdeclared; exact h.misfit?_slots hentry.2
  | delegate signature => cases hdeclared; exact h.misfit?_signatureTrace hentry.2
  | interface listing => cases hdeclared; exact h.misfit?_interfaceTrace hentry.2
  | _ => cases hdeclared

end Reference

/-! ### The merge -/

namespace Merger

variable {r : Reference} {owners : NameMap Nat} (h : r.IsTextual)

include h

theorem misfit?_visit {p : Progress} (hp : p.trace.misfit? = none) (name : String) :
    (visit r owners p name).trace.misfit? = none := by
  rw [visit]
  cases hget : r.corpus.get? name with
  | none => exact hp
  | some entry =>
    have hentry := h.entries _ _ hget
    have huse : (Trace.use entry.identifier : MergeTrace).misfit? = none := by
      simp only [Entry.isWellTyped, Bool.and_eq_true] at hentry
      exact Trace.misfit?_use hentry.1.1
    cases hs : isStructural entry with
    | false =>
      simp only [declareName_of_not_structural hs]
      exact hp
    | true =>
      cases ho : NameMap.find? (lowered name) owners with
      | none =>
        simp only [declareName_of_unowned hs ho, Trace.misfit?_append_eq_none]
        exact ⟨hp, rfl⟩
      | some owner =>
        by_cases hmem : shortName entry ∈ namesIn p.spaces owner
        · simp only [declareName_of_mem hs ho hmem, Trace.misfit?_append_eq_none]
          exact ⟨hp, huse⟩
        · obtain ⟨declared, hd⟩ := exists_declared hs r (shortName entry)
          simp only [declareName_of_not_mem hs ho hmem hd, Trace.misfit?_append_eq_none]
          exact ⟨⟨⟨hp, huse⟩, h.misfit?_declared hentry hd⟩, rfl⟩

theorem misfit?_backfill {p : Progress} (hdistinct : p.memory.Distinct)
    (hp : p.trace.misfit? = none) : (backfill r owners p).trace.misfit? = none := by
  rw [backfill_eq_foldl hdistinct]
  exact foldl_visit_induction (I := fun _ p => p.trace.misfit? = none)
    (fun _ _ name hp => misfit?_visit h hp name) [] hp _

omit h

variable {corpus : Corpus} {overrides : List (String × Json)}

theorem isTextual_ofCorpus (hcorpus : ∀ e ∈ corpus.entries, e.2.isWellTyped = true)
    (hoverrides : ∀ o ∈ overrides, o.2.isText = true) :
    (Reference.ofCorpus corpus overrides).IsTextual :=
  ⟨fun _ _ hget => hcorpus _ (Corpus.mem_entries_of_get? hget),
    ShortNames.isTextual_ofCorpus corpus hoverrides⟩

/-- A corpus of well-typed entries has a table of short names. -/
theorem misfit?_shortNames (hcorpus : ∀ e ∈ corpus.entries, e.2.isWellTyped = true) :
    ShortNames.misfit? corpus = none := by
  refine Trace.misfit?_flatMap_eq_none fun entry hentry => Trace.misfit?_use ?_
  obtain ⟨e, he, rfl⟩ := List.mem_map.mp (List.mem_filter.mp hentry).1
  have hwell := hcorpus e ((NameMap.sorted_perm _).mem_iff.mp he)
  simp only [Entry.isWellTyped, Bool.and_eq_true] at hwell
  exact hwell.1.1

section Ends

variable {m done : Merger} {root : Reflected.Root} {merged : Merged}

/-- A merge comes to its end if none of its steps stops it. -/
theorem mergeUntilMisfit_eq_ok : m.mergeUntilMisfit root = (done, .ok merged) ↔
    m.merge root = (done, merged) ∧ merged.trace.misfit? = none := by
  rw [mergeUntilMisfit]
  rcases m.merge root with ⟨next, tree⟩
  dsimp only
  constructor
  · intro hrun
    split at hrun
    · rename_i hnone
      cases hrun
      exact ⟨rfl, hnone⟩
    · cases (Prod.mk.inj hrun).2
  · rintro ⟨hmerge, hnone⟩
    cases hmerge
    rw [hnone]

theorem merge_of_mergeUntilMisfit (hrun : m.mergeUntilMisfit root = (done, .ok merged)) :
    m.merge root = (done, merged) :=
  (mergeUntilMisfit_eq_ok.mp hrun).1

theorem mergeUntilMisfit_eq_of_isTextual (hdistinct : m.memory.Distinct)
    (h : m.reference.IsTextual) (root : Reflected.Root) :
    m.mergeUntilMisfit root = ((m.merge root).1, .ok (m.merge root).2) := by
  refine mergeUntilMisfit_eq_ok.mpr ⟨rfl, ?_⟩
  rw [merge, Trace.misfit?_append_eq_none]
  exact ⟨h.misfit?_resolveTrace.1 .., misfit?_backfill h (hdistinct.addAll _) rfl⟩

end Ends

/-- With well-typed entries and textual overrides, a merge by a new merger comes to its end. -/
theorem mergeUntilMisfit_eq (hcorpus : ∀ e ∈ corpus.entries, e.2.isWellTyped = true)
    (hoverrides : ∀ o ∈ overrides, o.2.isText = true) (root : Reflected.Root) :
    (ofCorpus corpus overrides).mergeUntilMisfit root =
      (((ofCorpus corpus overrides).merge root).1,
        .ok ((ofCorpus corpus overrides).merge root).2) :=
  mergeUntilMisfit_eq_of_isTextual Memory.distinct_empty (isTextual_ofCorpus hcorpus hoverrides)
    root

end Merger

end ScriptTypings

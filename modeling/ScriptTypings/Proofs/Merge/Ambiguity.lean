import ScriptTypings.Merge.ShortNames
import ScriptTypings.Proofs.Corpus.Accumulation
import ScriptTypings.Proofs.Trace

/-!
# Ambiguous short names

What the table of a corpus says about a short name is known from the identifiers that share it,
taken in the order of their keys (`IsMeaning`). Identifiers are added one by one, and a name that
has become ambiguous stays so (`IsMeaning.addIdentifier`). The overrides come last, and of several
overrides of one name the last one decides (`find?_ofCorpus`).
-/

namespace ScriptTypings.ShortNames

open Text

/-- What a short name means that belongs to some identifiers: nothing without any, the first one if
they are equal up to case, and nothing certain if two of them are not. -/
inductive IsMeaning : List String → Option Json → Prop
  | unknown : IsMeaning [] none
  | agreed {identifier : String} {identifiers : List String}
    (hagree : ∀ other ∈ identifiers, lowered other = lowered identifier) :
    IsMeaning (identifier :: identifiers) (some (.text identifier))
  | ambiguous {identifier other : String} {identifiers : List String}
    (hmem : identifier ∈ identifiers) (hother : other ∈ identifiers)
    (hdiffer : lowered identifier ≠ lowered other) : IsMeaning identifiers (some .null)

/-- Identifiers have one meaning. -/
theorem IsMeaning.unique {identifiers : List String} {meaning meaning' : Option Json}
    (h : IsMeaning identifiers meaning) (h' : IsMeaning identifiers meaning') :
    meaning = meaning' := by
  have hagree : ∀ {first one two : String} {rest : List String},
      (∀ other ∈ rest, lowered other = lowered first) → one ∈ first :: rest →
      two ∈ first :: rest → lowered one = lowered two := by
    intro first one two rest hrest hone htwo
    have hall : ∀ other ∈ first :: rest, lowered other = lowered first :=
      List.forall_mem_cons.mpr ⟨rfl, hrest⟩
    rw [hall one hone, hall two htwo]
  cases h with
  | unknown =>
    cases h' with
    | unknown => rfl
    | ambiguous hmem _ _ => cases hmem
  | agreed hrest =>
    cases h' with
    | agreed _ => rfl
    | ambiguous hmem hother hdiffer => exact absurd (hagree hrest hmem hother) hdiffer
  | ambiguous hmem hother hdiffer =>
    cases h' with
    | unknown => cases hmem
    | agreed hrest => exact absurd (hagree hrest hmem hother) hdiffer
    | ambiguous _ _ _ => rfl

/-- The identifiers with a short name. -/
def sharing (short : String) (identifiers : List String) : List String :=
  identifiers.filter fun identifier => lowered (Identifier.lastSegment identifier) = short

theorem sharing_append (short : String) (identifiers more : List String) :
    sharing short (identifiers ++ more) = sharing short identifiers ++ sharing short more :=
  List.filter_append ..

/-- An identifier is added to those with its short name, and to no others. -/
theorem IsMeaning.addIdentifier {short : String} {identifiers : List String} {table : ShortNames}
    (h : IsMeaning (sharing short identifiers) (NameMap.find? short table)) (identifier : String) :
    IsMeaning (sharing short (identifiers ++ [identifier]))
      (NameMap.find? short (addIdentifier table identifier)) := by
  rw [sharing_append]
  by_cases hshort : lowered (Identifier.lastSegment identifier) = short
  · have hnew : sharing short [identifier] = [identifier] := by simp [sharing, hshort]
    rw [hnew, ShortNames.addIdentifier, hshort]
    generalize hids : sharing short identifiers = ids at h
    generalize hfind : NameMap.find? short table = found at h
    cases h with
    | unknown =>
      rw [NameMap.find?_put_self]
      exact .agreed nofun
    | @agreed first rest hrest =>
      dsimp only
      split
      · rename_i hsame
        rw [hfind]
        refine .agreed (List.forall_mem_append.mpr ⟨hrest, ?_⟩)
        rw [List.forall_mem_singleton]
        exact hsame.symm
      · rename_i hdiffer
        rw [NameMap.find?_put_self]
        exact .ambiguous (List.mem_append_left _ List.mem_cons_self)
          (List.mem_append_right _ (List.mem_singleton_self _)) hdiffer
    | ambiguous hmem hother hdiffer =>
      dsimp only
      rw [hfind]
      exact .ambiguous (List.mem_append_left _ hmem) (List.mem_append_left _ hother) hdiffer
  · have hnone : sharing short [identifier] = [] := by simp [sharing, hshort]
    have hkept : NameMap.find? short (ShortNames.addIdentifier table identifier) =
        NameMap.find? short table := by
      simp only [ShortNames.addIdentifier]
      split
      · exact NameMap.find?_put_of_ne (Ne.symm hshort) _ _
      · split
        · rfl
        · exact NameMap.find?_put_of_ne (Ne.symm hshort) _ _
      · rfl
    rw [hnone, List.append_nil, hkept]
    exact h

/-- Identifiers are added in their order behind those that the table knows of. -/
theorem IsMeaning.foldl_addIdentifier {short : String} {identifiers : List String}
    {table : ShortNames}
    (h : IsMeaning (sharing short identifiers) (NameMap.find? short table)) (more : List String) :
    IsMeaning (sharing short (identifiers ++ more))
      (NameMap.find? short (more.foldl ShortNames.addIdentifier table)) := by
  induction more generalizing identifiers table with
  | nil =>
    rw [List.append_nil]
    exact h
  | cons identifier more ih =>
    rw [List.append_cons]
    exact ih (h.addIdentifier identifier)

/-- A third identifier does not make an ambiguous name certain again. -/
example :
    let table := ["A.Item", "B.Item", "A.Item", "A.Part"].foldl addIdentifier []
    NameMap.find? "item" table = some .null ∧
      NameMap.find? "part" table = some (.text "A.Part") := by
  decide +kernel

/-- The identifiers that have a short name, in the order of their keys. -/
def identifiersOf (corpus : Corpus) : List String :=
  (referable corpus).map fun e => e.identifier.asText

theorem ofCorpus_eq (corpus : Corpus) (overrides : List (String × Json)) :
    ofCorpus corpus overrides =
      NameMap.update ((identifiersOf corpus).foldl addIdentifier [])
        (overrides.map fun o => (lowered o.1, o.2)) := by
  rw [ofCorpus, identifiersOf, List.foldl_map]

/-- An override that is the last one of its name is what the name means. -/
theorem find?_ofCorpus_of_override (corpus : Corpus) {overrides before after : List (String × Json)}
    {name short : String} {value : Json} (hsplit : overrides = before ++ (name, value) :: after)
    (hname : lowered name = short) (hafter : ∀ o ∈ after, lowered o.1 ≠ short) :
    NameMap.find? short (ofCorpus corpus overrides) = some value := by
  rw [ofCorpus_eq, hsplit, List.map_append, List.map_cons, hname]
  exact NameMap.find?_update_append_cons (List.forall_mem_map.mpr hafter) _ _ _

/-- A name without override means what the identifiers that share it mean. -/
theorem isMeaning_ofCorpus (corpus : Corpus) {overrides : List (String × Json)} {short : String}
    (hnone : ∀ o ∈ overrides, lowered o.1 ≠ short) :
    IsMeaning (sharing short (identifiersOf corpus))
      (NameMap.find? short (ofCorpus corpus overrides)) := by
  have hempty : IsMeaning (sharing short []) (NameMap.find? short ([] : ShortNames)) := .unknown
  rw [ofCorpus_eq, NameMap.find?_update_of_forall_ne (List.forall_mem_map.mpr hnone)]
  exact hempty.foldl_addIdentifier (identifiersOf corpus)

theorem misfit?_eq_none_iff {corpus : Corpus} :
    misfit? corpus = none ↔ ∀ e ∈ referable corpus, e.identifier.isText = true := by
  rw [misfit?, Trace.misfit?_flatMap_eq_none_iff]
  simp only [Trace.misfit?_use_eq_none_iff]

/-- A short name means what its last override says, and without an override what the identifiers
that share it mean. There is a table exactly if the identifiers with short names are texts. The
order in which entries were added is not seen in it as long as those of each key keep theirs. -/
theorem find?_ofCorpus (corpus : Corpus) (overrides : List (String × Json)) (short : String) :
    (∀ before name value after, overrides = before ++ (name, value) :: after →
      lowered name = short → (∀ o ∈ after, lowered o.1 ≠ short) →
      NameMap.find? short (ofCorpus corpus overrides) = some value) ∧
    ((∀ o ∈ overrides, lowered o.1 ≠ short) → ∀ meaning,
      NameMap.find? short (ofCorpus corpus overrides) = meaning ↔
        IsMeaning (sharing short (identifiersOf corpus)) meaning) ∧
    (misfit? corpus = none ↔ ∀ e ∈ referable corpus, e.identifier.isText = true) ∧
    (∀ pairs pairs' : List (String × Entry),
      (∀ key, Corpus.addedUnder key pairs = Corpus.addedUnder key pairs') →
      ofCorpus (.ofPairs pairs) overrides = ofCorpus (.ofPairs pairs') overrides) := by
  refine ⟨fun before name value after => find?_ofCorpus_of_override corpus,
    fun hnone meaning => ?_, misfit?_eq_none_iff, fun pairs pairs' hpairs => ?_⟩
  · have hmeaning := isMeaning_ofCorpus corpus hnone
    exact ⟨fun h => h ▸ hmeaning, hmeaning.unique⟩
  · rw [ofCorpus, ofCorpus, referable, referable, Corpus.items_ofPairs_congr hpairs]

/-- Two enumerations with one short name. -/
def itemPairs : List (String × Entry) :=
  [("a.item", ⟨"A.Item", "", .enumeration⟩), ("b.item", ⟨"B.Item", "", .enumeration⟩)]

/-- The name of two enumerations is ambiguous in whatever order they are added, and the later one of
two overrides decides. -/
theorem find?_ofCorpus_items :
    let overrides := [("Part", Json.text "A.Part"), ("PART", .text "B.Part")]
    let table := ofCorpus (.ofPairs itemPairs) overrides
    NameMap.find? "item" table = some .null ∧
      NameMap.find? "part" table = some (.text "B.Part") ∧
      misfit? (.ofPairs itemPairs) = none ∧
      table = ofCorpus (.ofPairs itemPairs.reverse) overrides := by
  intro overrides table
  have hitems : Corpus.items (.ofPairs itemPairs) = itemPairs :=
    List.mergeSort_of_pairwise (by decide)
  have hreferable : referable (.ofPairs itemPairs) = itemPairs.map Prod.snd := by
    rw [referable, hitems]
    rfl
  obtain ⟨-, hitem, hends, horder⟩ := find?_ofCorpus (.ofPairs itemPairs) overrides "item"
  obtain ⟨hpart, -⟩ := find?_ofCorpus (.ofPairs itemPairs) overrides "part"
  refine ⟨(hitem (by decide +kernel) _).mpr ?_,
    hpart [("Part", .text "A.Part")] "PART" (.text "B.Part") [] rfl (by decide +kernel) nofun,
    hends.mpr ?_,
    horder _ _ (Corpus.addedUnder_perm (List.reverse_perm itemPairs).symm (by decide +kernel))⟩
  · have hids : sharing "item" (identifiersOf (.ofPairs itemPairs)) = ["A.Item", "B.Item"] := by
      rw [identifiersOf, hreferable]
      decide +kernel
    rw [hids]
    exact .ambiguous List.mem_cons_self (List.mem_cons_of_mem _ List.mem_cons_self)
      (by decide +kernel)
  · rw [hreferable]
    decide
end ScriptTypings.ShortNames

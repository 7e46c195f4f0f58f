import Mathlib.Data.List.Basic
import ScriptTypings.Proofs.Corpus.Building
import ScriptTypings.Proofs.Trace

/-!
# Families of interfaces

In a well-formed corpus with named interfaces nothing stops the recording of extensions
(`linkExtensions?_eq`), and it changes no entry beyond the extensions of interfaces. Those that are
recorded for an interface can be found again by their identifiers, and the members of the interface
and of all its extensions have different names, whatever the case of their letters
(`continue_withExtensions`).
-/

namespace ScriptTypings.Corpus

open Text

variable {corpus : Corpus}

/-! ### Corpora with recorded extensions -/

theorem memberMisfit?_eq_none {listing : InterfaceListing} (h : listing.isWellTyped = true) :
    memberMisfit? listing = none := by
  simp only [InterfaceListing.isWellTyped, Bool.and_eq_true] at h
  obtain ⟨⟨⟨⟨-, -⟩, hmethods⟩, hproperties⟩, -⟩ := h
  have hmembers : listing.members.all Json.isText = true := by
    rw [InterfaceListing.members, List.all_append, hmethods, hproperties]
    rfl
  exact Trace.misfit?_flatMap_eq_none fun id hid =>
    Trace.misfit?_use (List.all_eq_true.mp hmembers id hid)

theorem WellFormed.isWellTyped_interface (h : corpus.WellFormed) {key : String}
    {identifier : Json} {listing : InterfaceListing}
    (hentry : corpus.interfaceEntry? key = some (identifier, listing)) :
    listing.isWellTyped = true := by
  obtain ⟨description, hget⟩ := interfaceEntry?_eq_some hentry
  have hwell := h.wellTyped_of_get? hget
  simp only [Entry.isWellTyped, Bool.and_eq_true] at hwell
  exact hwell.2

theorem misfit?_extensionsFrom (h : corpus.WellFormed) (key : String) (identifier : Json)
    (fuel number : Nat) (seen : List String) :
    (corpus.extensionsFrom key identifier fuel number seen).2.trace.misfit? = none := by
  induction fuel generalizing number seen with
  | zero => rfl
  | succ fuel ih =>
    unfold extensionsFrom
    split
    · rfl
    · rename_i extension listing hentry
      have hnone := memberMisfit?_eq_none (h.isWellTyped_interface hentry)
      split
      · rename_i cause hsome
        rw [hnone] at hsome
        cases hsome
      · exact ih (number + 1) _
      · rfl

theorem misfit?_linkEntry (h : corpus.WellFormed) (key : String) {entry : Entry}
    (hentry : entry.isWellTyped = true) :
    (corpus.linkEntry key entry).2.trace.misfit? = none := by
  obtain ⟨identifier, description, content⟩ := entry
  cases content with
  | interface listing =>
    simp only [Entry.isWellTyped, Bool.and_eq_true] at hentry
    unfold linkEntry
    dsimp only
    split
    · rfl
    · rw [extensions, memberMisfit?_eq_none hentry.2]
      exact misfit?_extensionsFrom h ..
  | _ => rfl

theorem stoppingKey?_eq_none (h : corpus.WellFormed) : corpus.stoppingKey? = none := by
  rw [stoppingKey?, Option.map_eq_none_iff, List.find?_eq_none]
  intro e he
  have hwell := h.wellTyped e ((NameMap.sorted_perm _).mem_iff.mp he)
  rw [misfit?_linkEntry h e.1 hwell]
  exact Bool.false_ne_true

/-- Every entry with its extensions recorded. -/
def withExtensions (corpus : Corpus) : Corpus :=
  ⟨corpus.entries.map fun e => (e.1, (corpus.linkEntry e.1 e.2).1)⟩

/-- In a well-formed corpus the extensions of all interfaces are recorded, unless one of these has
an empty key. -/
theorem linkExtensions?_eq (h : corpus.WellFormed) :
    corpus.linkExtensions? =
      if corpus.hasUnnamedInterface then none
      else some ⟨corpus.withExtensions,
        corpus.items.flatMap fun e => (corpus.linkEntry e.1 e.2).2.trace⟩ := by
  rw [linkExtensions?, stoppingKey?_eq_none h]
  rfl

theorem hasUnnamedInterface_eq_false (hnamed : ∀ e ∈ corpus.entries, e.1 ≠ "") :
    corpus.hasUnnamedInterface = false := by
  rw [hasUnnamedInterface, Option.isSome_eq_false_iff, Option.isNone_iff_eq_none]
  by_contra hentry
  obtain ⟨⟨identifier, listing⟩, hentry⟩ := Option.ne_none_iff_exists'.mp hentry
  obtain ⟨description, hget⟩ := interfaceEntry?_eq_some hentry
  exact hnamed _ (mem_entries_of_get? hget) rfl

/-- A well-formed corpus in which no interface has an empty key can be linked. -/
theorem WellFormed.exists_linked (h : corpus.WellFormed)
    (hunnamed : corpus.hasUnnamedInterface = false) :
    ∃ trace, corpus.linkExtensions? = some ⟨corpus.withExtensions, trace⟩ ∧
      trace.misfit? = none := by
  refine ⟨_, by rw [linkExtensions?_eq h, hunnamed]; rfl, ?_⟩
  exact Trace.misfit?_flatMap_eq_none fun e he =>
    misfit?_linkEntry h e.1 (h.wellTyped e ((NameMap.sorted_perm _).mem_iff.mp he))

theorem get?_withExtensions (key : String) :
    corpus.withExtensions.get? key =
      (corpus.get? key).map fun entry => (corpus.linkEntry (lowered key) entry).1 :=
  NameMap.find?_map (fun key entry => (corpus.linkEntry key entry).1) _ _

/-- Only the extensions of an interface are recorded anew. -/
theorem exists_linkEntry_interface (corpus : Corpus) (key : String)
    (identifier description : Json) (listing : InterfaceListing) : ∃ extensions,
      (corpus.linkEntry key ⟨identifier, description, .interface listing⟩).1 =
        ⟨identifier, description, .interface { listing with extensions }⟩ := by
  unfold linkEntry
  dsimp only
  split
  · exact ⟨listing.extensions, rfl⟩
  · exact ⟨_, rfl⟩

/-- The names of the members of an interface are not changed. -/
theorem memberNames_withExtensions (key : String) :
    (corpus.withExtensions.interface? key).map memberNames =
      (corpus.interface? key).map memberNames := by
  rw [interface?, interface?, get?_withExtensions]
  cases corpus.get? key with
  | none => rfl
  | some entry =>
    obtain ⟨identifier, description, content⟩ := entry
    cases content with
    | interface listing =>
      obtain ⟨extensions, hlinked⟩ :=
        corpus.exists_linkEntry_interface (lowered key) identifier description listing
      rw [Option.map_some, hlinked]
      rfl
    | _ => rfl

/-! ### Extensions -/

theorem mem_collisions {seen names : List String} {name : String} :
    name ∈ collisions seen names ↔ name ∈ seen ∧ name ∈ names := by
  simp [collisions, List.mem_eraseDups, List.mem_mergeSort, and_comm]

/-- The names of the members of some interfaces. -/
def namesOf (corpus : Corpus) (ids : List Json) : List (List String) :=
  ids.filterMap fun id => (corpus.interface? id.asText).map memberNames

/-- Interfaces of the corpus which share no name of a member, neither with each other nor with
others that are given. -/
structure Continue (corpus : Corpus) (seen : List String) (ids : List Json) : Prop where
  found : ∀ id ∈ ids, (corpus.interface? id.asText).isSome
  apart : (seen :: corpus.namesOf ids).Pairwise List.Disjoint

theorem continue_nil (seen : List String) : corpus.Continue seen [] :=
  ⟨nofun, List.pairwise_singleton _ _⟩

/-- One more interface in front, if its names are new and those behind it keep away from them. -/
theorem Continue.cons {seen : List String} {id : Json} {ids : List Json}
    {listing : InterfaceListing} (hlisting : corpus.interface? id.asText = some listing)
    (hnew : seen.Disjoint (memberNames listing))
    (h : corpus.Continue (seen ++ memberNames listing) ids) : corpus.Continue seen (id :: ids) := by
  refine ⟨List.forall_mem_cons.mpr ⟨by rw [hlisting]; rfl, h.found⟩, ?_⟩
  have hnames : corpus.namesOf (id :: ids) = memberNames listing :: corpus.namesOf ids := by
    simp [namesOf, hlisting]
  obtain ⟨hbehind, hrest⟩ := List.pairwise_cons.mp h.apart
  rw [hnames, List.pairwise_cons, List.pairwise_cons]
  refine ⟨List.forall_mem_cons.mpr ⟨hnew, fun names hmem => ?_⟩, fun names hmem => ?_, hrest⟩
  · exact List.disjoint_of_disjoint_append_left_left (hbehind names hmem)
  · exact List.disjoint_of_disjoint_append_left_right (hbehind names hmem)

/-- An interface is found by its identifier. -/
theorem KeyedByIdentifier.interface? (h : corpus.KeyedByIdentifier) {key : String}
    {identifier : Json} {listing : InterfaceListing}
    (hentry : corpus.interfaceEntry? key = some (identifier, listing)) :
    corpus.interface? identifier.asText = some listing := by
  obtain ⟨description, hget⟩ := interfaceEntry?_eq_some hentry
  have hkey : lowered key = lowered identifier.asText := h _ (mem_entries_of_get? hget)
  have hsame : corpus.get? identifier.asText = corpus.get? key := by rw [get?, get?, hkey]
  rw [Corpus.interface?, hsame, hget]

theorem continue_extensionsFrom (h : corpus.KeyedByIdentifier) (key : String) (identifier : Json)
    (fuel number : Nat) (seen : List String) :
    corpus.Continue seen (corpus.extensionsFrom key identifier fuel number seen).1 := by
  induction fuel generalizing number seen with
  | zero => exact continue_nil seen
  | succ fuel ih =>
    unfold extensionsFrom
    split
    · exact continue_nil seen
    · rename_i extension listing hentry
      split
      · exact continue_nil seen
      · rename_i hnone
        -- the names seen so far grow by those of this interface, and so keep the later ones apart
        refine Continue.cons (h.interface? hentry) (fun name hseen hname => ?_) (ih ..)
        exact List.not_mem_nil (hnone ▸ mem_collisions.mpr ⟨hseen, hname⟩)
      · exact continue_nil seen

/-- To record extensions is to change no names. -/
theorem Continue.withExtensions {seen : List String} {ids : List Json}
    (h : corpus.Continue seen ids) : corpus.withExtensions.Continue seen ids := by
  refine ⟨fun id hid => ?_, ?_⟩
  · rw [← Option.isSome_map (f := memberNames), memberNames_withExtensions, Option.isSome_map]
    exact h.found id hid
  · have hnames : corpus.withExtensions.namesOf ids = corpus.namesOf ids := by
      simp only [namesOf, memberNames_withExtensions]
    rw [hnames]
    exact h.apart

/-- What is recorded for an interface continues it. -/
theorem continue_withExtensions (h : corpus.KeyedByIdentifier) {key : String}
    (hkey : endsWithDigit? key ≠ some true) {identifier description : Json}
    {listing : InterfaceListing}
    (hentry : (key, ⟨identifier, description, .interface listing⟩) ∈
      corpus.withExtensions.entries) :
    corpus.withExtensions.Continue (memberNames listing) listing.extensions := by
  obtain ⟨⟨key', identifier', description', content⟩, -, heq⟩ := List.mem_map.mp hentry
  obtain ⟨rfl, hlinked⟩ := Prod.mk.inj heq
  cases content with
  | interface plain =>
    unfold linkEntry at hlinked
    simp only [if_neg hkey, Entry.mk.injEq, Content.interface.injEq] at hlinked
    obtain ⟨-, -, rfl⟩ := hlinked
    refine Continue.withExtensions ?_
    unfold extensions
    split
    · exact continue_nil _
    · exact continue_extensionsFrom h ..
  | _ => exact absurd (congrArg Entry.content hlinked) nofun

end ScriptTypings.Corpus

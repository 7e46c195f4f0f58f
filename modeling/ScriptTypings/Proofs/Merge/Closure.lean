import ScriptTypings.Proofs.Entry.Snippets
import ScriptTypings.Proofs.Merge.Backfill
import ScriptTypings.Proofs.Merge.Completion
import ScriptTypings.Proofs.Surface.Types

/-!
# Every type on the surface is remembered

The merge remembers the names that a type mentions wherever it puts a type on the surface. A memory
`Knows` a type if it contains these names, and `knows_merge` says that in the end all types on the
surface are known.
-/

namespace ScriptTypings

open Text

namespace Returned

/-- Whether the type of a result is written out as its members. -/
def isLiteral : Returned → Bool
  | fields _ _ => true
  | _ => false

end Returned

/-- No signature gives back a type that is written out as its members. -/
def Corpus.NamesResults (corpus : Corpus) : Prop :=
  ∀ e ∈ corpus.entries, ∀ signature ∈ e.2.content.signatures, signature.returned.isLiteral = false

instance (corpus : Corpus) : Decidable corpus.NamesResults :=
  inferInstanceAs (Decidable (∀ e ∈ corpus.entries, ∀ signature ∈ e.2.content.signatures,
    signature.returned.isLiteral = false))

/-- The types of a part of an interface. -/
def InterfacePart.types : InterfacePart → List Json
  | method _ signatures => signatures.flatMap Signature.types
  | property _ member => [member.typeName]
  | _ => []

/-! ### Types and what is mentioned -/

theorem subset_flatMap_of_mem {α β : Type} {f : α → List β} {l : List α} {a : α} (h : a ∈ l) :
    f a ⊆ l.flatMap f :=
  fun _ hb => List.mem_flatMap.mpr ⟨a, h, hb⟩

/-- The names that the types of a signature mention are mentioned by the signature. -/
theorem Signature.mentions_subset {signature : Signature}
    (h : signature.returned.isLiteral = false) {type : Json} (htype : type ∈ signature.types) :
    type.mentions ⊆ signature.mentions := by
  rw [Signature.types, List.mem_append] at htype
  rw [Signature.mentions]
  rcases htype with htype | htype
  · refine List.subset_append_of_subset_left _ ?_
    cases hreturned : signature.returned with
    | typed result description =>
      rw [hreturned] at htype
      rw [List.mem_singleton.mp htype]
      exact List.Subset.refl _
    | fields members description => rw [hreturned] at h; cases h
    | nothing => rw [hreturned] at htype; cases htype
    | marker word => rw [hreturned] at htype; cases htype
  · obtain ⟨slot, hslot, rfl⟩ := List.mem_map.mp htype
    exact List.subset_append_of_subset_right _ (subset_flatMap_of_mem (f := Slot.mentions) hslot)

theorem Signature.mentions_subset_flatMap {signatures : List Signature}
    (h : ∀ signature ∈ signatures, signature.returned.isLiteral = false) {type : Json}
    (htype : type ∈ signatures.flatMap Signature.types) :
    type.mentions ⊆ signatures.flatMap Signature.mentions := by
  obtain ⟨signature, hsignature, htype⟩ := List.mem_flatMap.mp htype
  exact List.Subset.trans (Signature.mentions_subset (h _ hsignature) htype)
    (subset_flatMap_of_mem hsignature)

namespace Reference

variable {r : Reference} (h : r.corpus.NamesResults)

theorem isLiteral_qualifySignature (r : Reference) (signature : Signature) :
    (r.qualifySignature signature).returned.isLiteral = signature.returned.isLiteral := by
  rw [qualifySignature]
  cases signature.returned <;> rfl

include h

theorem isLiteral_of_get? {name : String} {entry : Entry} (hget : r.corpus.get? name = some entry) :
    ∀ signature ∈ entry.content.signatures, signature.returned.isLiteral = false :=
  h _ (Corpus.mem_entries_of_get? hget)

theorem isLiteral_of_function? {name : String} {signatures : List Signature}
    (hget : r.corpus.function? name = some signatures) :
    ∀ signature ∈ signatures.map r.qualifySignature, signature.returned.isLiteral = false := by
  intro signature hsignature
  obtain ⟨plain, hplain, rfl⟩ := List.mem_map.mp hsignature
  rw [isLiteral_qualifySignature]
  unfold Corpus.function? at hget
  split at hget
  · rename_i hentry
    exact isLiteral_of_get? h hentry _ (Option.some.inj hget ▸ hplain)
  · cases hget

/-! ### The resolved tree -/

theorem mentions_subset_resolveLeaf {fullname placeholder : String} {type : Json}
    (htype : type ∈ (r.resolveLeaf fullname placeholder).types) :
    type.mentions ⊆ (r.resolveLeaf fullname placeholder).mentions := by
  unfold resolveLeaf at htype ⊢
  split at htype
  · rename_i signatures hget
    have hfunction : r.corpus.function? fullname = some signatures := by
      rw [Corpus.function?, hget]
    exact Signature.mentions_subset_flatMap (isLiteral_of_function? h hfunction) htype
  · rw [List.mem_singleton.mp htype]
    exact List.Subset.refl _
  · rw [List.mem_singleton.mp htype]
    exact List.Subset.refl _
  · cases htype

/-- The names in the types of the resolved tree are mentioned by it. -/
theorem mentions_subset_resolve {type : Json} :
    (∀ node parent name, type ∈ (r.resolve parent name node).types →
      type.mentions ⊆ (r.resolve parent name node).mentions) ∧
      ∀ ms parent, type ∈ Surface.typesOf (r.resolveMembers parent ms) →
        type.mentions ⊆ Surface.mentionsOf (r.resolveMembers parent ms) := by
  refine Reflected.tree_induction ?placeholder ?space ?cls ?nil ?cons
  case placeholder =>
    intro word parent name htype
    exact mentions_subset_resolveLeaf h htype
  case space =>
    intro fullname members ih parent name htype
    rw [resolve] at htype ⊢
    by_cases henumeration : r.isEnumeration fullname = true
    · rw [if_pos henumeration] at htype ⊢
      exact ih fullname htype
    · rw [if_neg henumeration] at htype ⊢
      exact ih fullname htype
  case cls =>
    intro fullname base statics prototype ihs ihp parent name htype
    simp only [resolve, Surface.types, List.mem_append] at htype
    simp only [resolve, Surface.mentions]
    intro n hn
    simp only [List.mem_append]
    rcases htype with ((htype | htype) | htype) | htype
    · exact .inl (.inl (.inl (subset_flatMap_of_mem htype hn)))
    · refine .inr ?_
      cases hconstructor : r.constructor? fullname with
      | none => simp [classHeader, hconstructor] at htype
      | some signatures =>
        simp only [classHeader, hconstructor, Option.map_some, Option.getD_some] at htype ⊢
        exact Signature.mentions_subset_flatMap (isLiteral_of_function? h hconstructor) htype hn
    · exact .inl (.inl (.inr (ihs fullname htype hn)))
    · exact .inl (.inr (ihp fullname htype hn))
  case nil => exact fun _ htype => absurd htype List.not_mem_nil
  case cons =>
    intro name node members ihn ihm parent htype
    rcases List.mem_append.mp htype with htype | htype
    · exact List.subset_append_of_subset_left _ (ihn parent name htype)
    · exact List.subset_append_of_subset_right _ (ihm parent htype)

/-! ### The declarations -/

theorem mentions_subset_methodPart {id : String} {type : Json}
    (htype : type ∈ (r.methodPart id).types) : type.mentions ⊆ (r.methodPart id).mentions := by
  unfold methodPart at htype ⊢
  split at htype
  · rename_i signatures hget
    exact Signature.mentions_subset_flatMap (isLiteral_of_function? h hget) htype
  · cases htype

omit h in
theorem mentions_subset_propertyPart {id : String} {type : Json}
    (htype : type ∈ (r.propertyPart id).types) : type.mentions ⊆ (r.propertyPart id).mentions := by
  unfold propertyPart at htype ⊢
  split at htype
  · rw [List.mem_singleton.mp htype]
    exact List.Subset.refl _
  · cases htype

theorem mentions_subset_interfaceParts {listing : InterfaceListing} {part : InterfacePart}
    (hpart : part ∈ r.interfaceParts listing) {type : Json} (htype : type ∈ part.types) :
    type.mentions ⊆ part.mentions := by
  obtain ⟨-, -, ⟨id, -, rfl⟩ | ⟨id, -, rfl⟩⟩ := Merger.exists_of_mem_interfaceParts hpart
  · exact mentions_subset_methodPart h htype
  · exact mentions_subset_propertyPart htype

omit h in
theorem mem_types_addPart {d : InterfaceDeclaration} {part : InterfacePart} {type : Json}
    (htype : type ∈ (d.addPart part).types) : type ∈ d.types ∨ type ∈ part.types := by
  simp only [InterfaceDeclaration.types, List.mem_append] at htype ⊢
  cases part with
  | method name signatures =>
    simp only [InterfaceDeclaration.addPart, InterfaceDeclaration.addMethod] at htype
    rcases htype with (htype | htype) | htype
    · exact .inl (.inl (.inl htype))
    · obtain ⟨method, hmethod, htype⟩ := List.mem_flatMap.mp htype
      rcases NameMap.mem_put hmethod with rfl | hmethod
      -- overloads from before may stand under the name
      · rw [List.flatMap_append, List.mem_append] at htype
        rcases htype with htype | htype
        · cases hbefore : NameMap.find? name d.methods with
          | none => simp [hbefore] at htype
          | some before =>
            rw [hbefore] at htype
            exact .inl (.inl (.inr (List.mem_flatMap.mpr
              ⟨_, NameMap.mem_of_find?_eq_some hbefore, htype⟩)))
        · exact .inr htype
      · exact .inl (.inl (.inr (List.mem_flatMap.mpr ⟨method, hmethod, htype⟩)))
    · exact .inl (.inr htype)
  | property name member =>
    simp only [InterfaceDeclaration.addPart] at htype
    rcases htype with (htype | htype) | htype
    · exact .inl (.inl (.inl htype))
    · exact .inl (.inl (.inr htype))
    · obtain ⟨property, hproperty, rfl⟩ := List.mem_map.mp htype
      rcases NameMap.mem_put hproperty with rfl | hproperty
      · exact .inr (List.mem_singleton.mpr rfl)
      · exact .inl (.inr (List.mem_map.mpr ⟨property, hproperty, rfl⟩))
  | unknownMethod id => exact .inl htype
  | unknownProperty id => exact .inl htype

omit h in
theorem mem_types_foldl_addPart {parts : List InterfacePart} {d : InterfaceDeclaration}
    {type : Json} (htype : type ∈ (parts.foldl .addPart d).types) :
    type ∈ d.types ∨ ∃ part ∈ parts, type ∈ part.types := by
  induction parts generalizing d with
  | nil => exact .inl htype
  | cons part parts ih =>
    rcases ih htype with htype | ⟨other, hother, htype⟩
    · rcases mem_types_addPart htype with htype | htype
      · exact .inl htype
      · exact .inr ⟨part, List.mem_cons_self, htype⟩
    · exact .inr ⟨other, List.mem_cons_of_mem _ hother, htype⟩

/-- The names in the types of a declaration are remembered with it. -/
theorem mentions_subset_declared {name : String} {entry : Entry} {declared : Declared}
    (hentry : ∀ signature ∈ entry.content.signatures, signature.returned.isLiteral = false)
    (hdeclared : r.declare? name entry = some declared) {type : Json}
    (htype : type ∈ declared.node.types) : type.mentions ⊆ declared.mentions := by
  obtain ⟨identifier, description, content⟩ := entry
  cases content with
  | record members =>
    cases hdeclared
    obtain ⟨slot, hslot, rfl⟩ := List.mem_map.mp htype
    exact subset_flatMap_of_mem (f := Slot.mentions) hslot
  | delegate signature =>
    cases hdeclared
    refine Signature.mentions_subset ?_ htype
    rw [isLiteral_qualifySignature]
    exact hentry signature (List.mem_singleton.mpr rfl)
  | interface listing =>
    cases hdeclared
    rcases mem_types_foldl_addPart htype with htype | ⟨part, hpart, htype⟩
    · have hbase : type ∈ listing.bases.map r.qualify := by
        simpa [InterfaceDeclaration.types, interfaceFrame] using htype
      exact List.subset_append_of_subset_left _ (subset_flatMap_of_mem hbase)
    · refine List.subset_append_of_subset_right _ ?_
      exact List.Subset.trans (mentions_subset_interfaceParts h hpart htype)
        (subset_flatMap_of_mem hpart)
  | _ => cases hdeclared

end Reference

/-! ### Known types -/

namespace Memory

/-- All names that a type mentions are remembered. -/
def Knows (memory : Memory) (type : Json) : Prop :=
  ∀ name ∈ type.mentions, memory.contains name = true

/-- To remember a known type again changes nothing. -/
theorem Knows.remember {memory : Memory} {type : Json} (h : memory.Knows type) :
    memory.remember type.asText = memory :=
  addAll_of_contains h

theorem Knows.addAll {memory : Memory} {type : Json} (h : memory.Knows type)
    (names : List String) : (memory.addAll names).Knows type :=
  fun name hname => contains_addAll_of_contains (h name hname) names

theorem knows_addAll {type : Json} {names : List String} (h : type.mentions ⊆ names)
    (memory : Memory) : (memory.addAll names).Knows type :=
  fun _ hname => contains_addAll_of_mem (h hname) memory

end Memory

namespace Merger

/-- All types of the surface before the declarations, and all types of these, are known. -/
structure Closed (resolved : Surface) (p : Progress) : Prop where
  resolved : ∀ type ∈ resolved.types, p.memory.Knows type
  additions : ∀ a ∈ p.additions, ∀ type ∈ a.node.types, p.memory.Knows type

section

variable {r : Reference} {owners : NameMap Nat} {resolved : Surface}

/-- A visit keeps all types known: what it declares is remembered with it. -/
theorem Closed.visit (hcorpus : r.corpus.NamesResults) {p : Progress} (h : Closed resolved p)
    (name : String) : Closed resolved (visit r owners p name) := by
  rcases visit_cases r owners p name with
    ⟨hmemory, _, hadditions, _⟩ |
    ⟨entry, owner, declared, htarget, _, hdeclared, hmemory, _, hadditions⟩
  · exact ⟨hmemory ▸ h.resolved, by rw [hmemory, hadditions]; exact h.additions⟩
  · refine ⟨fun type htype => ?_, fun a ha type htype => ?_⟩
    · rw [hmemory]
      exact (h.resolved type htype).addAll _
    · rw [hmemory]
      rw [hadditions] at ha
      rcases List.mem_append.mp ha with ha | ha
      · exact (h.additions a ha type htype).addAll _
      · rw [List.mem_singleton.mp ha] at htype
        exact Memory.knows_addAll (Reference.mentions_subset_declared hcorpus
          (Reference.isLiteral_of_get? hcorpus htarget.get?) hdeclared htype) _

theorem Closed.backfill (hcorpus : r.corpus.NamesResults) {p : Progress}
    (hdistinct : p.memory.Distinct) (h : Closed resolved p) :
    Closed resolved (backfill r owners p) := by
  rw [backfill_eq_foldl hdistinct]
  exact foldl_visit_induction (I := fun _ p => Closed resolved p)
    (fun _ _ name hp => hp.visit hcorpus name) [] h _

/-- All types on the surface that a progress comes to are known. -/
theorem Closed.knows {p : Progress} (h : Closed resolved p) :
    ∀ type ∈ (resolved.attach (additionsTo p.additions) 0).withListeners.types,
      p.memory.Knows type := by
  intro type htype
  have htype := Surface.types_withListeners_subset.1 _ htype
  rcases (Surface.mem_types_attach _).1 _ _ htype with htype | ⟨number, m, hm, htype⟩
  · exact h.resolved type htype
  · exact h.additions _ (mem_additionsTo hm) type htype

end

/-- After a merge by a new merger every type on the surface is known. -/
theorem knows_merge {corpus : Corpus} (hcorpus : corpus.NamesResults)
    (overrides : List (String × Json)) (root : Reflected.Root) :
    ∀ type ∈ ((ofCorpus corpus overrides).merge root).2.surface.types,
      ((ofCorpus corpus overrides).merge root).1.memory.Knows type := by
  have hstart : ∀ {spaces}, Closed
      ((Reference.ofCorpus corpus overrides).resolve "" (Identifier.lastSegment root.fullname)
        root.node)
      { memory := ({} : Memory).addAll
          ((Reference.ofCorpus corpus overrides).resolve "" (Identifier.lastSegment root.fullname)
            root.node).mentions
        spaces } :=
    ⟨fun type htype => Memory.knows_addAll
      ((Reference.mentions_subset_resolve hcorpus).1 _ _ _ htype) _, nofun⟩
  exact (hstart.backfill hcorpus (Memory.distinct_empty.addAll _)).knows

/-- Every merge by a new merger ends, with a tree if all entries are well typed and all overrides
are texts; to remember any type of this tree again changes nothing. -/
theorem remember_types_of_merged {corpus : Corpus} (hcorpus : corpus.NamesResults)
    (overrides : List (String × Json)) (root : Reflected.Root) :
    ((∀ e ∈ corpus.entries, e.2.isWellTyped = true) → (∀ o ∈ overrides, o.2.isText = true) →
      ShortNames.misfit? corpus = none ∧ ∃ done merged,
        (ofCorpus corpus overrides).mergeUntilMisfit root = (done, .ok merged)) ∧
    ∀ done merged, (ofCorpus corpus overrides).mergeUntilMisfit root = (done, .ok merged) →
      ∀ type ∈ merged.surface.types, done.remember type.asText = done := by
  refine ⟨fun hentries hoverrides => ⟨misfit?_shortNames hentries, _, _,
    mergeUntilMisfit_eq hentries hoverrides root⟩, fun done merged hrun type htype => ?_⟩
  have hmerge := merge_of_mergeUntilMisfit hrun
  have hknows := knows_merge hcorpus overrides root
  rw [hmerge] at hknows
  rw [remember, (hknows type htype).remember]

/-- A namespace whose page lists an interface with one method, which takes a structure. -/
def listenerCorpus : Corpus where
  entries :=
    [("n", ⟨"N", "", .space { structures := ["N.Message"], interfaces := ["N.IListener"] }⟩),
     ("n.message", ⟨"N.Message", "", .record [⟨"text", "String", ""⟩]⟩),
     ("n.ilistener", ⟨"N.IListener", "", .interface { methods := ["N.IListener.Receive"] }⟩),
     ("n.ilistener.receive", ⟨"N.IListener.Receive", "",
       .function [{ parameters := [⟨"message", "Message", ""⟩] }]⟩),
     ("n.current", ⟨"N.Current", "", .property "IListener"⟩)]

/-- What the methods of a declared interface take is known as well. -/
theorem remember_types_of_listener :
    listenerCorpus.NamesResults ∧ (∀ e ∈ listenerCorpus.entries, e.2.isWellTyped = true) ∧
    ∃ done merged, (ofCorpus listenerCorpus []).mergeUntilMisfit
        ⟨"N", [("Current", .placeholder "property")]⟩ = (done, .ok merged) ∧
      ∀ type ∈ merged.surface.types, done.remember type.asText = done := by
  have hresults : listenerCorpus.NamesResults := by decide
  have htyped : ∀ e ∈ listenerCorpus.entries, e.2.isWellTyped = true := by decide
  obtain ⟨hends, hremember⟩ := remember_types_of_merged hresults []
    ⟨"N", [("Current", .placeholder "property")]⟩
  obtain ⟨-, done, merged, hrun⟩ := hends htyped nofun
  exact ⟨hresults, htyped, done, merged, hrun, hremember done merged hrun⟩

end Merger

end ScriptTypings

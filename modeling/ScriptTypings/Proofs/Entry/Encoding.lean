import ScriptTypings.Entry.Encoding
import ScriptTypings.Proofs.Corpus.WellFormed
import ScriptTypings.Proofs.Entry.Snippets
import ScriptTypings.Proofs.Json.Sorting

/-!
# Decoding encoded entries

The JSON form of a well-typed entry is readable, and with its members sorted it is decoded to the
entry with its code samples in order.
-/

namespace ScriptTypings

open Decoding

/-! ### Readable forms -/

theorem Json.isReadable_of_isText {value : Json} (h : value.isText = true) :
    value.isReadable = true := by
  cases value with
  | text s => rfl
  | _ => cases h

theorem Json.isReadable_list {items : List Json} (h : items.all isText = true) :
    (Json.list items).isReadable = true := by
  rw [List.all_eq_true] at h
  exact isReadable_list_iff.mpr fun item hitem => isReadable_of_isText (h item hitem)

theorem Json.isReadable_list_map {α : Type} {f : α → Json} {l : List α}
    (h : ∀ a ∈ l, (f a).isReadable = true) : (Json.list (l.map f)).isReadable = true :=
  isReadable_list_iff.mpr (List.forall_mem_map.mpr h)

theorem Slot.isReadable_toJson {slot : Slot} (h : slot.isWellTyped = true) :
    slot.toJson.isReadable = true := by
  simp only [isWellTyped, Bool.and_eq_true] at h
  refine Json.isReadable_object_iff.mpr ⟨by simp, ?_⟩
  simp [Json.isReadable_of_isText h.1.1, Json.isReadable_of_isText h.1.2,
    Json.isReadable_of_isText h.2]

theorem Slot.isReadable_list {slots : List Slot} (h : slots.all isWellTyped = true) :
    (Json.list (slots.map toJson)).isReadable = true :=
  Json.isReadable_list_map fun slot hslot =>
    isReadable_toJson (List.all_eq_true.mp h slot hslot)

theorem Returned.isReadable_toJson {returned : Returned} (h : returned.isWellTyped = true) :
    returned.toJson.isReadable = true := by
  cases returned with
  | nothing => rfl
  | marker word => rfl
  | typed typeName description =>
    rw [isWellTyped, Bool.and_eq_true] at h
    refine Json.isReadable_object_iff.mpr ⟨by simp, ?_⟩
    simp [Json.isReadable_of_isText h.1, Json.isReadable_of_isText h.2]
  | fields members description =>
    rw [isWellTyped, Bool.and_eq_true] at h
    refine Json.isReadable_object_iff.mpr ⟨by simp, ?_⟩
    simp [Slot.isReadable_list h.1, Json.isReadable_of_isText h.2]

theorem Signature.isReadable_toJson {signature : Signature} (h : signature.isWellTyped = true) :
    signature.toJson.isReadable = true := by
  simp only [isWellTyped, Bool.and_eq_true, decide_eq_true_eq] at h
  obtain ⟨⟨⟨⟨⟨hdescription, hparameters⟩, hreturned⟩, hsnippets⟩, hnodup⟩, htypes⟩ := h
  have hsnippets : (Json.object signature.snippets).isReadable = true :=
    Json.isReadable_object_iff.mpr ⟨hnodup, fun m hm =>
      Json.isReadable_of_isText (List.all_eq_true.mp hsnippets m hm)⟩
  refine Json.isReadable_object_iff.mpr ⟨by simp, ?_⟩
  simp [Json.isReadable_of_isText hdescription, Slot.isReadable_list hparameters,
    Returned.isReadable_toJson hreturned, hsnippets, Json.isReadable_list htypes]

theorem Signature.isReadable_list {signatures : List Signature}
    (h : signatures.all isWellTyped = true) :
    (Json.list (signatures.map toJson)).isReadable = true :=
  Json.isReadable_list_map fun signature hsignature =>
    isReadable_toJson (List.all_eq_true.mp h signature hsignature)

theorem Content.isReadable_fields {content : Content} (h : content.isWellTyped = true) :
    ∀ m ∈ content.fields, m.2.isReadable = true := by
  cases content with
  | cls interfaces isAttribute => simp [fields, Json.isReadable_list h]
  | enumeration => simp [fields]
  | space listing =>
    simp only [isWellTyped, NamespaceListing.isWellTyped, Bool.and_eq_true] at h
    obtain ⟨⟨hstructures, hdelegates⟩, hinterfaces⟩ := h
    have hlisted : (Json.object [("structures", .list listing.structures),
        ("delegates", .list listing.delegates),
        ("interfaces", .list listing.interfaces)]).isReadable = true :=
      Json.isReadable_object_iff.mpr ⟨by simp, by simp [Json.isReadable_list, *]⟩
    simp [fields, hlisted]
  | interface listing =>
    simp only [isWellTyped, InterfaceListing.isWellTyped, Bool.and_eq_true] at h
    obtain ⟨⟨⟨⟨hbases, htypes⟩, hmethods⟩, hproperties⟩, hextensions⟩ := h
    have hlisted : (Json.object [("methods", .list listing.methods),
        ("properties", .list listing.properties)]).isReadable = true :=
      Json.isReadable_object_iff.mpr ⟨by simp, by simp [Json.isReadable_list, *]⟩
    simp [fields, hlisted, Json.isReadable_list hbases, Json.isReadable_list htypes,
      Json.isReadable_list hextensions]
  | record members => simp [fields, Slot.isReadable_list h]
  | delegate signature => simp [fields, Signature.isReadable_toJson h]
  | function signatures => simp [fields, Signature.isReadable_list h]
  | event handler => simp [fields, Json.isReadable_of_isText h]
  | property typeName => simp [fields, Json.isReadable_of_isText h]

/-- The members of an entry for its kind are other ones than those that all entries have. -/
theorem Entry.nodup_names (entry : Entry) :
    (NameMap.names ([("type", .text entry.content.kind), ("description", entry.description),
      ("camelId", entry.identifier)] ++ entry.content.fields)).Nodup := by
  obtain ⟨identifier, description, content⟩ := entry
  cases content <;> simp [Content.fields]

/-- The JSON form of a well-typed entry is readable. -/
theorem Entry.isReadable_toJson {entry : Entry} (h : entry.isWellTyped = true) :
    entry.toJson.isReadable = true := by
  simp only [isWellTyped, Bool.and_eq_true] at h
  obtain ⟨⟨hidentifier, hdescription⟩, hcontent⟩ := h
  refine Json.isReadable_object_iff.mpr ⟨entry.nodup_names, fun m hm => ?_⟩
  rcases List.mem_append.mp hm with hm | hm
  · have hown : ∀ m ∈ [("type", .text entry.content.kind), ("description", entry.description),
        ("camelId", entry.identifier)], Json.isReadable m.2 = true := by
      simp [Json.isReadable, Json.isReadable_of_isText hdescription,
        Json.isReadable_of_isText hidentifier]
    exact hown m hm
  · exact Content.isReadable_fields hcontent m hm

/-! ### Values that are told apart -/

theorem Slot.toJson_injective : Function.Injective Slot.toJson := by
  rintro ⟨name, typeName, description⟩ ⟨name', typeName', description'⟩ h
  simpa [toJson] using h

theorem Returned.toJson_injective : Function.Injective Returned.toJson := by
  intro returned returned' h
  cases returned <;> cases returned' <;>
    simp_all [toJson, Slot.toJson_injective.list_map.eq_iff]

/-- The form of a signature tells all of it, also if it holds other values than texts. -/
theorem Signature.toJson_injective : Function.Injective Signature.toJson := by
  rintro ⟨description, parameters, returned, snippets, typeParameters⟩
    ⟨description', parameters', returned', snippets', typeParameters'⟩ h
  simpa [toJson, Slot.toJson_injective.list_map.eq_iff, Returned.toJson_injective.eq_iff] using h

/-! ### Decoding -/

/-- What is found in the members of a sorted object. -/
theorem Decoding.exists_sortMembers (members : List (String × Json))
    (h : (NameMap.names members).Nodup) :
    ∃ sorted, (Json.object members).sortMembers = .object sorted ∧
      ∀ name, NameMap.find? name sorted = (NameMap.find? name members).map Json.sortMembers :=
  ⟨_, Json.sortMembers_object members, Json.find?_sortMembers h⟩

theorem Json.sortMembers_list_of_isText {items : List Json} (h : items.all isText = true) :
    (Json.list items).sortMembers = .list items := by
  rw [sortMembers_list, map_sortMembers_of_isText h]

/-- Steps that all succeed give the list of their results. -/
theorem mapM_eq_ok {ε α β : Type} {f : α → Except ε β} {g : α → β} {l : List α}
    (h : ∀ a ∈ l, f a = .ok (g a)) : l.mapM f = .ok (l.map g) := by
  induction l with
  | nil => rfl
  | cons a l ih =>
    rw [List.forall_mem_cons] at h
    rw [List.mapM_cons, h.1, ih h.2]
    rfl

theorem Slot.ofJson_toJson {slot : Slot} (h : slot.isWellTyped = true) :
    ofJson slot.toJson.sortMembers = .ok slot := by
  simp only [isWellTyped, Bool.and_eq_true] at h
  obtain ⟨⟨hname, htype⟩, hdescription⟩ := h
  obtain ⟨members, hmembers, hfind⟩ := exists_sortMembers
    [("key", slot.name), ("type", slot.typeName), ("description", slot.description)] (by simp)
  rw [toJson, hmembers]
  simp [ofJson, parts, required, valueOf, hfind, NameMap.find?_cons, bind, Except.bind, pure,
    Except.pure, Json.sortMembers_of_isText hname, Json.sortMembers_of_isText htype,
    Json.sortMembers_of_isText hdescription]

theorem Slot.mapM_ofJson {slots : List Slot} (h : slots.all isWellTyped = true) :
    slots.mapM (ofJson ∘ Json.sortMembers ∘ toJson) = .ok slots := by
  have hslots : ∀ slot ∈ slots, (ofJson ∘ Json.sortMembers ∘ toJson) slot = .ok (id slot) :=
    fun slot hslot => ofJson_toJson (List.all_eq_true.mp h slot hslot)
  rw [mapM_eq_ok hslots, List.map_id]

/-- The four shapes of a result are told apart by the members that are there. -/
theorem Returned.ofJson_toJson {returned : Returned} (h : returned.isWellTyped = true) :
    ofJson returned.toJson.sortMembers = .ok returned := by
  cases returned with
  | nothing => rfl
  | marker word => rfl
  | typed typeName description =>
    rw [isWellTyped, Bool.and_eq_true] at h
    obtain ⟨members, hmembers, hfind⟩ := exists_sortMembers
      [("type", typeName), ("description", description)] (by simp)
    rw [toJson, hmembers]
    simp [ofJson, parts, required, valueOf, hfind, NameMap.find?_cons, bind, Except.bind, pure,
      Except.pure, Json.sortMembers_of_isText h.1, Json.sortMembers_of_isText h.2]
  | fields slots description =>
    rw [isWellTyped, Bool.and_eq_true] at h
    obtain ⟨members, hmembers, hfind⟩ := exists_sortMembers
      [("members", .list (slots.map Slot.toJson)), ("description", description)] (by simp)
    rw [toJson, hmembers]
    simp [ofJson, parts, valueOf, hfind, NameMap.find?_cons, items, bind, Except.bind, pure,
      Except.pure, Json.sortMembers_list, Slot.mapM_ofJson h.1, Json.sortMembers_of_isText h.2]

theorem Signature.ofJson_toJson {signature : Signature} (h : signature.isWellTyped = true) :
    ofJson signature.toJson.sortMembers = .ok (signature.mapSnippets NameMap.sorted) := by
  simp only [isWellTyped, Bool.and_eq_true, decide_eq_true_eq] at h
  obtain ⟨⟨⟨⟨⟨hdescription, hparameters⟩, hreturned⟩, hsnippets⟩, hnodup⟩, htypes⟩ := h
  have hsnippets : (Json.object signature.snippets).sortMembers =
      .object (NameMap.sorted signature.snippets) := by
    rw [Json.sortMembers_object]
    congr 1
    refine (List.map_congr_left fun m hm => ?_).trans (List.map_id _)
    have hm := List.all_eq_true.mp hsnippets m ((NameMap.sorted_perm _).mem_iff.mp hm)
    exact Prod.ext rfl (Json.sortMembers_of_isText hm)
  obtain ⟨members, hmembers, hfind⟩ := exists_sortMembers
    [("description", signature.description),
      ("parameters", .list (signature.parameters.map Slot.toJson)),
      ("return", signature.returned.toJson), ("codeSnippets", .object signature.snippets),
      ("typeParameters", .list signature.typeParameters)] (by simp)
  rw [toJson, hmembers]
  simp [ofJson, Decoding.members, itemsOf, valueOf, snippetsOf, pairs, hfind, NameMap.find?_cons,
    items, bind, Except.bind, pure, Except.pure, hsnippets, Json.sortMembers_list,
    Slot.mapM_ofJson hparameters, Returned.ofJson_toJson hreturned,
    Json.map_sortMembers_of_isText htypes, Json.sortMembers_of_isText hdescription, mapSnippets]

theorem Signature.mapM_ofJson {signatures : List Signature}
    (h : signatures.all isWellTyped = true) :
    signatures.mapM (ofJson ∘ Json.sortMembers ∘ toJson) =
      .ok (signatures.map (mapSnippets NameMap.sorted)) :=
  mapM_eq_ok fun signature hsignature => ofJson_toJson (List.all_eq_true.mp h signature hsignature)

theorem Decoding.itemsOf_of_find? {name : String} {members : List (String × Json)}
    {values : List Json} (h : NameMap.find? name members = some (.list values)) :
    itemsOf name members = .ok values := by
  rw [itemsOf, h]
  rfl

theorem NamespaceListing.ofMembers_fields {listing : NamespaceListing}
    (h : listing.isWellTyped = true) {members : List (String × Json)}
    (hfind : ∀ m ∈ (Content.space listing).fields,
      NameMap.find? m.1 members = some m.2.sortMembers) :
    ofMembers members = .ok listing := by
  simp only [isWellTyped, Bool.and_eq_true] at h
  obtain ⟨⟨hstructures, hdelegates⟩, hinterfaces⟩ := h
  obtain ⟨listed, hlisted, hinside⟩ := exists_sortMembers
    [("structures", .list listing.structures), ("delegates", .list listing.delegates),
      ("interfaces", .list listing.interfaces)] (by simp)
  simp only [Content.fields, List.forall_mem_singleton, hlisted] at hfind
  simp [ofMembers, membersOf, Decoding.members, hfind, itemsOf_of_find?, hinside,
    NameMap.find?_cons, Json.sortMembers_list_of_isText hstructures,
    Json.sortMembers_list_of_isText hdelegates, Json.sortMembers_list_of_isText hinterfaces,
    bind, Except.bind, pure, Except.pure]

theorem InterfaceListing.ofMembers_fields {listing : InterfaceListing}
    (h : listing.isWellTyped = true) {members : List (String × Json)}
    (hfind : ∀ m ∈ (Content.interface listing).fields,
      NameMap.find? m.1 members = some m.2.sortMembers) :
    ofMembers members = .ok listing := by
  simp only [isWellTyped, Bool.and_eq_true] at h
  obtain ⟨⟨⟨⟨hbases, htypes⟩, hmethods⟩, hproperties⟩, hextensions⟩ := h
  obtain ⟨listed, hlisted, hinside⟩ := exists_sortMembers
    [("methods", .list listing.methods), ("properties", .list listing.properties)] (by simp)
  simp only [Content.fields, List.forall_mem_cons, hlisted,
    Json.sortMembers_list_of_isText hbases, Json.sortMembers_list_of_isText htypes,
    Json.sortMembers_list_of_isText hextensions] at hfind
  obtain ⟨hbases, htypes, hmembers, hextensions, -⟩ := hfind
  simp [ofMembers, membersOf, Decoding.members, hbases, htypes, hmembers, hextensions,
    itemsOf_of_find?, hinside, NameMap.find?_cons, Json.sortMembers_list_of_isText hmethods,
    Json.sortMembers_list_of_isText hproperties, bind, Except.bind, pure, Except.pure]

/-- The members of an entry of one kind are decoded to the content of this kind. -/
theorem Content.ofJson_fields {content : Content} (h : content.isWellTyped = true)
    {members : List (String × Json)}
    (hfind : ∀ m ∈ content.fields, NameMap.find? m.1 members = some m.2.sortMembers) :
    ofJson (.text content.kind) members =
      .ok (content.mapSnippets NameMap.sorted) := by
  cases content with
  | cls interfaces isAttribute =>
    simp only [fields, List.forall_mem_singleton, Json.sortMembers_list_of_isText h] at hfind
    cases isAttribute <;>
      simp [ofJson, kind, itemsOf_of_find? hfind, bind, Except.bind, pure, Except.pure,
        mapSnippets]
  | enumeration => rfl
  | space listing =>
    simp [ofJson, kind, NamespaceListing.ofMembers_fields h hfind, bind, Except.bind, pure,
      Except.pure, mapSnippets]
  | interface listing =>
    simp [ofJson, kind, InterfaceListing.ofMembers_fields h hfind, bind, Except.bind, pure,
      Except.pure, mapSnippets]
  | record members =>
    simp only [fields, List.forall_mem_singleton, Json.sortMembers_list] at hfind
    simp [ofJson, kind, itemsOf_of_find? hfind, Slot.mapM_ofJson h, bind, Except.bind, pure,
      Except.pure, mapSnippets]
  | delegate signature =>
    simp only [fields, List.forall_mem_singleton] at hfind
    simp [ofJson, kind, hfind, Signature.ofJson_toJson h, bind, Except.bind, pure, Except.pure,
      mapSnippets]
  | function signatures =>
    simp only [fields, List.forall_mem_singleton, Json.sortMembers_list] at hfind
    simp [ofJson, kind, itemsOf_of_find? hfind, Signature.mapM_ofJson h, bind, Except.bind, pure,
      Except.pure, mapSnippets]
  | event handler =>
    simp only [fields, List.forall_mem_singleton, Json.sortMembers_of_isText h] at hfind
    simp [ofJson, kind, valueOf, hfind, pure, Except.pure, mapSnippets]
  | property typeName =>
    simp only [fields, List.forall_mem_singleton, Json.sortMembers_of_isText h] at hfind
    simp [ofJson, kind, valueOf, hfind, pure, Except.pure, mapSnippets]

/-- A well-typed entry is decoded from its sorted JSON form with its code samples in order. -/
theorem Entry.ofJson_toJson {entry : Entry} (h : entry.isWellTyped = true) :
    ofJson entry.toJson.sortMembers = .ok entry.sortSnippets := by
  simp only [isWellTyped, Bool.and_eq_true] at h
  obtain ⟨⟨hidentifier, hdescription⟩, hcontent⟩ := h
  obtain ⟨members, hmembers, hfind⟩ := exists_sortMembers _ entry.nodup_names
  have hfields : ∀ m ∈ entry.content.fields,
      NameMap.find? m.1 members = some m.2.sortMembers := by
    intro m hm
    rw [hfind, NameMap.find?_of_mem entry.nodup_names (List.mem_append_right _ hm), Option.map_some]
  have hdecoded := Content.ofJson_fields hcontent hfields
  rw [toJson, hmembers]
  simp [ofJson, parts, required, valueOf, hfind, NameMap.find?_cons, bind, Except.bind, pure,
    Except.pure, hdecoded, Json.sortMembers, Json.sortMembers_of_isText hidentifier,
    Json.sortMembers_of_isText hdescription, sortSnippets, mapSnippets]

/-- Code samples that are sorted already are written as before. -/
theorem Signature.sortMembers_mapSnippets (signature : Signature) :
    (signature.mapSnippets NameMap.sorted).toJson.sortMembers = signature.toJson.sortMembers := by
  have hsnippets : (Json.object (NameMap.sorted signature.snippets)).sortMembers =
      (Json.object signature.snippets).sortMembers := by
    rw [Json.sortMembers_object, Json.sortMembers_object, NameMap.sorted_sorted]
  simp only [toJson, mapSnippets, Json.sortMembers, Json.sortEntries] at hsnippets ⊢
  rw [hsnippets]

end ScriptTypings

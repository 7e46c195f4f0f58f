import ScriptTypings.Page.Document
import ScriptTypings.Proofs.Corpus.WellFormed
import ScriptTypings.Proofs.Reading

/-!
# Entries that pages give

Whatever a page of any kind looks like, the entries read from it are well typed: every value that is
meant as a text is one, and no language has two code samples. `Document.gives_parse` says so of
every document.
-/

namespace ScriptTypings

/-! ### Lists of texts -/

theorem Json.all_isText_map {α : Type} (f : α → String) (l : List α) :
    (l.map fun a => Json.text (f a)).all Json.isText = true := by
  rw [List.all_map]
  exact List.all_eq_true.mpr fun _ _ => rfl

namespace Page

open Text Markup

/-- Every entry of a page is well typed. -/
def Entries.WellTyped (entries : Entries) : Prop :=
  ∀ e ∈ entries, e.2.isWellTyped = true

variable (page : Page)

theorem wellTyped_own (description : String) {content : Content}
    (h : content.isWellTyped = true) : (page.own description content).WellTyped := by
  intro e he
  rw [List.mem_singleton.mp he]
  exact h

/-! ### Parts of a page -/

/-- A page has one sample at most for each language. -/
theorem gives_snippets : Gives page.snippets fun snippets => snippets.names.Nodup := by
  unfold snippets
  split
  · exact .ok List.nodup_nil
  · refine Gives.foldlM (fun found sample hfound => ?_) _ List.nodup_nil
    unfold addSnippet
    split
    · exact .ok (NameMap.nodup_names_put hfound _ _)
    · exact .error _ _

theorem gives_linkedMembers (table : Node) :
    Gives (linkedMembers table) fun ids => ids.all Json.isText = true := by
  have hrows : Gives (linkedMembers table) fun ids => ∀ id ∈ ids, id.isText = true :=
    Gives.mapM fun row _ => (Gives.anything (rowLink row)).map fun _ _ => rfl
  exact fun ids hids => List.all_eq_true.mpr (hrows ids hids)

theorem gives_categoryMembers (members : Markup.Section) (title : String) :
    Gives (categoryMembers members title) fun ids => (ids.getD []).all Json.isText = true := by
  unfold categoryMembers
  split
  · exact .ok rfl
  · exact (gives_linkedMembers _).bind fun _ hids => .ok hids

theorem gives_parameter (entry : String × List Node) :
    Gives (page.parameter entry) fun slot => slot.isWellTyped = true := by
  unfold parameter
  split
  · exact .error _ _
  · split
    · exact .error _ _
    · exact (Gives.anything _).bind fun _ _ => .ok rfl

theorem gives_parameters :
    Gives page.parameters fun slots => slots.all Slot.isWellTyped = true := by
  unfold parameters
  split
  · exact .error _ _
  · split
    · exact .error _ _
    · split
      · split
        · intro slots hslots
          exact List.all_eq_true.mpr (Gives.mapM (fun e _ => page.gives_parameter e) slots hslots)
        · exact .error _ _
      · split
        · exact .ok rfl
        · exact .error _ _

theorem gives_returnValue :
    Gives page.returnValue fun returned => returned.isWellTyped = true := by
  unfold returnValue
  split
  · exact .ok rfl
  · split
    · exact .ok rfl
    · split
      · exact .ok rfl
      · split
        · exact .ok rfl
        · refine (Gives.anything _).bind fun typeName _ => .ok ?_
          split
          · split <;> rfl
          · rfl

theorem all_isText_titleParameters (ending : String) :
    (page.titleParameters ending).all Json.isText = true :=
  Json.all_isText_map _ _

/-- A signature of well-typed parts has the samples of its page. -/
theorem isWellTyped_signature {description : String} {parameters : List Slot} {returned : Returned}
    {snippets : NameMap String} (hparameters : parameters.all Slot.isWellTyped = true)
    (hreturned : returned.isWellTyped = true) (hsnippets : snippets.names.Nodup) :
    Signature.isWellTyped
      { description, parameters, returned, snippets := NameMap.mapValues .text snippets } =
        true := by
  have htexts : (NameMap.mapValues Json.text snippets).all (fun s => s.2.isText) = true := by
    rw [NameMap.mapValues, List.all_map]
    exact List.all_eq_true.mpr fun _ _ => rfl
  rw [← NameMap.names_mapValues Json.text] at hsnippets
  have hdescription : (Json.text description).isText = true := rfl
  simp only [Signature.isWellTyped, hdescription, hparameters, hreturned, htexts,
    decide_eq_true hsnippets, Bool.and_true, List.all_nil]

/-! ### Kinds of pages -/

theorem gives_classEntries (description : String) (isAttribute : Bool) :
    Gives (page.classEntries description isAttribute) Entries.WellTyped :=
  (Gives.anything _).bind fun _ _ => .ok (page.wellTyped_own _ (Json.all_isText_map _ _))

theorem isWellTyped_enumerationMember {row : List Node} {e : String × Entry}
    (h : page.enumerationMember row = some e) : e.2.isWellTyped = true := by
  unfold enumerationMember at h
  split at h
  · rw [← Option.some.inj h]
    rfl
  · cases h

theorem gives_enumerationEntries (description : String) :
    Gives (page.enumerationEntries description) Entries.WellTyped := by
  unfold enumerationEntries
  split
  · exact .error _ _
  · refine .ok fun e he => ?_
    rcases List.mem_append.mp he with he | he
    · exact page.wellTyped_own _ rfl e he
    · obtain ⟨row, _, hrow⟩ := List.mem_filterMap.mp he
      exact page.isWellTyped_enumerationMember hrow

theorem gives_categorizedListing (members : Markup.Section) :
    Gives (categorizedListing members) fun listing =>
      (listing.getD {}).isWellTyped = true := by
  refine (gives_categoryMembers members _).bind fun structures hstructures => ?_
  refine (gives_categoryMembers members _).bind fun delegates hdelegates => ?_
  refine (gives_categoryMembers members _).bind fun interfaces hinterfaces => ?_
  split
  · exact .ok rfl
  · refine .ok ?_
    simp only [Option.getD_some, NamespaceListing.isWellTyped, hstructures, hdelegates,
      hinterfaces, Bool.and_self]

theorem isWellTyped_addLabelled {listing : NamespaceListing} (h : listing.isWellTyped = true)
    (row : List Node × String) : (addLabelled listing row).isWellTyped = true := by
  simp only [NamespaceListing.isWellTyped, Bool.and_eq_true] at h
  obtain ⟨⟨hstructures, hdelegates⟩, hinterfaces⟩ := h
  unfold addLabelled
  dsimp only
  split
  · simp [NamespaceListing.isWellTyped, hstructures, hdelegates, hinterfaces, Json.isText]
  · split
    · simp [NamespaceListing.isWellTyped, hstructures, hdelegates, hinterfaces, Json.isText]
    · split <;>
        simp [NamespaceListing.isWellTyped, hstructures, hdelegates, hinterfaces, Json.isText]

theorem gives_combinedListing (table : Node) :
    Gives (combinedListing table) fun listing => listing.isWellTyped = true := by
  refine (Gives.anything _).bind fun rows _ => .ok ?_
  suffices h : ∀ listing : NamespaceListing, listing.isWellTyped = true →
      (rows.foldl addLabelled listing).isWellTyped = true from h {} rfl
  induction rows with
  | nil => exact fun _ => id
  | cons row rows ih => exact fun listing h => ih _ (isWellTyped_addLabelled h row)

theorem gives_namespaceListing :
    Gives page.namespaceListing fun listing => listing.isWellTyped = true := by
  unfold namespaceListing
  dsimp only
  split
  · refine (gives_categorizedListing _).bind fun listing hlisting => ?_
    split
    · exact .ok hlisting
    · split
      · exact gives_combinedListing _
      · exact .ok rfl
  · rw [pure_bind]
    dsimp only
    split
    · exact gives_combinedListing _
    · exact .ok rfl

theorem gives_propertyEntries (description : String) :
    Gives (page.propertyEntries description) Entries.WellTyped := by
  unfold propertyEntries
  split
  · exact .error _ _
  · exact (Gives.anything _).bind fun _ _ => .ok (page.wellTyped_own _ rfl)

theorem gives_delegateEntries (description : String) :
    Gives (page.delegateEntries description) Entries.WellTyped := by
  refine (page.gives_parameters).bind fun parameters hparameters => .ok (page.wellTyped_own _ ?_)
  simp [Content.isWellTyped, Signature.isWellTyped, hparameters, Returned.isWellTyped,
    page.all_isText_titleParameters, Json.isText]

theorem gives_constructorEntries (description : String) :
    Gives (page.constructorEntries description) Entries.WellTyped := by
  refine (Gives.anything _).bind fun identifier _ => ?_
  refine (page.gives_parameters).bind fun parameters hparameters => ?_
  refine (page.gives_snippets).bind fun snippets hsnippets => .ok fun e he => ?_
  rw [List.mem_singleton.mp he]
  have hreturned : Returned.newInstance.isWellTyped = true := rfl
  simp [Entry.isWellTyped, Content.isWellTyped, Json.isText,
    isWellTyped_signature hparameters hreturned hsnippets]

theorem gives_methodEntries (description : String) :
    Gives (page.methodEntries description) Entries.WellTyped := by
  refine (page.gives_snippets).bind fun snippets hsnippets => ?_
  refine (page.gives_parameters).bind fun parameters hparameters => ?_
  refine (page.gives_returnValue).bind fun returned hreturned => .ok fun e he => ?_
  rw [List.mem_singleton.mp he]
  simp [Entry.isWellTyped, Content.isWellTyped, Json.isText,
    isWellTyped_signature hparameters hreturned hsnippets]

theorem gives_eventEntries (description : String) :
    Gives (page.eventEntries description) Entries.WellTyped := by
  refine (Gives.anything _).bind fun snippets _ => ?_
  split
  · exact .error _ _
  · split
    · refine (Gives.anything _).bind fun cell _ => (Gives.anything _).bind fun spelling _ => ?_
      split
      · exact .error _ _
      · refine (Gives.anything _).bind fun identifier _ => .ok fun e he => ?_
        rw [List.mem_singleton.mp he]
        rfl
    · exact .error _ _

theorem gives_fieldOf (row : List Node) : Gives (page.fieldOf row) fun field =>
    ∀ slot, field = some slot → slot.isWellTyped = true := by
  unfold fieldOf
  split
  · split
    · refine (Gives.anything _).bind fun spelling _ => ?_
      split
      · exact .ok fun slot hslot => Option.some.inj hslot ▸ rfl
      · exact .ok nofun
    · exact .error _ _
  · exact .error _ _

theorem gives_recordEntries (description : String) :
    Gives (page.recordEntries description) Entries.WellTyped := by
  unfold recordEntries
  split
  · exact .error _ _
  · split
    · exact .ok (page.wellTyped_own _ rfl)
    · refine (Gives.mapM fun row _ => page.gives_fieldOf row).bind fun fields hfields => .ok ?_
      refine page.wellTyped_own _ (List.all_eq_true.mpr fun slot hslot => ?_)
      obtain ⟨field, hfield, heq⟩ := List.mem_filterMap.mp hslot
      exact hfields field hfield slot heq

theorem gives_interfaceEntries (description : String) :
    Gives (page.interfaceEntries description) Entries.WellTyped := by
  refine (Gives.anything _).bind fun snippets _ => ?_
  refine (gives_categoryMembers _ _).bind fun methods hmethods => ?_
  refine (gives_categoryMembers _ _).bind fun properties hproperties => ?_
  refine .ok (page.wellTyped_own _ ?_)
  have hbases := Json.all_isText_map id (Inheritance.bases snippets)
  simp only [Content.isWellTyped, InterfaceListing.isWellTyped, hmethods, hproperties,
    page.all_isText_titleParameters, Bool.and_true, List.all_nil]
  exact hbases

/-- The entries of a page of any kind are well typed. -/
theorem gives_entries (kind : PageKind) : Gives (page.entries kind) Entries.WellTyped := by
  cases kind with
  | cls => exact page.gives_classEntries _ _
  | attributeType => exact page.gives_classEntries _ _
  | enumeration => exact page.gives_enumerationEntries _
  | space =>
    exact (page.gives_namespaceListing).bind fun _ h => .ok (page.wellTyped_own _ h)
  | property => exact page.gives_propertyEntries _
  | delegate => exact page.gives_delegateEntries _
  | constructor => exact page.gives_constructorEntries _
  | method => exact page.gives_methodEntries _
  | event => exact page.gives_eventEntries _
  | record => exact page.gives_recordEntries _
  | interface => exact page.gives_interfaceEntries _
  | overview => exact .ok nofun

end Page

namespace Document

/-- A document has no entries that are not well typed. -/
def WellTyped (document : Document) : Prop :=
  ∀ found, document.outcome = .entries found → found.WellTyped

theorem gives_read (options : DocumentOptions) (page : Markup.Node) (identifier : String) :
    Gives (read options page identifier) WellTyped := by
  unfold read
  split
  · refine (Gives.anything _).bind fun kind _ => ?_
    dsimp only
    split
    · exact .ok nofun
    · split
      · rename_i found hfound
        exact .ok fun entries hentries =>
          DocumentOutcome.entries.inj hentries ▸ Page.gives_entries _ kind found hfound
      · exact .ok nofun
      · exact .error _ _
  · exact .error _ _

/-- All entries of a document are well typed. -/
theorem gives_parse (reader : PageReader) (options : DocumentOptions) (text : String) :
    Gives (parse reader options text) WellTyped := by
  unfold parse ofPage
  dsimp only
  split
  · exact .ok nofun
  · split
    · exact .ok nofun
    · split
      · exact .ok nofun
      · split
        · exact .ok nofun
        · exact gives_read _ _ _

end Document

end ScriptTypings

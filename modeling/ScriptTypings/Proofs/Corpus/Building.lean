import ScriptTypings.Corpus.Build
import ScriptTypings.Proofs.Page.WellTyped
import ScriptTypings.Proofs.Session.Actions

/-!
# Built corpora

A build reads documents and writes no file, and the corpus that it gives is well formed, with its
extensions recorded: `yields_build` says so of every folder and all options.
-/

namespace ScriptTypings.Corpus

variable {corpus : Corpus}

/-! ### Recorded extensions -/

theorem interfaceEntry?_eq_some {key : String} {identifier : Json} {listing : InterfaceListing}
    (h : corpus.interfaceEntry? key = some (identifier, listing)) :
    ∃ description, corpus.get? key = some ⟨identifier, description, .interface listing⟩ := by
  unfold interfaceEntry? at h
  split at h
  · rename_i hget
    obtain ⟨rfl, rfl⟩ := Prod.mk.inj (Option.some.inj h)
    exact ⟨_, hget⟩
  · cases h

/-- Extensions are recorded by their identifiers, which are texts. -/
theorem all_isText_extensionsFrom (h : corpus.WellFormed) (key : String) (identifier : Json)
    (fuel number : Nat) (seen : List String) :
    (corpus.extensionsFrom key identifier fuel number seen).1.all Json.isText = true := by
  induction fuel generalizing number seen with
  | zero => rfl
  | succ fuel ih =>
    unfold extensionsFrom
    split
    · rfl
    · rename_i extension listing hentry
      split
      · rfl
      · obtain ⟨description, hget⟩ := interfaceEntry?_eq_some hentry
        have hextension : extension.isText = true := by
          have hwell := h.wellTyped_of_get? hget
          simp only [Entry.isWellTyped, Bool.and_eq_true] at hwell
          exact hwell.1.1
        rw [List.all_cons, hextension, ih]
        rfl
      · rfl

theorem isWellTyped_linkEntry (h : corpus.WellFormed) (key : String) {entry : Entry}
    (hentry : entry.isWellTyped = true) : (corpus.linkEntry key entry).1.isWellTyped = true := by
  obtain ⟨identifier, description, content⟩ := entry
  cases content with
  | interface listing =>
    unfold linkEntry
    dsimp only
    split
    · exact hentry
    · have hfound : (corpus.extensions key identifier listing).1.all Json.isText = true := by
        unfold extensions
        split
        · rfl
        · exact all_isText_extensionsFrom h ..
      simp only [Entry.isWellTyped, Content.isWellTyped, InterfaceListing.isWellTyped,
        Bool.and_eq_true] at hentry ⊢
      exact ⟨hentry.1, hentry.2.1, hfound⟩
  | _ => exact hentry

/-- To record the extensions changes neither the keys nor what the entries are. -/
theorem WellFormed.link (h : corpus.WellFormed) {linked : Linked}
    (hlinked : corpus.linkExtensions? = some linked) : linked.corpus.WellFormed := by
  unfold linkExtensions? at hlinked
  split at hlinked
  · cases hlinked
  · rw [← Option.some.inj hlinked]
    dsimp only
    have hstep : ∀ e ∈ corpus.entries, ∀ stop : Option String,
        (if stop.all (e.1 ≤ ·) then (e.1, (corpus.linkEntry e.1 e.2).1) else e).1 = e.1 ∧
          (if stop.all (e.1 ≤ ·) then (e.1, (corpus.linkEntry e.1 e.2).1) else e).2.isWellTyped =
            true := by
      intro e he stop
      split
      · exact ⟨rfl, isWellTyped_linkEntry h e.1 (h.wellTyped e he)⟩
      · exact ⟨rfl, h.wellTyped e he⟩
    refine ⟨?_, fun e he => ?_, fun e he => ?_⟩
    · have hnames : (corpus.entries.map fun e =>
          if corpus.stoppingKey?.all (e.1 ≤ ·) then (e.1, (corpus.linkEntry e.1 e.2).1)
          else e).map Prod.fst = corpus.entries.map Prod.fst := by
        rw [List.map_map]
        exact List.map_congr_left fun e he => (hstep e he _).1
      rw [NameMap.names, hnames]
      exact h.nodup
    · obtain ⟨plain, hplain, rfl⟩ := List.mem_map.mp he
      rw [(hstep plain hplain _).1]
      exact h.lowered_key plain hplain
    · obtain ⟨plain, hplain, rfl⟩ := List.mem_map.mp he
      exact (hstep plain hplain _).2

/-! ### Reading documents -/

theorem gives_readSource (reader : PageReader) (options : DocumentOptions) (source : Source) :
    Gives (readSource reader options source) Document.WellTyped := by
  unfold readSource
  split
  · exact .error _ _
  · rename_i text _
    split
    · rename_i document hdocument
      exact .ok (Document.gives_parse reader options text document hdocument)
    · exact .error _ _

/-- What is taken in from a document keeps the corpus well formed. -/
theorem gives_take {s : BuildState} (h : s.corpus.WellFormed) (strict : Bool) (path : String)
    {document : Except BuildCause Document} (hdocument : Gives document Document.WellTyped) :
    Gives (s.take strict path document) fun next => next.1.corpus.WellFormed := by
  unfold BuildState.take
  split
  · rename_i title kind entries
    exact .ok (h.addAll (hdocument _ rfl entries rfl))
  · exact .ok h
  · split
    · exact .error _ _
    · exact .ok h
  · exact .error _ _

theorem yields_readSources (reader : PageReader) (options : DocumentOptions) (strict : Bool)
    (sources : List Source) (index : Nat) {s : BuildState} (h : s.corpus.WellFormed) :
    (readSources reader options strict index s sources).Yields fun s => s.corpus.WellFormed := by
  induction sources generalizing index s with
  | nil => exact Action.yields_pure h
  | cons source sources ih =>
    refine (Action.yields_log _ _ _).bind fun _ _ => ?_
    have htake := gives_take h strict source.1 (gives_readSource reader options source)
    cases hnext : s.take strict source.1 (readSource reader options source) with
    | error failure => exact Action.yields_throw _ _
    | ok next =>
      obtain ⟨next, records⟩ := next
      exact (Action.yields_logAll records).bind fun _ _ => ih (index + 1) (htake _ hnext)

theorem yields_ofSources (reader : PageReader) (options : DocumentOptions) (strict : Bool)
    (sources : List Source) :
    (ofSources reader options strict sources).Yields fun built => built.1.WellFormed := by
  refine (yields_readSources reader options strict sources 1 wellFormed_empty).bind fun s hs => ?_
  split
  · exact Action.yields_throw _ _
  · rename_i linked hlinked
    refine (Action.yields_logAll _).bind fun _ _ => ?_
    refine (Action.yields_stopAt _).bind fun _ _ => ?_
    exact (Action.yields_log _ _ _).bind fun _ _ => Action.yields_pure (hs.link hlinked)

/-- A build leaves all files alone, and what it gives is a well-formed corpus. -/
theorem yields_build (reader : PageReader) (options : DocumentOptions) (strict : Bool)
    (folder : Path) :
    (build reader options strict folder).Yields fun built => built.1.WellFormed := by
  refine (Action.yields_ask _).bind fun found _ => ?_
  split
  · exact Action.yields_get.bind fun session _ => yields_ofSources _ _ _ _
  · exact Action.yields_throw _ _

end ScriptTypings.Corpus

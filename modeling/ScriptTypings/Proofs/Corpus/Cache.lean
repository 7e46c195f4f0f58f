import ScriptTypings.Proofs.Corpus.RoundTrip
import ScriptTypings.Proofs.Json.Writing
import ScriptTypings.Proofs.Session.Actions
import ScriptTypings.Proofs.Storage.Written

/-!
# The cache of a corpus

What was saved is loaded again, as `load_save` says: the entries come in order, and nothing else
has changed. `exists_save` says where a corpus can be saved.
-/

namespace ScriptTypings.Corpus

open Text

variable {corpus : Corpus}

theorem not_mem_text (corpus : Corpus) : '\r' ∉ corpus.text.toList :=
  Json.not_mem_write ⟨some 2⟩ _

/-- A corpus can be saved in every folder that is there, unless the path leads to a folder. -/
theorem exists_save {path : Path} {session : Session} {at_ : List String}
    (hfolder : session.storage.hasFolder path.parent = .ok true)
    (hlocate : session.storage.locate path = .ok at_)
    (hitem : session.storage.item? at_ ≠ some .folder) (corpus : Corpus) :
    ∃ after, (save corpus path).runOn session = (.ok (), after) := by
  obtain ⟨written, hwritten⟩ : ∃ written,
      session.storage.writeText path corpus.text = .ok written :=
    Storage.exists_write hlocate hitem _
  refine ⟨{ session with storage := written }, ?_⟩
  rw [save, Action.runOn_bind, Action.runOn_makeParent, Storage.makeFolder_of_hasFolder hfolder]
  simp only [Action.runOn_writeText, hwritten]

/-- A corpus that is saved is written as its text. -/
theorem exists_writeText_of_save {path : Path} {before after : Session}
    (h : (save corpus path).runOn before = (.ok (), after)) :
    ∃ storage : Storage, storage.writeText path corpus.text = .ok after.storage := by
  obtain ⟨_, between, _, hwrite⟩ := Action.runOn_bind_eq_ok.mp h
  exact ⟨between.storage, Action.writeText_of_runOn hwrite⟩

theorem load_eq {path : Path} {session : Session} {text : String} {loaded : Corpus}
    (htext : session.storage.readText path = .ok text) (hload : ofText path text = .ok loaded) :
    (load path).runOn session = (.ok loaded, session) := by
  rw [load, Action.runOn_bind, Action.runOn_readText, htext]
  simp only [hload]
  rfl

/-- A well-formed corpus is loaded from where it was saved, with its entries in order. -/
theorem load_save (h : corpus.WellFormed) {path : Path} {before after : Session}
    (hsave : (save corpus path).runOn before = (.ok (), after)) :
    (load path).runOn after = (.ok corpus.reloaded, after) := by
  obtain ⟨storage, hstorage⟩ := exists_writeText_of_save hsave
  exact load_eq (Storage.readText_writeText hstorage (not_mem_text corpus)) (ofText_text h path)

/-- The text of a well-formed corpus, and the file that it is saved in, hold a corpus with the same
keys whose entries agree with the saved ones; its text is the same again. -/
theorem exists_loaded (h : corpus.WellFormed) (path : Path) :
    ∃ loaded, ofText path corpus.text = .ok loaded ∧
      (∀ before after, (save corpus path).runOn before = (.ok (), after) →
        (load path).runOn after = (.ok loaded, after)) ∧
      loaded.keys = corpus.keys ∧
      (∀ key entry, corpus.get? key = some entry →
        ∃ entry', loaded.get? key = some entry' ∧ entry.Agrees entry') ∧
      loaded.text = corpus.text := by
  refine ⟨corpus.reloaded, ofText_text h path, fun _ _ hsave => load_save h hsave,
    keys_reloaded corpus, fun key entry hget => ?_, text_reloaded corpus⟩
  refine ⟨entry.sortSnippets, ?_, Entry.agrees_sortSnippets (h.wellTyped_of_get? hget)⟩
  rw [get?_reloaded h, hget, Option.map_some]

/-- A function with results of all four shapes, and code samples out of order. -/
def resultCorpus : Corpus where
  entries :=
    [("n.f", ⟨"N.F", "Works.", .function
      [{ returned := .typed "String" "The text." }, { returned := .newInstance },
        { parameters := [⟨"size", "Number", ""⟩] },
        { returned := .fields [⟨"done", "Boolean", ""⟩] "The state.",
          snippets := [("js", "f()"), ("c#", "F();")] }]⟩),
      ("n", ⟨"N", "", .space { structures := ["N.S"] }⟩)]

theorem exists_loaded_results : resultCorpus.WellFormed ∧
    ∃ loaded, ofText ⟨0, ["cache.json"]⟩ resultCorpus.text = .ok loaded ∧
      loaded.text = resultCorpus.text := by
  have h : resultCorpus.WellFormed := ⟨by decide, by decide, by decide⟩
  obtain ⟨loaded, hloaded, -, -, -, htext⟩ := exists_loaded h ⟨0, ["cache.json"]⟩
  exact ⟨h, loaded, hloaded, htext⟩

end ScriptTypings.Corpus

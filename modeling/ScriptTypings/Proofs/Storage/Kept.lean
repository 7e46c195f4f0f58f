import ScriptTypings.Proofs.Session.Actions
import ScriptTypings.Proofs.Storage.Parents

/-!
# Files that are left alone

A path leads to one place only, if it leads anywhere. `Storage.Keeps` says that all files but those
at some places are still there with their contents; an action `Writes` to some places if it keeps
the files at all others, however it ends. An action `Settles` files if it can be repeated as long as
they stay as it left them.
-/

namespace ScriptTypings

/-- The place that a path leads to, if all on the way is there. -/
def Path.place (path : Path) : List String :=
  path.parts.foldl Storage.step (Storage.origin path)

namespace Storage

variable {s s' s'' : Storage} {path other : Path} {at_ found : List String}

/-! ### Places -/

theorem eq_foldl_of_locateFrom {from_ : List String} {parts : List String}
    (h : s.locateFrom from_ parts = .ok found) : found = parts.foldl step from_ := by
  induction parts generalizing from_ with
  | nil => exact (Except.ok.inj h).symm
  | cons part parts ih =>
    rw [locateFrom] at h
    split at h
    · cases h
    split at h
    · rename_i hlast
      rw [List.isEmpty_iff.mp hlast]
      exact (Except.ok.inj h).symm
    split at h
    · exact ih h
    · cases h
    · cases h

theorem eq_place_of_locate (h : s.locate path = .ok found) : found = path.place := by
  rw [locate] at h
  split at h
  · cases h
  split at h
  · cases h
  · exact eq_foldl_of_locateFrom h

theorem item?_place_of_content? {content : ByteArray} (h : s.content? path = some content) :
    s.item? path.place = some (.file content) := by
  obtain ⟨found, -, hlocate, hitem⟩ := exists_locate_of_content? h
  rwa [← eq_place_of_locate hlocate]

/-! ### Keeping files -/

/-- The files that are not at the given places are still there. -/
def Keeps (places : List (List String)) (s s' : Storage) : Prop :=
  ∀ path content, path.place ∉ places → s.content? path = some content →
    s'.content? path = some content

variable {places places' : List (List String)}

theorem Keeps.refl (places : List (List String)) (s : Storage) : Keeps places s s :=
  fun _ _ _ h => h

theorem Keeps.trans (h : Keeps places s s') (h' : Keeps places' s' s'') :
    Keeps (places ++ places') s s'' := by
  intro path content hplace hcontent
  rw [List.mem_append, not_or] at hplace
  exact h' path content hplace.2 (h path content hplace.1 hcontent)

theorem Keeps.mono (h : Keeps places s s') (hsubset : places ⊆ places') : Keeps places' s s' :=
  fun path content hplace => h path content fun hmem => hplace (hsubset hmem)

theorem Keeps.readText {text : String} (h : Keeps places s s') (hplace : path.place ∉ places)
    (htext : s.readText path = .ok text) : s'.readText path = .ok text := by
  obtain ⟨content, hcontent, hread⟩ := readText_eq_ok.mp htext
  exact readText_eq_ok.mpr ⟨content, h path content hplace hcontent, hread⟩

/-- The files that paths lead to are still there. -/
def Retains (paths : List Path) (s s' : Storage) : Prop :=
  ∀ path ∈ paths, ∀ content, s.content? path = some content → s'.content? path = some content

theorem Retains.trans {paths : List Path} (h : Retains paths s s') (h' : Retains paths s' s'') :
    Retains paths s s'' :=
  fun path hpath content hcontent => h' path hpath content (h path hpath content hcontent)

theorem Keeps.retains {paths : List Path} (h : Keeps places s s')
    (hplaces : ∀ path ∈ paths, path.place ∉ places) : Retains paths s s' :=
  fun path hpath content => h path content (hplaces path hpath)

/-- An item in the place of no folder is in the way to no other file. -/
theorem content?_put {item : Item} (h : s.item? at_ ≠ some .folder) (hother : other.place ≠ at_)
    {content : ByteArray} (hcontent : s.content? other = some content) :
    (s.put at_ item).content? other = some content := by
  obtain ⟨found, -, hlocate, hitem⟩ := exists_locate_of_content? hcontent
  rw [← eq_place_of_locate hlocate] at hother
  rw [content?_eq_some, read, itemAt, locate_put h hlocate]
  simp only [item?_put_of_ne hother, hitem]

theorem keeps_put {item : Item} (h : s.item? at_ ≠ some .folder) :
    Keeps [at_] s (s.put at_ item) :=
  fun _ _ hplace => content?_put h fun heq => hplace (heq ▸ List.mem_singleton_self _)

theorem keeps_writeText {text : String} (h : s.writeText path text = .ok s') :
    Keeps [path.place] s s' := by
  obtain ⟨at_, hlocate, hfolder, rfl⟩ := exists_of_write h
  rw [← eq_place_of_locate hlocate]
  exact keeps_put hfolder

theorem keeps_makeOne (s : Storage) (path : Path) : Keeps [] s (s.makeOne path).1 := by
  rw [makeOne]
  split
  · rename_i made hmade
    rw [makeNew] at hmade
    split at hmade
    · cases hmade
    · split at hmade
      · cases hmade
      · rename_i hnone
        rw [← Except.ok.inj hmade]
        intro other content _ hcontent
        -- there is nothing where the folder is made
        have hitem := item?_place_of_content? hcontent
        refine content?_put (fun hfolder => hnone (by rw [hfolder]; rfl)) (fun heq => hnone ?_)
          hcontent
        rw [← heq, hitem]
        rfl
  · split
    · exact Keeps.refl [] s
    · exact Keeps.refl [] s
    · exact Keeps.refl [] s

theorem keeps_makeFolder (s : Storage) (path : Path) : Keeps [] s (s.makeFolder path).1 := by
  induction s, path using makeFolder.induct with
  | case1 s path s₁ hone hparts =>
    have hkept := keeps_makeOne s path
    rw [hone] at hkept
    rw [makeFolder, hone]
    dsimp only
    rwa [if_pos hparts]
  | case2 s path s₁ hone hparts s₂ hmade ih =>
    have hkept := keeps_makeOne s path
    rw [hone] at hkept
    rw [hmade] at ih
    rw [makeFolder, hone]
    dsimp only
    rw [if_neg hparts, hmade]
    exact (hkept.trans ih).trans (keeps_makeOne s₂ path)
  | case3 s path s₁ hone hparts hfailed ih =>
    have hkept := keeps_makeOne s path
    rw [hone] at hkept
    rw [makeFolder, hone]
    dsimp only
    rw [if_neg hparts]
    cases hparent : s₁.makeFolder path.parent with
    | mk s₂ error? =>
      cases error? with
      | none => exact absurd hparent (hfailed s₂)
      | some reason =>
        rw [hparent] at ih
        exact hkept.trans ih
  | case4 s path hone =>
    have hkept := keeps_makeOne s path
    rw [makeFolder]
    split
    · rename_i s₁ hnotFound
      exact absurd hnotFound (hone s₁)
    · exact hkept

/-! ### Files that are written over -/

/-- A file in the place of a file is in the way where that was. -/
theorem locateFrom_put_file {old : ByteArray} (h : s.item? at_ = some (.file old))
    (content : ByteArray) (from_ : List String) (parts : List String) :
    (s.put at_ (.file content)).locateFrom from_ parts = s.locateFrom from_ parts := by
  have hfile : s.item? at_ ≠ some .folder := by simp [h]
  induction parts generalizing from_ with
  | nil => rfl
  | cons part parts ih =>
    rw [locateFrom, locateFrom]
    by_cases hsame : step from_ part = at_
    · rw [hsame, item?_put_self (isGiven_of_not_folder hfile), h]
    · rw [item?_put_of_ne hsame]
      simp only [ih]

/-- To write over a file changes no other one, and none comes to be. -/
theorem content?_writeText_of_ne {text : String} {old : ByteArray}
    (hwrite : s.writeText path text = .ok s') (hold : s.content? path = some old)
    (hother : other.place ≠ path.place) : s'.content? other = s.content? other := by
  obtain ⟨at_, hlocate, -, rfl⟩ := exists_of_write hwrite
  have hplace := eq_place_of_locate hlocate
  have hitem := item?_place_of_content? hold
  rw [← hplace] at hitem hother
  have hsame : (s.put at_ (.file text.toUTF8)).locate other = s.locate other := by
    rw [locate, locate, locateFrom_put_file hitem]
  rw [content?, content?, read, read, itemAt, itemAt, hsame]
  cases hfound : s.locate other with
  | error e => rfl
  | ok found =>
    have hne : found ≠ at_ := fun heq => hother ((eq_place_of_locate hfound).symm.trans heq)
    simp only [item?_put_of_ne hne]

/-! ### Files that can be written -/

/-- A file can be written: its folder is there, and the path leads to no folder. -/
structure Writable (s : Storage) (path : Path) : Prop where
  folder : s.hasFolder path.parent = .ok true
  free : ∃ at_, s.locate path = .ok at_ ∧ s.item? at_ ≠ some .folder

theorem writable_of_content? {content : ByteArray} (h : s.content? path = some content) :
    Writable s path := by
  obtain ⟨at_, -, hlocate, hitem⟩ := exists_locate_of_content? h
  exact ⟨hasFolder_parent_of_content? h, at_, hlocate, by rw [hitem]; nofun⟩

theorem Writable.exists_writeText (h : Writable s path) (text : String) :
    ∃ s', s.writeText path text = .ok s' := by
  obtain ⟨at_, hlocate, hitem⟩ := h.free
  exact exists_write hlocate hitem _

theorem hasFolder_put {item : Item} (h : s.item? at_ ≠ some .folder)
    (hfolder : s.hasFolder path = .ok true) : (s.put at_ item).hasFolder path = .ok true := by
  obtain ⟨found, hlocate, hfound⟩ := exists_locate_of_hasFolder hfolder
  have hne : found ≠ at_ := fun heq => h (heq ▸ hfound)
  rw [hasFolder, leadsTo, itemAt, locate_put h hlocate]
  simp only [item?_put_of_ne hne, hfound, Item.isFolder]

/-- What can be written can still be written behind another file. -/
theorem Writable.of_writeText {text : String} (h : Writable s other)
    (hwrite : s.writeText path text = .ok s') : Writable s' other := by
  obtain ⟨at_, -, hfolder, rfl⟩ := exists_of_write hwrite
  obtain ⟨found, hlocate, hfree⟩ := h.free
  refine ⟨hasFolder_put hfolder h.folder, found, locate_put hfolder hlocate, ?_⟩
  by_cases hsame : found = at_
  · rw [hsame, item?_put_self (isGiven_of_not_folder hfolder)]
    nofun
  · rwa [item?_put_of_ne hsame]

end Storage

/-! ### Actions that keep files -/

namespace Action

variable {α β : Type} {action : Action α} {places places' : List (List String)} {P : α → Prop}

/-- However it ends, the action keeps all files that are not at the given places. -/
def Writes (places : List (List String)) (action : Action α) : Prop :=
  ∀ session, Storage.Keeps places session.storage (action.runOn session).2.storage

theorem Yields.writes (h : Yields action P) : Writes [] action := by
  intro session
  rw [(h session).1]
  exact Storage.Keeps.refl [] _

theorem Writes.mono (h : Writes places action) (hsubset : places ⊆ places') :
    Writes places' action :=
  fun session => (h session).mono hsubset

theorem Writes.bind {next : α → Action β} (h : Writes places action)
    (hnext : ∀ a, Writes places' (next a)) : Writes (places ++ places') (action >>= next) := by
  intro session
  have hkept := h session
  rw [runOn_bind]
  rcases hrun : action.runOn session with ⟨failure | a, between⟩
  · rw [hrun] at hkept
    exact hkept.mono (List.subset_append_left _ _)
  · rw [hrun] at hkept
    exact hkept.trans (hnext a between)

theorem writes_makeParent (path : Path) : Writes [] (makeParent path) := by
  intro session
  have hkept := Storage.keeps_makeFolder session.storage path.parent
  rw [runOn_makeParent]
  split
  · rename_i made hmade
    rwa [hmade] at hkept
  · rename_i made e hmade
    rwa [hmade] at hkept

theorem writes_writeText (path : Path) (text : String) :
    Writes [path.place] (writeText path text) := by
  intro session
  rw [runOn_writeText]
  split
  · rename_i written hwritten
    exact Storage.keeps_writeText hwritten
  · exact Storage.Keeps.refl _ _

/-! ### Actions that settle files -/

variable {paths paths' : List Path}

/-- Where the action succeeds, it changes no files but those that paths lead to; and it comes to the
same again, without a change, where these are as it left them. -/
structure Settles (paths : List Path) (action : Action α) : Prop where
  kept : ∀ {before after : Session} {a : α}, action.runOn before = (.ok a, after) →
    ∀ other : Path, other.place ∉ paths.map Path.place →
      after.storage.content? other = before.storage.content? other
  again : ∀ {before after later : Session} {a : α}, action.runOn before = (.ok a, after) →
    Storage.Retains paths after.storage later.storage → action.runOn later = (.ok a, later)

theorem settles_pure (a : α) : Settles [] (pure a : Action α) := by
  refine ⟨fun h _ _ => ?_, fun h _ => ?_⟩
  · rw [← (Prod.mk.inj h).2]
  · rw [← Except.ok.inj (Prod.mk.inj h).1]
    rfl

/-- An action that always fails settles whatever is asked. -/
theorem settles_throw (paths : List Path) (failure : Failure) :
    Settles paths (throw failure : Action α) :=
  ⟨fun h => (nomatch (Prod.mk.inj h).1), fun h => (nomatch (Prod.mk.inj h).1)⟩

theorem settles_readText (path : Path) (failure : FileError → Failure) :
    Settles [path] (readText path failure) := by
  have hrun : ∀ {before after : Session} {text : String},
      (readText path failure).runOn before = (.ok text, after) →
        before.storage.readText path = .ok text ∧ after = before := by
    intro before after text h
    rw [runOn_readText] at h
    cases htext : before.storage.readText path with
    | error e =>
      rw [htext] at h
      cases h
    | ok found =>
      rw [htext] at h
      obtain ⟨hfound, rfl⟩ := Prod.mk.inj h
      exact ⟨congrArg Except.ok (Except.ok.inj hfound), rfl⟩
  refine ⟨fun h _ _ => by rw [(hrun h).2], fun {before after later text} h hlater => ?_⟩
  obtain ⟨htext, rfl⟩ := hrun h
  obtain ⟨content, hcontent, hread⟩ := Storage.readText_eq_ok.mp htext
  have hagain := Storage.readText_eq_ok.mpr
    ⟨content, hlater path List.mem_cons_self content hcontent, hread⟩
  rw [runOn_readText, hagain]

theorem Settles.bind {next : α → Action β} (h : Settles paths action)
    (hnext : ∀ a, Settles paths' (next a))
    (hdisjoint : ∀ path ∈ paths, path.place ∉ paths'.map Path.place) :
    Settles (paths ++ paths') (action >>= next) := by
  refine ⟨fun {before after b} hrun other hother => ?_,
    fun {before after later b} hrun hlater => ?_⟩
  · obtain ⟨a, between, hfirst, hsecond⟩ := runOn_bind_eq_ok.mp hrun
    rw [List.map_append, List.mem_append, not_or] at hother
    rw [(hnext a).kept hsecond other hother.2, h.kept hfirst other hother.1]
  · obtain ⟨a, between, hfirst, hsecond⟩ := runOn_bind_eq_ok.mp hrun
    -- the second action leaves what the first one settled
    have hagain : action.runOn later = (.ok a, later) := by
      refine h.again hfirst fun path hpath content hcontent => ?_
      refine hlater path (List.mem_append_left _ hpath) content ?_
      rwa [(hnext a).kept hsecond path (hdisjoint path hpath)]
    refine runOn_bind_eq_ok.mpr ⟨a, later, hagain, ?_⟩
    exact (hnext a).again hsecond fun path hpath => hlater path (List.mem_append_right _ hpath)

/-- What comes behind an action need not touch files. -/
theorem Settles.bind_nil {next : α → Action β} (h : Settles paths action)
    (hnext : ∀ a, Settles [] (next a)) : Settles paths (action >>= next) := by
  have hbound := h.bind hnext fun _ _ => List.not_mem_nil
  rwa [List.append_nil] at hbound

end Action

end ScriptTypings

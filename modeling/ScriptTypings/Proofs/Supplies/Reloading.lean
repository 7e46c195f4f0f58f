import ScriptTypings.Inputs
import ScriptTypings.Proofs.Json.RoundTrip
import ScriptTypings.Proofs.Json.Document
import ScriptTypings.Proofs.Json.Writing
import ScriptTypings.Proofs.Storage.Kept

/-!
# Inputs that are loaded again

A table that was loaded stands in its file in canonical form, and is loaded from there as it was.
So all inputs of a run can be loaded again without a change to any file, as `Inputs.settles_load`
says.
-/

namespace ScriptTypings

namespace Supplies

variable {path : Path} {text : String} {table : List (String × Json)}

theorem exists_of_tableOfText (h : tableOfText path text = .ok table) :
    ∃ members, Json.read text = .ok (.object members) ∧
      (Json.Document.object members).isEncodable = true ∧
      table = NameMap.sorted (NameMap.ofPairs (Json.Document.memberValues members)) := by
  rw [tableOfText] at h
  split at h
  · cases h
  · rename_i members hread
    split at h
    · rename_i hencodable
      exact ⟨members, hread, hencodable, (Except.ok.inj h).symm⟩
    · cases h
  · cases h

/-- A table that stands in a text is read from it. -/
theorem tableOfText_of_read (hread : Json.read text = .ok (Json.object table).document)
    (htable : (Json.object table).isReadable = true) :
    tableOfText path text = .ok (NameMap.sorted table) := by
  have hvalues :
      NameMap.ofPairs (Json.Document.memberValues (Json.memberDocuments table)) = table :=
    Json.object.inj (Json.value_document htable)
  rw [tableOfText, hread]
  exact (if_pos (Json.isEncodable_document (.object table))).trans
    (congrArg (fun members => Except.ok (NameMap.sorted members)) hvalues)

/-- The canonical text of a table that was read holds this table. -/
theorem tableOfText_tableText (h : tableOfText path text = .ok table) :
    tableOfText path (tableText table) = .ok table := by
  obtain ⟨members, hread, -, rfl⟩ := exists_of_tableOfText h
  obtain ⟨hnames, hvalues⟩ := Json.isReadable_object_iff.mp (Json.isReadable_of_read hread)
  have hsorted := Json.isReadable_object_iff.mpr ⟨NameMap.nodup_names_sorted hnames,
    fun m hm => hvalues m ((NameMap.sorted_perm _).mem_iff.mp hm)⟩
  rw [tableText, tableOfText_of_read (Json.read_write_newline ⟨some 4⟩ hsorted) hsorted,
    NameMap.sorted_sorted]

/-- A table stands in a file in canonical form. -/
structure Stands (storage : Storage) (path : Path) (table : List (String × Json)) : Prop where
  text : storage.readText path = .ok (tableText table)
  table : tableOfText path (tableText table) = .ok table

variable {before after session : Session}

/-- The session behind a file that was written again, with what was said before. -/
def rewritten (before : Session) (path : Path) (written : Storage) : Session :=
  { before with
    storage := written
    log := before.log ++ [⟨.info, .supplies, "Sorting " ++ path.text⟩] }

/-- What can come of loading a table. -/
inductive Loading (path : Path) (before : Session) :
    Except Failure (List (String × Json)) × Session → Prop
  | unread {e : FileError} (htext : before.storage.readText path = .error e) :
    Loading path before (.error (tableFailure path e), before)
  | refused {text : String} {failure : Failure} (htext : before.storage.readText path = .ok text)
    (hfailure : tableOfText path text = .error failure) (hother : failure ≠ .unencodable) :
    Loading path before (.error failure, before)
  | emptied {text : String} {written : Storage} (htext : before.storage.readText path = .ok text)
    (hfailure : tableOfText path text = .error .unencodable)
    (hwrite : before.storage.writeText path "" = .ok written) :
    Loading path before (.error .unencodable, rewritten before path written)
  | kept {table : List (String × Json)}
    (htext : before.storage.readText path = .ok (tableText table))
    (htable : tableOfText path (tableText table) = .ok table) :
    Loading path before (.ok table, before)
  | sorted {text : String} {table : List (String × Json)} {written : Storage}
    (htext : before.storage.readText path = .ok text) (htable : tableOfText path text = .ok table)
    (hother : tableText table ≠ text)
    (hwrite : before.storage.writeText path (tableText table) = .ok written) :
    Loading path before (.ok table, rewritten before path written)

/-- A file whose text was read can be written again. -/
theorem exists_runOn_rewriteTable (htext : before.storage.readText path = .ok text)
    (other : String) : ∃ written, before.storage.writeText path other = .ok written ∧
      (rewriteTable path other).runOn before = (.ok (), rewritten before path written) := by
  obtain ⟨content, hcontent, -⟩ := Storage.readText_eq_ok.mp htext
  obtain ⟨written, hwrite⟩ := (Storage.writable_of_content? hcontent).exists_writeText other
  refine ⟨written, hwrite, ?_⟩
  rw [rewriteTable, Action.runOn_bind, Action.runOn_log]
  dsimp only
  rw [Action.runOn_writeText]
  dsimp only
  rw [hwrite]
  rfl

theorem loading_loadTable (path : Path) (before : Session) :
    Loading path before ((loadTable path).runOn before) := by
  rw [loadTable, Action.runOn_bind, Action.runOn_readText]
  cases htext : before.storage.readText path with
  | error e => exact .unread htext
  | ok text =>
    dsimp only
    cases htable : tableOfText path text with
    | error failure =>
      dsimp only
      by_cases hunencodable : failure = .unencodable
      · obtain ⟨written, hwrite, hrun⟩ := exists_runOn_rewriteTable htext ""
        rw [if_pos hunencodable, Action.runOn_bind, hrun]
        rw [hunencodable] at htable ⊢
        exact .emptied htext htable hwrite
      · rw [if_neg hunencodable]
        exact .refused htext htable hunencodable
    | ok table =>
      dsimp only
      by_cases hsame : tableText table = text
      · rw [if_neg (not_not_intro hsame)]
        rw [← hsame] at htext htable
        exact .kept htext htable
      · obtain ⟨written, hwrite, hrun⟩ := exists_runOn_rewriteTable htext (tableText table)
        rw [if_pos hsame, Action.runOn_bind, hrun]
        exact .sorted htext htable hsame hwrite

/-- What comes of loading where the file holds a table. -/
theorem Loading.of_table {outcome : Except Failure (List (String × Json)) × Session}
    (h : Loading path before outcome) (htext : before.storage.readText path = .ok text)
    (htable : tableOfText path text = .ok table) :
    tableText table = text ∧ outcome = (.ok table, before) ∨
      tableText table ≠ text ∧ ∃ written,
        before.storage.writeText path (tableText table) = .ok written ∧
          outcome = (.ok table, rewritten before path written) := by
  cases h with
  | unread htext' => cases htext.symm.trans htext'
  | refused htext' hfailure =>
    obtain rfl := Except.ok.inj (htext.symm.trans htext')
    cases htable.symm.trans hfailure
  | emptied htext' hfailure =>
    obtain rfl := Except.ok.inj (htext.symm.trans htext')
    cases htable.symm.trans hfailure
  | kept htext' htable' =>
    obtain rfl := Except.ok.inj (htext.symm.trans htext')
    obtain rfl := Except.ok.inj (htable.symm.trans htable')
    exact .inl ⟨rfl, rfl⟩
  | sorted htext' htable' hother hwrite =>
    obtain rfl := Except.ok.inj (htext.symm.trans htext')
    obtain rfl := Except.ok.inj (htable.symm.trans htable')
    exact .inr ⟨hother, _, hwrite, rfl⟩

/-- What comes of loading where the file holds no table that can be written. -/
theorem Loading.of_failure {outcome : Except Failure (List (String × Json)) × Session}
    {failure : Failure} (h : Loading path before outcome)
    (htext : before.storage.readText path = .ok text)
    (hfailure : tableOfText path text = .error failure) :
    failure ≠ .unencodable ∧ outcome = (.error failure, before) ∨
      failure = .unencodable ∧ ∃ written,
        before.storage.writeText path "" = .ok written ∧
          outcome = (.error failure, rewritten before path written) := by
  cases h with
  | unread htext' => cases htext.symm.trans htext'
  | refused htext' hfailure' hother =>
    obtain rfl := Except.ok.inj (htext.symm.trans htext')
    obtain rfl := Except.error.inj (hfailure.symm.trans hfailure')
    exact .inl ⟨hother, rfl⟩
  | emptied htext' hfailure' hwrite =>
    obtain rfl := Except.ok.inj (htext.symm.trans htext')
    obtain rfl := Except.error.inj (hfailure.symm.trans hfailure')
    exact .inr ⟨rfl, _, hwrite, rfl⟩
  | kept htext' htable =>
    obtain rfl := Except.ok.inj (htext.symm.trans htext')
    cases hfailure.symm.trans htable
  | sorted htext' htable =>
    obtain rfl := Except.ok.inj (htext.symm.trans htext')
    cases hfailure.symm.trans htable

/-- A table that stands in canonical form is loaded, and that is all. -/
theorem Stands.loadTable (h : Stands session.storage path table) :
    (loadTable path).runOn session = (.ok table, session) :=
  ((loading_loadTable path session).of_table h.text h.table).elim And.right
    fun hother => absurd rfl hother.1

/-- Loading a table leaves it in canonical form, and no other file is changed. -/
theorem stands_of_loadTable (h : (loadTable path).runOn before = (.ok table, after)) :
    Stands after.storage path table ∧
      ∀ other : Path, other.place ≠ path.place →
        after.storage.content? other = before.storage.content? other := by
  have hloading := loading_loadTable path before
  rw [h] at hloading
  cases hloading with
  | kept htext htable => exact ⟨⟨htext, htable⟩, fun _ _ => rfl⟩
  | sorted htext htable _ hwrite =>
    obtain ⟨old, hold, -⟩ := Storage.readText_eq_ok.mp htext
    exact ⟨⟨Storage.readText_writeText hwrite (Json.not_mem_write _ _),
        tableOfText_tableText htable⟩,
      fun other hother => Storage.content?_writeText_of_ne hwrite hold hother⟩

theorem settles_loadTable (path : Path) : Action.Settles [path] (loadTable path) := by
  refine ⟨fun h other hother => ?_, fun {before after later table} h hlater => ?_⟩
  · rw [List.map_singleton, List.mem_singleton] at hother
    exact (stands_of_loadTable h).2 other hother
  · have hstands := (stands_of_loadTable h).1
    obtain ⟨content, hcontent, hread⟩ := Storage.readText_eq_ok.mp hstands.text
    have hkept := hlater path List.mem_cons_self content hcontent
    have hagain : Stands later.storage path table :=
      ⟨Storage.readText_eq_ok.mpr ⟨content, hkept, hread⟩, hstands.table⟩
    exact hagain.loadTable

theorem settles_loadArity (path : Path) : Action.Settles [path] (loadArity path) := by
  refine (settles_loadTable path).bind_nil fun table => ?_
  cases table.mapM arityOf with
  | ok counts => exact Action.settles_pure counts
  | error e => exact Action.settles_throw [] (.input e)

/-- The supplementary files in a folder. -/
def paths (folder : Path) : List Path :=
  [headerPath folder, overridesPath folder, arityPath folder]

theorem settles_load {folder : Path} (h : ((paths folder).map Path.place).Nodup) :
    Action.Settles (paths folder) (load folder) := by
  obtain ⟨hheader, hoverrides, -⟩ : (headerPath folder).place ∉
      [(overridesPath folder).place, (arityPath folder).place] ∧
      (overridesPath folder).place ∉ [(arityPath folder).place] ∧ _ := by
    simpa only [paths, List.map_cons, List.map_nil, List.nodup_cons] using h
  show Action.Settles ([headerPath folder] ++ ([overridesPath folder] ++ [arityPath folder])) _
  refine (Action.settles_readText _ _).bind (fun header => ?_)
    fun path hpath => List.mem_singleton.mp hpath ▸ hheader
  refine (settles_loadTable _).bind (fun overrides => ?_)
    fun path hpath => List.mem_singleton.mp hpath ▸ hoverrides
  exact (settles_loadArity _).bind_nil fun arity => Action.settles_pure _

end Supplies

theorem Reflected.settles_load (path : Path) : Action.Settles [path] (load path) := by
  refine (Action.settles_readText path _).bind_nil fun text => ?_
  cases rootOfText path text with
  | ok root => exact Action.settles_pure (root, _)
  | error failure => exact Action.settles_throw [] failure

namespace Inputs

/-- The files that the inputs of a run are loaded from. -/
def paths (suppliesFolder reflection : Option Path) : List Path :=
  suppliesFolder.toList.flatMap Supplies.paths ++ reflection.toList

/-- The inputs of a run can be loaded again, if no two of them are in one file. -/
theorem settles_load {suppliesFolder reflection : Option Path}
    (h : ((paths suppliesFolder reflection).map Path.place).Nodup) :
    Action.Settles (paths suppliesFolder reflection) (load suppliesFolder reflection) := by
  rw [paths, List.map_append, List.nodup_append] at h
  obtain ⟨hsupplies, -, hdisjoint⟩ := h
  refine Action.Settles.bind ?_ (fun supplies => ?_)
    fun path hpath hplace => hdisjoint _ (List.mem_map_of_mem hpath) _ hplace rfl
  · cases suppliesFolder with
    | none => exact Action.settles_pure Supplies.bundled
    | some folder =>
      simp only [Option.toList_some, List.flatMap_singleton] at hsupplies ⊢
      exact Supplies.settles_load hsupplies
  · cases reflection with
    | none => exact Action.settles_throw [] .noPath
    | some path => exact (Reflected.settles_load path).bind_nil fun root => Action.settles_pure _

end Inputs

end ScriptTypings

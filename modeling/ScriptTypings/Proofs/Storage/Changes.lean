import Mathlib.Data.List.Infix
import ScriptTypings.Proofs.Storage.Kept

/-!
# What changes in a storage

To write a file changes what stands at its place and nothing else. To make folders puts them only
where nothing was, on the way along a path: `addsFolders_makeFolder` says so even of folders that
cannot be made. A path that is `Inside` of another is not to be told apart from it by such changes.
-/

namespace ScriptTypings

/-- The places on the way along a path, from where it begins to where it leads. -/
def Path.way (path : Path) : List (List String) :=
  path.parts.inits.map fun front => front.foldl Storage.step (Storage.origin path)

namespace Storage

/-- Whether a place is another one, or below it: from there, names lead down to it. The root, and
what is around the working directory, are not below the working directory. -/
def IsBelow (at_ around : List String) : Prop :=
  ∃ names, at_ = around ++ names ∧ ∀ name ∈ names, name ≠ "/" ∧ name ≠ ".."

variable {s s' s'' : Storage} {path : Path} {at_ around : List String}

theorem IsBelow.refl (at_ : List String) : IsBelow at_ at_ :=
  ⟨[], (List.append_nil at_).symm, nofun⟩

theorem isBelow_iff {at_ around : List String} : IsBelow at_ around ↔
    around <+: at_ ∧ ∀ name ∈ at_.drop around.length, name ≠ "/" ∧ name ≠ ".." := by
  constructor
  · rintro ⟨names, rfl, hdown⟩
    exact ⟨List.prefix_append _ _, by rwa [List.drop_left]⟩
  · rintro ⟨⟨names, rfl⟩, hdown⟩
    exact ⟨names, rfl, by rwa [List.drop_left] at hdown⟩

instance (at_ around : List String) : Decidable (IsBelow at_ around) :=
  decidable_of_iff _ isBelow_iff.symm

theorem isBelow_append_singleton {name : String} (hroot : name ≠ "/") (hback : name ≠ "..") :
    IsBelow (at_ ++ [name]) at_ :=
  ⟨[name], rfl, by simpa using ⟨hroot, hback⟩⟩

/-- What is below a place that a name leads to from another one is below that, or around it. -/
theorem isBelow_of_append_singleton {name : String} (h : IsBelow (at_ ++ [name]) around) :
    IsBelow at_ around ∨ around = at_ ++ [name] := by
  obtain ⟨names, hnames, hdown⟩ := h
  rcases List.eq_nil_or_concat names with rfl | ⟨front, last, rfl⟩
  · exact .inr (by rw [hnames, List.append_nil])
  · rw [List.concat_eq_append, ← List.append_assoc] at hnames
    obtain ⟨hfront, -⟩ := List.append_inj' hnames rfl
    refine .inl ⟨front, hfront, fun name hname => hdown name ?_⟩
    rw [List.concat_eq_append]
    exact List.mem_append_left _ hname

end Storage

namespace Path

theorem place_mem_way (path : Path) : path.place ∈ path.way :=
  List.mem_map.mpr ⟨path.parts, (List.mem_inits _ _).mpr (List.prefix_refl _), rfl⟩

theorem way_parent_subset (path : Path) : path.parent.way ⊆ path.way := by
  intro at_ hat
  obtain ⟨front, hfront, rfl⟩ := List.mem_map.mp hat
  have hlonger : front <+: path.parts :=
    ((List.mem_inits _ _).mp hfront).trans (List.dropLast_prefix _)
  exact List.mem_map.mpr ⟨front, (List.mem_inits _ _).mpr hlonger, rfl⟩

/-- Whether a path leads to the place of another one, or to what is below it, or passes there. -/
def Inside (path other : Path) : Prop :=
  ∃ at_ ∈ path.way, Storage.IsBelow at_ other.place

instance (path other : Path) : Decidable (path.Inside other) :=
  inferInstanceAs (Decidable (∃ at_ ∈ path.way, Storage.IsBelow at_ other.place))

/-- Whether two paths lead to different places, neither of them inside the other. -/
def IsApart (path other : Path) : Prop :=
  ¬ path.Inside other ∧ ¬ other.Inside path

instance (path other : Path) : Decidable (path.IsApart other) :=
  inferInstanceAs (Decidable (¬ path.Inside other ∧ ¬ other.Inside path))

theorem place_file (folder : Path) {name : String} (h : name ≠ "..") :
    (folder.file name).place = folder.place ++ [name] := by
  have hsame : Storage.origin (folder.file name) = Storage.origin folder := rfl
  rw [place, hsame, file, List.foldl_append, List.foldl_cons, List.foldl_nil, Storage.step,
    if_neg h]
  rfl

/-- What is directly in a folder is not on the way along a path apart from it, nor below that. -/
theorem IsApart.not_mem_way {path folder : Path} (h : path.IsApart folder) {name : String}
    (hroot : name ≠ "/") (hback : name ≠ "..") : folder.place ++ [name] ∉ path.way :=
  fun hway => h.1 ⟨_, hway, Storage.isBelow_append_singleton hroot hback⟩

theorem IsApart.not_isBelow {path folder : Path} (h : path.IsApart folder) {name : String}
    (hroot : name ≠ "/") (hback : name ≠ "..") :
    ¬ Storage.IsBelow (folder.place ++ [name]) path.place := by
  intro hbelow
  rcases Storage.isBelow_of_append_singleton hbelow with hfolder | hplace
  · exact h.2 ⟨_, folder.place_mem_way, hfolder⟩
  · exact h.not_mem_way hroot hback (hplace ▸ path.place_mem_way)

end Path

namespace Storage

variable {s s' s'' : Storage} {path : Path} {at_ : List String}

/-! ### Files -/

theorem item?_put_cases (s : Storage) (place : List String) (item : Item) (at_ : List String) :
    (s.put place item).item? at_ = s.item? at_ ∨
      at_ = place ∧ (s.put place item).item? at_ = some item := by
  by_cases hat : at_ = place
  · subst hat
    cases hgiven : isGiven at_ with
    | true => exact .inl (by rw [item?, item?, hgiven, if_pos rfl, if_pos rfl])
    | false => exact .inr ⟨rfl, item?_put_self hgiven s item⟩
  · exact .inl (item?_put_of_ne hat s item)

/-- To write a file changes nothing but what stands at its place. -/
theorem item?_writeText {text : String} (h : s.writeText path text = .ok s') (at_ : List String) :
    s'.item? at_ = s.item? at_ ∨ at_ = path.place ∧ s'.item? at_ = some (.file text.toUTF8) := by
  obtain ⟨found, hlocate, -, rfl⟩ := exists_of_write h
  rw [← eq_place_of_locate hlocate]
  exact item?_put_cases s found _ at_

/-! ### Folders -/

/-- At some places where nothing was there may be folders now, and nothing else has changed. -/
def AddsFolders (places : List (List String)) (s s' : Storage) : Prop :=
  ∀ at_, s'.item? at_ = s.item? at_ ∨
    at_ ∈ places ∧ s.item? at_ = none ∧ s'.item? at_ = some .folder

variable {places places' : List (List String)}

theorem AddsFolders.refl (places : List (List String)) (s : Storage) : AddsFolders places s s :=
  fun _ => .inl rfl

theorem AddsFolders.trans (h : AddsFolders places s s') (h' : AddsFolders places s' s'') :
    AddsFolders places s s'' := by
  intro at_
  rcases h at_ with hsame | ⟨hplace, hnone, hmade⟩
  · rcases h' at_ with hsame' | ⟨hplace, hnone, hmade⟩
    · exact .inl (hsame'.trans hsame)
    · exact .inr ⟨hplace, hsame ▸ hnone, hmade⟩
  · rcases h' at_ with hsame' | ⟨-, hnone', -⟩
    · exact .inr ⟨hplace, hnone, hsame'.trans hmade⟩
    · exact absurd (hmade.symm.trans hnone') nofun

theorem AddsFolders.mono (h : AddsFolders places s s') (hsubset : places ⊆ places') :
    AddsFolders places' s s' :=
  fun at_ => (h at_).imp_right fun hmade => ⟨hsubset hmade.1, hmade.2⟩

theorem addsFolders_makeOne (s : Storage) (path : Path) :
    AddsFolders path.way s (s.makeOne path).1 := by
  rw [makeOne]
  split
  · rename_i made hmade
    rw [makeNew] at hmade
    split at hmade
    · cases hmade
    · rename_i found hlocate
      split at hmade
      · cases hmade
      · rename_i hnone
        rw [← Except.ok.inj hmade]
        intro at_
        rcases item?_put_cases s found .folder at_ with hsame | ⟨rfl, hmade⟩
        · exact .inl hsame
        · rw [Bool.not_eq_true, Option.isSome_eq_false_iff, Option.isNone_iff_eq_none] at hnone
          exact .inr ⟨eq_place_of_locate hlocate ▸ path.place_mem_way, hnone, hmade⟩
  · split
    · exact AddsFolders.refl _ s
    · exact AddsFolders.refl _ s
    · exact AddsFolders.refl _ s

/-- Whether or not a folder can be made, there are at most some more folders on the way to it. -/
theorem addsFolders_makeFolder (s : Storage) (path : Path) :
    AddsFolders path.way s (s.makeFolder path).1 := by
  induction s, path using makeFolder.induct with
  | case1 s path s₁ hone hparts =>
    have hmade := addsFolders_makeOne s path
    rw [hone] at hmade
    rw [makeFolder, hone]
    dsimp only
    rwa [if_pos hparts]
  | case2 s path s₁ hone hparts s₂ hparent ih =>
    have hmade := addsFolders_makeOne s path
    rw [hone] at hmade
    rw [hparent] at ih
    rw [makeFolder, hone]
    dsimp only
    rw [if_neg hparts, hparent]
    exact (hmade.trans (ih.mono path.way_parent_subset)).trans (addsFolders_makeOne s₂ path)
  | case3 s path s₁ hone hparts hfailed ih =>
    have hmade := addsFolders_makeOne s path
    rw [hone] at hmade
    rw [makeFolder, hone]
    dsimp only
    rw [if_neg hparts]
    cases hparent : s₁.makeFolder path.parent with
    | mk s₂ error? =>
      cases error? with
      | none => exact absurd hparent (hfailed s₂)
      | some reason =>
        rw [hparent] at ih
        exact hmade.trans (ih.mono path.way_parent_subset)
  | case4 s path hone =>
    have hmade := addsFolders_makeOne s path
    rw [makeFolder]
    split
    · rename_i s₁ hnotFound
      exact absurd hnotFound (hone s₁)
    · exact hmade

end Storage

end ScriptTypings

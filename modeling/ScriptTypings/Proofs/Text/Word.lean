import ScriptTypings.Proofs.Text.Classes
import ScriptTypings.Proofs.Text.Search

/-!
# Words in a text

A word stands in a text where no word character is next to it, and it does not reach across a
character that is none (`HasWord.of_append_cons`).
-/

namespace ScriptTypings.Text

/-- A word stands somewhere in a text, with no word character right before or behind it. -/
def HasWord (word s : List Char) : Prop :=
  ∃ before after, s = before ++ word ++ after ∧ (∀ c ∈ before.getLast?, isWord c = false) ∧
    ∀ c ∈ after.head?, isWord c = false

/-- A filled text of word characters. -/
structure IsWordText (word : List Char) : Prop where
  ne_nil : word ≠ []
  isWord : ∀ c ∈ word, isWord c = true

theorem isWordText_of_all {word : List Char} (hne : word ≠ []) (h : word.all isWord = true) :
    IsWordText word :=
  ⟨hne, List.all_eq_true.mp h⟩

theorem IsWordText.not_mem {word : List Char} (h : IsWordText word) {c : Char}
    (hc : Text.isWord c = false) : c ∉ word :=
  fun hmem => Bool.false_ne_true (hc.symm.trans (h.isWord c hmem))

theorem HasWord.isInfix {word s : List Char} (h : HasWord word s) : word <:+: s := by
  obtain ⟨before, after, hs, -⟩ := h
  exact ⟨before, after, hs.symm⟩

variable {word : List Char} (hword : IsWordText word)

include hword

/-- A word stands on one side of a character that is no word character. -/
theorem HasWord.of_append_cons {c : Char} (hc : isWord c = false) {x y : List Char}
    (h : HasWord word (x ++ c :: y)) : HasWord word x ∨ HasWord word y := by
  obtain ⟨before, after, hs, hbefore, hafter⟩ := h
  rw [List.append_assoc] at hs
  rcases List.append_eq_append_iff.mp hs with ⟨d, rfl, hd⟩ | ⟨d, rfl, hd⟩
  · cases d with
    | nil =>
      cases word with
      | nil => exact absurd rfl hword.ne_nil
      | cons w word =>
        obtain ⟨rfl, -⟩ := List.cons.inj hd
        exact absurd List.mem_cons_self (hword.not_mem hc)
    | cons e d =>
      obtain ⟨rfl, rfl⟩ := List.cons.inj hd
      refine .inr ⟨d, after, (List.append_assoc _ _ _).symm, fun a ha => ?_, hafter⟩
      apply hbefore
      cases d with
      | nil => cases ha
      | cons e d =>
        rw [Option.mem_def] at ha ⊢
        rw [List.getLast?_append, List.getLast?_cons_cons, ha]
        rfl
  · rcases List.append_eq_append_iff.mp hd with ⟨e, rfl, he⟩ | ⟨e, rfl, he⟩
    · refine .inl ⟨before, e, (List.append_assoc _ _ _).symm, hbefore, fun a ha => ?_⟩
      apply hafter
      cases e with
      | nil => cases ha
      | cons b e =>
        rw [he]
        exact ha
    · cases e with
      | nil => exact .inl ⟨before, [], by simp, hbefore, nofun⟩
      | cons b e =>
        obtain ⟨rfl, -⟩ := List.cons.inj he
        exact absurd (List.mem_append_right d List.mem_cons_self) (hword.not_mem hc)

theorem not_hasWord_of_allBlank {b : List Char} (hb : AllBlank b) : ¬ HasWord word b := by
  intro h
  obtain ⟨c, hc⟩ := List.exists_mem_of_ne_nil word hword.ne_nil
  exact hword.not_mem (isWord_of_isBlank (hb c (h.isInfix.subset hc))) hc

theorem not_hasWord_nil : ¬ HasWord word [] :=
  not_hasWord_of_allBlank hword nofun

theorem HasWord.of_allBlank_append {b s : List Char} (hb : AllBlank b)
    (h : HasWord word (b ++ s)) : HasWord word s := by
  induction b with
  | nil => exact h
  | cons c b ih =>
    have hrest := HasWord.of_append_cons hword (x := [])
      (isWord_of_isBlank (hb c List.mem_cons_self)) h
    rcases hrest with hnil | hrest
    · exact absurd hnil (not_hasWord_nil hword)
    · exact ih (fun d hd => hb d (List.mem_cons_of_mem c hd)) hrest

theorem HasWord.of_append_allBlank {b s : List Char} (hb : AllBlank b)
    (h : HasWord word (s ++ b)) : HasWord word s := by
  cases b with
  | nil => rwa [List.append_nil] at h
  | cons c b =>
    have hrest := HasWord.of_append_cons hword (isWord_of_isBlank (hb c List.mem_cons_self)) h
    refine hrest.resolve_right (not_hasWord_of_allBlank hword fun d hd => ?_)
    exact hb d (List.mem_cons_of_mem c hd)

/-- The words of a text are those of the trimmed text. -/
theorem HasWord.of_trim {s : List Char} (h : HasWord word s) : HasWord word (trim s) := by
  obtain ⟨lead, trail, hlead, htrail, hs⟩ := exists_trim s
  rw [hs] at h
  exact .of_allBlank_append hword hlead (.of_append_allBlank hword htrail h)

/-- The first place of a word between two spaces is behind a text that does not have the word. -/
theorem splitAt?_spaced {x : List Char} (hx : ¬ HasWord word x) (r : List Char) :
    splitAt? (' ' :: (word ++ [' '])) (x ++ ' ' :: (word ++ [' ']) ++ r) = some (x, r) := by
  have hspace : isWord ' ' = false := by decide
  apply splitAt?_append (List.cons_ne_nil _ _)
  intro before after hs
  by_contra hshort
  apply hx
  rw [List.append_assoc, List.append_assoc] at hs
  rcases List.append_eq_append_iff.mp hs with ⟨d, rfl, -⟩ | ⟨d, rfl, hd⟩
  · exact absurd (by simp) hshort
  · cases d with
    | nil => exact absurd (by simp) hshort
    | cons e d =>
      simp only [List.cons_append, List.append_assoc, List.cons.injEq] at hd
      obtain ⟨rfl, hd⟩ := hd
      -- the word stands in what is left of `x` behind the first space
      rcases List.append_eq_append_iff.mp hd with ⟨f, rfl, hf⟩ | ⟨f, rfl, hf⟩
      · refine ⟨before ++ [' '], f, by simp, fun c hc => ?_, fun c hc => ?_⟩
        · rw [List.getLast?_concat, Option.mem_some_iff] at hc
          exact hc ▸ hspace
        · cases f with
          | nil => cases hc
          | cons b f =>
            obtain ⟨rfl, -⟩ := List.cons.inj hf
            exact Option.some.inj hc ▸ hspace
      · cases f with
        | nil =>
          refine ⟨before ++ [' '], [], by simp, fun c hc => ?_, nofun⟩
          rw [List.getLast?_concat, Option.mem_some_iff] at hc
          exact hc ▸ hspace
        | cons b f =>
          obtain ⟨rfl, -⟩ := List.cons.inj hf
          exact absurd (List.mem_append_right d List.mem_cons_self) (hword.not_mem hspace)

end ScriptTypings.Text

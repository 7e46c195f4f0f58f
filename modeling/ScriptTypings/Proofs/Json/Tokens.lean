import ScriptTypings.Proofs.Json.Numbers

/-!
# The tokens of a written value

`scans_writeChars` says that a readable value is cut into the tokens of its document when it is
written, in every layout.
-/

namespace ScriptTypings.Json

open Text Number

/-- Whatever follows a written value, the value is cut into the tokens of its document. -/
def IsScanned (layout : Layout) (value : Json) : Prop :=
  ∀ depth rest ts, EndsNumber rest → Scans rest ts →
    Scans (writeChars layout depth value ++ rest) (tokens value.document ++ ts)

theorem scans_writeItems {layout : Layout} {items : List Json}
    (hitems : ∀ item ∈ items, IsScanned layout item) (depth : Nat) {rest : List Char}
    {ts : List Token} (hrest : EndsNumber rest) (h : Scans rest ts) :
    Scans (writeItems layout depth items ++ rest) (itemTokens (itemDocuments items) ++ ts) := by
  induction items with
  | nil => exact h
  | cons item items ih =>
    rw [List.forall_mem_cons] at hitems
    obtain ⟨gaps, hgaps, hblank⟩ := exists_separator layout depth
    rw [writeItems, itemDocuments, itemTokens, hgaps]
    simp only [List.append_assoc, List.cons_append]
    have hvalue := hitems.1 depth _ _ (endsNumber_writeItems layout depth items hrest)
      (ih hitems.2)
    exact (hvalue.gaps hblank).punctuation rfl rfl

theorem scans_writeMembers {layout : Layout} {members : List (String × Json)}
    (hmembers : ∀ m ∈ members, IsScanned layout m.2) (depth : Nat) {rest : List Char}
    {ts : List Token} (hrest : EndsNumber rest) (h : Scans rest ts) :
    Scans (writeMembers layout depth members ++ rest)
      (memberTokens (memberDocuments members) ++ ts) := by
  induction members with
  | nil => exact h
  | cons member members ih =>
    rw [List.forall_mem_cons] at hmembers
    obtain ⟨gaps, hgaps, hblank⟩ := exists_separator layout depth
    rw [writeMembers, memberDocuments, memberTokens, hgaps]
    simp only [List.append_assoc, List.cons_append]
    have hvalue := hmembers.1 depth _ _ (endsNumber_writeMembers layout depth members hrest)
      (ih hmembers.2)
    have hcolon := (hvalue.gap (c := ' ') rfl).punctuation (c := ':') rfl rfl
    exact ((scans_quoteText member.1 hcolon).gaps hblank).punctuation rfl rfl

theorem isScanned_scalar (layout : Layout) {value : Json} (hscalar : value.isScalar = true)
    (hvalue : value.isReadable = true) : IsScanned layout value := by
  intro depth rest ts hrest h
  cases value with
  | null => exact h.scalar (c := 'n') rfl rfl rfl (by simp; omega)
  | bool value =>
    cases value with
    | false => exact h.scalar (c := 'f') rfl rfl rfl (by simp; omega)
    | true => exact h.scalar (c := 't') rfl rfl rfl (by simp; omega)
  | whole n => exact scans_whole n hrest h
  | real x => exact scans_real hvalue hrest h
  | text s => exact scans_quoteText s h
  | list items => cases hscalar
  | object members => cases hscalar

/-- A written value is cut into the tokens of its document, in every layout. -/
theorem scans_writeChars (layout : Layout) (value : Json) (hvalue : value.isReadable = true) :
    IsScanned layout value := by
  induction value using tree_induction with
  | list items ih =>
    intro depth rest ts hrest h
    rw [isReadable_list_iff] at hvalue
    cases items with
    | nil => exact (h.punctuation rfl rfl).punctuation rfl rfl
    | cons item items =>
      rw [List.forall_mem_cons] at ih hvalue
      -- from the back, as every part is cut in front of those behind it
      have hclose := (h.punctuation (c := ']') rfl rfl).gaps (isGap_of_mem_gap layout depth)
      have hends := endsNumber_gap layout depth (c := ']') rfl rest
      have hrest := scans_writeItems (fun item hitem => ih.2 item hitem (hvalue.2 item hitem))
        (depth + 1) hends hclose
      have hitem := ih.1 hvalue.1 (depth + 1) _ _ (endsNumber_writeItems _ _ items hends) hrest
      rw [writeChars, document, itemDocuments, tokens]
      simp only [List.append_assoc, List.cons_append, List.nil_append]
      exact (hitem.gaps (isGap_of_mem_gap layout (depth + 1))).punctuation rfl rfl
  | object members ih =>
    intro depth rest ts hrest h
    obtain ⟨-, hvalue⟩ := isReadable_object_iff.mp hvalue
    cases members with
    | nil => exact (h.punctuation rfl rfl).punctuation rfl rfl
    | cons member members =>
      rw [List.forall_mem_cons] at ih hvalue
      have hclose := (h.punctuation (c := '\x7d') rfl rfl).gaps (isGap_of_mem_gap layout depth)
      have hends := endsNumber_gap layout depth (c := '\x7d') rfl rest
      have hrest := scans_writeMembers (fun m hm => ih.2 m hm (hvalue.2 m hm)) (depth + 1) hends
        hclose
      have hmember := ih.1 hvalue.1 (depth + 1) _ _ (endsNumber_writeMembers _ _ members hends)
        hrest
      have hcolon := (hmember.gap (c := ' ') rfl).punctuation (c := ':') rfl rfl
      have hname := scans_quoteText member.1 hcolon
      rw [writeChars, document, memberDocuments, tokens]
      simp only [List.append_assoc, List.cons_append, List.nil_append]
      exact (hname.gaps (isGap_of_mem_gap layout (depth + 1))).punctuation rfl rfl
  | scalar value hscalar => exact isScanned_scalar layout hscalar hvalue

end ScriptTypings.Json

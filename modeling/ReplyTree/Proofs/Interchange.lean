import Mathlib.Data.List.Forall2
import ReplyTree.Proofs.Issuing
import ReplyTree.Proofs.RoundTrip
import ReplyTree.Proofs.Traversal

/- Positions and their texts, given for one another. Whatever takes either reads a text first and
   goes on with the position, so the two come to the same wherever texts of the layout are read
   at all. -/
namespace ReplyTree

/-- A value that gives a position of the layout: the position itself or its text. -/
def Layout.Denotes (l : Layout) (v : Value) (p : Position) : Prop :=
  p.layout = l ∧ (v = .position p ∨ v = .text p.text)

abbrev Layout.Presents (l : Layout) : List Value → List Position → Prop :=
  List.Forall₂ l.Denotes

def ReadAlike (bound : Decimal.Bound) (choice : LayoutChoice) (v w : Value) : Prop :=
  Position.ofValue bound v choice = Position.ofValue bound w choice

section Congruence

variable {bound : Decimal.Bound} {choice : LayoutChoice} {items items' : List Value}

theorem fresh_after_congr (first : Position) (next : Nat)
    (alike : List.Forall₂ (ReadAlike bound choice) items items') :
    freshAfter bound choice first next items = freshAfter bound choice first next items' := by
  induction alike generalizing next with
  | nil => rfl
  | cons head _ ih =>
    unfold ReadAlike at head
    simp only [freshAfter, head, ih]

theorem fresh_ordinal_congr (alike : List.Forall₂ (ReadAlike bound choice) items items') :
    freshOrdinal bound choice items = freshOrdinal bound choice items' := by
  cases alike with
  | nil => rfl
  | cons head tail =>
    unfold ReadAlike at head
    simp only [freshOrdinal, head, fresh_after_congr _ _ tail]

theorem of_values_congr (alike : List.Forall₂ (ReadAlike bound choice) items items') :
    Position.ofValues bound choice items = Position.ofValues bound choice items' := by
  induction alike with
  | nil => rfl
  | cons head _ ih =>
    unfold ReadAlike at head
    simp only [Position.ofValues, head, ih]

theorem outline_congr (limit : Value) (current : Nat)
    (alike : List.Forall₂ (ReadAlike bound choice) items items') :
    Listing.outline bound limit choice current items =
      Listing.outline bound limit choice current items' := by
  induction alike generalizing current with
  | nil => rfl
  | cons head _ ih =>
    unfold ReadAlike at head
    simp only [Listing.outline, head, ih]

end Congruence

section Texts

variable {bound : Decimal.Bound} {l : Layout} {v : Value} {p : Position}

theorem Layout.Denotes.read (denotes : l.Denotes v p) (short : bound.exceeded? l.width = none) :
    Position.ofValue bound v (.named l) = pure p := by
  obtain ⟨rfl, rfl | rfl⟩ := denotes
  · exact Position.ofValue_named bound rfl
  · exact Position.read_text p short

theorem Layout.Presents.read_alike {items : List Value} {ps : List Position}
    (presents : l.Presents items ps) (short : bound.exceeded? l.width = none) :
    List.Forall₂ (ReadAlike bound (.named l)) items (ps.map .position) := by
  rw [List.forall₂_map_right_iff]
  refine presents.imp ?_
  intro v p denotes
  have width : p.layout.width = l.width := by rw [denotes.1]
  exact (denotes.read short).trans (Position.ofValue_named bound width).symm

theorem Layout.Presents.read {items : List Value} {ps : List Position}
    (presents : l.Presents items ps) (short : bound.exceeded? l.width = none) :
    (Position.ofValues bound (.named l) items).result = .ok ps := by
  apply of_values_read
  refine presents.imp ?_
  intro v p denotes
  rw [Yields, denotes.read short, Outcome.result_pure]

theorem Layout.Presents.layouts {items : List Value} {ps : List Position}
    (presents : l.Presents items ps) : ∀ p ∈ ps, p.layout = l :=
  forall_of_forall₂ presents fun _ _ denotes => denotes.1

theorem Layout.parent_ordinals_text (p : Position)
    (short : bound.exceeded? p.layout.width = none) :
    p.layout.parentOrdinals bound (.text p.text) =
      p.layout.parentOrdinals bound (.position p) := by
  have text : Position.receive bound p.layout (.text p.text) = pure ⟨p, rfl⟩ := by
    simp only [Position.receive, Position.read_in_text p short, Outcome.pure_bind]
    rfl
  have position : Position.receive bound p.layout (.position p) = pure ⟨p, rfl⟩ := by
    simp only [Position.receive, dif_pos]
  simp only [parentOrdinals, text, position]

theorem Layout.issue_text (p : Position) (short : bound.exceeded? p.layout.width = none)
    (ordinal : Value) :
    (p.layout.issue bound (.text p.text) ordinal).result =
        (p.layout.issue bound (.position p) ordinal).result ∧
      (p.layout.issue bound (.text p.text) ordinal).log.map Record.text =
        (p.layout.issue bound (.position p) ordinal).log.map Record.text := by
  unfold issue
  rw [parent_ordinals_text p short]
  cases ordinal.natural? with
  | none => exact ⟨rfl, rfl⟩
  | some n =>
    cases given : (p.layout.parentOrdinals bound (.position p)).result with
    | error fault =>
      simp only [Outcome.bind_of_error given, and_self]
    | ok above =>
      simp only [Outcome.bind_of_ok given]
      by_cases fits : n < p.layout.capacity
      · simp only [dif_pos fits, List.map_append]
        exact ⟨rfl, rfl⟩
      · simp only [dif_neg fits, and_self]

theorem shown_level_text (p : Position) (short : bound.exceeded? p.layout.width = none)
    (limit : Value) :
    shownLevel bound (.text p.text) limit (.named p.layout) =
      shownLevel bound (.position p) limit (.named p.layout) := by
  have text : Position.ofValue bound (.text p.text) (.named p.layout) = pure p :=
    Position.read_text p short
  have position := Position.ofValue_named bound (rfl : p.layout.width = p.layout.width)
  simp only [shownLevel, depthOf, text, position]

end Texts

/-- What the operations come to does not depend on which of the positions of the layout are given
    by their texts: the same result or the same fault, and the same records. -/
structure Interchangeable (bound : Decimal.Bound) (l : Layout) : Prop where
  fresh : ∀ items ps, l.Presents items ps →
    freshOrdinal bound (.named l) items = freshOrdinal bound (.named l) (ps.map .position)
  arranged : ∀ items ps newestFirst, l.Presents items ps →
    arrangeValues bound newestFirst (.named l) items =
        arrangeValues bound newestFirst (.named l) (ps.map .position) ∧
      ∃ listed, (arrangeValues bound newestFirst (.named l) items).result = .ok listed ∧
        ∀ p ∈ listed, p.layout = l
  lines : ∀ items ps limit, l.Presents items ps →
    Listing.ofValues bound limit (.named l) items =
      Listing.ofValues bound limit (.named l) (ps.map .position)
  issued : ∀ p ordinal, p.layout = l →
    (l.issue bound (.text p.text) ordinal).result = (l.issue bound (.position p) ordinal).result ∧
      (l.issue bound (.text p.text) ordinal).log.map Record.text =
        (l.issue bound (.position p) ordinal).log.map Record.text
  shown : ∀ p limit, p.layout = l →
    shownLevel bound (.text p.text) limit (.named l) =
      shownLevel bound (.position p) limit (.named l)

variable {bound : Decimal.Bound} {l : Layout}

theorem interchangeable_of_short (short : bound.exceeded? l.width = none) :
    Interchangeable bound l where
  fresh := by
    intro items ps presents
    exact fresh_ordinal_congr (presents.read_alike short)
  arranged := by
    intro items ps newestFirst presents
    constructor
    · unfold arrangeValues
      rw [of_values_congr (presents.read_alike short)]
    · refine ⟨_, arrange_of_read (presents.read short) newestFirst, ?_⟩
      intro p member
      exact presents.layouts p (mem_arrange.mp member)
  lines := by
    intro items ps limit presents
    exact outline_congr limit 0 (presents.read_alike short)
  issued := by
    rintro p ordinal rfl
    exact Layout.issue_text p short ordinal
  shown := by
    rintro p limit rfl
    exact shown_level_text p short limit

theorem short_of_interchangeable (same : Interchangeable bound l) :
    bound.exceeded? l.width = none := by
  -- A root can be listed, so its text has to be read.
  let root : Position := ⟨l, [0], by simp, by simpa using l.capacity_pos⟩
  have presents : l.Presents [.text root.text] [root] := .cons ⟨rfl, Or.inr rfl⟩ .nil
  obtain ⟨_, listed, ok, _⟩ := same.arranged _ _ false presents
  obtain ⟨ps, read, _⟩ := arrange_ok ok
  obtain ⟨p, found, _⟩ := Outcome.ok_of_bind read
  exact Position.short_of_read found

/-- Positions and their texts can be given for one another, wherever numerals of the width are
    converted. -/
theorem texts_stand_for_positions (bound : Decimal.Bound) (l : Layout) :
    Interchangeable .unbounded l ∧
      (Interchangeable bound l ↔ bound.exceeded? l.width = none) :=
  ⟨interchangeable_of_short rfl, short_of_interchangeable, interchangeable_of_short⟩

theorem text_stands_for_reply :
    let p : Position := ⟨.standard, [1, 0], by decide, by decide⟩
    let q : Position := ⟨.standard, [1, 4], by decide, by decide⟩
    Layout.standard.Presents [.text "01.00/", .position q] [p, q] ∧
      freshOrdinal .standard (.named .standard) [.text "01.00/", .position q] =
        freshOrdinal .standard (.named .standard) [.position p, .position q] ∧
      (arrangeValues .standard true (.named .standard) [.text "01.00/", .position q]).result =
        (arrangeValues .standard true (.named .standard) [.position p, .position q]).result := by
  intro p q
  have presents : Layout.standard.Presents [.text "01.00/", .position q] [p, q] :=
    .cons ⟨rfl, Or.inr rfl⟩ (.cons ⟨rfl, Or.inl rfl⟩ .nil)
  have same : Interchangeable .standard .standard :=
    (texts_stand_for_positions .standard .standard).2.mpr (by decide)
  have arranged := (same.arranged _ _ true presents).1
  exact ⟨presents, same.fresh _ _ presents, congrArg Outcome.result arranged⟩

end ReplyTree

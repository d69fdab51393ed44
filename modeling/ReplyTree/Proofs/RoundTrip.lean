import ReplyTree.Position.Acceptance
import ReplyTree.Proofs.Texts

/- Reading and writing as operations on values. What is read is exactly what is written for
   some ordinals that fit, and everything else is refused as it was given. The bound on
   numerals matters only where a width exceeds it. -/
namespace ReplyTree

namespace Layout

theorem check_ordinals_ok (l : Layout) (all : List Value) (depth : Nat) (ns : List Nat)
    (fits : ∀ n ∈ ns, n < l.capacity) :
    l.checkOrdinals all depth (ns.map .ofNat) = .ok ⟨ns, fits⟩ := by
  induction ns generalizing depth with
  | nil => rfl
  | cons n ns ih =>
    have head : n < l.capacity := fits n (by simp)
    have tail := ih (depth + 1) fun m member => fits m (by simp [member])
    simp only [List.map_cons, checkOrdinals, Value.natural_ofNat, dif_pos head, tail]

theorem build_ok (l : Layout) {ns : List Nat} (nonempty : ns ≠ [])
    (fits : ∀ n ∈ ns, n < l.capacity) :
    l.build (ns.map .ofNat) = .ok ⟨l, ns, nonempty, fits⟩ := by
  simp only [build, check_ordinals_ok l _ 0 ns fits, dif_pos nonempty]

theorem short_of_read_segments {bound : Decimal.Bound} {l : Layout}
    {segments : List (List Char)} {ns} (nonempty : segments ≠ [])
    (read : l.readSegments bound segments = .ok ns) : bound.exceeded? l.width = none := by
  cases segments with
  | nil => exact absurd rfl nonempty
  | cons segment rest =>
    simp only [readSegments] at read
    split at read
    · cases read
    · rename_i head
      unfold readSegment at head
      split at head
      · split at head
        · split at head
          · assumption
          · cases head
        · cases head
      · cases head

theorem short_of_read_letters {bound : Decimal.Bound} {l : Layout} {letters : List Char}
    {path : l.Path} (read : l.readLetters bound letters = .ok path) :
    bound.exceeded? l.width = none := by
  unfold readLetters readPath at read
  split at read
  · split at read
    · cases read
    · rename_i segments
      exact short_of_read_segments (List.splitOn_ne_nil _ _) segments
  · cases read

/-- No numeral of the layout's width is among the segments, or numerals of that width are
    converted. -/
def Readable (bound : Decimal.Bound) (l : Layout) (segments : List (List Char)) : Prop :=
  ∀ segment ∈ segments, segment.length = l.width → segment.all Char.isDigit = true →
    bound.exceeded? l.width = none

theorem malformed_of_read_segment {bound : Decimal.Bound} {l : Layout} {segment : List Char}
    {fault : Obstacle} (readable : l.Readable bound [segment])
    (refused : l.readSegment bound segment = .error fault) : ∃ why, fault = .malformed why := by
  unfold readSegment at refused
  split at refused
  · rename_i width
    split at refused
    · rename_i digits
      have short := readable segment (by simp) width digits
      simp [short] at refused
    · cases refused
      exact ⟨_, rfl⟩
  · cases refused
    exact ⟨_, rfl⟩

theorem malformed_of_read_segments {bound : Decimal.Bound} {l : Layout}
    {segments : List (List Char)} {fault : Obstacle} (readable : l.Readable bound segments)
    (refused : l.readSegments bound segments = .error fault) :
    ∃ why, fault = .malformed why := by
  induction segments with
  | nil => cases refused
  | cons segment rest ih =>
    simp only [readSegments] at refused
    split at refused
    · rename_i head
      cases refused
      exact malformed_of_read_segment (fun s member => readable s (by simp_all)) head
    · split at refused
      · rename_i tail
        cases refused
        exact ih (fun s member => readable s (by simp [member])) tail
      · cases refused

theorem malformed_of_read_letters {bound : Decimal.Bound} {l : Layout} {letters : List Char}
    {fault : Obstacle} (readable : l.Readable bound (letters.dropLast.splitOn l.separator))
    (refused : l.readLetters bound letters = .error fault) : ∃ why, fault = .malformed why := by
  unfold readLetters readPath at refused
  split at refused
  · split at refused
    · rename_i segments
      cases refused
      exact malformed_of_read_segments readable segments
    · cases refused
  · cases refused
    exact ⟨_, rfl⟩

end Layout

namespace Position

theorem toList_text (p : Position) : p.text.toList = p.letters := by simp [text]

theorem read_in_text {bound : Decimal.Bound} (p : Position)
    (short : bound.exceeded? p.layout.width = none) :
    readIn bound p.layout (.text p.text) = pure p.path := by
  simp only [readIn, toList_text, Layout.read_letters p short]

theorem read_text {bound : Decimal.Bound} (p : Position)
    (short : bound.exceeded? p.layout.width = none) :
    read bound (.text p.text) (.named p.layout) = pure p := by
  change (do return ofPath p.layout (← readIn bound p.layout (.text p.text))) = _
  rw [read_in_text p short]
  rfl

theorem text_of_read_in {bound : Decimal.Bound} {l : Layout} {v : Value} {path : l.Path}
    (read : (readIn bound l v).result = .ok path) : v = .text (ofPath l path).text := by
  unfold readIn at read
  split at read
  · rename_i s
    split at read
    · rename_i found
      cases read
      rw [text, Layout.letters_of_read found, String.ofList_toList]
    · cases read
    · cases read
  · cases read

theorem text_of_read {bound : Decimal.Bound} {l : Layout} {v : Value} {p : Position}
    (found : (read bound v (.named l)).result = .ok p) : p.layout = l ∧ v = .text p.text := by
  obtain ⟨path, inner, done⟩ := Outcome.ok_of_bind
    (found : (do return ofPath l (← readIn bound l v) : Outcome Position).result = .ok p)
  cases done
  exact ⟨rfl, text_of_read_in inner⟩

theorem short_of_read {bound : Decimal.Bound} {l : Layout} {v : Value} {p : Position}
    (found : (read bound v (.named l)).result = .ok p) : bound.exceeded? l.width = none := by
  obtain ⟨path, inner, _⟩ := Outcome.ok_of_bind
    (found : (do return ofPath l (← readIn bound l v) : Outcome Position).result = .ok p)
  unfold readIn at inner
  split at inner
  · split at inner
    · rename_i letters
      exact Layout.short_of_read_letters letters
    · cases inner
    · cases inner
  · cases inner

theorem malformed_of_read_in {bound : Decimal.Bound} {l : Layout} {v : Value} {fault : Fault}
    (readable : ∀ s, v = .text s →
      l.Readable bound (s.toList.dropLast.splitOn l.separator))
    (refused : (readIn bound l v).result = .error fault) : ∃ why, fault = .malformed v why := by
  unfold readIn at refused
  split at refused
  · rename_i s
    split at refused
    · cases refused
    · cases refused
      exact ⟨_, rfl⟩
    · rename_i obstacle
      obtain ⟨why, impossible⟩ :=
        Layout.malformed_of_read_letters (readable s rfl) obstacle
      cases impossible
  · cases refused
    exact ⟨_, rfl⟩

theorem refused_in {bound : Decimal.Bound} {l : Layout} {v : Value} {fault : Fault}
    (refused : (read bound v (.named l)).result = .error fault) :
    (readIn bound l v).result = .error fault := by
  change (readIn bound l v >>= fun path => pure (ofPath l path)).result = .error fault
    at refused
  cases inner : (readIn bound l v).result with
  | ok path =>
    rw [Outcome.bind_of_ok inner] at refused
    cases refused
  | error first =>
    rw [Outcome.bind_of_error inner] at refused
    cases refused
    rfl

theorem malformed_of_readable {bound : Decimal.Bound} {l : Layout} {v : Value} {fault : Fault}
    (readable : ∀ s, v = .text s →
      l.Readable bound (s.toList.dropLast.splitOn l.separator))
    (refused : (read bound v (.named l)).result = .error fault) :
    ∃ why, fault = .malformed v why :=
  malformed_of_read_in readable (refused_in refused)

theorem malformed_of_read {bound : Decimal.Bound} {l : Layout} {v : Value} {fault : Fault}
    (short : bound.exceeded? l.width = none)
    (refused : (read bound v (.named l)).result = .error fault) :
    ∃ why, fault = .malformed v why :=
  malformed_of_readable (fun _ _ _ _ _ _ => short) refused

end Position

/-- The value is the text of the position that is built from these ordinals, all of which fit
    into segments of the layout. -/
def Layout.Writes (l : Layout) (ns : List Nat) (v : Value) : Prop :=
  ns ≠ [] ∧ (∀ n ∈ ns, n ≤ l.top) ∧
    ∃ p, Position.build (ns.map .ofNat) (.named l) = .ok p ∧ v = .text p.text

namespace Layout

theorem writes_iff (l : Layout) (ns : List Nat) (v : Value) :
    l.Writes ns v ↔ ∃ p : Position, p.layout = l ∧ p.ordinals = ns ∧ v = .text p.text := by
  constructor
  · rintro ⟨nonempty, fits, p, built, rfl⟩
    have fits' : ∀ n ∈ ns, n < l.capacity := fun n member =>
      (l.lt_capacity_iff n).mpr (fits n member)
    cases (l.build_ok nonempty fits').symm.trans built
    exact ⟨_, rfl, rfl, rfl⟩
  · rintro ⟨p, rfl, rfl, rfl⟩
    exact ⟨p.nonempty, fun n member => (p.layout.lt_capacity_iff n).mp (p.fits n member), p,
      p.layout.build_ok p.nonempty p.fits, rfl⟩

end Layout

/-- Reading accepts exactly what is written for some ordinals, and gives these back. -/
theorem reading_inverts_writing (l : Layout) (v : Value) :
    ((∃ p, (Position.read .unbounded v (.named l)).result = .ok p) ↔ ∃ ns, l.Writes ns v) ∧
    (∀ ns, l.Writes ns v → ∃ p, (Position.read .unbounded v (.named l)).result = .ok p ∧
      p.ordinals = ns ∧ p.layout = l ∧ .text p.text = v) ∧
    ((∀ ns, ¬ l.Writes ns v) → ∃ why,
      (Position.read .unbounded v (.named l)).result = .error (.malformed v why)) ∧
    ∀ p : Position, (Position.read .unbounded (.text p.text) (.named p.layout)).result = .ok p := by
  have inverse (p : Position) :
      (Position.read .unbounded (.text p.text) (.named p.layout)).result = .ok p := by
    rw [Position.read_text p rfl]
    rfl
  have written (ns : List Nat) (writes : l.Writes ns v) :
      ∃ p, (Position.read .unbounded v (.named l)).result = .ok p ∧
        p.ordinals = ns ∧ p.layout = l ∧ .text p.text = v := by
    obtain ⟨p, rfl, rfl, rfl⟩ := (l.writes_iff ns v).mp writes
    exact ⟨p, inverse p, rfl, rfl, rfl⟩
  have found (p : Position) (ok : (Position.read .unbounded v (.named l)).result = .ok p) :
      ∃ ns, l.Writes ns v := by
    obtain ⟨layout, text⟩ := Position.text_of_read ok
    exact ⟨p.ordinals, (l.writes_iff _ v).mpr ⟨p, layout, rfl, text⟩⟩
  refine ⟨⟨?_, ?_⟩, written, ?_, inverse⟩
  · rintro ⟨p, ok⟩
    exact found p ok
  · rintro ⟨ns, writes⟩
    obtain ⟨p, ok, _⟩ := written ns writes
    exact ⟨p, ok⟩
  · intro unwritten
    cases outcome : (Position.read .unbounded v (.named l)).result with
    | ok p =>
      obtain ⟨ns, writes⟩ := found p outcome
      exact absurd writes (unwritten ns)
    | error fault =>
      obtain ⟨why, rfl⟩ := Position.malformed_of_read rfl outcome
      exact ⟨why, rfl⟩

end ReplyTree

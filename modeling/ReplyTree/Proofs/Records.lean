import ReplyTree.Issue
import ReplyTree.Proofs.Lines

/- What the records of an operation say about its outcome. A value that cannot be read leaves one
   record, a position that is issued leaves one, and nothing else leaves any, however many values
   are looked at and wherever the operation stops. -/
namespace ReplyTree

variable {α β : Type} {bound : Decimal.Bound} {choice : LayoutChoice} {l : Layout} {v : Value}
  {why : Reason} {fault : Fault} {tried others : Value → Prop} {issued : α → List Record}
  {x : Outcome α} {given : List Value}

def Unread (bound : Decimal.Bound) (choice : LayoutChoice) (v : Value) (why : Reason) : Prop :=
  (Position.read bound v choice).result = .error (.malformed v why)

/-- The records that go with an outcome. A result leaves those of what was issued, and a value that
    was tried and could not be read leaves its rejection. Any other fault leaves none. -/
inductive Recorded (bound : Decimal.Bound) (choice : LayoutChoice) (tried : Value → Prop)
    (issued : α → List Record) : Outcome α → Prop
  | done (a : α) : Recorded bound choice tried issued ⟨.ok a, issued a⟩
  | rejected {v : Value} {why : Reason} : tried v → Unread bound choice v why →
      Recorded bound choice tried issued ⟨.error (.malformed v why), [.rejected v why]⟩
  | failed {fault : Fault} : (∀ v why, Unread bound choice v why → fault ≠ .malformed v why) →
      Recorded bound choice tried issued ⟨.error fault, []⟩

abbrev Quiet (bound : Decimal.Bound) (choice : LayoutChoice) (tried : Value → Prop) :
    Outcome α → Prop :=
  Recorded bound choice tried fun _ => []

/-- The values among these that have to be read. Positions are taken as they are. -/
def ToRead (given : List Value) (v : Value) : Prop := v ∈ given ∧ ∀ p, v ≠ .position p

theorem Recorded.widen (recorded : Recorded bound choice tried issued x)
    (among : ∀ v, tried v → others v) : Recorded bound choice others issued x := by
  cases recorded with
  | done a => exact .done a
  | rejected member unread => exact .rejected (among _ member) unread
  | failed other => exact .failed other

theorem Recorded.of_rest (recorded : Recorded bound choice (ToRead given) issued x) (v : Value) :
    Recorded bound choice (ToRead (v :: given)) issued x :=
  recorded.widen fun _ member => ⟨List.mem_cons_of_mem v member.1, member.2⟩

theorem to_read_self (other : ∀ p, v ≠ .position p) : ∀ w, w = v → ToRead [v] w := by
  intro w same
  rw [same]
  exact ⟨by simp, other⟩

theorem Recorded.bind {f : α → Outcome β} {issued : β → List Record}
    (first : Quiet bound choice tried x)
    (next : ∀ a, x.result = .ok a → Recorded bound choice tried issued (f a)) :
    Recorded bound choice tried issued (x >>= f) := by
  cases first with
  | done a => exact next a rfl
  | rejected member unread => exact .rejected member unread
  | failed other => exact .failed other

theorem recorded_failure (other : fault.family ≠ .malformed) :
    Recorded bound choice tried issued (Outcome.fail fault) := by
  apply Recorded.failed
  intro v why _ same
  rw [same] at other
  exact other rfl

theorem quiet_of_except {result : Except Fault α}
    (other : ∀ fault, result = .error fault → fault.family ≠ .malformed) :
    Quiet bound choice tried (Outcome.ofExcept result) := by
  cases result with
  | ok a => exact .done a
  | error fault => exact recorded_failure (other fault rfl)

theorem read_of_layout (found : choice.layout? = some l) (v : Value) :
    Position.read bound v choice = Position.read bound v (.named l) := by
  unfold Position.read
  rw [found]
  rfl

theorem Recorded.of_layout (found : choice.layout? = some l)
    (recorded : Recorded bound (.named l) tried issued x) :
    Recorded bound choice tried issued x := by
  have same (v : Value) (why : Reason) :
      Unread bound choice v why ↔ Unread bound (.named l) v why := by
    rw [Unread, Unread, read_of_layout found]
  cases recorded with
  | done a => exact .done a
  | rejected member unread => exact .rejected member ((same _ _).mpr unread)
  | failed other => exact .failed fun v why unread => other v why ((same v why).mp unread)

namespace Position

theorem read_in_cases (bound : Decimal.Bound) (l : Layout) (v : Value) :
    (∃ path, readIn bound l v = pure path) ∨ (∃ why, readIn bound l v = refuse v why) ∨
      ∃ digits most, readIn bound l v = Outcome.fail (.unreadableNumber digits most) := by
  unfold readIn
  split
  · split
    · exact Or.inl ⟨_, rfl⟩
    · exact Or.inr (Or.inl ⟨_, rfl⟩)
    · exact Or.inr (Or.inr ⟨_, _, rfl⟩)
  · exact Or.inr (Or.inl ⟨_, rfl⟩)

theorem unread_of_read_in (refused : readIn bound l v = refuse v why) :
    Unread bound (.named l) v why := by
  change (readIn bound l v >>= fun path => pure (ofPath l path)).result = _
  rw [refused]
  rfl

theorem quiet_read_in (bound : Decimal.Bound) (l : Layout) (v : Value) :
    Quiet bound (.named l) (· = v) (readIn bound l v) := by
  rcases read_in_cases bound l v with ⟨path, done⟩ | ⟨why, refused⟩ | ⟨digits, most, long⟩
  · rw [done]
    exact .done path
  · have unread := unread_of_read_in refused
    rw [refused]
    exact .rejected rfl unread
  · rw [long]
    exact recorded_failure (by simp [Fault.family])

theorem quiet_read (bound : Decimal.Bound) (v : Value) (choice : LayoutChoice) :
    Quiet bound choice (· = v) (read bound v choice) := by
  cases found : choice.layout? with
  | some l =>
    rw [read_of_layout found]
    apply Recorded.of_layout found
    exact (quiet_read_in bound l v).bind fun path _ => .done (ofPath l path)
  | none =>
    cases choice with
    | foreign =>
      cases v with
      | text s => exact recorded_failure (by simp [Fault.family])
      | _ => exact .rejected rfl rfl
    | _ => cases found

theorem quiet_receive (bound : Decimal.Bound) (l : Layout) (v : Value) :
    Quiet bound (.named l) (ToRead [v]) (receive bound l v) := by
  cases v with
  | position p =>
    by_cases same : p.layout.width = l.width
    · simp only [receive, dif_pos same]
      exact .done _
    · simp only [receive, dif_neg same]
      apply Recorded.failed
      -- Read as a text, a position is refused for being none, and not for its width.
      intro w why unread same
      cases same
      cases unread
  | _ => exact ((quiet_read_in bound l _).widen (to_read_self (by simp))).bind fun path _ => .done _

theorem quiet_of_value (bound : Decimal.Bound) (choice : LayoutChoice) (v : Value) :
    Quiet bound choice (ToRead [v]) (ofValue bound v choice) := by
  cases v with
  | position p =>
    cases choice with
    | unset => exact .done p
    | named l => exact (quiet_receive bound l (.position p)).bind fun q _ => .done q.val
    | _ => exact recorded_failure (by simp [Fault.family])
  | _ => exact (quiet_read bound _ choice).widen (to_read_self (by simp))

theorem quiet_first (bound : Decimal.Bound) (choice : LayoutChoice) (v : Value)
    (rest : List Value) : Quiet bound choice (ToRead (v :: rest)) (ofValue bound v choice) := by
  apply (quiet_of_value bound choice v).widen
  intro w member
  exact ⟨List.mem_cons.mpr (Or.inl (List.mem_singleton.mp member.1)), member.2⟩

theorem quiet_of_values (bound : Decimal.Bound) (choice : LayoutChoice) (items : List Value) :
    Quiet bound choice (ToRead items) (ofValues bound choice items) := by
  induction items with
  | nil => exact .done []
  | cons v rest ih =>
    apply (quiet_first bound choice v rest).bind
    intro p _
    exact (ih.of_rest v).bind fun ps _ => .done (p :: ps)

end Position

namespace Layout

theorem quiet_parent_ordinals (bound : Decimal.Bound) (l : Layout) (parent : Value) :
    Quiet bound (.named l) (ToRead [parent]) (l.parentOrdinals bound parent) := by
  cases parent with
  | nothing => exact .done _
  | _ => exact (Position.quiet_receive bound l _).bind fun p _ => .done _

theorem recorded_issue (bound : Decimal.Bound) (l : Layout) (parent ordinal : Value) :
    Recorded bound (.named l) (ToRead [parent]) (fun c => [.allocated c parent])
      (l.issue bound parent ordinal) := by
  unfold issue
  split
  · exact recorded_failure (by simp [Fault.family])
  · apply (quiet_parent_ordinals bound l parent).bind
    intro above _
    split
    · exact .done _
    · exact recorded_failure (by simp [Fault.family])

end Layout

theorem recorded_reply (bound : Decimal.Bound) (p : Position) (ordinal : Value) :
    Recorded bound (.named p.layout) (ToRead []) (fun c => [.allocated c (.position p)])
      (p.reply bound ordinal) := by
  apply (p.layout.recorded_issue bound (.position p) ordinal).widen
  intro v member
  exact absurd (List.mem_singleton.mp member.1) (member.2 p)

theorem quiet_arrange (bound : Decimal.Bound) (newestFirst : Bool) (choice : LayoutChoice)
    (items : List Value) :
    Quiet bound choice (ToRead items) (arrangeValues bound newestFirst choice items) :=
  (Position.quiet_of_values bound choice items).bind fun ps _ => .done (arrange newestFirst ps)

theorem quiet_fresh_after (bound : Decimal.Bound) (choice : LayoutChoice) (first : Position)
    (next : Nat) (items : List Value) :
    Quiet bound choice (ToRead items) (freshAfter bound choice first next items) := by
  induction items generalizing next with
  | nil => exact .done next
  | cons v rest ih =>
    apply (Position.quiet_first bound choice v rest).bind
    intro p _
    split
    · exact (ih _).of_rest v
    · exact recorded_failure (by simp [Fault.family])

theorem quiet_fresh_ordinal (bound : Decimal.Bound) (choice : LayoutChoice)
    (items : List Value) :
    Quiet bound choice (ToRead items) (freshOrdinal bound choice items) := by
  cases items with
  | nil => exact .done 0
  | cons v rest =>
    apply (Position.quiet_first bound choice v rest).bind
    intro first _
    exact (quiet_fresh_after bound choice first _ rest).of_rest v

theorem quiet_depth_of (bound : Decimal.Bound) (node : Value) (choice : LayoutChoice) :
    Quiet bound choice (ToRead [node]) (depthOf bound node choice) := by
  cases node with
  | position p => exact (Position.quiet_of_value bound choice _).bind fun p _ => .done p.depth
  | text s => exact (Position.quiet_of_value bound choice _).bind fun p _ => .done p.depth
  | _ =>
    simp only [depthOf]
    split
    · exact recorded_failure (by simp [Fault.family])
    · exact .done _

theorem family_of_level {limit : Value} {depth : Nat}
    (refused : levelUnder limit depth = .error fault) : fault.family ≠ .malformed := by
  unfold levelUnder at refused
  split at refused
  · cases refused
    simp [Fault.family]
  · cases refused

theorem quiet_level (bound : Decimal.Bound) (choice : LayoutChoice) (limit : Value) (depth : Nat) :
    Quiet bound choice tried (Outcome.ofExcept (levelUnder limit depth)) :=
  quiet_of_except fun _ => family_of_level

theorem quiet_shown_level (bound : Decimal.Bound) (node limit : Value) (choice : LayoutChoice) :
    Quiet bound choice (ToRead [node]) (shownLevel bound node limit choice) := by
  apply (quiet_depth_of bound node choice).bind
  intro depth _
  exact quiet_level bound choice limit depth

namespace Listing

def outcome (listing : Listing) : Outcome (List Line) :=
  match listing.fault? with
  | none => ⟨.ok listing.lines, listing.log⟩
  | some fault => ⟨.error fault, listing.log⟩

theorem outcome_after (line : Line) (log : List Record) (rest : Listing) :
    (after line log rest).outcome =
      ⟨rest.outcome.result.map (line :: ·), log ++ rest.outcome.log⟩ := by
  cases stop : rest.fault? with
  | none => simp only [outcome, after, stop]; rfl
  | some fault => simp only [outcome, after, stop]; rfl

theorem outcome_of_outline (bound : Decimal.Bound) (limit : Value) (choice : LayoutChoice)
    (current : Nat) (v : Value) (rest : List Value) :
    (outline bound limit choice current (v :: rest)).outcome = do
      let p ← Position.ofValue bound v choice
      let shown ← Outcome.ofExcept (levelUnder limit p.depth)
      let lines ← (outline bound limit choice shown rest).outcome
      return ⟨p, p.depth, shown, (shown : Int) - current⟩ :: lines := by
  cases seen : (Position.ofValue bound v choice).result with
  | error fault =>
    rw [outline_ended (.refused seen), Outcome.bind_of_error seen]
    rfl
  | ok p =>
    rw [Outcome.bind_of_ok seen]
    cases natural : limit.natural? with
    | none =>
      have unnatural := Value.natural_eq_none.mp natural
      rw [outline_ended (.limitless seen unnatural)]
      simp only [levelUnder, natural]
      exact congrArg _ (List.append_nil _).symm
    | some most =>
      simp only [levelUnder, natural]
      have later := Outcome.bind_pure_eq
        (outline bound limit choice (min p.depth most) rest).outcome
        (⟨p, p.depth, min p.depth most, (min p.depth most : Nat) - current⟩ :: ·)
      rw [outline_passed seen natural, outcome_after]
      exact congrArg (fun y : Outcome (List Line) => Outcome.mk y.result (_ ++ y.log)) later.symm

theorem quiet_outline (bound : Decimal.Bound) (limit : Value) (choice : LayoutChoice)
    (current : Nat) (items : List Value) :
    Quiet bound choice (ToRead items) (outline bound limit choice current items).outcome := by
  induction items generalizing current with
  | nil => exact .done []
  | cons v rest ih =>
    rw [outcome_of_outline]
    apply (Position.quiet_first bound choice v rest).bind
    intro p _
    apply (quiet_level bound choice limit p.depth).bind
    intro shown _
    exact ((ih shown).of_rest v).bind fun lines _ => .done _

end Listing

def Value.members (given : Value) : List Value := given.items?.getD []

def onItems (given : Value) (operation : List Value → Outcome α) : Outcome α := do
  operation (← Outcome.ofExcept given.asItems)

theorem quiet_on_items {operation : List Value → Outcome α}
    (quiet : ∀ items, Quiet bound choice (ToRead items) (operation items)) (given : Value) :
    Quiet bound choice (ToRead given.members) (onItems given operation) := by
  cases found : given.items? with
  | none =>
    simp only [onItems, Value.asItems, found]
    exact recorded_failure (by simp [Fault.family])
  | some items =>
    simp only [onItems, Value.asItems, Value.members, found]
    exact quiet items

theorem Listing.outcome_of_value (bound : Decimal.Bound) (limit : Value) (choice : LayoutChoice)
    (nodes : Value) :
    (ofValue bound limit choice nodes).outcome =
      onItems nodes fun items => (ofValues bound limit choice items).outcome := by
  unfold ofValue onItems
  cases nodes.asItems with
  | ok items => rfl
  | error fault => rfl

/-- Every operation leaves the records that go with its outcome. Where an operation takes a list,
    anything may be given for it. -/
structure RecordsTell (bound : Decimal.Bound) (choice : LayoutChoice) : Prop where
  read : ∀ v, Quiet bound choice (· = v) (Position.read bound v choice)
  taken : ∀ v, Quiet bound choice (ToRead [v]) (Position.ofValue bound v choice)
  issued : ∀ (l : Layout) (parent ordinal : Value),
    Recorded bound (.named l) (ToRead [parent]) (fun c => [.allocated c parent])
      (l.issue bound parent ordinal)
  replied : ∀ (p : Position) (ordinal : Value),
    Recorded bound (.named p.layout) (ToRead []) (fun c => [.allocated c (.position p)])
      (p.reply bound ordinal)
  fresh : ∀ siblings, Quiet bound choice (ToRead siblings.members)
    (onItems siblings (freshOrdinal bound choice))
  shown : ∀ node limit, Quiet bound choice (ToRead [node]) (shownLevel bound node limit choice)
  arranged : ∀ newestFirst nodes, Quiet bound choice (ToRead nodes.members)
    (onItems nodes (arrangeValues bound newestFirst choice))
  listed : ∀ limit nodes, Quiet bound choice (ToRead nodes.members)
    (Listing.ofValue bound limit choice nodes).outcome

/-- The records tell what an operation came to. What is refused without being read leaves none. -/
theorem records_mirror_outcomes (bound : Decimal.Bound) (choice : LayoutChoice) :
    RecordsTell bound choice ∧
    (∀ (l : Layout) (p : Position), p.layout.width ≠ l.width →
      Position.ofValue bound (.position p) (.named l) =
        ⟨.error (.malformed (.position p) (.otherWidth p.layout.width l.width)), []⟩) ∧
    (∀ (l : Layout) (parent ordinal : Value), (∀ n : Nat, ordinal ≠ .ofNat n) →
      l.issue bound parent ordinal = ⟨.error (.badSibling ordinal), []⟩) ∧
    (∀ (p : Position) (parent : Value), (Record.allocated p parent).text =
      "Allocated thread key " ++ p.text ++ " under " ++ parent.display) ∧
    ∀ (v : Value) (why : Reason), (Record.rejected v why).text =
      "Rejected thread key " ++ v.literal ++ ": " ++ why.text := by
  refine ⟨?_, ?_, ?_, fun _ _ => rfl, fun _ _ => rfl⟩
  · constructor
    · intro v
      exact Position.quiet_read bound v choice
    · exact Position.quiet_of_value bound choice
    · exact Layout.recorded_issue bound
    · exact recorded_reply bound
    · exact quiet_on_items (quiet_fresh_ordinal bound choice)
    · intro node limit
      exact quiet_shown_level bound node limit choice
    · intro newestFirst
      exact quiet_on_items (quiet_arrange bound newestFirst choice)
    · intro limit nodes
      rw [Listing.outcome_of_value]
      exact quiet_on_items (Listing.quiet_outline bound limit choice 0) nodes
  · intro l p differ
    simp only [Position.ofValue, Position.receive, dif_neg differ]
    rfl
  · intro l parent ordinal unnatural
    simp only [Layout.issue, Value.natural_eq_none.mpr unnatural]
    rfl

end ReplyTree

import Mathlib.Order.WellFounded
import ReplyTree.Layout.Acceptance

/- Which values make a layout. The four settings are examined in a fixed order, and the first that
   does not suit is blamed; the marks are compared last. -/
namespace ReplyTree

def Setting.Suits : Setting → Value → Prop
  | .width, v => ∃ n : Nat, v = .ofNat n ∧ 1 ≤ n
  | .limit, v => ∃ n : Nat, v = .ofNat n
  | .separator, v | .terminator, v => ∃ c : Char, v = .text (String.singleton c) ∧ c < '0'

def Setting.rank : Setting → Nat
  | .width => 0
  | .limit => 1
  | .separator => 2
  | .terminator => 3

theorem mark_eq_some {v : Value} {c : {c : Char // c < '0'}} :
    v.mark? = some c ↔ v = .text (String.singleton c.val) := by
  constructor
  · intro found
    unfold Value.mark? at found
    split at found
    · rename_i s
      split at found
      · rename_i d letters
        split at found
        · cases found
          rw [← String.ofList_toList (s := s), letters]
          rfl
        · cases found
      · cases found
    · cases found
  · rintro rfl
    simp [Value.mark?, c.property]

theorem mark_of_char {c : Char} (below : c < '0') :
    (Value.text (String.singleton c)).mark? = some ⟨c, below⟩ :=
  mark_eq_some.mpr rfl

theorem suits_mark {v : Value} :
    (∃ c : Char, v = .text (String.singleton c) ∧ c < '0') ↔ ∃ c, v.mark? = some c := by
  constructor
  · rintro ⟨c, text, below⟩
    exact ⟨⟨c, below⟩, mark_eq_some.mpr text⟩
  · rintro ⟨c, found⟩
    exact ⟨c.val, mark_eq_some.mp found, c.property⟩

theorem below_of_mark {c : Char}
    (suits : ∃ d : Char, Value.text (String.singleton c) = .text (String.singleton d) ∧ d < '0') :
    c < '0' := by
  obtain ⟨d, same, below⟩ := suits
  rw [String.singleton_inj.mp (Value.text.inj same)]
  exact below

theorem no_mark {v : Value}
    (unfit : ¬ ∃ c : Char, v = .text (String.singleton c) ∧ c < '0') : v.mark? = none := by
  rw [suits_mark] at unfit
  exact Option.eq_none_iff_forall_ne_some.mpr fun c found => unfit ⟨c, found⟩

namespace Layout

section Values

variable {width limit separator terminator : Value}

theorem accept_bad_width (unfit : ¬ Setting.width.Suits width) :
    accept width limit separator terminator = .error (.badSetting .width width) := by
  unfold accept
  split
  · rfl
  · rfl
  · rename_i w natural
    exact absurd ⟨w + 1, Value.natural_eq_some.mp natural, Nat.succ_pos w⟩ unfit

theorem good_width (fit : Setting.width.Suits width) : ∃ w, width.natural? = some (w + 1) := by
  obtain ⟨n, rfl, positive⟩ := fit
  exact ⟨n - 1, by rw [Nat.sub_add_cancel positive]; rfl⟩

theorem accept_bad_limit (fit : Setting.width.Suits width) (unfit : ¬ Setting.limit.Suits limit) :
    accept width limit separator terminator = .error (.badSetting .limit limit) := by
  obtain ⟨w, natural⟩ := good_width fit
  have unnatural : limit.natural? = none :=
    Value.natural_eq_none.mpr fun n same => unfit ⟨n, same⟩
  simp only [accept, natural, unnatural]

theorem accept_bad_separator (fit : Setting.width.Suits width) (fit' : Setting.limit.Suits limit)
    (unfit : ¬ Setting.separator.Suits separator) :
    accept width limit separator terminator = .error (.badSetting .separator separator) := by
  obtain ⟨w, natural⟩ := good_width fit
  obtain ⟨m, rfl⟩ := fit'
  simp only [accept, natural, Value.natural_ofNat, no_mark unfit]

theorem accept_bad_terminator (fit : Setting.width.Suits width) (fit' : Setting.limit.Suits limit)
    (marked : Setting.separator.Suits separator)
    (unfit : ¬ Setting.terminator.Suits terminator) :
    accept width limit separator terminator = .error (.badSetting .terminator terminator) := by
  obtain ⟨w, natural⟩ := good_width fit
  obtain ⟨m, rfl⟩ := fit'
  obtain ⟨a, mark⟩ := suits_mark.mp marked
  simp only [accept, natural, Value.natural_ofNat, mark, no_mark unfit]

theorem accept_unordered (fit : Setting.width.Suits width) (fit' : Setting.limit.Suits limit)
    {a b : Char} (below : a < '0') (below' : b < '0') (unordered : ¬ a < b) :
    accept width limit (.text (String.singleton a)) (.text (String.singleton b)) =
      .error (.marksUnordered a b) := by
  obtain ⟨w, natural⟩ := good_width fit
  obtain ⟨m, rfl⟩ := fit'
  simp only [accept, natural, Value.natural_ofNat, mark_of_char below,
    mark_of_char below', dif_neg unordered]

theorem accept_entries (l : Layout) :
    accept (l.entry .width) (l.entry .limit) (l.entry .separator) (l.entry .terminator) =
      .ok l := by
  obtain ⟨width, limit, separator, terminator, width_pos, separator_lt, terminator_lt⟩ := l
  obtain ⟨w, rfl⟩ : ∃ w, width = w + 1 := ⟨width - 1, by omega⟩
  have below : separator < '0' := Nat.lt_trans separator_lt terminator_lt
  simp only [entry, accept, Value.natural_ofNat, mark_of_char below, mark_of_char terminator_lt,
    dif_pos separator_lt]

end Values

/-- What four values come to, one for each setting: the first that does not suit is blamed, then
    two marks that are in the wrong order, and all other values are the entries of a layout. -/
inductive Judged (given : Setting → Value) : Except Fault Layout → Prop
  | unsuited {s : Setting} : (∀ r : Setting, r.rank < s.rank → r.Suits (given r)) →
      ¬ s.Suits (given s) → Judged given (.error (.badSetting s (given s)))
  | unordered {a b : Char} : (∀ s : Setting, s.Suits (given s)) →
      given .separator = .text (String.singleton a) →
      given .terminator = .text (String.singleton b) → ¬ a < b →
        Judged given (.error (.marksUnordered a b))
  | accepted {l : Layout} : (∀ s, given s = l.entry s) → Judged given (.ok l)

variable {given : Setting → Value} {answer : Except Fault Layout}

theorem Judged.result (judged : Judged given answer) :
    accept (given .width) (given .limit) (given .separator) (given .terminator) = answer := by
  cases judged with
  | @unsuited s earlier unfit =>
    cases s with
    | width => exact accept_bad_width unfit
    | limit => exact accept_bad_limit (earlier .width (by decide)) unfit
    | separator =>
      exact accept_bad_separator (earlier .width (by decide)) (earlier .limit (by decide)) unfit
    | terminator =>
      exact accept_bad_terminator (earlier .width (by decide)) (earlier .limit (by decide))
        (earlier .separator (by decide)) unfit
  | @unordered a b suits separator terminator disorder =>
    have below := suits .separator
    have below' := suits .terminator
    rw [separator] at below ⊢
    rw [terminator] at below' ⊢
    exact accept_unordered (suits .width) (suits .limit) (below_of_mark below)
      (below_of_mark below') disorder
  | accepted entries =>
    simp only [entries]
    exact accept_entries _

def Sortable (width limit separator terminator : Value) : Prop :=
  (∃ n : Nat, width = .ofNat n ∧ 1 ≤ n) ∧ (∃ n : Nat, limit = .ofNat n) ∧
    ∃ a b : Char, separator = .text (String.singleton a) ∧
      terminator = .text (String.singleton b) ∧ a < '0' ∧ b < '0' ∧ a < b

theorem judged_sortable
    (sortable : Sortable (given .width) (given .limit) (given .separator) (given .terminator)) :
    ∃ l, Judged given (.ok l) := by
  obtain ⟨⟨w, width, positive⟩, ⟨m, limit⟩, a, b, separator, terminator, _, below, ordered⟩ :=
    sortable
  refine ⟨⟨w, m, a, b, positive, ordered, below⟩, .accepted ?_⟩
  intro s
  cases s with
  | width => exact width
  | limit => exact limit
  | separator => exact separator
  | terminator => exact terminator

theorem sortable_entries (l : Layout) :
    Sortable (l.entry .width) (l.entry .limit) (l.entry .separator) (l.entry .terminator) :=
  ⟨⟨l.width, rfl, l.width_pos⟩, ⟨l.limit, rfl⟩, l.separator, l.terminator, rfl, rfl,
    l.separator_lt_zero, l.terminator_lt, l.separator_lt⟩

theorem judged_of_suits (suits : ∀ s : Setting, s.Suits (given s)) :
    ∃ answer, Judged given answer := by
  obtain ⟨a, separator, below⟩ := suits .separator
  obtain ⟨b, terminator, below'⟩ := suits .terminator
  by_cases ordered : a < b
  · obtain ⟨l, judged⟩ := judged_sortable
      ⟨suits .width, suits .limit, a, b, separator, terminator, below, below', ordered⟩
    exact ⟨_, judged⟩
  · exact ⟨_, .unordered suits separator terminator ordered⟩

theorem all_suit_or_first (given : Setting → Value) :
    (∀ s : Setting, s.Suits (given s)) ∨
      ∃ s : Setting, (∀ r : Setting, r.rank < s.rank → r.Suits (given r)) ∧
        ¬ s.Suits (given s) := by
  by_cases suits : ∀ s : Setting, s.Suits (given s)
  · exact Or.inl suits
  · obtain ⟨s, unfit⟩ := not_forall.mp suits
    -- Of those that do not suit, one has the least rank.
    have least := WellFounded.has_min (measure Setting.rank).wf
      {s : Setting | ¬ s.Suits (given s)} ⟨s, unfit⟩
    obtain ⟨first, unfit', minimal⟩ := least
    refine Or.inr ⟨first, ?_, unfit'⟩
    intro r earlier
    exact Classical.byContradiction fun unfit'' => minimal r unfit'' earlier

theorem judged_exists (given : Setting → Value) : ∃ answer, Judged given answer := by
  rcases all_suit_or_first given with suits | ⟨s, earlier, unfit⟩
  · exact judged_of_suits suits
  · exact ⟨_, .unsuited earlier unfit⟩

theorem accept_iff_judged (given : Setting → Value) (answer : Except Fault Layout) :
    accept (given .width) (given .limit) (given .separator) (given .terminator) = answer ↔
      Judged given answer := by
  exact answer_iff (fun _ => Judged.result) (judged_exists given) answer

theorem accept_iff_sortable (given : Setting → Value) :
    (∃ l, accept (given .width) (given .limit) (given .separator) (given .terminator) = .ok l) ↔
      Sortable (given .width) (given .limit) (given .separator) (given .terminator) := by
  constructor
  · rintro ⟨l, accepted⟩
    cases (accept_iff_judged given _).mp accepted with
    | accepted entries =>
      simp only [entries]
      exact sortable_entries l
  · intro sortable
    obtain ⟨l, judged⟩ := judged_sortable sortable
    exact ⟨l, judged.result⟩

end Layout

end ReplyTree

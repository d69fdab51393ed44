import ReplyTree.Outcome

/- Layouts from values. What is accepted is exactly what makes the texts of a tree sortable;
   of several faults the first in the order of the entries is blamed. -/
namespace ReplyTree

def Value.mark? : Value → Option {c : Char // c < '0'}
  | .text s =>
    match s.toList with
    | [c] => if below : c < '0' then some ⟨c, below⟩ else none
    | _ => none
  | _ => none

namespace Layout

def accept (width limit separator terminator : Value) : Except Fault Layout :=
  match width.natural? with
  | none | some 0 => .error (.badSetting .width width)
  | some (w + 1) =>
    match limit.natural? with
    | none => .error (.badSetting .limit limit)
    | some m =>
      match separator.mark? with
      | none => .error (.badSetting .separator separator)
      | some s =>
        match terminator.mark? with
        | none => .error (.badSetting .terminator terminator)
        | some t =>
          if ordered : s.val < t.val then
            .ok ⟨w + 1, m, s.val, t.val, Nat.succ_pos w, ordered, t.property⟩
          else .error (.marksUnordered s.val t.val)

def entry (l : Layout) : Setting → Value
  | .width => .ofNat l.width
  | .limit => .ofNat l.limit
  | .separator => .text (String.singleton l.separator)
  | .terminator => .text (String.singleton l.terminator)

/-- The standard layout with some entries replaced. Other names are passed over. -/
def ofFields (fields : List (String × Value)) : Except Fault Layout :=
  let given (s : Setting) := (fields.lookup s.name).getD (standard.entry s)
  accept (given .width) (given .limit) (given .separator) (given .terminator)

def isSettingName (name : String) : Bool := Setting.all.any fun s => s.name == name

def strangers? : List Value → Option (List String)
  | [] => some []
  | .text name :: rest =>
    (strangers? rest).map fun names => if isSettingName name then names else name :: names
  | _ :: _ => none

def sortedNames (names : List String) : List String :=
  names.eraseDups.mergeSort fun a b => decide (a ≤ b)

/-- A layout from a record of settings. Unknown names come before any other fault. A
    collection that is no record is taken for its names; it gives no pairs, so it is
    accepted only when empty. -/
def ofSource (source : Value) : Except Fault Layout :=
  match source.items? with
  | none => .error .typeMismatch
  | some items =>
    if Value.hashableAll items then
      match strangers? items with
      | none => .error .typeMismatch
      | some (name :: names) => .error (.unknownSettings (sortedNames (name :: names)))
      | some [] =>
        match source, items with
        | .record fields, _ => ofFields fields
        | _, [] => .ok standard
        | _, first :: _ => .error (.notPair first.display.length)
    else .error .typeMismatch

def ofArguments (arguments : List (String × Value)) : Except Fault Layout :=
  if arguments.all fun argument => isSettingName argument.1 then ofFields arguments
  else .error .typeMismatch

end Layout

end ReplyTree

import Criteria.Regex.Width

/-!
# What a reader of regular expressions remembers

While an expression is read, notes are kept of the flags for the whole of it, of its groups with
their names and widths, and of what can be judged only at the end.  A group may be referred to once
it is closed; inside a look behind only groups from before it may be.
-/

namespace Criteria.Regex

/-- Why an expression cannot be read. -/
inductive PatternFault where
  | malformed
  | countTooLarge
  | tooManyDigits (count : Nat)
  | clashingFlags
  deriving DecidableEq

/-- What has been read so far. -/
structure Notes where
  flags : List Flag
  names : List (List Char × Nat)
  /-- The widths of the groups in the order in which they open; an open one has none yet. -/
  groups : List (Option Width)
  /-- Inside a look behind, the number of the first group that belongs to it. -/
  fence : Option Nat
  /-- The greatest group that a condition asks for. -/
  farthest : Nat
  repeats : Bool
  /-- Whether some look behind has no fixed width. -/
  unfixed : Bool

namespace Notes

/-- The notes at the start, when some flags are given. -/
def start (flags : List Flag) : Notes := ⟨flags, [], [], none, 0, false, false⟩

/-- The width of a group; groups are counted from one. -/
def width? (notes : Notes) (index : Nat) : Option Width :=
  if index = 0 then none else (notes.groups[index - 1]?).join

/-- The width of an expression. -/
def widthOf (notes : Notes) (node : Node) : Width :=
  node.width fun index ↦ (notes.width? index).getD (.exactly 0)

/-- Whether a group may be referred to. -/
def allows (notes : Notes) (index : Nat) : Bool :=
  (notes.width? index).isSome && notes.fence.all fun first ↦ index < first

/-- What is wrong with a whole expression, if anything is.  Flags that clash come first. -/
def fault? (notes : Notes) (finished : Bool) : Option PatternFault :=
  if notes.flags.contains .ascii && notes.flags.contains .unicode then some .clashingFlags
  else if !finished || notes.groups.length < notes.farthest || notes.unfixed
      || (notes.repeats && notes.flags.contains .noRepeats) then some .malformed
  else none

end Notes

/-- Reading part of an expression. -/
abbrev Reading := StateT Notes (Except PatternFault)

namespace Reading

/-- The expression cannot be read. -/
def refuse {α : Type} : Reading α := throw .malformed

/-- A result that has to be there. -/
def require {α : Type} : Option α → Reading α
  | some a => pure a
  | none => refuse

/-- Flags for the whole expression, and all that have been given for it. -/
def addFlags (added : List Flag) : Reading (List Flag) := do
  modify fun notes ↦ { notes with flags := notes.flags ++ added }
  return (← get).flags

/-- A reference back to a group. -/
def referTo (index : Nat) : Reading Node := do
  if (← get).allows index then return .back index else refuse

/-- The group of a name. -/
def named (name : List Char) : Reading Nat := do
  require ((← get).names.lookup name)

/-- A condition on a group, which may be one that opens later unless it stands in a look behind. -/
def askFor (index : Nat) : Reading Nat := do
  let notes ← get
  if index = 0 then refuse
  else if notes.fence.isSome && !notes.allows index then refuse
  else
    set { notes with farthest := max notes.farthest index }
    return index

/-- The next group, opened.  Two groups cannot have one name. -/
def openGroup (name : Option (List Char)) : Reading Nat := do
  let notes ← get
  let index := notes.groups.length + 1
  match name with
  | none => set { notes with groups := notes.groups ++ [none] }
  | some name =>
    if (notes.names.lookup name).isSome then refuse
    set { notes with
      groups := notes.groups ++ [none]
      names := (name, index) :: notes.names }
  return index

/-- A group closed after its body. -/
def closeGroup (index : Nat) (body : Node) : Reading Unit :=
  modify fun notes ↦
    { notes with groups := notes.groups.set (index - 1) (some (notes.widthOf body)) }

/-- Something is repeated. -/
def noteRepeat : Reading Unit := modify fun notes ↦ { notes with repeats := true }

/-- What is read inside a look behind, and how far it looks.  One without a fixed width is refused
at the end. -/
def lookingBehind (body : Reading (Node × List Char)) :
    Reading (Nat × Node × List Char) := do
  let before := (← get).fence
  modify fun notes ↦ { notes with fence := before.getD (notes.groups.length + 1) }
  let (node, rest) ← body
  modify fun notes ↦ { notes with fence := before }
  match ((← get).widthOf node).fixed? with
  | some width =>
    if width < Nat.pow 2 32 then return (width, node, rest)
    else
      modify fun notes ↦ { notes with unfixed := true }
      return (0, node, rest)
  | none =>
    modify fun notes ↦ { notes with unfixed := true }
    return (0, node, rest)

end Reading

end Criteria.Regex

/-!
# Verdicts

What a comparison comes to.  It may hold or not, and it may come to a signalling number and find out
neither.  Of several comparisons that are made one after the other the first that settles the
matter counts, and those after it are not looked at.
-/

namespace Criteria

/-- What a comparison comes to. -/
inductive Verdict where
  | yes
  | no
  | signals
  deriving DecidableEq

namespace Verdict

/-- The verdict of a comparison that does not signal. -/
def ofBool (b : Bool) : Verdict := if b then yes else no

def isYes : Verdict → Bool
  | yes => true
  | _ => false

def all : List Verdict → Verdict
  | [] => yes
  | yes :: rest => all rest
  | v :: _ => v

def any : List Verdict → Verdict
  | [] => no
  | no :: rest => any rest
  | v :: _ => v

@[simp] theorem isYes_ofBool (b : Bool) : (ofBool b).isYes = b := by cases b <;> rfl

/-- All comparisons hold just when each of them does. -/
theorem all_eq_yes_iff {vs : List Verdict} : all vs = yes ↔ ∀ v ∈ vs, v = yes := by
  induction vs with
  | nil => simp [all]
  | cons v rest ih => cases v <;> simp [all, ih]

end Verdict

end Criteria

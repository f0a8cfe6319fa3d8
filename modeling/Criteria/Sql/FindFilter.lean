import Criteria.Compiler
import Criteria.FilterTree
import Criteria.Sql.Selection

/-!
# Finder filters

A finder asks for rows by a mapping of fields to abstract operators or to conditions that are
compiled into such operators first.  The tests of all fields are joined by AND, and a filter that
asks for nothing is always true.
-/

namespace Criteria.Sql

/-- What a finder asks of a field. -/
inductive Requirement where
  | operator (op : FindOperator)
  | condition (c : Value)

namespace Requirement

/-- The requirements of a mapping of fields to conditions. -/
def ofValue : Value → Except Fault (List (Value × Requirement))
  | .dict entries => .ok (entries.map fun e ↦ (e.1, condition e.2))
  | v => .error (.noEntries v)

/-- The requirements of a mapping that comes from adding entries one after the other. -/
def ofEntries (entries : List (Value × Requirement)) : Except Fault (List (Value × Requirement)) :=
  match Value.keyFaultOf? (entries.map (·.1)) with
  | some fault => .error fault
  | none => .ok (entries.foldl (fun done e ↦ Value.insertEntry e.1 e.2 done) [])

/-- The operator of a requirement.  A fault of a condition is reported with its field. -/
def compiled (compiler : Registry) (field : Value) : Requirement → Compiling FindOperator
  | operator op => pure op
  | condition c => fun ids ↦
    match compileFind compiler field c ids with
    | .ok op ids => .ok op ids
    | .error fault ids => .error (fault.withField field) ids

end Requirement

/-- The parts of a filter that requirements on the columns of a table make. -/
def requirementParts (compiler : Registry) (kinds : List FindKind) (table : Table) :
    List (Value × Requirement) → Compiling (List (Expression Atom))
  | [] => pure []
  | (field, requirement) :: rest => do
    let op ← requirement.compiled compiler field
    let selection ← Compiling.ofRendering (table.select field)
    let part ← Compiling.ofRendering (selection.part kinds op)
    let parts ← requirementParts compiler kinds table rest
    return part :: parts

/-- Parts joined by AND.  A part that never holds decides the whole, and those that always hold are
left out. -/
def filterExpression (parts : List (Expression Atom)) : Expression Atom :=
  if parts.any Expression.isNever then .never
  else match parts.filter fun e ↦ !e.isAlways with
    | [] => .always
    | parts => .conjunction parts

/-- The filter of a finder. -/
def findFilter (compiler : Registry) (kinds : List FindKind) (table : Table)
    (requirements : List (Value × Requirement)) : Compiling (Expression Atom) := do
  let parts ← requirementParts compiler kinds table requirements
  return filterExpression parts

end Criteria.Sql

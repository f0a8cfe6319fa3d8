/-!
# The vocabulary of conditions

The tokens that a condition may use: operators, bare sentinels, the keys that open a bracketed
group, the two ways of joining clauses, the encodings a condition compiles to and the kinds of
abstract operator.  Each type comes with the list of its members in their conventional order, the
text of a member and the upper-case label by which messages name it.
-/

namespace Criteria

/-- The operators of a condition object. -/
inductive Operator where
  | isIn | notIn
  | gte | lte | gt | lt
  | between | notBetween
  | contains | notContains | iContains | notIContains
  | startsWith | notStartsWith | endsWith | notEndsWith
  | regex | notRegex | regexi | notRegexi
  | equalTo | notEqualTo
  | jsonContains | jsonContained | jsonEquals | jsonHasKey
  deriving DecidableEq

namespace Operator

def all : List Operator :=
  [isIn, notIn, gte, lte, gt, lt, between, notBetween, contains, notContains, iContains,
   notIContains, startsWith, notStartsWith, endsWith, notEndsWith, regex, notRegex, regexi,
   notRegexi, equalTo, notEqualTo, jsonContains, jsonContained, jsonEquals, jsonHasKey]

/-- The name of an operator, as it appears in the names of bound parameters. -/
def name : Operator → String
  | isIn => "in"
  | notIn => "notIn"
  | gte => "gte"
  | lte => "lte"
  | gt => "gt"
  | lt => "lt"
  | between => "between"
  | notBetween => "notBetween"
  | contains => "contains"
  | notContains => "notContains"
  | iContains => "iContains"
  | notIContains => "notIContains"
  | startsWith => "startsWith"
  | notStartsWith => "notStartsWith"
  | endsWith => "endsWith"
  | notEndsWith => "notEndsWith"
  | regex => "regex"
  | notRegex => "notRegex"
  | regexi => "regexi"
  | notRegexi => "notRegexi"
  | equalTo => "equalTo"
  | notEqualTo => "notEqualTo"
  | jsonContains => "jsonContains"
  | jsonContained => "jsonContained"
  | jsonEquals => "jsonEquals"
  | jsonHasKey => "jsonHasKey"

/-- The token of an operator in a condition object. -/
def token (o : Operator) : String := "$" ++ o.name

/-- The label of an operator in messages. -/
def label : Operator → String
  | isIn => "IN"
  | notIn => "NOT_IN"
  | gte => "GTE"
  | lte => "LTE"
  | gt => "GT"
  | lt => "LT"
  | between => "BETWEEN"
  | notBetween => "NOT_BETWEEN"
  | contains => "CONTAINS"
  | notContains => "NOT_CONTAINS"
  | iContains => "ICONTAINS"
  | notIContains => "NOT_ICONTAINS"
  | startsWith => "STARTS_WITH"
  | notStartsWith => "NOT_STARTS_WITH"
  | endsWith => "ENDS_WITH"
  | notEndsWith => "NOT_ENDS_WITH"
  | regex => "REGEX"
  | notRegex => "NOT_REGEX"
  | regexi => "REGEXI"
  | notRegexi => "NOT_REGEXI"
  | equalTo => "EQUAL_TO"
  | notEqualTo => "NOT_EQUAL_TO"
  | jsonContains => "JSON_CONTAINS"
  | jsonContained => "JSON_CONTAINED"
  | jsonEquals => "JSON_EQUALS"
  | jsonHasKey => "JSON_HAS_KEY"

def ofToken? (s : String) : Option Operator := all.find? (·.token == s)

end Operator

/-- Bare texts with a fixed meaning. -/
inductive Sentinel where
  | isNull | isNotNull
  deriving DecidableEq

namespace Sentinel

def all : List Sentinel := [isNull, isNotNull]

/-- The text of a sentinel. -/
def token : Sentinel → String
  | isNull => "$isNull"
  | isNotNull => "$isNotNull"

def label : Sentinel → String
  | isNull => "IS_NULL"
  | isNotNull => "IS_NOT_NULL"

/-- The sentinel of a text. -/
def ofToken? (s : String) : Option Sentinel := all.find? (·.token == s)

end Sentinel

/-- The encodings that a condition compiles to: a query fragment for a query builder, or an
abstract operator for a finder. -/
inductive Target where
  | queryBuilder | find
  deriving DecidableEq

namespace Target

def all : List Target := [queryBuilder, find]

/-- The text of a target. -/
def token : Target → String
  | queryBuilder => "qb"
  | find => "find"

def label : Target → String
  | queryBuilder => "QB"
  | find => "FIND"

/-- The target of a text. -/
def ofToken? (s : String) : Option Target := all.find? (·.token == s)

end Target

/-- How a clause is joined to the clauses before it. -/
inductive Join where
  | and | or
  deriving DecidableEq

namespace Join

/-- Both joins. -/
def all : List Join := [and, or]

def keyword : Join → String
  | and => "AND"
  | or => "OR"

def ofKeyword? (s : String) : Option Join := all.find? (·.keyword == s)

/-- A join as an operation on truth values. -/
def apply : Join → Bool → Bool → Bool
  | and => (· && ·)
  | or => (· || ·)

end Join

/-- The keys of a filter tree that open a bracketed group. -/
inductive LogicalKey where
  | and | or
  deriving DecidableEq

namespace LogicalKey

/-- Both keys. -/
def all : List LogicalKey := [and, or]

/-- The text of a key. -/
def token : LogicalKey → String
  | and => "$and"
  | or => "$or"

def label : LogicalKey → String
  | and => "AND"
  | or => "OR"

/-- The join of the entries inside the group. -/
def join : LogicalKey → Join
  | and => .and
  | or => .or

/-- The key of a text. -/
def ofToken? (s : String) : Option LogicalKey := all.find? (·.token == s)

end LogicalKey

/-- The kinds of abstract operator. -/
inductive FindKind where
  | equal | isIn | moreThan | moreThanOrEqual | lessThan | lessThanOrEqual
  | between | like | ilike | isNull | not | raw
  deriving DecidableEq

namespace FindKind

def all : List FindKind :=
  [equal, isIn, moreThan, moreThanOrEqual, lessThan, lessThanOrEqual, between, like, ilike,
   isNull, not, raw]

def name : FindKind → String
  | equal => "equal"
  | isIn => "in"
  | moreThan => "moreThan"
  | moreThanOrEqual => "moreThanOrEqual"
  | lessThan => "lessThan"
  | lessThanOrEqual => "lessThanOrEqual"
  | between => "between"
  | like => "like"
  | ilike => "ilike"
  | isNull => "isNull"
  | not => "not"
  | raw => "raw"

/-- The label of a kind in messages. -/
def label : FindKind → String
  | equal => "EQUAL"
  | isIn => "IN"
  | moreThan => "MORE_THAN"
  | moreThanOrEqual => "MORE_THAN_OR_EQUAL"
  | lessThan => "LESS_THAN"
  | lessThanOrEqual => "LESS_THAN_OR_EQUAL"
  | between => "BETWEEN"
  | like => "LIKE"
  | ilike => "ILIKE"
  | isNull => "IS_NULL"
  | not => "NOT"
  | raw => "RAW"

end FindKind

/-- The four order relations. -/
inductive Comparison where
  | lt | le | gt | ge
  deriving DecidableEq

namespace Comparison

/-- The sign of a relation. -/
def symbol : Comparison → String
  | lt => "<"
  | le => "<="
  | gt => ">"
  | ge => ">="

/-- The relation that holds exactly when this one does not, in a linear order. -/
def complement : Comparison → Comparison
  | lt => ge
  | le => gt
  | gt => le
  | ge => lt

/-- Whether the relation holds between things in a given order. -/
def holds : Comparison → Ordering → Bool
  | lt, o => o == .lt
  | le, o => o != .gt
  | gt, o => o == .gt
  | ge, o => o != .lt

end Comparison

end Criteria

import MessageBus.Value.Listing

/-!
# Checked values

Checking a value either gives what it stands for or lists everything that is wrong with it. An issue
says what is wrong and where: the steps lead from the outside to the part at fault. Checks of several
parts are joined by `Checked.apply`, which keeps the issues of all of them in order.
-/

namespace MessageBus

/-- What is wrong with a part of a value. -/
inductive IssueKind where
  | missing
  | modelType
  | modelAttributesType
  | dictType
  | literalError
  | unionTagNotFound
  | unionTagInvalid
  | stringType
  | stringUnicode
  | intType
  | intParsing
  | intParsingSize
  | intFromFloat
  | finiteNumber
  | boolType
  | boolParsing
  | invalidJsonValue
  | recursionDepthExceeded
  | jsonInvalid
  | greaterThanEqual
  | lessThanEqual
  | valueError (message : Text)
deriving DecidableEq

def IssueKind.tag : IssueKind → Text
  | .missing => "missing"
  | .modelType => "model_type"
  | .modelAttributesType => "model_attributes_type"
  | .dictType => "dict_type"
  | .literalError => "literal_error"
  | .unionTagNotFound => "union_tag_not_found"
  | .unionTagInvalid => "union_tag_invalid"
  | .stringType => "string_type"
  | .stringUnicode => "string_unicode"
  | .intType => "int_type"
  | .intParsing => "int_parsing"
  | .intParsingSize => "int_parsing_size"
  | .intFromFloat => "int_from_float"
  | .finiteNumber => "finite_number"
  | .boolType => "bool_type"
  | .boolParsing => "bool_parsing"
  | .invalidJsonValue => "invalid-json-value"
  | .recursionDepthExceeded => "recursion_depth_exceeded"
  | .jsonInvalid => "json_invalid"
  | .greaterThanEqual => "greater_than_equal"
  | .lessThanEqual => "less_than_equal"
  | .valueError _ => "value_error"

/-- A step from a container to one of its parts. -/
inductive Step where
  | key (t : Text)
  | index (n : Int)
deriving DecidableEq

instance : Coe String Step := ⟨fun s => .key s⟩

/-- The step to the entry under a key: by the number of an integer of 64 bits, else by text, in which
half of a UTF-16 pair has no place. -/
def Step.ofKey : Value → Step
  | .text t => .key t.replaced
  | .int n => if -Int.pow 2 63 ≤ n ∧ n < Int.pow 2 63 then .index n else .key (Text.ofInt n)
  | .bool b => .index (if b then 1 else 0)
  | v => .key v.listed

/-- What is wrong, and with which part. -/
structure Issue where
  kind : IssueKind
  location : List Step
deriving DecidableEq

abbrev Checked (α : Type) := Except (List Issue) α

namespace Checked

variable {α β γ : Type}

def right (a : α) : Checked α := .ok a

def fail (kind : IssueKind) : Checked α := .error [⟨kind, []⟩]

/-- The check of a part, told as a check of the whole that has it behind `steps`. -/
def under (steps : List Step) : Checked α → Checked α
  | .ok a => .ok a
  | .error issues => .error (issues.map fun i => { i with location := steps ++ i.location })

/-- Two checks side by side: the issues of the first, then those of the second. -/
def apply (f : Checked (α → β)) (a : Checked α) : Checked β :=
  match f, a with
  | .ok f, .ok a => .ok (f a)
  | .ok _, .error issues => .error issues
  | .error issues, .ok _ => .error issues
  | .error first, .error second => .error (first ++ second)

def both (f : α → β → γ) (a : Checked α) (b : Checked β) : Checked γ := ((right f).apply a).apply b

end Checked

end MessageBus

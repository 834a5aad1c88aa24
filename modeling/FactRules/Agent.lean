/-!
# Agents

Agents are told apart by ids, which are numbers or names; a number and the name with its digits are
different ids.
-/

namespace FactRules

/-- The id of an agent. Hosts may take any value that can be hashed as an id; here ids are numbers
and names, so that each id is equal to itself. Ids that are not equal to themselves, like undefined
numbers, are left out. -/
inductive AgentId where
  | number (value : Int)
  | name (text : String)
deriving DecidableEq, Repr

/-- An id as it is shown. -/
def AgentId.text : AgentId → String
  | number value => toString value
  | name text => text

/-- The owner of a fact as it is shown: an agent, or nobody in particular. -/
def ownerText : Option AgentId → String
  | none => "None"
  | some agent => agent.text

end FactRules

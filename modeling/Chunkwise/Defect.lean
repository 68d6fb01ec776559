/-! What can be wrong with a grammar, as opposed to the text that is parsed. -/

namespace Chunkwise

inductive Defect where
  /-- A repetition matched without consuming anything. -/
  | infiniteLoop (rule : Option String) (offset : Nat)
  /-- Rules were nested too deeply, usually by left recursion. -/
  | recursionLimitExceeded (rule : String) (limit : Nat)
  | undefinedRule (name : String) (referencedFrom : Option String)
  /-- A rule was used before all rules of its grammar were known. -/
  | unresolvedRule (name : String)
  | duplicateRule (name : String)
  /-- A parse was asked for a rule that the parser does not have. -/
  | unknownRule (name : String)
  | invalidPattern (pattern reason : String)
  deriving DecidableEq, Repr

namespace Defect

/-- A rule's name as messages show it. -/
def ticked (name : String) : String := "`" ++ name ++ "`"

def message : Defect → String
  | .infiniteLoop rule offset =>
    let place := match rule with
      | some name => "rule " ++ ticked name
      | none => "entry rule"
    "infinite loop: repetition in " ++ place ++ " matched without consuming input at byte "
      ++ toString offset
  | .recursionLimitExceeded rule limit =>
    "recursion limit of " ++ toString limit ++ " exceeded while entering rule " ++ ticked rule
  | .undefinedRule name referencedFrom =>
    let origin := match referencedFrom with
      | some rule => " from " ++ ticked rule
      | none => ""
    "rule " ++ ticked name ++ " is referenced" ++ origin ++ " but never defined"
  | .unresolvedRule name =>
    "rule " ++ ticked name ++ " invoked before the rule table was resolved"
  | .duplicateRule name => "rule " ++ ticked name ++ " is defined more than once"
  | .unknownRule name => "unknown rule " ++ ticked name
  | .invalidPattern pattern reason =>
    "invalid token pattern " ++ ticked pattern ++ ": " ++ reason

/-- A pattern that cannot be read. -/
def unreadable (pattern : String) : Defect := .invalidPattern pattern "error parsing pattern 0"

end Defect

end Chunkwise

import TemplateMessages.Files.Tree

set_option autoImplicit false

/-!
# Outcome of a command
-/

namespace TemplateMessages.Command

open TemplateMessages.Files (Tree)

inductive Status where
  | success
  | failure
  | error
  deriving DecidableEq, Repr, Inhabited

def Status.code : Status → Nat
  | success => 0
  | failure => 1
  | error => 2

structure Outcome where
  status : Status
  output : String
  messages : String
  tree : Tree
  deriving Repr, Inhabited

/-- Lines, each with its line break. -/
def lines (texts : List String) : String :=
  String.join (texts.map (· ++ "\n"))

end TemplateMessages.Command

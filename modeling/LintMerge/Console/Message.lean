/-
# Messages to the user

A message may have a symbol for its kind in front (`info`, `ok`, `warn`, `fail`). It ends its
line.
-/

import LintMerge.Console.Line

namespace LintMerge
namespace Console

/-- The kind of a message. -/
inductive MessageKind where
  | info
  | success
  | warning
  | failure
  deriving DecidableEq, Repr

/-- The symbol of a kind. -/
def MessageKind.symbol : MessageKind → String
  | info => "ℹ️ "
  | success => "✅ "
  | warning => "⚠️ "
  | failure => "❌ "

/-- A message as it is written. -/
def message (kind : MessageKind) (withSymbol : Bool) (text : String) : String :=
  let start := if withSymbol then kind.symbol else ""
  String.ofList (shown (start ++ text).toList ++ ['\n'])

end Console
end LintMerge
